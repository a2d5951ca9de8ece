import TestBoard.Bytes

/-!
# The capture thread

`captureStep` is one step of `PCBEmulator.capture_uart`. The steps are the loop test, a
one-byte read from QEMU's pipe, the append to `self.uart_data`, the `endswith` test,
`test_complete.set()` and the `break` out. The thread shares `uart_data` and `test_complete`
with the controller, so `Capture` holds them with the thread's program point. `setCalls`
counts the calls to `set()`.

`captureLoop` is the same loop read one iteration per byte, and `runCapture_start` : the
steps reach it. `captureLoop_first_marker` : the loop stops with the shortest prefix of the
stream that ends with the marker and one `set()`, or reads the whole stream and sets
nothing. `captureUart_stops_at_first_marker` is the two put together.
-/

namespace TestBoard

/-- Where the capture thread is in `capture_uart`. -/
inductive CapturePc
  /-- The thread is not started yet. -/
  | unstarted
  /-- `while not self.test_complete.is_set():` -/
  | loop
  /-- `data = self.qemu_process.stdout.read(1)` and `if not data: break` -/
  | reading
  /-- `self.uart_data.extend(data)` with the byte read -/
  | got (b : Byte)
  /-- `if self.uart_data.endswith(END_MARKER):` -/
  | appended
  /-- `self.test_complete.set()` -/
  | found
  /-- `break` after the flag is set -/
  | leaving
  /-- The function has returned. -/
  | exited
  deriving DecidableEq, Repr

/-- The capture thread and the objects it works on: QEMU's unread output, `self.uart_data`,
`self.test_complete`, and the number of `set()` calls so far. -/
structure Capture where
  pc : CapturePc
  stream : Bytes
  uartData : Bytes
  testComplete : Bool
  setCalls : Nat
  deriving DecidableEq, Repr

/-- `capture_uart` called on QEMU's output `s`, with `uart_data` and the flag as `__init__`
leaves them. -/
def Capture.start (s : Bytes) : Capture := ⟨.loop, s, [], false, 0⟩

/-- One step of the thread, or `none` when it has not started or has returned. -/
def captureStep (c : Capture) : Option Capture :=
  match c.pc with
  | .unstarted => none
  | .loop => some { c with pc := if c.testComplete then .exited else .reading }
  | .reading =>
    match c.stream with
    | [] => some { c with pc := .exited }
    | b :: rest => some { c with pc := .got b, stream := rest }
  | .got b => some { c with pc := .appended, uartData := c.uartData ++ [b] }
  | .appended => some { c with pc := if endMarker <:+ c.uartData then .found else .loop }
  | .found => some { c with pc := .leaving, testComplete := true, setCalls := c.setCalls + 1 }
  | .leaving => some { c with pc := .exited }
  | .exited => none

/-- At most `n` steps of the thread alone. -/
def runCapture : Nat → Capture → Capture
  | 0, c => c
  | n + 1, c =>
    match captureStep c with
    | some c' => runCapture n c'
    | none => c

theorem runCapture_succ {n : Nat} {c c' : Capture} (h : captureStep c = some c') :
    runCapture (n + 1) c = runCapture n c' := by
  simp [runCapture, h]

theorem runCapture_stop {c : Capture} (h : captureStep c = none) (n : Nat) :
    runCapture n c = c := by
  cases n <;> simp [runCapture, h]

theorem runCapture_add (m n : Nat) (c : Capture) :
    runCapture (m + n) c = runCapture n (runCapture m c) := by
  induction m generalizing c with
  | zero => rw [Nat.zero_add]; rfl
  | succ m ih =>
    cases h : captureStep c with
    | none => simp [runCapture_stop h]
    | some c' => rw [Nat.add_right_comm, runCapture_succ h, runCapture_succ h, ih]

/-! ## One iteration per byte -/

/-- The loop of `capture_uart` one iteration per byte, from the loop head with `uart_data`
equal to `u` and the flag clear: where the thread returns. -/
def captureLoop (u : Bytes) : Bytes → Capture
  | [] => ⟨.exited, [], u, false, 0⟩
  | b :: rest =>
    if endMarker <:+ u ++ [b] then ⟨.exited, rest, u ++ [b], true, 1⟩
    else captureLoop (u ++ [b]) rest

/-- The steps of the thread reach the loop's result. -/
theorem runCapture_loop (u s : Bytes) :
    ∃ n, runCapture n ⟨.loop, s, u, false, 0⟩ = captureLoop u s := by
  induction s generalizing u with
  | nil => exact ⟨2, rfl⟩
  | cons b rest ih =>
    by_cases hm : endMarker <:+ u ++ [b]
    · refine ⟨6, ?_⟩
      simp [runCapture, captureStep, captureLoop, hm]
    · obtain ⟨n, hn⟩ := ih (u ++ [b])
      refine ⟨4 + n, ?_⟩
      rw [runCapture_add]
      simpa [runCapture, captureStep, captureLoop, hm] using hn

theorem runCapture_start (s : Bytes) : ∃ n, runCapture n (Capture.start s) = captureLoop [] s :=
  runCapture_loop [] s

/-- No prefix of `u` ends with the marker. -/
def NoMarkerPrefix (u : Bytes) : Prop :=
  ∀ q, q <+: u → ¬endMarker <:+ q

theorem noMarkerPrefix_nil : NoMarkerPrefix [] := fun q hq hm => by
  obtain rfl := List.prefix_nil.mp hq
  simp [endMarker] at hm

theorem noMarkerPrefix_concat {u : Bytes} {b : Byte} (hu : NoMarkerPrefix u)
    (hb : ¬endMarker <:+ u ++ [b]) : NoMarkerPrefix (u ++ [b]) := by
  intro q hq
  rcases List.prefix_concat_iff.mp hq with rfl | hq
  · exact hb
  · exact hu q hq

theorem infix_iff_exists_prefix {s : Bytes} :
    endMarker <:+: s ↔ ∃ q, q <+: s ∧ endMarker <:+ q := by
  constructor
  · rintro ⟨A, B, rfl⟩
    exact ⟨A ++ endMarker, List.prefix_append _ _, List.suffix_append _ _⟩
  · rintro ⟨q, hq, hm⟩
    exact hm.isInfix.trans hq.isInfix

/-- The loop stops at the first marker with one `set()`, or reads everything and sets
nothing. -/
theorem captureLoop_first_marker (u s : Bytes) (hu : NoMarkerPrefix u) :
    (captureLoop u s).pc = .exited ∧
      (endMarker <:+: u ++ s →
        FirstMarkerPrefix (captureLoop u s).uartData (u ++ s) ∧
          (captureLoop u s).testComplete = true ∧ (captureLoop u s).setCalls = 1) ∧
      (¬endMarker <:+: u ++ s →
        (captureLoop u s).uartData = u ++ s ∧ (captureLoop u s).stream = [] ∧
          (captureLoop u s).testComplete = false ∧ (captureLoop u s).setCalls = 0) := by
  induction s generalizing u with
  | nil =>
    refine ⟨rfl, fun h => ?_, fun _ => by simp [captureLoop]⟩
    obtain ⟨q, hq, hm⟩ := infix_iff_exists_prefix.mp (by simpa using h)
    exact absurd hm (hu q hq)
  | cons b rest ih =>
    by_cases hm : endMarker <:+ u ++ [b]
    · have hpre : u ++ [b] <+: u ++ b :: rest := ⟨rest, by simp⟩
      have hfirst : FirstMarkerPrefix (u ++ [b]) (u ++ b :: rest) := by
        refine ⟨hpre, hm, fun q hq hqm => ?_⟩
        rcases List.prefix_or_prefix_of_prefix hq hpre with h | h
        · rcases List.prefix_concat_iff.mp h with rfl | h
          · exact le_rfl
          · exact absurd hqm (hu q h)
        · exact h.length_le
      rw [captureLoop, if_pos hm]
      exact ⟨rfl, fun _ => ⟨hfirst, rfl, rfl⟩,
        fun h => absurd (hm.isInfix.trans hfirst.1.isInfix) h⟩
    · simp only [captureLoop, if_neg hm]
      simpa using ih (u ++ [b]) (noMarkerPrefix_concat hu hm)

/-- `capture_uart` on a stream `s`: the thread returns, and it has set `test_complete` exactly
once with `uart_data` the shortest prefix of `s` ending with the marker when the marker
occurs in `s`, and otherwise has read all of `s` into `uart_data` and never set the flag. -/
theorem captureUart_stops_at_first_marker (s : Bytes) :
    ∃ n c, runCapture n (Capture.start s) = c ∧ c.pc = .exited ∧
      (endMarker <:+: s → FirstMarkerPrefix c.uartData s ∧ c.testComplete = true ∧ c.setCalls = 1) ∧
      (¬endMarker <:+: s → c.uartData = s ∧ c.stream = [] ∧ c.testComplete = false ∧
        c.setCalls = 0) := by
  obtain ⟨n, hn⟩ := runCapture_start s
  refine ⟨n, _, hn, ?_⟩
  simpa using captureLoop_first_marker [] s noMarkerPrefix_nil

end TestBoard
