import TestBoard.Capture
import TestBoard.Report

/-!
# The controller and the capture thread

`PCBEmulator.wait_for_completion` starts the capture thread and waits on `test_complete`
with a deadline. `run` then calls `parse_results` if the wait returned `True`, and returns 1
otherwise. `emulationStep` runs one step of either thread. The controller's steps are
`start`, `wake` (the wait returns `True`, possible only once the flag is set), `expire`
(the deadline passes, possible at any moment of the wait, even as the flag is set) and
`finish` (`parse_results` returns). An interleaving is any list of steps (`runActs`).

`Inv` holds in every reachable state (`runActs_inv`). Once the flag is set, the thread has
appended its last byte and only leaves. The flag is set only when `uart_data` ends with the
marker. The controller parses only the bytes in `uart_data` while the flag is set.
`parseResults_after_last_append` : whenever `parse_results` runs, the flag is set, the
thread is past its last append, the buffer ends with the marker, and no later step of either
thread changes the buffer.

`Reads` : the thread has read a prefix of QEMU's output into `uart_data`, with no marker
ending before its end. It holds along every interleaving too (`runActs_reads`), so
`run_exit_first_marker` : whatever the interleaving, `run` returns 1 after a timeout, and
otherwise the verdict of `parse_results` on the shortest prefix of the output that ends with
the marker.
-/

namespace TestBoard

/-- Where the controller is in `wait_for_completion` and `run`. -/
inductive Control
  /-- `capture_thread.start()` is next. -/
  | starting
  /-- `self.test_complete.wait(timeout=self.timeout)` -/
  | waiting
  /-- Inside `parse_results`, which began on the buffer `data`. -/
  | parsing (data : Bytes)
  /-- `parse_results` returned the results of `data`, and `run` returns from them. -/
  | reported (data : Bytes)
  /-- The wait returned `False`, and `run` returned 1. -/
  | timedOut
  deriving DecidableEq, Repr

/-- The controller, and the capture thread with the objects the two share. -/
structure Emulation where
  capture : Capture
  control : Control
  deriving DecidableEq, Repr

/-- `wait_for_completion` about to start the thread, QEMU's output being `s`. -/
def Emulation.init (s : Bytes) : Emulation :=
  ⟨⟨.unstarted, s, [], false, 0⟩, .starting⟩

/-- A step of one of the two threads. -/
inductive Act
  | capture
  | start
  | wake
  | expire
  | finish
  deriving DecidableEq, Repr

/-- One step, or `none` when the acting thread cannot take it. -/
def emulationStep (e : Emulation) : Act → Option Emulation
  | .capture => (captureStep e.capture).map fun c => { e with capture := c }
  | .start =>
    match e.control, e.capture.pc with
    | .starting, .unstarted => some ⟨{ e.capture with pc := .loop }, .waiting⟩
    | _, _ => none
  | .wake =>
    match e.control with
    | .waiting =>
      if e.capture.testComplete then some { e with control := .parsing e.capture.uartData }
      else none
    | _ => none
  | .expire =>
    match e.control with
    | .waiting => some { e with control := .timedOut }
    | _ => none
  | .finish =>
    match e.control with
    | .parsing _ => some { e with control := .reported e.capture.uartData }
    | _ => none

/-- The steps of an interleaving, one after another. -/
def runActs (e : Emulation) : List Act → Option Emulation
  | [] => some e
  | a :: acts => (emulationStep e a).bind fun e' => runActs e' acts

/-- What `run` returns once the controller is done. -/
def Control.exitCode : Control → Option Nat
  | .reported data => some (run true true (some data))
  | .timedOut => some (run true true none)
  | _ => none

/-! ## The capture thread past its last append -/

/-- The thread has set the flag and only leaves. -/
def Capture.Done (c : Capture) : Prop :=
  c.pc = .leaving ∨ c.pc = .exited

/-- What the thread keeps true on its own. -/
def CaptureInv (c : Capture) : Prop :=
  (c.testComplete = true → c.Done) ∧ (c.pc = .found → endMarker <:+ c.uartData) ∧
    (c.testComplete = true → endMarker <:+ c.uartData)

theorem captureStep_done {c c' : Capture} (hd : c.Done) (h : captureStep c = some c') :
    c'.uartData = c.uartData ∧ c'.testComplete = c.testComplete ∧ c'.Done := by
  rcases hd with hpc | hpc <;> simp only [captureStep, hpc, reduceCtorEq, Option.some.injEq] at h
  subst h
  exact ⟨rfl, rfl, .inr rfl⟩

theorem captureStep_inv {c c' : Capture} (hi : CaptureInv c) (h : captureStep c = some c') :
    CaptureInv c' := by
  obtain ⟨h1, h2, h3⟩ := hi
  cases hpc : c.pc <;> simp only [captureStep, hpc, reduceCtorEq, Option.some.injEq] at h
  case reading =>
    cases hs : c.stream <;> simp only [hs, Option.some.injEq] at h <;> subst h <;>
      simp_all [CaptureInv, Capture.Done]
  case loop =>
    subst h
    refine ⟨fun hf => ?_, fun hp => ?_, h3⟩
    · simp only at hf ⊢
      simp [Capture.Done, hf]
    · simp only at hp
      split_ifs at hp
  case appended =>
    subst h
    refine ⟨fun hf => absurd (h1 hf) (by simp [Capture.Done, hpc]), fun hp => ?_, h3⟩
    simp only at hp ⊢
    split_ifs at hp with hm
    exact hm
  all_goals subst h; simp_all [CaptureInv, Capture.Done]

/-! ## The invariant of every interleaving -/

/-- The invariant of the two threads. -/
def Inv (e : Emulation) : Prop :=
  CaptureInv e.capture ∧
    (e.control = .starting → e.capture.pc = .unstarted ∧ e.capture.testComplete = false) ∧
    ∀ d, (e.control = .parsing d ∨ e.control = .reported d) →
      e.capture.testComplete = true ∧ e.capture.uartData = d

theorem inv_init (s : Bytes) : Inv (Emulation.init s) := by
  simp [Inv, CaptureInv, Emulation.init]

/-! What each step of the controller can do. -/

theorem emulationStep_start {e e' : Emulation} (h : emulationStep e .start = some e') :
    e.control = .starting ∧ e.capture.pc = .unstarted ∧
      e' = ⟨{ e.capture with pc := .loop }, .waiting⟩ := by
  simp only [emulationStep] at h
  split at h
  · exact ⟨‹_›, ‹_›, (Option.some.inj h).symm⟩
  · cases h

theorem emulationStep_wake {e e' : Emulation} (h : emulationStep e .wake = some e') :
    e.control = .waiting ∧ e.capture.testComplete = true ∧
      e' = { e with control := .parsing e.capture.uartData } := by
  simp only [emulationStep] at h
  split at h
  · split_ifs at h with hf
    exact ⟨‹_›, hf, (Option.some.inj h).symm⟩
  · cases h

theorem emulationStep_expire {e e' : Emulation} (h : emulationStep e .expire = some e') :
    e.control = .waiting ∧ e' = { e with control := .timedOut } := by
  simp only [emulationStep] at h
  split at h
  · exact ⟨‹_›, (Option.some.inj h).symm⟩
  · cases h

theorem emulationStep_finish {e e' : Emulation} (h : emulationStep e .finish = some e') :
    ∃ d, e.control = .parsing d ∧ e' = { e with control := .reported e.capture.uartData } := by
  simp only [emulationStep] at h
  split at h
  · exact ⟨_, ‹_›, (Option.some.inj h).symm⟩
  · cases h

theorem emulationStep_inv {e e' : Emulation} {a : Act} (hi : Inv e)
    (h : emulationStep e a = some e') : Inv e' := by
  obtain ⟨hc, hs, hp⟩ := hi
  cases a with
  | capture =>
    obtain ⟨c', hc', rfl⟩ := Option.map_eq_some'.mp h
    refine ⟨captureStep_inv hc hc', fun h0 => ?_, fun d hd => ?_⟩
    · simp [captureStep, (hs h0).1] at hc'
    · obtain ⟨hf, hu⟩ := hp d hd
      obtain ⟨hu', hf', -⟩ := captureStep_done (hc.1 hf) hc'
      exact ⟨hf'.trans hf, hu'.trans hu⟩
  | start =>
    obtain ⟨h0, -, rfl⟩ := emulationStep_start h
    simp [Inv, CaptureInv, (hs h0).2]
  | wake =>
    obtain ⟨-, hf, rfl⟩ := emulationStep_wake h
    refine ⟨hc, by simp, fun d hd => ?_⟩
    simp only [Control.parsing.injEq, reduceCtorEq, or_false] at hd
    exact ⟨hf, hd⟩
  | expire =>
    obtain ⟨-, rfl⟩ := emulationStep_expire h
    exact ⟨hc, by simp, by simp⟩
  | finish =>
    obtain ⟨d₀, h0, rfl⟩ := emulationStep_finish h
    refine ⟨hc, by simp, fun d hd => ?_⟩
    simp only [Control.reported.injEq, reduceCtorEq, false_or] at hd
    exact ⟨(hp d₀ (.inl h0)).1, hd⟩

theorem runActs_inv {e e' : Emulation} {acts : List Act} (hi : Inv e)
    (h : runActs e acts = some e') : Inv e' := by
  induction acts generalizing e with
  | nil => cases h; exact hi
  | cons a acts ih =>
    obtain ⟨e₁, h₁, h₂⟩ := Option.bind_eq_some.mp h
    exact ih (emulationStep_inv hi h₁) h₂

/-- From parsing `d` on, the controller only reports `d`. -/
theorem runActs_parsing {e e' : Emulation} {acts : List Act} {d : Bytes} (hi : Inv e)
    (hc : e.control = .parsing d ∨ e.control = .reported d) (h : runActs e acts = some e') :
    e'.control = .parsing d ∨ e'.control = .reported d := by
  induction acts generalizing e with
  | nil => cases h; exact hc
  | cons a acts ih =>
    obtain ⟨e₁, h₁, h₂⟩ := Option.bind_eq_some.mp h
    refine ih (emulationStep_inv hi h₁) ?_ h₂
    cases a with
    | capture =>
      obtain ⟨c', -, rfl⟩ := Option.map_eq_some'.mp h₁
      exact hc
    | start =>
      obtain ⟨h0, -⟩ := emulationStep_start h₁
      rcases hc with hc | hc <;> simp [hc] at h0
    | wake =>
      obtain ⟨h0, -⟩ := emulationStep_wake h₁
      rcases hc with hc | hc <;> simp [hc] at h0
    | expire =>
      obtain ⟨h0, -⟩ := emulationStep_expire h₁
      rcases hc with hc | hc <;> simp [hc] at h0
    | finish =>
      obtain ⟨d₀, -, rfl⟩ := emulationStep_finish h₁
      exact .inr (by rw [(hi.2.2 d hc).2])

/-- Whenever `parse_results` runs on `d`: the flag is set, the capture thread is past its
last append, `d` ends with the marker and is `uart_data`, and no step of any later
interleaving changes `uart_data`. -/
theorem parseResults_after_last_append (s : Bytes) (acts : List Act) (e : Emulation) (d : Bytes)
    (he : runActs (Emulation.init s) acts = some e) (hp : e.control = .parsing d) :
    e.capture.testComplete = true ∧ e.capture.Done ∧ endMarker <:+ d ∧ e.capture.uartData = d ∧
      ∀ acts' e', runActs e acts' = some e' → e'.capture.uartData = d := by
  have hi := runActs_inv (inv_init s) he
  obtain ⟨hf, hu⟩ := hi.2.2 d (.inl hp)
  refine ⟨hf, hi.1.1 hf, hu ▸ hi.1.2.2 hf, hu, fun acts' e' h' => ?_⟩
  exact ((runActs_inv hi h').2.2 d (runActs_parsing hi (.inl hp) h')).2

/-- QEMU writes the marker alone: the thread reads it byte by byte and sets the flag, and the
controller wakes and parses it. -/
theorem parseResults_after_marker_only :
    runActs (Emulation.init endMarker) (.start :: List.replicate 33 .capture ++ [.wake]) =
        some ⟨⟨.leaving, [], endMarker, true, 1⟩, .parsing endMarker⟩ ∧
      (⟨⟨.leaving, [], endMarker, true, 1⟩, .parsing endMarker⟩ : Emulation).control =
        .parsing endMarker ∧
      (⟨.leaving, [], endMarker, true, 1⟩ : Capture).Done ∧ endMarker <:+ endMarker := by
  have he : runActs (Emulation.init endMarker) (.start :: List.replicate 33 .capture ++ [.wake]) =
      some ⟨⟨.leaving, [], endMarker, true, 1⟩, .parsing endMarker⟩ := rfl
  obtain ⟨-, hd, hm, -, -⟩ := parseResults_after_last_append endMarker _ _ endMarker he rfl
  exact ⟨he, rfl, hd, hm⟩

/-! ## What `parse_results` reads -/

/-- The byte the thread has read and not yet appended. -/
def Capture.pending (c : Capture) : Bytes :=
  match c.pc with
  | .got b => [b]
  | _ => []

/-- The thread has read a prefix of QEMU's output `s` into `uart_data`, no shorter prefix of
`uart_data` ends with the marker, and `uart_data` does not end with it while the thread
still reads. -/
def Reads (s : Bytes) (c : Capture) : Prop :=
  c.uartData ++ c.pending ++ c.stream = s ∧
    (∀ q, q <+: c.uartData → endMarker <:+ q → q = c.uartData) ∧
    (c.pc = .unstarted ∨ c.pc = .loop ∨ c.pc = .reading ∨ c.pending ≠ [] →
      ¬endMarker <:+ c.uartData)

theorem reads_init (s : Bytes) : Reads s (Emulation.init s).capture := by
  refine ⟨rfl, fun q hq _ => List.prefix_nil.mp hq, fun _ h => ?_⟩
  simp [Emulation.init, endMarker] at h

theorem captureStep_reads {s : Bytes} {c c' : Capture} (hr : Reads s c)
    (h : captureStep c = some c') : Reads s c' := by
  obtain ⟨hs, hfirst, hlive⟩ := hr
  cases hpc : c.pc <;> simp only [captureStep, hpc, reduceCtorEq, Option.some.injEq] at h <;>
    simp only [Capture.pending, hpc, List.append_nil] at hs
  case loop =>
    subst h
    refine ⟨?_, hfirst, fun _ => hlive (by simp [hpc])⟩
    split_ifs <;> simpa [Capture.pending] using hs
  case reading =>
    cases hst : c.stream <;> simp only [hst, Option.some.injEq] at h <;> subst h
    · exact ⟨by simpa [Capture.pending, hst] using hs, hfirst, by simp [Capture.pending]⟩
    · exact ⟨by simpa [Capture.pending, hst] using hs, hfirst, fun _ => hlive (by simp [hpc])⟩
  case got b =>
    subst h
    refine ⟨by simpa [Capture.pending] using hs, fun q hq hm => ?_, by simp [Capture.pending]⟩
    rcases List.prefix_concat_iff.mp hq with rfl | hq
    · rfl
    · exact absurd (hfirst q hq hm ▸ hm) (hlive (by simp [Capture.pending, hpc]))
  case appended =>
    subst h
    refine ⟨?_, hfirst, fun h => ?_⟩
    · split_ifs <;> simpa [Capture.pending] using hs
    · split_ifs at h ⊢ with hm
      · simp [Capture.pending] at h
      · exact hm
  all_goals
    subst h
    exact ⟨by simpa [Capture.pending] using hs, hfirst, by simp [Capture.pending]⟩

theorem emulationStep_reads {s : Bytes} {e e' : Emulation} {a : Act} (hr : Reads s e.capture)
    (h : emulationStep e a = some e') : Reads s e'.capture := by
  cases a with
  | capture =>
    obtain ⟨c', hc', rfl⟩ := Option.map_eq_some'.mp h
    exact captureStep_reads hr hc'
  | start =>
    obtain ⟨-, hpc, rfl⟩ := emulationStep_start h
    exact ⟨by simpa [Capture.pending, hpc] using hr.1, hr.2.1, fun _ => hr.2.2 (.inl hpc)⟩
  | wake =>
    obtain ⟨-, -, rfl⟩ := emulationStep_wake h
    exact hr
  | expire =>
    obtain ⟨-, rfl⟩ := emulationStep_expire h
    exact hr
  | finish =>
    obtain ⟨-, -, rfl⟩ := emulationStep_finish h
    exact hr

theorem runActs_reads {s : Bytes} {e e' : Emulation} {acts : List Act} (hr : Reads s e.capture)
    (h : runActs e acts = some e') : Reads s e'.capture := by
  induction acts generalizing e with
  | nil => cases h; exact hr
  | cons a acts ih =>
    obtain ⟨e₁, h₁, h₂⟩ := Option.bind_eq_some.mp h
    exact ih (emulationStep_reads hr h₁) h₂

/-- Once the thread has set the flag, `uart_data` is the shortest prefix of the output that
ends with the marker. -/
theorem reads_firstMarkerPrefix {s : Bytes} {c : Capture} (hr : Reads s c) (hi : CaptureInv c)
    (hf : c.testComplete = true) : FirstMarkerPrefix c.uartData s := by
  obtain ⟨hs, hfirst, -⟩ := hr
  have hpend : c.pending = [] := by
    rcases hi.1 hf with hpc | hpc <;> simp [Capture.pending, hpc]
  have hpre : c.uartData <+: s := ⟨c.stream, by simpa [hpend] using hs⟩
  refine ⟨hpre, hi.2.2 hf, fun q hq hm => ?_⟩
  rcases List.prefix_or_prefix_of_prefix hq hpre with h | h
  · exact (congrArg List.length (hfirst q h hm)).ge
  · exact h.length_le

/-- Whatever the interleaving, once the controller is done, `run` returns 1 after a timeout,
and otherwise the verdict of `parse_results` on the shortest prefix of QEMU's output that
ends with the marker. -/
theorem run_exit_first_marker (s : Bytes) (acts : List Act) (e : Emulation) (n : Nat)
    (he : runActs (Emulation.init s) acts = some e) (hx : e.control.exitCode = some n) :
    (e.control = .timedOut ∧ n = 1) ∨
      ∃ d, e.control = .reported d ∧ FirstMarkerPrefix d s ∧ n = run true true (some d) := by
  have hi := runActs_inv (inv_init s) he
  have hr := runActs_reads (reads_init s) he
  cases hc : e.control with
  | timedOut => simp only [hc, Control.exitCode, Option.some.injEq] at hx; exact .inl ⟨rfl, hx.symm⟩
  | reported d =>
    simp only [hc, Control.exitCode, Option.some.injEq] at hx
    obtain ⟨hf, hu⟩ := hi.2.2 d (.inr hc)
    exact .inr ⟨d, rfl, hu ▸ reads_firstMarkerPrefix hr hi.1 hf, hx.symm⟩
  | _ => simp [hc, Control.exitCode] at hx

/-- QEMU writes the marker alone: the controller reports it and `run` returns 0. -/
theorem run_exit_marker_only :
    runActs (Emulation.init endMarker) (.start :: List.replicate 33 .capture ++ [.wake, .finish]) =
        some ⟨⟨.leaving, [], endMarker, true, 1⟩, .reported endMarker⟩ ∧
      Control.exitCode (.reported endMarker) = some 0 ∧
      ((Control.reported endMarker = .timedOut ∧ 0 = 1) ∨
        ∃ d, Control.reported endMarker = .reported d ∧ FirstMarkerPrefix d endMarker ∧
          0 = run true true (some d)) := by
  have he : runActs (Emulation.init endMarker)
      (.start :: List.replicate 33 .capture ++ [.wake, .finish]) =
        some ⟨⟨.leaving, [], endMarker, true, 1⟩, .reported endMarker⟩ := rfl
  have hx : Control.exitCode (.reported endMarker) = some 0 := by decide
  exact ⟨he, hx, run_exit_first_marker endMarker _ _ 0 he hx⟩

end TestBoard
