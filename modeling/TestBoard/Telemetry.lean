import TestBoard.Utf8

/-!
# The telemetry decoder

`parseResults` is `PCBEmulator.parse_results` of the emulation runner. Its `while` loop reads
the buffer from `offset`. The model's `scanLoop` reads the unread bytes `data[offset:]`, so
the guard `offset < len(data) - 3` holds when four or more bytes are left. A byte outside
100..105 is skipped. Otherwise a big-endian length is read, and the loop stops if the
payload would run past the buffer. If the payload fits, `applyCommand` folds it into the
results and the loop jumps over it.

The loop consumes at least a byte per iteration, so `len(data)` iterations are enough
(`scanLoop_fuel`). `scan` is the loop with enough fuel. Its equations (`scan_short`,
`scan_skip`, `scan_overrun`, `scan_frame`) are all later proofs use. Over a telemetry frame
they give `scan_noise` and `scan_encode`: the scanner passes over bytes that are no command
code, and takes a frame whole when a byte follows its header.
-/

namespace TestBoard

/-! ## Results -/

/-- `CMD_TEST_SUITE_START` -/
def cmdTestSuiteStart : Nat := 100
/-- `CMD_TEST_START` -/
def cmdTestStart : Nat := 101
/-- `CMD_TEST_PASS` -/
def cmdTestPass : Nat := 102
/-- `CMD_TEST_FAIL` -/
def cmdTestFail : Nat := 103
/-- `CMD_TEST_SKIP` -/
def cmdTestSkip : Nat := 104
/-- `CMD_TEST_SUITE_END` -/
def cmdTestSuiteEnd : Nat := 105

/-- An entry of `results["tests"]`: a dict whose keys depend on its status. -/
inductive TestRecord
  | pass (num duration : Nat)
  | fail (num : Nat) (error : String)
  | skip (num : Nat) (reason : String)
  deriving DecidableEq, Repr

/-- The `results` dict of `parse_results`. -/
structure Results where
  suiteName : String
  total : Nat
  passed : Nat
  failed : Nat
  skipped : Nat
  tests : List TestRecord
  deriving DecidableEq, Repr

/-- `results` before the loop. -/
def Results.empty : Results := ⟨"", 0, 0, 0, 0, []⟩

/-- `(payload[0] << 8) | payload[1] if len(payload) >= 2 else 0` -/
def num16 : Bytes → Nat
  | p0 :: p1 :: _ => be16 p0 p1
  | _ => 0

/-- `(payload[2] << 24) | (payload[3] << 16) | (payload[4] << 8) | payload[5]
if len(payload) >= 6 else 0` -/
def duration32 : Bytes → Nat
  | _ :: _ :: p2 :: p3 :: p4 :: p5 :: _ =>
    p2.val * 2 ^ 24 + p3.val * 2 ^ 16 + p4.val * 2 ^ 8 + p5.val
  | _ => 0

/-- `payload[2:].decode("utf-8", errors="replace") if len(payload) > 2 else ""` -/
def text (payload : Bytes) : String :=
  if payload.length > 2 then decode .replace (payload.drop 2) else ""

/-- The `if cmd == ...` chain of the loop body on one payload. -/
def applyCommand (cmd : Nat) (payload : Bytes) (r : Results) : Results :=
  if cmd = cmdTestSuiteStart then { r with suiteName := text payload, total := num16 payload }
  else if cmd = cmdTestStart then r
  else if cmd = cmdTestPass then
    { r with passed := r.passed + 1,
             tests := r.tests ++ [.pass (num16 payload) (duration32 payload)] }
  else if cmd = cmdTestFail then
    { r with failed := r.failed + 1, tests := r.tests ++ [.fail (num16 payload) (text payload)] }
  else if cmd = cmdTestSkip then
    { r with skipped := r.skipped + 1, tests := r.tests ++ [.skip (num16 payload) (text payload)] }
  else if cmd = cmdTestSuiteEnd then
    match payload with
    | p0 :: p1 :: p2 :: p3 :: p4 :: p5 :: _ =>
      { r with total := be16 p0 p1, passed := be16 p2 p3, failed := be16 p4 p5 }
    | _ => r
  else r

theorem applyCommand_testPass (payload : Bytes) (r : Results) :
    applyCommand cmdTestPass payload r =
      { r with passed := r.passed + 1,
               tests := r.tests ++ [.pass (num16 payload) (duration32 payload)] } := rfl

theorem applyCommand_testFail (payload : Bytes) (r : Results) :
    applyCommand cmdTestFail payload r =
      { r with failed := r.failed + 1,
               tests := r.tests ++ [.fail (num16 payload) (text payload)] } := rfl

theorem applyCommand_testSkip (payload : Bytes) (r : Results) :
    applyCommand cmdTestSkip payload r =
      { r with skipped := r.skipped + 1,
               tests := r.tests ++ [.skip (num16 payload) (text payload)] } := rfl

/-! ## The scan loop -/

/-- The `while` loop of `parse_results` on the unread bytes `data[offset:]`, for at most
`fuel` iterations. -/
def scanLoop : Nat → Bytes → Results → Results
  | fuel + 1, cmd :: hi :: lo :: b :: rest, r =>
    if cmd.val < 100 ∨ cmd.val > 105 then scanLoop fuel (hi :: lo :: b :: rest) r
    else if be16 hi lo > (b :: rest).length then r
    else scanLoop fuel ((b :: rest).drop (be16 hi lo))
      (applyCommand cmd.val ((b :: rest).take (be16 hi lo)) r)
  | _, _, r => r

/-- `parse_results` on `self.uart_data`. -/
def parseResults (data : Bytes) : Results :=
  scanLoop data.length data Results.empty

/-- Any fuel that covers the bytes left gives the same run. -/
theorem scanLoop_fuel {m n : Nat} {data : Bytes} (hm : data.length ≤ m) (hn : data.length ≤ n)
    (r : Results) : scanLoop m data r = scanLoop n data r := by
  induction m generalizing n data r with
  | zero =>
    obtain rfl : data = [] := List.eq_nil_of_length_eq_zero (by omega)
    cases n <;> rfl
  | succ m ih =>
    match data, n, hm, hn with
    | cmd :: hi :: lo :: b :: rest, n + 1, hm, hn =>
      simp only [List.length_cons] at hm hn
      simp only [scanLoop]
      split_ifs
      · exact ih (by simp only [List.length_cons]; omega) (by simp only [List.length_cons]; omega) r
      · rfl
      · exact ih (by simp only [List.length_drop, List.length_cons]; omega)
          (by simp only [List.length_drop, List.length_cons]; omega) _
    | [], _, _, _ | [_], _, _, _ | [_, _], _, _, _ | [_, _, _], _, _, _ => simp [scanLoop]
    | _ :: _ :: _ :: _ :: _, 0, _, hn => simp at hn

/-- The loop from the unread bytes `data`, with enough fuel. -/
def scan (data : Bytes) (r : Results) : Results :=
  scanLoop data.length data r

theorem parseResults_eq_scan (data : Bytes) : parseResults data = scan data Results.empty := rfl

/-! ## Equations of the loop -/

/-- No byte of `n` is a command code. -/
def NoCode (n : Bytes) : Prop :=
  ∀ b ∈ n, b.val < 100 ∨ 105 < b.val

instance : DecidablePred NoCode := fun n =>
  decidable_of_iff (n.all fun b => b.val < 100 ∨ 105 < b.val) (by simp [NoCode])

theorem noCode_endMarker : NoCode endMarker :=
  endMarker_not_code

section
variable (r : Results)

/-- The guard fails with fewer than four bytes left. -/
theorem scan_short {data : Bytes} (h : data.length < 4) : scan data r = r := by
  match data, h with
  | [], _ | [_], _ | [_, _], _ | [_, _, _], _ => simp [scan, scanLoop]

/-- A byte that is no command code is skipped. -/
theorem scan_skip {cmd : Byte} {rest : Bytes} (hc : cmd.val < 100 ∨ 105 < cmd.val)
    (hr : 3 ≤ rest.length) : scan (cmd :: rest) r = scan rest r := by
  match rest, hr with
  | hi :: lo :: b :: rest, _ =>
    simp only [scan, scanLoop, List.length_cons,
      if_pos (show cmd.val < 100 ∨ cmd.val > 105 from hc)]

/-- A payload that runs past the buffer stops the loop. -/
theorem scan_overrun {cmd hi lo : Byte} {body : Bytes} (hc : 100 ≤ cmd.val ∧ cmd.val ≤ 105)
    (hb : body ≠ []) (hl : body.length < be16 hi lo) : scan (cmd :: hi :: lo :: body) r = r := by
  obtain ⟨b, rest, rfl⟩ := List.exists_cons_of_ne_nil hb
  simp only [scan, scanLoop, List.length_cons]
  rw [if_neg (by omega), if_pos (by simpa using hl)]

/-- A frame whose payload fits is applied and jumped over. -/
theorem scan_frame {cmd hi lo : Byte} {body : Bytes} (hc : 100 ≤ cmd.val ∧ cmd.val ≤ 105)
    (hb : body ≠ []) (hl : be16 hi lo ≤ body.length) :
    scan (cmd :: hi :: lo :: body) r =
      scan (body.drop (be16 hi lo)) (applyCommand cmd.val (body.take (be16 hi lo)) r) := by
  obtain ⟨b, rest, rfl⟩ := List.exists_cons_of_ne_nil hb
  simp only [scan, scanLoop, List.length_cons]
  rw [if_neg (by omega), if_neg (by simpa using hl)]
  exact scanLoop_fuel (by simp; omega) le_rfl _

/-- Bytes that are no command code are passed over, wherever the loop then stops. -/
theorem scan_noise {noise : Bytes} (hn : NoCode noise) (rest : Bytes) :
    scan (noise ++ rest) r = scan rest r := by
  induction noise with
  | nil => rfl
  | cons b noise ih =>
    simp only [NoCode, List.mem_cons, forall_eq_or_imp] at hn
    rcases Nat.lt_or_ge (noise ++ rest).length 3 with hs | hs
    · rw [List.cons_append, scan_short r (by simp at hs ⊢; omega),
        scan_short r (by simp at hs ⊢; omega)]
    · rw [List.cons_append, scan_skip r hn.1 hs, ih hn.2]

end

/-! ## Telemetry frames -/

/-- A telemetry frame: a command code in 100..105 and a payload that fits the 16-bit length
field. -/
structure TelemetryFrame where
  code : Byte
  payload : Bytes
  code_ge : 100 ≤ code.val
  code_le : code.val ≤ 105
  payload_lt : payload.length < 2 ^ 16

/-- The wire format `code || len16be(payload) || payload`. -/
def TelemetryFrame.encode (f : TelemetryFrame) : Bytes :=
  f.code :: Fin.ofNat (f.payload.length / 256) :: Fin.ofNat f.payload.length :: f.payload

theorem TelemetryFrame.be16_length (f : TelemetryFrame) :
    be16 (Fin.ofNat (f.payload.length / 256)) (Fin.ofNat f.payload.length) = f.payload.length := by
  have := f.payload_lt
  simp only [be16, ofNat_val]
  omega

/-- A frame with a byte after its header is taken whole. -/
theorem scan_encode (r : Results) (f : TelemetryFrame) {rest : Bytes}
    (h : f.payload ++ rest ≠ []) :
    scan (f.encode ++ rest) r = scan rest (applyCommand f.code.val f.payload r) := by
  rw [TelemetryFrame.encode, List.cons_append, List.cons_append, List.cons_append,
    scan_frame r ⟨f.code_ge, f.code_le⟩ h (by rw [f.be16_length]; simp), f.be16_length,
    List.drop_left, List.take_left]

end TestBoard
