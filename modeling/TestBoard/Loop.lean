import TestBoard.Telemetry

/-!
# The loop of `parse_results` over offsets

`Telemetry` reads `parse_results` over the unread bytes `data[offset:]`, where no index can
fail. Here the loop is read as the code writes it: an integer `offset`, the indexings
`data[offset]`, `data[offset + 1]`, `data[offset + 2]` and `payload[0]` to `payload[5]`, each
of which raises `IndexError` out of range (`index`), and a bound on the number of passes
(`whileLoop`).

`scanStep_spec` : a pass from an offset the guard admits reads only bytes in range and moves
the offset by 1 or by `3 + length`, or breaks. `whileLoop_scan` : from any offset the loop
makes at most `len(data) - offset` passes and then agrees with the suffix loop, so
`parseResults_loop_in_range` : on every buffer the loop returns `parseResults data` without
raising, after at most `len(data)` passes.

`parseResults_append_keeps_tests` : the records decoded from a buffer are a prefix of those
decoded from the buffer with any bytes appended, since a frame that overruns the shorter
buffer ends the loop there and the longer buffer's loop only adds records after it.
-/

namespace TestBoard

/-- What stops the loop abnormally: an `IndexError`, or more passes than the bound. -/
inductive LoopError
  | indexError
  | outOfPasses
  deriving DecidableEq, Repr

/-- `xs[i]`, which raises `IndexError` past the end. -/
def index (xs : Bytes) (i : Nat) : Except LoopError Byte :=
  match xs[i]? with
  | some b => .ok b
  | none => .error .indexError

/-- `(payload[0] << 8) | payload[1] if len(payload) >= 2 else 0` -/
def num16At (payload : Bytes) : Except LoopError Nat :=
  if payload.length ≥ 2 then do
    let p0 ← index payload 0
    let p1 ← index payload 1
    return be16 p0 p1
  else return 0

/-- `(payload[2] << 24) | (payload[3] << 16) | (payload[4] << 8) | payload[5]
if len(payload) >= 6 else 0` -/
def duration32At (payload : Bytes) : Except LoopError Nat :=
  if payload.length ≥ 6 then do
    let p2 ← index payload 2
    let p3 ← index payload 3
    let p4 ← index payload 4
    let p5 ← index payload 5
    return p2.val * 2 ^ 24 + p3.val * 2 ^ 16 + p4.val * 2 ^ 8 + p5.val
  else return 0

/-- The `if cmd == ...` chain of the loop body, with the payload read by index. -/
def applyCommandAt (cmd : Nat) (payload : Bytes) (r : Results) : Except LoopError Results := do
  if cmd = cmdTestSuiteStart then
    let expected ← num16At payload
    return { r with suiteName := text payload, total := expected }
  else if cmd = cmdTestStart then
    let _ ← num16At payload
    return r
  else if cmd = cmdTestPass then
    let testNum ← num16At payload
    let duration ← duration32At payload
    return { r with passed := r.passed + 1, tests := r.tests ++ [.pass testNum duration] }
  else if cmd = cmdTestFail then
    let testNum ← num16At payload
    return { r with failed := r.failed + 1, tests := r.tests ++ [.fail testNum (text payload)] }
  else if cmd = cmdTestSkip then
    let testNum ← num16At payload
    return { r with skipped := r.skipped + 1, tests := r.tests ++ [.skip testNum (text payload)] }
  else if cmd = cmdTestSuiteEnd then
    if payload.length ≥ 6 then
      let p0 ← index payload 0
      let p1 ← index payload 1
      let p2 ← index payload 2
      let p3 ← index payload 3
      let p4 ← index payload 4
      let p5 ← index payload 5
      return { r with total := be16 p0 p1, passed := be16 p2 p3, failed := be16 p4 p5 }
    else return r
  else return r

/-- Where a pass of the loop body leaves: at the next offset, or at `break`. -/
inductive Next
  | next (offset : Nat) (r : Results)
  | exit (r : Results)

/-- One pass of the body of the `while` loop at `offset`. -/
def scanStep (data : Bytes) (offset : Nat) (r : Results) : Except LoopError Next := do
  let cmd ← index data offset
  if cmd.val < 100 ∨ cmd.val > 105 then return .next (offset + 1) r
  let hi ← index data (offset + 1)
  let lo ← index data (offset + 2)
  let length := be16 hi lo
  if offset + 3 + length > data.length then return .exit r
  let payload := (data.drop (offset + 3)).take length
  let r ← applyCommandAt cmd.val payload r
  return .next (offset + 3 + length) r

/-- `while offset < len(data) - 3:` from `offset`, allowed `bound` more passes: the results
and the number of passes made. Over Python's integers the guard is `offset + 3 < len(data)`. -/
def whileLoop (data : Bytes) : Nat → Nat → Results → Except LoopError (Results × Nat)
  | bound, offset, r =>
    if offset + 3 < data.length then
      match bound with
      | 0 => .error .outOfPasses
      | bound + 1 => do
        match ← scanStep data offset r with
        | .next offset r =>
          let (r, passes) ← whileLoop data bound offset r
          return (r, passes + 1)
        | .exit r => return (r, 1)
    else .ok (r, 0)

/-! ## Reads by index -/

/-- Under the guard `len(payload) >= 2` both indices are in range. -/
theorem num16At_eq (payload : Bytes) : num16At payload = .ok (num16 payload) := by
  match payload with
  | [] | [_] => rfl
  | p0 :: p1 :: rest => simp [num16At, index, num16, bind, Except.bind, pure, Except.pure]

theorem duration32At_eq (payload : Bytes) : duration32At payload = .ok (duration32 payload) := by
  match payload with
  | [] | [_] | [_, _] | [_, _, _] | [_, _, _, _] | [_, _, _, _, _] => rfl
  | _ :: _ :: p2 :: p3 :: p4 :: p5 :: rest =>
    simp [duration32At, index, duration32, bind, Except.bind, pure, Except.pure]

/-- The body's reads of the payload, each under its length guard, never raise, and give what
`applyCommand` reads off the payload's shape. -/
theorem applyCommandAt_eq (cmd : Nat) (payload : Bytes) (r : Results) :
    applyCommandAt cmd payload r = .ok (applyCommand cmd payload r) := by
  unfold applyCommandAt applyCommand
  by_cases h0 : cmd = cmdTestSuiteStart
  · simp only [if_pos h0, num16At_eq]; rfl
  by_cases h1 : cmd = cmdTestStart
  · simp only [if_neg h0, if_pos h1, num16At_eq]; rfl
  by_cases h2 : cmd = cmdTestPass
  · simp only [if_neg h0, if_neg h1, if_pos h2, num16At_eq, duration32At_eq]; rfl
  by_cases h3 : cmd = cmdTestFail
  · simp only [if_neg h0, if_neg h1, if_neg h2, if_pos h3, num16At_eq]; rfl
  by_cases h4 : cmd = cmdTestSkip
  · simp only [if_neg h0, if_neg h1, if_neg h2, if_neg h3, if_pos h4, num16At_eq]; rfl
  simp only [if_neg h0, if_neg h1, if_neg h2, if_neg h3, if_neg h4]
  by_cases h5 : cmd = cmdTestSuiteEnd
  · simp only [if_pos h5]
    match payload with
    | _ :: _ :: _ :: _ :: _ :: _ :: _ =>
      rw [if_pos (by simp)]
      simp only [index, List.getElem?_cons_zero, List.getElem?_cons_succ]
      rfl
    | [] | [_] | [_, _] | [_, _, _] | [_, _, _, _] | [_, _, _, _, _] => rfl
  · simp only [if_neg h5]; rfl

theorem index_drop (data : Bytes) (offset i : Nat) :
    index data (offset + i) = index (data.drop offset) i := by
  simp only [index, List.getElem?_drop]

/-! ## A pass, and the whole loop -/

/-- A pass of the body from an offset the guard admits reads only bytes in range, and moves
the offset forward or breaks, as the suffix loop does on the unread bytes. -/
theorem scanStep_spec (data : Bytes) (offset : Nat) (r : Results) (h : offset + 3 < data.length) :
    (∃ o' r', scanStep data offset r = .ok (.next o' r') ∧ offset < o' ∧
        (o' = offset + 1 ∨ ∃ hi lo, index data (offset + 1) = .ok hi ∧
          index data (offset + 2) = .ok lo ∧ o' = offset + 3 + be16 hi lo) ∧
        scan (data.drop offset) r = scan (data.drop o') r') ∨
      ∃ r', scanStep data offset r = .ok (.exit r') ∧ scan (data.drop offset) r = r' := by
  obtain ⟨cmd, hi, lo, b, rest, hd⟩ :
      ∃ cmd hi lo b rest, data.drop offset = cmd :: hi :: lo :: b :: rest := by
    have h4 : 4 ≤ (data.drop offset).length := by rw [List.length_drop]; omega
    match data.drop offset, h4 with
    | cmd :: hi :: lo :: b :: rest, _ => exact ⟨_, _, _, _, _, rfl⟩
  have hlen : data.length = offset + 4 + rest.length := by
    have := congrArg List.length hd
    simp only [List.length_drop, List.length_cons] at this
    omega
  have hdrop (k : Nat) : data.drop (offset + k) = (cmd :: hi :: lo :: b :: rest).drop k := by
    rw [← List.drop_drop, hd]
  have i0 : index data offset = .ok cmd := by
    rw [← Nat.add_zero offset, index_drop, hd]; rfl
  have i1 : index data (offset + 1) = .ok hi := by rw [index_drop, hd]; rfl
  have i2 : index data (offset + 2) = .ok lo := by rw [index_drop, hd]; rfl
  simp only [scanStep, i0, i1, i2, bind, Except.bind, pure, Except.pure]
  by_cases hc : cmd.val < 100 ∨ cmd.val > 105
  · refine .inl ⟨offset + 1, r, by rw [if_pos hc], by omega, .inl rfl, ?_⟩
    rw [hd, hdrop 1]
    exact scan_skip r hc (by simp)
  rw [if_neg hc]
  by_cases hov : offset + 3 + be16 hi lo > data.length
  · refine .inr ⟨r, by rw [if_pos hov], ?_⟩
    rw [hd]
    exact scan_overrun r (by omega) (List.cons_ne_nil b rest) (by simp; omega)
  · rw [if_neg hov, hdrop 3, applyCommandAt_eq]
    refine .inl ⟨offset + 3 + be16 hi lo, _, rfl, by omega, .inr ⟨hi, lo, rfl, rfl, rfl⟩, ?_⟩
    rw [hd, Nat.add_assoc, hdrop,
      scan_frame r (by omega) (List.cons_ne_nil b rest) (by simp; omega), ← List.drop_drop]
    rfl

/-- Where the guard fails, the loop exits with no pass, as the suffix loop stops on fewer than
four unread bytes. -/
theorem whileLoop_exit {data : Bytes} {offset : Nat} (h : ¬offset + 3 < data.length)
    (bound : Nat) (r : Results) :
    whileLoop data bound offset r = .ok (scan (data.drop offset) r, 0) := by
  unfold whileLoop
  rw [if_neg h, scan_short r (by simp; omega)]

/-- From any offset, the loop makes at most `len(data) - offset` passes, and any bound that
allows them gives the suffix loop's results. -/
theorem whileLoop_scan (data : Bytes) (n : Nat) : ∀ offset r, data.length - offset ≤ n →
    ∃ k, k ≤ data.length - offset ∧ ∀ bound, k ≤ bound →
      whileLoop data bound offset r = .ok (scan (data.drop offset) r, k) := by
  induction n with
  | zero =>
    exact fun offset r hn => ⟨0, Nat.zero_le _, fun bound _ => whileLoop_exit (by omega) bound r⟩
  | succ n ih =>
    intro offset r hn
    by_cases h : offset + 3 < data.length
    · rcases scanStep_spec data offset r h with ⟨o', r', hs, hlt, -, hscan⟩ | ⟨r', hs, hscan⟩
      · obtain ⟨k, hk, hrun⟩ := ih o' r' (by omega)
        refine ⟨k + 1, by omega, fun bound hb => ?_⟩
        obtain ⟨bound, rfl⟩ : ∃ b, bound = b + 1 := ⟨bound - 1, by omega⟩
        rw [whileLoop, if_pos h]
        simp only [hs, bind, Except.bind, hrun bound (by omega), pure, Except.pure, hscan]
      · refine ⟨1, by omega, fun bound hb => ?_⟩
        obtain ⟨bound, rfl⟩ : ∃ b, bound = b + 1 := ⟨bound - 1, by omega⟩
        rw [whileLoop, if_pos h]
        simp only [hs, bind, Except.bind, pure, Except.pure, hscan]
    · exact ⟨0, Nat.zero_le _, fun bound _ => whileLoop_exit h bound r⟩

theorem parseResults_loop_in_range (data : Bytes) :
    (∀ cmd payload r, applyCommandAt cmd payload r = .ok (applyCommand cmd payload r)) ∧
      (∀ offset r, offset + 3 < data.length → ∃ next, scanStep data offset r = .ok next ∧
        ∀ o' r', next = .next o' r' →
          offset < o' ∧ (o' = offset + 1 ∨ ∃ hi lo, index data (offset + 1) = .ok hi ∧
            index data (offset + 2) = .ok lo ∧ o' = offset + 3 + be16 hi lo)) ∧
      ∃ k, k ≤ data.length ∧ ∀ bound, k ≤ bound →
        whileLoop data bound 0 Results.empty = .ok (parseResults data, k) := by
  refine ⟨applyCommandAt_eq, fun offset r h => ?_, ?_⟩
  · rcases scanStep_spec data offset r h with ⟨o', r', hs, hlt, hform, -⟩ | ⟨r', hs, -⟩
    · exact ⟨_, hs, fun o r hn => by cases hn; exact ⟨hlt, hform⟩⟩
    · exact ⟨_, hs, fun o r hn => by cases hn⟩
  · obtain ⟨k, hk, hrun⟩ := whileLoop_scan data data.length 0 Results.empty (by omega)
    refine ⟨k, by omega, fun bound hb => ?_⟩
    rw [hrun bound hb, List.drop_zero, parseResults_eq_scan]

/-! ## Appending bytes -/

/-- The shapes the unread bytes take for the loop: too short for the guard, a byte that is no
code with three more after it, or a header with a byte after it. -/
theorem scan_shape (s : Bytes) :
    s.length < 4 ∨
      (∃ cmd rest, s = cmd :: rest ∧ 3 ≤ rest.length ∧ (cmd.val < 100 ∨ 105 < cmd.val)) ∨
      ∃ cmd hi lo body, s = cmd :: hi :: lo :: body ∧ body ≠ [] ∧ 100 ≤ cmd.val ∧
        cmd.val ≤ 105 := by
  match s with
  | [] | [_] | [_, _] | [_, _, _] => exact .inl (by simp)
  | cmd :: hi :: lo :: b :: rest =>
    by_cases hc : cmd.val < 100 ∨ 105 < cmd.val
    · exact .inr (.inl ⟨cmd, _, rfl, by simp, hc⟩)
    · exact .inr (.inr ⟨cmd, hi, lo, b :: rest, rfl, List.cons_ne_nil b rest, by omega, by omega⟩)

theorem applyCommand_extends_tests (cmd : Nat) (payload : Bytes) (r : Results) :
    r.tests <+: (applyCommand cmd payload r).tests := by
  unfold applyCommand
  split_ifs <;> try split
  all_goals simp

/-- A pass only appends records. -/
theorem scan_extends_tests (s : Bytes) (r : Results) : r.tests <+: (scan s r).tests := by
  induction' hn : s.length using Nat.strong_induction_on with n ih generalizing s r
  rcases scan_shape s with hs | ⟨cmd, rest, rfl, h3, hc⟩ | ⟨cmd, hi, lo, body, rfl, hb, hc⟩
  · rw [scan_short r hs]
  · rw [scan_skip r hc h3]
    exact ih _ (by simp [← hn]) rest r rfl
  · by_cases hl : body.length < be16 hi lo
    · rw [scan_overrun r hc hb hl]
    · rw [scan_frame r hc hb (by omega)]
      exact (applyCommand_extends_tests _ _ r).trans (ih _ (by simp [← hn]; omega) _ _ rfl)

/-- Bytes appended after the buffer leave every record read from it in place. -/
theorem scan_append_extends_tests (c : Bytes) (s : Bytes) (r : Results) :
    (scan s r).tests <+: (scan (s ++ c) r).tests := by
  induction' hn : s.length using Nat.strong_induction_on with n ih generalizing s r
  rcases scan_shape s with hs | ⟨cmd, rest, rfl, h3, hc⟩ | ⟨cmd, hi, lo, body, rfl, hb, hc⟩
  · rw [scan_short r hs]
    exact scan_extends_tests _ r
  · rw [scan_skip r hc h3, List.cons_append, scan_skip r hc (by simp; omega)]
    exact ih _ (by simp [← hn]) rest r rfl
  · by_cases hl : body.length < be16 hi lo
    · rw [scan_overrun r hc hb hl]
      exact scan_extends_tests _ r
    · rw [scan_frame r hc hb (by omega), List.cons_append, List.cons_append, List.cons_append,
        scan_frame r hc (by simp [hb]) (by simp; omega),
        List.take_append_of_le_length (by omega), List.drop_append_of_le_length (by omega)]
      exact ih _ (by simp [← hn]; omega) _ _ rfl

theorem parseResults_append_keeps_tests (b c : Bytes) :
    (parseResults b).tests <+: (parseResults (b ++ c)).tests := by
  rw [parseResults_eq_scan, parseResults_eq_scan]
  exact scan_append_extends_tests c b Results.empty

end TestBoard
