import TestBoard.Lexer
import TestBoard.Report

/-!
# What `parse_results` reports

The loop of `parse_results` overwrites `suite_name` and `total` at each
`CMD_TEST_SUITE_START` frame, and `total`, `passed` and `failed` at each
`CMD_TEST_SUITE_END` frame with six payload bytes; a `CMD_TEST_PASS`, `CMD_TEST_FAIL` or
`CMD_TEST_SKIP` frame appends a record and counts it. `summary` says what each field holds
once the frames `fs` are applied: the name of the last opening frame, the total of the last
frame that sets one, the tallies of the last complete closing frame plus what the frames
after it report (`afterTallies`), and every record in order.

`applyCommand_cases` : the three things one update can do. `summary_snoc` : one more frame
changes the summary as the loop body changes the results. `parseResults_eq_summary` : for
every buffer, the loop computes the summary of the frames it applies (`appliedFrames`).
`run_completed_eq_zero_iff` : once the marker is seen, `run` returns 0 exactly when the last
complete closing frame, if there is one, reports no failure, and no `CMD_TEST_FAIL` frame
follows it.
-/

namespace TestBoard

/-! ## Records -/

/-- A pass record. -/
def TestRecord.isPass : TestRecord → Bool
  | .pass .. => true
  | _ => false

/-- A fail record. -/
def TestRecord.isFail : TestRecord → Bool
  | .fail .. => true
  | _ => false

/-- A skip record. -/
def TestRecord.isSkip : TestRecord → Bool
  | .skip .. => true
  | _ => false

/-- The records the loop body appends for a payload, in its `CMD_TEST_PASS`,
`CMD_TEST_FAIL` and `CMD_TEST_SKIP` branches. -/
def commandRecords (cmd : Nat) (payload : Bytes) : List TestRecord :=
  if cmd = cmdTestPass then [.pass (num16 payload) (duration32 payload)]
  else if cmd = cmdTestFail then [.fail (num16 payload) (text payload)]
  else if cmd = cmdTestSkip then [.skip (num16 payload) (text payload)]
  else []

/-- Everything one update can do: open a suite, set the tallies from a complete
`CMD_TEST_SUITE_END`, or append its records and count them. -/
theorem applyCommand_cases (cmd : Nat) (payload : Bytes) (r : Results) :
    (cmd = cmdTestSuiteStart ∧
      applyCommand cmd payload r = { r with suiteName := text payload, total := num16 payload }) ∨
    (cmd = cmdTestSuiteEnd ∧ 6 ≤ payload.length ∧
      applyCommand cmd payload r = { r with
        total := num16 payload, passed := num16 (payload.drop 2),
        failed := num16 (payload.drop 4) }) ∨
    (cmd ≠ cmdTestSuiteStart ∧ ¬(cmd = cmdTestSuiteEnd ∧ 6 ≤ payload.length) ∧
      applyCommand cmd payload r = { r with
        passed := r.passed + (commandRecords cmd payload).countP TestRecord.isPass,
        failed := r.failed + (commandRecords cmd payload).countP TestRecord.isFail,
        skipped := r.skipped + (commandRecords cmd payload).countP TestRecord.isSkip,
        tests := r.tests ++ commandRecords cmd payload }) := by
  by_cases h0 : cmd = cmdTestSuiteStart
  · exact .inl ⟨h0, by subst h0; rfl⟩
  by_cases h5 : cmd = cmdTestSuiteEnd ∧ 6 ≤ payload.length
  · obtain ⟨rfl, hl⟩ := h5
    refine .inr (.inl ⟨rfl, hl, ?_⟩)
    match payload, hl with
    | _ :: _ :: _ :: _ :: _ :: _ :: _, _ => rfl
  refine .inr (.inr ⟨h0, h5, ?_⟩)
  have keep (hr : commandRecords cmd payload = []) (ha : applyCommand cmd payload r = r) :
      applyCommand cmd payload r = { r with
        passed := r.passed + (commandRecords cmd payload).countP TestRecord.isPass,
        failed := r.failed + (commandRecords cmd payload).countP TestRecord.isFail,
        skipped := r.skipped + (commandRecords cmd payload).countP TestRecord.isSkip,
        tests := r.tests ++ commandRecords cmd payload } := by
    rw [hr, ha]
    cases r
    simp
  by_cases h1 : cmd = cmdTestStart
  · subst h1; exact keep rfl rfl
  by_cases h2 : cmd = cmdTestPass
  · subst h2; rfl
  by_cases h3 : cmd = cmdTestFail
  · subst h3; rfl
  by_cases h4 : cmd = cmdTestSkip
  · subst h4; rfl
  refine keep (by rw [commandRecords, if_neg h2, if_neg h3, if_neg h4]) ?_
  unfold applyCommand
  rw [if_neg h0, if_neg h1, if_neg h2, if_neg h3, if_neg h4]
  by_cases he : cmd = cmdTestSuiteEnd
  · rw [if_pos he]
    match payload, h5 with
    | [], _ | [_], _ | [_, _], _ | [_, _, _], _ | [_, _, _, _], _ | [_, _, _, _, _], _ => rfl
    | _ :: _ :: _ :: _ :: _ :: _ :: _, h5 => exact absurd ⟨he, by simp⟩ h5
  · rw [if_neg he]

/-! ## The summary of a list of frames -/

/-- A frame that opens a suite. -/
def TelemetryFrame.startsSuite (f : TelemetryFrame) : Bool :=
  decide (f.code.val = cmdTestSuiteStart)

/-- A `CMD_TEST_SUITE_END` frame with the six bytes of the tallies. -/
def TelemetryFrame.setsTallies (f : TelemetryFrame) : Bool :=
  decide (f.code.val = cmdTestSuiteEnd ∧ 6 ≤ f.payload.length)

/-- A frame that sets `results["total"]`. -/
def TelemetryFrame.setsTotal (f : TelemetryFrame) : Bool :=
  f.startsSuite || f.setsTallies

/-- The records a frame appends. -/
def TelemetryFrame.records (f : TelemetryFrame) : List TestRecord :=
  commandRecords f.code.val f.payload

/-- The frames after the last one that sets the tallies; all of them if none does. -/
def afterTallies (fs : List TelemetryFrame) : List TelemetryFrame :=
  (fs.reverse.takeWhile fun f => !f.setsTallies).reverse

/-- What `parse_results` reports once the frames `fs` are applied, field by field. -/
def summary (fs : List TelemetryFrame) : Results where
  suiteName := ((fs.reverse.find? TelemetryFrame.startsSuite).map fun f => text f.payload).getD ""
  total := ((fs.reverse.find? TelemetryFrame.setsTotal).map fun f => num16 f.payload).getD 0
  passed := ((fs.reverse.find? TelemetryFrame.setsTallies).map
      fun f => num16 (f.payload.drop 2)).getD 0 +
    ((afterTallies fs).flatMap TelemetryFrame.records).countP TestRecord.isPass
  failed := ((fs.reverse.find? TelemetryFrame.setsTallies).map
      fun f => num16 (f.payload.drop 4)).getD 0 +
    ((afterTallies fs).flatMap TelemetryFrame.records).countP TestRecord.isFail
  skipped := (fs.flatMap TelemetryFrame.records).countP TestRecord.isSkip
  tests := fs.flatMap TelemetryFrame.records

theorem summary_nil : summary [] = Results.empty := rfl

/-- One more frame changes the summary as the loop body changes the results. -/
theorem summary_snoc (fs : List TelemetryFrame) (f : TelemetryFrame) :
    summary (fs ++ [f]) = applyCommand f.code.val f.payload (summary fs) := by
  rcases applyCommand_cases f.code.val f.payload (summary fs) with
    ⟨h, he⟩ | ⟨h, hl, he⟩ | ⟨h, hn, he⟩ <;> rw [he]
  · have hs : f.startsSuite = true := by simp [TelemetryFrame.startsSuite, h]
    have ht : f.setsTallies = false := by
      simp [TelemetryFrame.setsTallies, h, cmdTestSuiteStart, cmdTestSuiteEnd]
    have hr : f.records = [] := by
      simp [TelemetryFrame.records, commandRecords, h, cmdTestSuiteStart, cmdTestPass,
        cmdTestFail, cmdTestSkip]
    simp [summary, afterTallies, TelemetryFrame.setsTotal, hs, ht, hr]
  · have hs : f.startsSuite = false := by
      simp [TelemetryFrame.startsSuite, h, cmdTestSuiteStart, cmdTestSuiteEnd]
    have ht : f.setsTallies = true := by simp [TelemetryFrame.setsTallies, h, hl]
    have hr : f.records = [] := by
      simp [TelemetryFrame.records, commandRecords, h, cmdTestSuiteEnd, cmdTestPass,
        cmdTestFail, cmdTestSkip]
    simp [summary, afterTallies, TelemetryFrame.setsTotal, hs, ht, hr]
  · have hs : f.startsSuite = false := by simp [TelemetryFrame.startsSuite, h]
    have ht : f.setsTallies = false := by simp [TelemetryFrame.setsTallies, hn]
    simp [summary, afterTallies, TelemetryFrame.setsTotal, TelemetryFrame.records, hs, ht,
      Nat.add_assoc]

/-- The loop body folded over frames from the empty results gives their summary. -/
theorem foldl_applyCommand_summary (fs : List TelemetryFrame) :
    fs.foldl (fun r f => applyCommand f.code.val f.payload r) Results.empty = summary fs := by
  induction fs using List.reverseRecOn with
  | nil => rfl
  | append_singleton fs f ih => rw [List.foldl_append, ih, summary_snoc]; rfl

/-! ## The frames of a buffer -/

/-- The frame a token applies. -/
def Token.frame? : Token → Option TelemetryFrame
  | .frame f => some f
  | .noise .. => none

/-- The frames `parse_results` applies to `data`, in order. -/
def appliedFrames (data : Bytes) : List TelemetryFrame :=
  (lex data).1.filterMap Token.frame?

theorem foldl_apply_filterMap (ts : List Token) (r : Results) :
    ts.foldl (fun r t => t.apply r) r =
      (ts.filterMap Token.frame?).foldl (fun r f => applyCommand f.code.val f.payload r) r := by
  induction ts generalizing r with
  | nil => rfl
  | cons t ts ih => cases t <;> exact ih _

/-- For every buffer, `parse_results` reports the summary of the frames it applies. -/
theorem parseResults_eq_summary (data : Bytes) :
    parseResults data = summary (appliedFrames data) := by
  rw [parseResults_eq_scan, scan_eq_foldl_lex, foldl_apply_filterMap, foldl_applyCommand_summary]
  rfl

/-! ## The exit status -/

theorem TelemetryFrame.records_countP_isFail_eq_zero (f : TelemetryFrame) :
    f.records.countP TestRecord.isFail = 0 ↔ f.code.val ≠ cmdTestFail := by
  unfold TelemetryFrame.records commandRecords
  by_cases h2 : f.code.val = cmdTestPass
  · simp [h2, TestRecord.isFail, cmdTestPass, cmdTestFail]
  by_cases h3 : f.code.val = cmdTestFail
  · simp [h3, TestRecord.isFail, cmdTestPass, cmdTestFail]
  by_cases h4 : f.code.val = cmdTestSkip
  · simp [h2, h4, TestRecord.isFail, cmdTestPass, cmdTestFail, cmdTestSkip]
  · simp [h2, h3, h4]

/-- Once the marker is seen, `run` returns 0 exactly when the last complete
`CMD_TEST_SUITE_END` frame, if there is one, reports no failure, and no `CMD_TEST_FAIL` frame
comes after it. -/
theorem run_completed_eq_zero_iff (data : Bytes) :
    run true true (some data) = 0 ↔
      (∀ f ∈ (appliedFrames data).reverse.find? TelemetryFrame.setsTallies,
        num16 (f.payload.drop 4) = 0) ∧
      ∀ f ∈ afterTallies (appliedFrames data), f.code.val ≠ cmdTestFail := by
  have hrun : run true true (some data) = 0 ↔ (parseResults data).failed = 0 := by
    simp [run, Nat.pos_iff_ne_zero]
  unfold appliedFrames
  rw [hrun, parseResults_eq_scan, scan_eq_foldl_lex, foldl_apply_filterMap,
    foldl_applyCommand_summary, summary, Nat.add_eq_zero, List.countP_eq_zero]
  refine and_congr ?_ ?_
  · cases ((lex data).1.filterMap Token.frame?).reverse.find? TelemetryFrame.setsTallies <;> simp
  · rw [List.forall_mem_flatMap]
    exact forall₂_congr fun f _ => by
      rw [← List.countP_eq_zero, f.records_countP_isFail_eq_zero]

end TestBoard
