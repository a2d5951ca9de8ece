import TestBoard.Telemetry

/-!
# Reports read off a byte stream, and the exit status

A report on the wire is a list of telemetry frames, each followed by bytes that are no
command code (`encodeStream`). `scan_stream` : the scanner folds `applyCommand` over the
frames in order (`foldFrames`), provided the last frame has a byte after its header. The
guard `offset < len(data) - 3` asks for four bytes, one more than a header, so
`parseResults_final_empty_frame` : a last frame with an empty payload, at the very end of the
buffer, is dropped. `parse_results` only ever reads a buffer that ends with the marker, whose
bytes are no code, and `parseResults_stream_endMarker` : there every frame is applied.

`run` is what `PCBEmulator.run` returns. A result frame after console text is decoded, and a
failure is counted once and makes `run` return 1 (`parseResults_result_after_console_text`),
when the text holds none of the letters `d` to `i`. Those letters are command codes 100..105,
and `parseResults_letter_hides_failure` shows one of them hiding a failed test.
`applyCommand_utf8_text` : a name, message or reason sent as UTF-8 is decoded to its text.

`parseResults_report` : a whole suite, from its opening frame to the tallies of its closing
frame, is decoded to its name and records, the closing tallies replace the counted ones, and
`run` returns 1 exactly when they report a failure.
-/

namespace TestBoard

/-- `PCBEmulator.run` from the outcomes of its stages: `validate_inputs`, `start_qemu`, and
`wait_for_completion`, which is `some data` when the wait saw the marker, `data` being the
buffer `parse_results` then reads. -/
def run (valid started : Bool) (completed : Option Bytes) : Nat :=
  if !valid then 1
  else if !started then 1
  else match completed with
    | none => 1
    | some data => if (parseResults data).failed > 0 then 1 else 0

theorem run_some_of_failed {data : Bytes} (h : 0 < (parseResults data).failed)
    (valid started : Bool) :
    run valid started (some data) = 1 := by
  cases valid <;> cases started <;> simp [run, h]

/-! ## Frame streams -/

/-- Frames, each followed by the bytes before the next one. -/
def encodeStream (fs : List (TelemetryFrame × Bytes)) : Bytes :=
  fs.flatMap fun p => p.1.encode ++ p.2

theorem encodeStream_cons (p : TelemetryFrame × Bytes) (fs : List (TelemetryFrame × Bytes)) :
    encodeStream (p :: fs) = p.1.encode ++ (p.2 ++ encodeStream fs) := by
  simp [encodeStream]

/-- The results after applying each frame's update in order. -/
def foldFrames (fs : List (TelemetryFrame × Bytes)) (r : Results) : Results :=
  fs.foldl (fun r p => applyCommand p.1.code.val p.1.payload r) r

/-- Over a stream whose last frame has a byte after its header, the scanner applies every
frame in order. -/
theorem scan_stream (fs : List (TelemetryFrame × Bytes)) (hn : ∀ p ∈ fs, NoCode p.2)
    (hlast : ∀ p ∈ fs.getLast?, p.1.payload ≠ [] ∨ p.2 ≠ []) (r : Results) :
    scan (encodeStream fs) r = foldFrames fs r := by
  induction fs generalizing r with
  | nil => exact scan_short r (by simp [encodeStream])
  | cons p fs ih =>
    have hne : p.1.payload ++ (p.2 ++ encodeStream fs) ≠ [] := by
      cases fs with
      | nil => rcases hlast p (by simp) with h | h <;> simp [h, encodeStream]
      | cons q fs => simp [encodeStream_cons, TelemetryFrame.encode]
    have hlast' : ∀ q ∈ fs.getLast?, q.1.payload ≠ [] ∨ q.2 ≠ [] := by
      cases fs with
      | nil => simp
      | cons q fs => simpa using hlast
    simp only [List.mem_cons, forall_eq_or_imp] at hn
    rw [encodeStream_cons, scan_encode r p.1 hne, scan_noise _ hn.1, ih hn.2 hlast']
    rfl

/-- Noise, then frames: the scanner reports the fold of the frames' updates. -/
theorem parseResults_stream (n₀ : Bytes) (fs : List (TelemetryFrame × Bytes)) (h₀ : NoCode n₀)
    (hn : ∀ p ∈ fs, NoCode p.2) (hlast : ∀ p ∈ fs.getLast?, p.1.payload ≠ [] ∨ p.2 ≠ []) :
    parseResults (n₀ ++ encodeStream fs) = foldFrames fs Results.empty := by
  rw [parseResults_eq_scan, scan_noise _ h₀, scan_stream fs hn hlast]

/-- The text `OK`, then a passed test followed by the marker. -/
theorem parseResults_stream_pass :
    NoCode [0x4F, 0x4B] ∧ NoCode endMarker ∧
      parseResults ([0x4F, 0x4B] ++
          encodeStream [(⟨102, [0, 1, 0, 0, 0, 42], by decide, by decide, by decide⟩, endMarker)]) =
        foldFrames [(⟨102, [0, 1, 0, 0, 0, 42], by decide, by decide, by decide⟩, endMarker)]
          Results.empty :=
  ⟨by decide, noCode_endMarker, parseResults_stream _ _ (by decide) (by simp [noCode_endMarker])
    (by simp [endMarker])⟩

/-- Console text: tab, line feed, carriage return and printable ASCII. -/
def ConsoleText (n : Bytes) : Prop :=
  ∀ b ∈ n, b.val = 0x09 ∨ b.val = 0x0A ∨ b.val = 0x0D ∨ (0x20 ≤ b.val ∧ b.val ≤ 0x7E)

instance : DecidablePred ConsoleText := fun n =>
  decidable_of_iff (n.all fun b =>
    b.val = 0x09 ∨ b.val = 0x0A ∨ b.val = 0x0D ∨ (0x20 ≤ b.val ∧ b.val ≤ 0x7E))
    (by simp [ConsoleText])

/-- A test result as the kernel sends it: a number and a duration for a pass, a number and
message bytes for a failure or a skip. -/
inductive ResultFrame
  | pass (num : Fin (2 ^ 16)) (duration : Fin (2 ^ 32))
  | fail (num : Fin (2 ^ 16)) (message : Bytes) (h : message.length < 2 ^ 16 - 2)
  | skip (num : Fin (2 ^ 16)) (reason : Bytes) (h : reason.length < 2 ^ 16 - 2)

/-- The two big-endian bytes of a test number. -/
def numBytes (num : Fin (2 ^ 16)) : Bytes :=
  [Fin.ofNat (num.val / 2 ^ 8), Fin.ofNat num.val]

theorem num16_numBytes (num : Fin (2 ^ 16)) (rest : Bytes) :
    num16 (numBytes num ++ rest) = num.val := by
  simp only [numBytes, List.cons_append, List.nil_append, num16, be16, ofNat_val]
  omega

/-- The frame that carries a result. -/
def ResultFrame.toFrame : ResultFrame → TelemetryFrame
  | .pass num duration =>
    ⟨Fin.ofNat cmdTestPass, numBytes num ++ [Fin.ofNat (duration.val / 2 ^ 24),
      Fin.ofNat (duration.val / 2 ^ 16), Fin.ofNat (duration.val / 2 ^ 8), Fin.ofNat duration.val],
      by decide, by decide, by simp [numBytes]⟩
  | .fail num message h =>
    ⟨Fin.ofNat cmdTestFail, numBytes num ++ message, by decide, by decide,
      by simp [numBytes]; omega⟩
  | .skip num reason h =>
    ⟨Fin.ofNat cmdTestSkip, numBytes num ++ reason, by decide, by decide,
      by simp [numBytes]; omega⟩

/-- The record `parse_results` appends for a result. -/
def ResultFrame.record : ResultFrame → TestRecord
  | .pass num duration => .pass num duration
  | .fail num message _ => .fail num (decode .replace message)
  | .skip num reason _ => .skip num (decode .replace reason)

/-- Whether the result is a failure. -/
def ResultFrame.isFail : ResultFrame → Bool
  | .fail .. => true
  | _ => false

theorem duration32_numBytes (num : Fin (2 ^ 16)) (duration : Fin (2 ^ 32)) :
    duration32 (numBytes num ++ [Fin.ofNat (duration.val / 2 ^ 24),
      Fin.ofNat (duration.val / 2 ^ 16), Fin.ofNat (duration.val / 2 ^ 8),
      Fin.ofNat duration.val]) = duration.val := by
  simp only [numBytes, List.cons_append, List.nil_append, duration32, ofNat_val]
  omega

theorem text_numBytes (num : Fin (2 ^ 16)) (message : Bytes) :
    text (numBytes num ++ message) = decode .replace message := by
  cases message with
  | nil => rfl
  | cons b bs => simp [text, numBytes]

/-- A suite name, failure message or skip reason sent as the UTF-8 encoding of a text, after
the two bytes of a number, is decoded to that text. -/
theorem applyCommand_utf8_text (num : Fin (2 ^ 16)) (s : String) (r : Results) :
    (applyCommand cmdTestSuiteStart (numBytes num ++ encode s) r).suiteName = s ∧
      (applyCommand cmdTestFail (numBytes num ++ encode s) r).tests =
        r.tests ++ [.fail num.val s] ∧
      (applyCommand cmdTestSkip (numBytes num ++ encode s) r).tests =
        r.tests ++ [.skip num.val s] := by
  have htext : text (numBytes num ++ encode s) = s := by rw [text_numBytes, decode_encode]
  exact ⟨htext, by rw [applyCommand_testFail, num16_numBytes, htext],
    by rw [applyCommand_testSkip, num16_numBytes, htext]⟩

/-- Whether the result is a skip. -/
def ResultFrame.isSkip : ResultFrame → Bool
  | .skip .. => true
  | _ => false

/-- The update of a result frame appends its record, counts a failure or a skip, and keeps
the suite's name. -/
theorem applyCommand_toFrame (F : ResultFrame) (r : Results) :
    (applyCommand F.toFrame.code.val F.toFrame.payload r).tests = r.tests ++ [F.record] ∧
      (F.isFail → (applyCommand F.toFrame.code.val F.toFrame.payload r).failed = r.failed + 1) ∧
      (applyCommand F.toFrame.code.val F.toFrame.payload r).suiteName = r.suiteName ∧
      (applyCommand F.toFrame.code.val F.toFrame.payload r).skipped =
        r.skipped + if F.isSkip then 1 else 0 := by
  cases F with
  | pass num duration =>
    rw [ResultFrame.toFrame, show (Fin.ofNat cmdTestPass : Byte).val = cmdTestPass from rfl,
      applyCommand_testPass, num16_numBytes, duration32_numBytes]
    exact ⟨rfl, by simp [ResultFrame.isFail], rfl, by simp [ResultFrame.isSkip]⟩
  | fail num message h =>
    rw [ResultFrame.toFrame, show (Fin.ofNat cmdTestFail : Byte).val = cmdTestFail from rfl,
      applyCommand_testFail, num16_numBytes, text_numBytes]
    exact ⟨rfl, fun _ => rfl, rfl, by simp [ResultFrame.isSkip]⟩
  | skip num reason h =>
    rw [ResultFrame.toFrame, show (Fin.ofNat cmdTestSkip : Byte).val = cmdTestSkip from rfl,
      applyCommand_testSkip, num16_numBytes, text_numBytes]
    exact ⟨rfl, by simp [ResultFrame.isFail], rfl, by simp [ResultFrame.isSkip]⟩

/-- After bytes without the codes 100..105 (console text without the letters `d` to `i`), a
result frame and the marker are decoded to exactly that result, and a failure makes `run`
return 1. -/
theorem parseResults_result_after_console_text (n : Bytes) (F : ResultFrame) (hd : NoCode n) :
    (parseResults (n ++ F.toFrame.encode ++ endMarker)).tests = [F.record] ∧
      (F.isFail → (parseResults (n ++ F.toFrame.encode ++ endMarker)).failed = 1 ∧
        ∀ valid started, run valid started (some (n ++ F.toFrame.encode ++ endMarker)) = 1) := by
  have hscan : parseResults (n ++ F.toFrame.encode ++ endMarker) =
      applyCommand F.toFrame.code.val F.toFrame.payload Results.empty := by
    rw [parseResults_eq_scan, List.append_assoc, scan_noise _ hd,
      scan_encode _ _ (by simp [endMarker]), ← List.append_nil endMarker,
      scan_noise _ noCode_endMarker, scan_short _ (by simp)]
  obtain ⟨htests, hfail, -, -⟩ := applyCommand_toFrame F Results.empty
  refine ⟨by rw [hscan, htests]; rfl, fun hF => ?_⟩
  have h1 : (parseResults (n ++ F.toFrame.encode ++ endMarker)).failed = 1 := by
    rw [hscan, hfail hF]; rfl
  exact ⟨h1, run_some_of_failed (by omega)⟩

/-- The text `OK`, then a failed test 2 with the message `x`. -/
theorem parseResults_result_after_console_text_ok :
    NoCode [0x4F, 0x4B] ∧
      (parseResults ([0x4F, 0x4B] ++ (ResultFrame.fail 2 [0x78] (by decide)).toFrame.encode ++
          endMarker)).tests = [(ResultFrame.fail 2 [0x78] (by decide)).record] ∧
      ((ResultFrame.fail 2 [0x78] (by decide)).isFail →
        (parseResults ([0x4F, 0x4B] ++ (ResultFrame.fail 2 [0x78] (by decide)).toFrame.encode ++
          endMarker)).failed = 1 ∧
        ∀ valid started, run valid started (some ([0x4F, 0x4B] ++
          (ResultFrame.fail 2 [0x78] (by decide)).toFrame.encode ++ endMarker)) = 1) :=
  ⟨by decide, parseResults_result_after_console_text [0x4F, 0x4B] (.fail 2 [0x78] (by decide))
    (by decide)⟩

/-- The letter `d` (code 100) before a failed test: the scanner reads `d` as a frame whose
length runs past the buffer, stops, and `run` reports success. -/
theorem parseResults_letter_hides_failure :
    ConsoleText [0x64] ∧
      (parseResults ([0x64] ++ (ResultFrame.fail 2 [0x78] (by decide)).toFrame.encode ++
          endMarker)).tests = [] ∧
      run true true (some ([0x64] ++ (ResultFrame.fail 2 [0x78] (by decide)).toFrame.encode ++
          endMarker)) = 0 :=
  ⟨by decide, by decide, by decide⟩

/-! ## A whole report -/

/-- The frame that opens a suite: the expected number of tests and the suite's name. -/
def suiteStartFrame (total : Fin (2 ^ 16)) (name : Bytes) (h : name.length < 2 ^ 16 - 2) :
    TelemetryFrame :=
  ⟨Fin.ofNat cmdTestSuiteStart, numBytes total ++ name, by decide, by decide,
    by simp [numBytes]; omega⟩

/-- The frame that closes a suite with its final tallies. -/
def suiteEndFrame (total passed failed : Fin (2 ^ 16)) : TelemetryFrame :=
  ⟨Fin.ofNat cmdTestSuiteEnd, numBytes total ++ numBytes passed ++ numBytes failed, by decide,
    by decide, by simp [numBytes]⟩

/-- A suite as the kernel reports it: the opening frame, the results, and the closing frame,
each followed by bytes before the next frame. -/
def reportStream (total : Fin (2 ^ 16)) (name : Bytes) (h : name.length < 2 ^ 16 - 2)
    (n₁ : Bytes) (results : List (ResultFrame × Bytes)) (t p f : Fin (2 ^ 16)) (tail : Bytes) :
    Bytes :=
  encodeStream ((suiteStartFrame total name h, n₁) :: results.map (fun r => (r.1.toFrame, r.2)) ++
    [(suiteEndFrame t p f, tail)])

theorem applyCommand_suiteStart (total : Fin (2 ^ 16)) (name : Bytes) (h : name.length < 2 ^ 16 - 2)
    (r : Results) :
    applyCommand (suiteStartFrame total name h).code.val (suiteStartFrame total name h).payload r =
      { r with suiteName := decode .replace name, total := total.val } := by
  rw [suiteStartFrame, show (Fin.ofNat cmdTestSuiteStart : Byte).val = cmdTestSuiteStart from rfl]
  simp only [applyCommand, if_true, text_numBytes, num16_numBytes]

theorem applyCommand_suiteEnd (t p f : Fin (2 ^ 16)) (r : Results) :
    applyCommand (suiteEndFrame t p f).code.val (suiteEndFrame t p f).payload r =
      { r with total := t.val, passed := p.val, failed := f.val } := by
  have hbe (x : Fin (2 ^ 16)) : be16 (Fin.ofNat (x.val / 2 ^ 8)) (Fin.ofNat x.val) = x.val := by
    simp only [be16, ofNat_val]
    omega
  rw [suiteEndFrame, show (Fin.ofNat cmdTestSuiteEnd : Byte).val = cmdTestSuiteEnd from rfl]
  simp only [applyCommand, numBytes, cmdTestSuiteEnd, cmdTestSuiteStart, cmdTestStart,
    cmdTestPass, cmdTestFail, cmdTestSkip, List.cons_append, List.nil_append, hbe]
  rfl

/-- The results of a run of result frames: their records appended, their skips counted, and
the suite's name kept. -/
theorem foldFrames_results (results : List (ResultFrame × Bytes)) (r : Results) :
    (foldFrames (results.map fun x => (x.1.toFrame, x.2)) r).suiteName = r.suiteName ∧
      (foldFrames (results.map fun x => (x.1.toFrame, x.2)) r).skipped =
        r.skipped + (results.filter (·.1.isSkip)).length ∧
      (foldFrames (results.map fun x => (x.1.toFrame, x.2)) r).tests =
        r.tests ++ results.map (·.1.record) := by
  induction results generalizing r with
  | nil => simp [foldFrames]
  | cons x results ih =>
    obtain ⟨htests, -, hname, hskip⟩ := applyCommand_toFrame x.1 r
    obtain ⟨h1, h2, h3⟩ := ih (applyCommand x.1.toFrame.code.val x.1.toFrame.payload r)
    refine ⟨h1.trans hname, ?_, ?_⟩
    · rw [List.filter_cons]
      simp only [foldFrames, List.map_cons, List.foldl_cons] at h2 ⊢
      rw [h2, hskip]
      split_ifs
      · simp only [List.length_cons]; omega
      · simp
    · simp only [foldFrames, List.map_cons, List.foldl_cons] at h3 ⊢
      rw [h3, htests]
      simp

/-- A whole suite after bytes without command codes is decoded to its name, its records in
order and its skips, with the closing frame's tallies taking the place of the counted ones,
and `run` returns 1 exactly when the closing frame reports a failure. -/
theorem parseResults_report (n₀ n₁ tail : Bytes) (h₀ : NoCode n₀) (h₁ : NoCode n₁)
    (ht : NoCode tail) (total : Fin (2 ^ 16)) (name : Bytes) (hname : name.length < 2 ^ 16 - 2)
    (results : List (ResultFrame × Bytes)) (hres : ∀ x ∈ results, NoCode x.2)
    (t p f : Fin (2 ^ 16)) :
    parseResults (n₀ ++ reportStream total name hname n₁ results t p f tail) =
        ⟨decode .replace name, t.val, p.val, f.val, (results.filter (·.1.isSkip)).length,
          results.map (·.1.record)⟩ ∧
      run true true (some (n₀ ++ reportStream total name hname n₁ results t p f tail)) =
        if 0 < f.val then 1 else 0 := by
  have hn : ∀ x ∈ (suiteStartFrame total name hname, n₁) ::
      results.map (fun r => (r.1.toFrame, r.2)) ++ [(suiteEndFrame t p f, tail)], NoCode x.2 := by
    intro x hx
    simp only [List.cons_append, List.mem_cons, List.mem_append, List.mem_map,
      List.not_mem_nil, or_false] at hx
    rcases hx with rfl | ⟨y, hy, rfl⟩ | rfl
    exacts [h₁, hres y hy, ht]
  have hlast : ∀ x ∈ ((suiteStartFrame total name hname, n₁) ::
      results.map (fun r => (r.1.toFrame, r.2)) ++ [(suiteEndFrame t p f, tail)]).getLast?,
      x.1.payload ≠ [] ∨ x.2 ≠ [] := by
    rw [List.getLast?_concat]
    simp [suiteEndFrame, numBytes]
  have hparse : parseResults (n₀ ++ reportStream total name hname n₁ results t p f tail) =
      ⟨decode .replace name, t.val, p.val, f.val, (results.filter (·.1.isSkip)).length,
        results.map (·.1.record)⟩ := by
    rw [parseResults_eq_scan, scan_noise _ h₀, reportStream, scan_stream _ hn hlast]
    simp only [foldFrames, List.cons_append, List.foldl_cons, List.foldl_append, List.foldl_nil]
    obtain ⟨h1, h2, h3⟩ := foldFrames_results results
      (applyCommand (suiteStartFrame total name hname).code.val
        (suiteStartFrame total name hname).payload Results.empty)
    simp only [foldFrames] at h1 h2 h3
    rw [applyCommand_suiteEnd, h1, h2, h3, applyCommand_suiteStart]
    simp [Results.empty]
  refine ⟨hparse, ?_⟩
  simp [run, hparse]

/-- Suite `core` with a pass and a failure closed by tallies with one failure: `run`
returns 1. -/
theorem parseResults_report_core :
    NoCode endMarker ∧
      run true true (some ([] ++ reportStream 2 [0x63, 0x6F, 0x72, 0x65] (by decide) []
        [(.pass 1 42, []), (.fail 2 [0x78] (by decide), [])] 2 1 1 endMarker)) = 1 := by
  refine ⟨noCode_endMarker, ?_⟩
  have h := (parseResults_report [] [] endMarker (by decide) (by decide) noCode_endMarker 2
    [0x63, 0x6F, 0x72, 0x65] (by decide) [(.pass 1 42, []), (.fail 2 [0x78] (by decide), [])]
    (by simp [NoCode]) 2 1 1).2
  simpa using h

/-- The end-to-end case of the specification: suite `core` with two tests, one passed with
duration 42 and one failed with `assert x==y`, then the marker. -/
example :
    parseResults ([] ++ reportStream 2 [0x63, 0x6F, 0x72, 0x65] (by decide) []
        [(.pass 1 42, []), (.fail 2 [0x61, 0x73, 0x73, 0x65, 0x72, 0x74, 0x20, 0x78, 0x3D, 0x3D,
          0x79] (by decide), [])] 2 1 1 endMarker) =
      ⟨"core", 2, 1, 1, 0, [.pass 1 42, .fail 2 "assert x==y"]⟩ := by
  decide

end TestBoard
