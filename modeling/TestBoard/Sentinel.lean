import TestBoard.Capture
import TestBoard.Report

/-!
# The end marker after a report

The capture thread tests for the marker after every byte, whatever frame the byte belongs
to. `not_infix_encodeFrames` : the frames a kernel writes never hold the marker. A frame's
code is no marker byte. A six-byte frame is too short to hold the marker after its code,
and in a frame with a number and UTF-8 text the marker's `0xFE` would fall in the text,
which no encoding holds. An occurrence cannot straddle two pieces either when the second
starts with a command code (`not_infix_append`).

`captureUart_waits_for_report_end` : after console output without the marker, the capture
thread stops exactly at the marker that follows a report, with the whole report in
`uart_data`.
-/

namespace TestBoard

/-- The frames of a report one after another. -/
def encodeFrames (R : List TelemetryFrame) : Bytes :=
  R.flatMap TelemetryFrame.encode

/-- A frame as the kernel writes it: six payload bytes for `TEST_PASS` and `SUITE_END`,
otherwise a two-byte number and UTF-8 text. -/
def ReportFrame (f : TelemetryFrame) : Prop :=
  if f.code.val = cmdTestPass ∨ f.code.val = cmdTestSuiteEnd then f.payload.length = 6
  else ∃ n0 n1 s, f.payload = n0 :: n1 :: encode s

/-- An occurrence in two pieces lies in one of them when the second starts with no marker
byte. -/
theorem not_infix_append {a b : Bytes} (ha : ¬endMarker <:+: a) (hb : ¬endMarker <:+: b)
    (hhead : ∀ x ∈ b.head?, x ∉ endMarker) : ¬endMarker <:+: a ++ b := by
  induction a with
  | nil => simpa using hb
  | cons x a ih =>
    intro h
    rw [List.cons_append] at h
    rcases List.infix_cons_iff.mp h with hp | hi
    · rw [← List.cons_append] at hp
      rcases Nat.lt_or_ge (x :: a).length 8 with hk | hk
      · have hb' : endMarker[(x :: a).length]? = b.head? := by
          rw [List.prefix_iff_eq_take.mp hp, List.getElem?_take_of_lt (by simpa using hk),
            List.getElem?_append_right le_rfl, Nat.sub_self, List.head?_eq_getElem?]
        rw [List.getElem?_eq_getElem (by simpa using hk)] at hb'
        exact hhead _ (by rw [← hb']; rfl) (List.getElem_mem _)
      · exact ha (List.prefix_of_prefix_length_le hp (List.prefix_append _ b)
          (by simpa using hk)).isInfix
    · exact ih (fun h' => ha (List.infix_cons h')) hi

theorem code_not_mem_endMarker (f : TelemetryFrame) : f.code ∉ endMarker := fun h => by
  have := endMarker_not_code _ h
  have := f.code_ge
  have := f.code_le
  omega

/-- No frame of a report holds the marker. -/
theorem not_infix_encode {f : TelemetryFrame} (hf : ReportFrame f) : ¬endMarker <:+: f.encode := by
  have hshape : f.payload.length = 6 ∨ ∃ n0 n1 s, f.payload = n0 :: n1 :: encode s := by
    unfold ReportFrame at hf
    split_ifs at hf
    exacts [.inl hf, .inr hf]
  intro hm
  rw [TelemetryFrame.encode, List.infix_cons_iff] at hm
  rcases hm with hp | hi
  · exact code_not_mem_endMarker f ((List.cons_prefix_cons.mp hp).1 ▸ by decide)
  · rcases hshape with h6 | ⟨n0, n1, s, hs⟩
    · have := congrArg List.head? (hi.eq_of_length (by simp [h6]))
      simp [endMarker, h6] at this
      exact absurd this (by decide)
    · rw [hs] at hi
      exact fe_not_mem_encode s (mem_of_infix_append (a := [_, _, n0, n1]) hi (by simp))

/-- No report holds the marker. -/
theorem not_infix_encodeFrames {R : List TelemetryFrame} (hR : ∀ f ∈ R, ReportFrame f) :
    ¬endMarker <:+: encodeFrames R := by
  induction R with
  | nil => simp [encodeFrames, endMarker]
  | cons f R ih =>
    simp only [List.mem_cons, forall_eq_or_imp] at hR
    rw [encodeFrames, List.flatMap_cons]
    refine not_infix_append (not_infix_encode hR.1) (ih hR.2) ?_
    cases R with
    | nil => simp
    | cons g R => simpa [encodeFrames, TelemetryFrame.encode] using code_not_mem_endMarker g

/-- A report between marker-free console output and the marker: the report holds no marker,
the marker after it is its first occurrence, and the capture thread stops right after that
marker with the flag set. -/
theorem captureUart_waits_for_report_end (R : List TelemetryFrame) (hR : ∀ f ∈ R, ReportFrame f)
    (P T : Bytes) (hP : ¬endMarker <:+: P) :
    ¬endMarker <:+: encodeFrames R ∧
      FirstMarkerPrefix (encodeFrames R ++ endMarker) (encodeFrames R ++ endMarker) ∧
      ∃ n c, runCapture n (Capture.start (P ++ encodeFrames R ++ endMarker ++ T)) = c ∧
        c.pc = .exited ∧ c.testComplete = true ∧ c.uartData = P ++ encodeFrames R ++ endMarker := by
  have hR' := not_infix_encodeFrames hR
  have hPR : ¬endMarker <:+: P ++ encodeFrames R := by
    refine not_infix_append hP hR' ?_
    cases R with
    | nil => simp [encodeFrames]
    | cons g R => simpa [encodeFrames, TelemetryFrame.encode] using code_not_mem_endMarker g
  have hfirst := firstMarkerPrefix_append T hPR
  obtain ⟨n, hn⟩ := runCapture_start (P ++ encodeFrames R ++ endMarker ++ T)
  have hloop := captureLoop_first_marker [] (P ++ encodeFrames R ++ endMarker ++ T)
    noMarkerPrefix_nil
  rw [List.nil_append] at hloop
  obtain ⟨hpc, hmark, -⟩ := hloop
  obtain ⟨hdata, hflag, -⟩ := hmark (hfirst.2.1.isInfix.trans hfirst.1.isInfix)
  exact ⟨hR', by simpa using firstMarkerPrefix_append [] hR', n, _, hn, hpc, hflag,
    hdata.unique hfirst⟩

/-- A report of one passed test, with no console output before it. -/
theorem captureUart_waits_for_pass_report :
    ReportFrame (ResultFrame.pass 1 42).toFrame ∧ ¬endMarker <:+: ([] : Bytes) ∧
      ∃ n c, runCapture n (Capture.start ([] ++ encodeFrames [(ResultFrame.pass 1 42).toFrame] ++
          endMarker ++ [])) = c ∧ c.testComplete = true := by
  have hR : ReportFrame (ResultFrame.pass 1 42).toFrame := by
    simp [ReportFrame, ResultFrame.toFrame, numBytes, cmdTestPass]
  have hP : ¬endMarker <:+: ([] : Bytes) := by simp [endMarker]
  obtain ⟨-, -, n, c, hn, -, hc, -⟩ := captureUart_waits_for_report_end
    [(ResultFrame.pass 1 42).toFrame] (by simpa using hR) [] [] hP
  exact ⟨hR, hP, n, c, hn, hc⟩

end TestBoard
