import TestBoard.Loop

/-!
# The telemetry stream as tokens

`parse_results` reads its buffer as a sequence of tokens: a byte that is no command code,
which the loop steps over, or a whole telemetry frame, which it applies. It stops at the
first header whose payload runs past the buffer, or with fewer than four bytes left. `lex`
splits a buffer that way into `Token`s and the bytes the loop never reads, the tail.

`lex_eq_iff` : `lex data = (ts, tail)` exactly when the tokens and the tail spell `data`, the
loop stops at the tail (`Stuck`), and the guard still holds at the last token (`Renders`).
So every frame the decoder applies stands in the buffer whole, after bytes that are no code,
and every such spelling is read back as it was written. `scan_eq_foldl_lex` : the decoder's
loop is the fold of the tokens' updates over the results.

`lex_append` : reading `b ++ c` reads `b`, then reads on from the tail of `b` with `c` after
it. So `parse_results` on a longer buffer is `parse_results` on the shorter one, resumed
from the tail where it stopped (`parseResults_append`): keeping that tail and reading on as
bytes arrive reports what one pass over the whole buffer reports.

`loop_induction` is the loop's recursion as an induction principle, one case for each way the
loop consumes bytes.
-/

namespace TestBoard

/-! ## Tokens -/

theorem be16_lt (hi lo : Byte) : be16 hi lo < 2 ^ 16 := by
  have := hi.isLt
  have := lo.isLt
  simp only [be16]
  omega

theorem ofNat_be16_div (hi lo : Byte) : (Fin.ofNat (be16 hi lo / 256) : Byte) = hi := by
  have := lo.isLt
  ext
  simp only [be16, ofNat_val]
  omega

theorem ofNat_be16 (hi lo : Byte) : (Fin.ofNat (be16 hi lo) : Byte) = lo := by
  ext
  simp only [be16, ofNat_val]
  omega

/-- A token of the stream: a byte the loop steps over, or a frame it applies. -/
inductive Token
  | noise (b : Byte) (h : b.val < 100 ∨ 105 < b.val)
  | frame (f : TelemetryFrame)

/-- The bytes a token stands for. -/
def Token.bytes : Token → Bytes
  | .noise b _ => [b]
  | .frame f => f.encode

/-- What the loop body does with a token. -/
def Token.apply : Token → Results → Results
  | .noise .., r => r
  | .frame f, r => applyCommand f.code.val f.payload r

/-- The frame the loop applies at the header `cmd hi lo`, followed by `body`. -/
def headerFrame (cmd hi lo : Byte) (hc : 100 ≤ cmd.val ∧ cmd.val ≤ 105) (body : Bytes) :
    TelemetryFrame :=
  ⟨cmd, body.take (be16 hi lo), hc.1, hc.2,
    lt_of_le_of_lt (List.length_take_le _ _) (be16_lt hi lo)⟩

theorem headerFrame_encode {cmd hi lo : Byte} (hc : 100 ≤ cmd.val ∧ cmd.val ≤ 105) {body : Bytes}
    (hl : be16 hi lo ≤ body.length) :
    (headerFrame cmd hi lo hc body).encode = cmd :: hi :: lo :: body.take (be16 hi lo) := by
  simp only [headerFrame, TelemetryFrame.encode, List.length_take, Nat.min_eq_left hl,
    ofNat_be16_div, ofNat_be16]

/-! ## The lexer -/

/-- The loop of `parse_results` on the unread bytes, for at most `fuel` iterations, keeping
what it reads instead of applying it. -/
def lexLoop : Nat → Bytes → List Token × Bytes
  | fuel + 1, cmd :: hi :: lo :: b :: rest =>
    if hc : cmd.val < 100 ∨ cmd.val > 105 then
      let p := lexLoop fuel (hi :: lo :: b :: rest)
      (.noise cmd hc :: p.1, p.2)
    else if be16 hi lo > (b :: rest).length then ([], cmd :: hi :: lo :: b :: rest)
    else
      let p := lexLoop fuel ((b :: rest).drop (be16 hi lo))
      (.frame (headerFrame cmd hi lo (by omega) (b :: rest)) :: p.1, p.2)
  | _, data => ([], data)

/-- The tokens of a buffer and the tail the loop stops at. -/
def lex (data : Bytes) : List Token × Bytes :=
  lexLoop data.length data

theorem lexLoop_fuel {m n : Nat} {data : Bytes} (hm : data.length ≤ m) (hn : data.length ≤ n) :
    lexLoop m data = lexLoop n data := by
  induction m generalizing n data with
  | zero =>
    obtain rfl : data = [] := List.eq_nil_of_length_eq_zero (by omega)
    cases n <;> rfl
  | succ m ih =>
    match data, n, hm, hn with
    | cmd :: hi :: lo :: b :: rest, n + 1, hm, hn =>
      simp only [List.length_cons] at hm hn
      dsimp only [lexLoop]
      split_ifs
      · rw [@ih n _ (by simp only [List.length_cons]; omega) (by simp only [List.length_cons]; omega)]
      · rfl
      · rw [@ih n _ (by simp only [List.length_drop, List.length_cons]; omega)
          (by simp only [List.length_drop, List.length_cons]; omega)]
    | [], _, _, _ | [_], _, _, _ | [_, _], _, _, _ | [_, _, _], _, _, _ => simp [lexLoop]
    | _ :: _ :: _ :: _ :: _, 0, _, hn => simp at hn

/-! ## The loop's recursion -/

/-- Induction along the loop: a property of every buffer follows from one case per way the
loop consumes bytes, with the bytes left after a skipped byte or an applied frame. -/
theorem loop_induction {motive : Bytes → Prop}
    (short : ∀ s : Bytes, s.length < 4 → motive s)
    (skip : ∀ (cmd : Byte) (rest : Bytes), (cmd.val < 100 ∨ 105 < cmd.val) → 3 ≤ rest.length →
      motive rest → motive (cmd :: rest))
    (overrun : ∀ (cmd hi lo : Byte) (body : Bytes), (100 ≤ cmd.val ∧ cmd.val ≤ 105) →
      body ≠ [] → body.length < be16 hi lo → motive (cmd :: hi :: lo :: body))
    (frame : ∀ (cmd hi lo : Byte) (body : Bytes), (100 ≤ cmd.val ∧ cmd.val ≤ 105) →
      body ≠ [] → be16 hi lo ≤ body.length → motive (body.drop (be16 hi lo)) →
        motive (cmd :: hi :: lo :: body))
    (s : Bytes) : motive s := by
  induction' hn : s.length using Nat.strong_induction_on with n ih generalizing s
  rcases scan_shape s with hs | ⟨cmd, rest, rfl, h3, hc⟩ | ⟨cmd, hi, lo, body, rfl, hb, hc⟩
  · exact short s hs
  · exact skip cmd rest hc h3 (ih _ (by simp [← hn]) rest rfl)
  · by_cases hl : body.length < be16 hi lo
    · exact overrun cmd hi lo body hc hb hl
    · exact frame cmd hi lo body hc hb (by omega) (ih _ (by simp [← hn]; omega) _ rfl)

section
variable {cmd hi lo : Byte} {body : Bytes}

theorem lex_short {data : Bytes} (h : data.length < 4) : lex data = ([], data) := by
  match data, h with
  | [], _ | [_], _ | [_, _], _ | [_, _, _], _ => rfl

theorem lex_skip {rest : Bytes} (hc : cmd.val < 100 ∨ 105 < cmd.val) (hr : 3 ≤ rest.length) :
    lex (cmd :: rest) = (.noise cmd hc :: (lex rest).1, (lex rest).2) := by
  match rest, hr with
  | hi :: lo :: b :: rest, _ =>
    simp only [lex, lexLoop.eq_1, List.length_cons, dif_pos (show cmd.val < 100 ∨ cmd.val > 105 from hc)]

theorem lex_overrun (hc : 100 ≤ cmd.val ∧ cmd.val ≤ 105) (hb : body ≠ [])
    (hl : body.length < be16 hi lo) : lex (cmd :: hi :: lo :: body) = ([], cmd :: hi :: lo :: body) := by
  obtain ⟨b, rest, rfl⟩ := List.exists_cons_of_ne_nil hb
  simp only [lex, lexLoop.eq_1, List.length_cons]
  rw [dif_neg (by omega), if_pos (by simpa using hl)]

theorem lex_frame (hc : 100 ≤ cmd.val ∧ cmd.val ≤ 105) (hb : body ≠ [])
    (hl : be16 hi lo ≤ body.length) :
    lex (cmd :: hi :: lo :: body) =
      (.frame (headerFrame cmd hi lo hc body) :: (lex (body.drop (be16 hi lo))).1,
        (lex (body.drop (be16 hi lo))).2) := by
  obtain ⟨b, rest, rfl⟩ := List.exists_cons_of_ne_nil hb
  simp only [lex, lexLoop.eq_1, List.length_cons]
  rw [dif_neg (by omega), if_neg (by simpa using hl),
    lexLoop_fuel (by simp only [List.length_drop, List.length_cons]; omega) le_rfl]

end

/-! ## What the lexer reads -/

/-- The loop stops at the start of these bytes: fewer than four are left, or a header's
payload runs past them. -/
def Stuck : Bytes → Prop
  | cmd :: hi :: lo :: b :: rest =>
    100 ≤ cmd.val ∧ cmd.val ≤ 105 ∧ (b :: rest).length < be16 hi lo
  | _ => True

instance : DecidablePred Stuck := fun s =>
  match s with
  | [] | [_] | [_, _] | [_, _, _] => isTrue trivial
  | cmd :: hi :: lo :: b :: rest =>
    inferInstanceAs (Decidable (100 ≤ cmd.val ∧ cmd.val ≤ 105 ∧ (b :: rest).length < be16 hi lo))

/-- The tokens `ts` and the tail `tail` are what the loop reads in `data`: they spell it, the
loop stops at the tail, and the guard holds at the last token. -/
structure Renders (data : Bytes) (ts : List Token) (tail : Bytes) : Prop where
  spell : ts.flatMap Token.bytes ++ tail = data
  stuck : Stuck tail
  guard : ∀ t ∈ ts.getLast?, 4 ≤ (t.bytes ++ tail).length

theorem lex_of_stuck {tail : Bytes} (h : Stuck tail) : lex tail = ([], tail) := by
  match tail, h with
  | [], _ | [_], _ | [_, _], _ | [_, _, _], _ => rfl
  | cmd :: hi :: lo :: b :: rest, ⟨h1, h2, h3⟩ =>
    exact lex_overrun ⟨h1, h2⟩ (List.cons_ne_nil b rest) h3

/-- The guard holds at every token when it holds at the last. -/
theorem Renders.four_le {data : Bytes} {ts : List Token} {tail : Bytes}
    (h : Renders data ts tail) (hts : ts ≠ []) : 4 ≤ data.length := by
  obtain ⟨ts, t, rfl⟩ := (List.eq_nil_or_concat ts).resolve_left hts
  have := h.guard t (by simp)
  rw [← h.spell]
  simp only [List.concat_eq_append, List.flatMap_append, List.length_append] at this ⊢
  simp only [List.flatMap_cons, List.flatMap_nil, List.append_nil] at this ⊢
  omega

/-- A token in front of a rendering renders the longer buffer, when the guard holds there. -/
theorem Renders.cons {rest data : Bytes} {ts : List Token} {tail : Bytes} (t : Token)
    (h : Renders rest ts tail) (hd : t.bytes ++ rest = data) (h4 : 4 ≤ data.length) :
    Renders data (t :: ts) tail := by
  refine ⟨by rw [List.flatMap_cons, List.append_assoc, h.spell, hd], h.stuck, fun t' ht' => ?_⟩
  cases ts with
  | nil =>
    obtain rfl : t' = t := by simpa using ht'.symm
    rwa [← List.nil_append tail, ← List.flatMap_nil, h.spell, hd]
  | cons u ts => exact h.guard t' (by rwa [List.getLast?_cons_cons] at ht')

/-- Every buffer is read as tokens that spell it, up to a tail the loop stops at. -/
theorem lex_renders (data : Bytes) : Renders data (lex data).1 (lex data).2 := by
  induction data using loop_induction with
  | short s hs => rw [lex_short hs]; exact ⟨rfl, by match s, hs with
      | [], _ | [_], _ | [_, _], _ | [_, _, _], _ => trivial, by simp⟩
  | skip cmd rest hc h3 ih =>
    rw [lex_skip hc h3]
    exact ih.cons _ rfl (by simp only [List.length_cons]; omega)
  | overrun cmd hi lo body hc hb hl =>
    rw [lex_overrun hc hb hl]
    obtain ⟨b, rest, rfl⟩ := List.exists_cons_of_ne_nil hb
    exact ⟨rfl, ⟨hc.1, hc.2, hl⟩, by simp⟩
  | frame cmd hi lo body hc hb hl ih =>
    rw [lex_frame hc hb hl]
    obtain ⟨b, rest, rfl⟩ := List.exists_cons_of_ne_nil hb
    exact ih.cons _ (by rw [Token.bytes, headerFrame_encode hc hl, List.cons_append,
      List.cons_append, List.cons_append, List.take_append_drop]) (by simp)

/-- Tokens and a tail that render a buffer are what `lex` reads there. -/
theorem lex_of_renders {data : Bytes} {ts : List Token} {tail : Bytes}
    (h : Renders data ts tail) : lex data = (ts, tail) := by
  induction ts generalizing data with
  | nil => rw [← h.spell]; exact lex_of_stuck h.stuck
  | cons t ts ih =>
    have hrest : Renders (ts.flatMap Token.bytes ++ tail) ts tail := by
      refine ⟨rfl, h.stuck, fun t' ht' => h.guard t' ?_⟩
      cases ts with
      | nil => cases ht'
      | cons u ts => rwa [List.getLast?_cons_cons]
    have h4 := h.four_le (List.cons_ne_nil t ts)
    rw [← h.spell, List.flatMap_cons, List.append_assoc] at h4 ⊢
    cases t with
    | noise b hb =>
      rw [Token.bytes, List.singleton_append] at h4 ⊢
      rw [lex_skip hb (by simp only [List.length_cons] at h4; omega), ih hrest]
    | frame f =>
      have hne : f.payload ++ (ts.flatMap Token.bytes ++ tail) ≠ [] := by
        intro he
        simp [Token.bytes, TelemetryFrame.encode, he] at h4
      rw [Token.bytes, TelemetryFrame.encode, List.cons_append, List.cons_append, List.cons_append,
        lex_frame ⟨f.code_ge, f.code_le⟩ hne (by rw [f.be16_length]; simp), f.be16_length,
        List.drop_left, ih hrest]
      congr
      simp only [headerFrame, f.be16_length, List.take_left]

theorem lex_eq_iff {data : Bytes} {ts : List Token} {tail : Bytes} :
    lex data = (ts, tail) ↔ Renders data ts tail :=
  ⟨fun h => by simpa only [h] using lex_renders data, lex_of_renders⟩

/-! ## Reading more bytes -/

/-- Tokens rendering `b`, followed by tokens rendering its tail with `c` appended, render
`b ++ c`. -/
theorem Renders.append {b c : Bytes} {ts ts' : List Token} {tail tail' : Bytes}
    (h : Renders b ts tail) (h' : Renders (tail ++ c) ts' tail') :
    Renders (b ++ c) (ts ++ ts') tail' := by
  refine ⟨by rw [List.flatMap_append, List.append_assoc, h'.spell, ← List.append_assoc, h.spell],
    h'.stuck, fun t ht => ?_⟩
  cases ts' with
  | nil =>
    have htail : tail' = tail ++ c := by simpa using h'.spell
    have := h.guard t (by simpa using ht)
    rw [htail, ← List.append_assoc, List.length_append]
    omega
  | cons t' ts' =>
    rw [List.getLast?_append_of_ne_nil _ (List.cons_ne_nil t' ts')] at ht
    exact h'.guard t ht

/-- Reading `b ++ c` is reading `b`, then reading on from the tail where the loop stopped,
with `c` after it. -/
theorem lex_append (b c : Bytes) :
    lex (b ++ c) = ((lex b).1 ++ (lex ((lex b).2 ++ c)).1, (lex ((lex b).2 ++ c)).2) :=
  lex_of_renders ((lex_renders b).append (lex_renders _))

/-! ## The loop as a fold over the tokens -/

/-- The decoder's loop applies the updates of the buffer's tokens, in order. -/
theorem scan_eq_foldl_lex (data : Bytes) (r : Results) :
    scan data r = (lex data).1.foldl (fun r t => t.apply r) r := by
  induction data using loop_induction generalizing r with
  | short s hs => rw [scan_short r hs, lex_short hs]; rfl
  | skip cmd rest hc h3 ih => rw [scan_skip r hc h3, lex_skip hc h3, ih]; rfl
  | overrun cmd hi lo body hc hb hl => rw [scan_overrun r hc hb hl, lex_overrun hc hb hl]; rfl
  | frame cmd hi lo body hc hb hl ih => rw [scan_frame r hc hb hl, lex_frame hc hb hl, ih]; rfl

/-- `parse_results` on a buffer with bytes appended resumes from where it stopped: it is the
loop from the tail it never read, followed by the new bytes, starting from the results of the
shorter buffer. -/
theorem parseResults_append (b c : Bytes) :
    parseResults (b ++ c) = scan ((lex b).2 ++ c) (parseResults b) := by
  rw [parseResults_eq_scan, parseResults_eq_scan, scan_eq_foldl_lex, scan_eq_foldl_lex,
    scan_eq_foldl_lex, lex_append, List.foldl_append]

end TestBoard
