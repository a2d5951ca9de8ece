import TestBoard.SerialLink

/-!
# Uploading an image

`uploadIso` is `SerialController.upload_iso` on the image bytes `d`. It sends `CMD_UPLOAD`
with the image length, and on `RSP_OK` writes the image in 64 KiB chunks (`chunkAt`),
reading a one-byte ack after each chunk and stopping at the first missing or bad ack.

`sendChunks_run` : from any link, the chunk loop writes chunks up to the first ack that is
not `RSP_OK` (`chunksSent`), reads one ack after each, and leaves the rest of the link
unread. `flatMap_chunkAt` : the chunks written so far are a prefix of the image, the whole
image once all `total_chunks` are written. `uploadIso_chunks` puts these together with
`sendCommand_open`.
-/

namespace TestBoard

/-- `CMD_UPLOAD` -/
def cmdUpload : Byte := 0x02

/-- `chunk_size = 64 * 1024` -/
def chunkSize : Nat := 64 * 1024

/-- `total_chunks = (len(data) + chunk_size - 1) // chunk_size` -/
def totalChunks (d : Bytes) : Nat := (d.length + chunkSize - 1) / chunkSize

/-- `data[i * chunk_size:(i + 1) * chunk_size]` -/
def chunkAt (d : Bytes) (i : Nat) : Bytes := (d.drop (i * chunkSize)).take chunkSize

/-- `self.serial.write(data)`, which raises on `self.serial = None`. -/
def serialWrite : Option Port → Bytes → Except SerialError Port
  | none, _ => .error .noSerial
  | some p, data => p.write data

/-- The `for i in range(total_chunks)` loop of `upload_iso` over the chunk indices `is`:
`true` when every ack is `RSP_OK`. -/
def sendChunks (d : Bytes) : List Nat → Option Port → Except SerialError (Bool × Option Port)
  | [], serial => .ok (true, serial)
  | i :: is, serial => do
    let p ← serialWrite serial (chunkAt d i)
    let (ack, p) ← p.read 1
    match ack with
    | a :: _ => if a ≠ rspOk then return (false, some p) else sendChunks d is (some p)
    | [] => return (false, some p)

/-- `upload_iso` on the image bytes `d`. -/
def uploadIso (serial : Option Port) (d : Bytes) : Except SerialError (Bool × Option Port) := do
  let some size := packLe32 d.length | throw .structError
  let ((rsp, _), serial) ← sendCommand serial cmdUpload size
  if rsp ≠ rspOk then return (false, serial)
  sendChunks d (List.range (totalChunks d)) serial

/-! ## The chunk loop on any link -/

/-- The number of `RSP_OK` bytes at the head of the link, each before any silence. -/
def okRun : List Rx → Nat
  | .byte b :: rx => if b = rspOk then okRun rx + 1 else 0
  | _ => 0

/-- What a one-byte read gets after `i` one-byte reads on the link `rx`. -/
def ackAt (rx : List Rx) (i : Nat) : Bytes := (takeRx 1 (rx.drop i)).1

/-- The chunks `s`, ..., `s + k - 1`, each written and followed by the read of its ack, the
acks coming from the link `rx`. -/
def chunkTrace (d : Bytes) (rx : List Rx) (s k : Nat) : List PortEvent :=
  (List.range' s k).flatMap fun i => [.write (chunkAt d i), .read 1 (ackAt rx (i - s))]

/-- How many of `n` chunks the loop writes on the link `rx`: all of them when each gets an
`RSP_OK` ack, and otherwise up to the first missing or bad ack. -/
def chunksSent (n : Nat) (rx : List Rx) : Nat :=
  if n ≤ okRun rx then n else okRun rx + 1

theorem chunkTrace_zero (d : Bytes) (rx : List Rx) (s : Nat) : chunkTrace d rx s 0 = [] := rfl

theorem chunkTrace_succ (d : Bytes) (r : Rx) (rx : List Rx) (s k : Nat) :
    chunkTrace d (r :: rx) s (k + 1) =
      .write (chunkAt d s) :: .read 1 (takeRx 1 (r :: rx)).1 :: chunkTrace d rx (s + 1) k := by
  simp only [chunkTrace, List.range'_succ, List.flatMap_cons, Nat.sub_self, List.cons_append,
    List.nil_append]
  refine congrArg _ (congrArg _ (List.flatMap_congr fun i hi => ?_))
  obtain ⟨j, rfl⟩ : ∃ j, i = s + 1 + j := ⟨i - (s + 1), by simp at hi; omega⟩
  rw [show s + 1 + j - s = j + 1 by omega, show s + 1 + j - (s + 1) = j by omega]
  rfl

theorem chunkTrace_one (d : Bytes) (rx : List Rx) (s : Nat) :
    chunkTrace d rx s 1 = [.write (chunkAt d s), .read 1 (takeRx 1 rx).1] := by
  simp [chunkTrace, ackAt]

/-- The loop over chunks `s`, ..., `s + n - 1`: it succeeds when the link acks all of them, and
writes and acks the chunks up to the first missing or bad ack. -/
theorem sendChunks_run (d : Bytes) (n : Nat) : ∀ (s : Nat) (q : Port), q.isOpen = true →
    sendChunks d (List.range' s n) (some q) =
      .ok (decide (n ≤ okRun q.inbound),
        some { q with inbound := q.inbound.drop (chunksSent n q.inbound),
                      log := q.log ++ chunkTrace d q.inbound s (chunksSent n q.inbound) }) := by
  induction n with
  | zero => intro s q _; simp [sendChunks, chunksSent, chunkTrace_zero]
  | succ n ih =>
    intro s q hq
    simp only [List.range'_succ, sendChunks, serialWrite, Port.write_open hq, except_ok_bind]
    rw [Port.read_open (by exact hq)]
    simp only [except_ok_bind]
    match hrx : q.inbound with
    | [] => simp [hrx, takeRx, okRun, chunksSent, chunkTrace_one]
    | .gap :: rx => simp [hrx, takeRx, okRun, chunksSent, chunkTrace_one]
    | .byte b :: rx =>
      by_cases hb : b = rspOk
      · subst hb
        have hsent : chunksSent (n + 1) (.byte rspOk :: rx) = chunksSent n rx + 1 := by
          simp only [chunksSent, okRun, if_true]
          split_ifs <;> omega
        simp only [hrx, takeRx, ne_eq, not_true_eq_false, if_false]
        refine (ih (s + 1) _ ?_).trans ?_
        · exact hq
        simp [hsent, chunkTrace_succ, hrx, okRun, takeRx]
      · simp [hrx, takeRx, okRun, hb, chunksSent, chunkTrace_one]

/-! ## The acks and the chunks -/

theorem ackAt_of_lt_okRun {rx : List Rx} {i : Nat} (h : i < okRun rx) : ackAt rx i = [rspOk] := by
  induction rx generalizing i with
  | nil => simp [okRun] at h
  | cons r rx ih =>
    match r, i with
    | .gap, _ => simp [okRun] at h
    | .byte b, i =>
      by_cases hb : b = rspOk
      · subst hb
        cases i with
        | zero => rfl
        | succ i => exact ih (by simpa [okRun] using h)
      · simp [okRun, hb] at h

theorem ackAt_okRun (rx : List Rx) : ackAt rx (okRun rx) ≠ [rspOk] := by
  induction rx with
  | nil => simp [ackAt, takeRx]
  | cons r rx ih =>
    match r with
    | .gap => simp [ackAt, okRun, takeRx]
    | .byte b =>
      by_cases hb : b = rspOk
      · subst hb
        simpa [okRun, ackAt] using ih
      · simp [ackAt, okRun, takeRx, hb]

theorem flatMap_chunkAt (d : Bytes) (m : Nat) :
    (List.range m).flatMap (chunkAt d) = d.take (m * chunkSize) := by
  induction m with
  | zero => simp
  | succ m ih => rw [List.range_succ, List.flatMap_append, ih, List.flatMap_singleton, chunkAt,
      Nat.succ_mul, List.take_add]

theorem chunkAt_length {d : Bytes} {i : Nat} (h : i + 1 < totalChunks d) :
    (chunkAt d i).length = chunkSize := by
  simp only [totalChunks, chunkSize] at h
  simp only [chunkAt, List.length_take, List.length_drop, chunkSize]
  omega

theorem take_totalChunks (d : Bytes) : d.take (totalChunks d * chunkSize) = d :=
  List.take_of_length_le (by simp only [totalChunks, chunkSize]; omega)

/-! ## `upload_iso` -/

/-- `upload_iso` after the reply to `CMD_UPLOAD`: it writes no chunk when the reply is not
`RSP_OK`, and otherwise runs the chunk loop over all `total_chunks`. -/
theorem uploadIso_of_sendCommand {d : Bytes} (hd : d.length < 2 ^ 32) {p₀ p₁ : Port} {rsp : Byte}
    {rspData : Bytes}
    (hsend : sendCommand (some p₀) cmdUpload (le32 d.length) = .ok ((rsp, rspData), some p₁))
    (hp₁ : p₁.isOpen = true) :
    uploadIso (some p₀) d =
      .ok (decide (rsp = rspOk ∧ totalChunks d ≤ okRun p₁.inbound),
        some { p₁ with
          inbound :=
            p₁.inbound.drop (if rsp = rspOk then chunksSent (totalChunks d) p₁.inbound else 0),
          log := p₁.log ++ chunkTrace d p₁.inbound 0
            (if rsp = rspOk then chunksSent (totalChunks d) p₁.inbound else 0) }) := by
  rw [uploadIso, packLe32_of_lt hd]
  dsimp only
  rw [hsend, except_ok_bind]
  dsimp only
  by_cases hr : rsp = rspOk
  · rw [if_neg (not_not.mpr hr), List.range_eq_range', sendChunks_run d _ 0 p₁ hp₁]
    simp [hr]
  · rw [if_pos hr]
    simp [hr, chunkTrace_zero]

/-- From an open port, `upload_iso` returns and leaves the port open. -/
theorem uploadIso_open {d : Bytes} (hd : d.length < 2 ^ 32) {p₀ : Port} (hp : p₀.isOpen = true) :
    ∃ b p₁, uploadIso (some p₀) d = .ok (b, some p₁) ∧ p₁.isOpen = true := by
  obtain ⟨⟨rsp, rspData⟩, p₁, -, hsend, hp₁, -⟩ :=
    sendCommand_open hp cmdUpload (show (le32 d.length).length < 2 ^ 32 by simp)
  exact ⟨_, _, uploadIso_of_sendCommand hd hsend hp₁, hp₁⟩

/-- `upload_iso` on an open port: it first writes the `UPLOAD` frame. It then writes `m`
chunks, each followed by the read of its ack, and returns `True` exactly when the reply is
`RSP_OK` and every chunk is acked `RSP_OK`. The chunks are full but for the last, and
together a prefix of the image, the whole image on success. On failure `m` is 0 when the
reply is not `RSP_OK`, and otherwise the 1-based index of the first ack that is not
`RSP_OK`. -/
theorem uploadIso_chunks (d : Bytes) (hd : d.length < 2 ^ 32) (p₀ : Port) (hp : p₀.isOpen = true) :
    ∃ rsp rspData p₁ reads m,
      sendCommand (some p₀) cmdUpload (le32 d.length) = .ok ((rsp, rspData), some p₁) ∧
      p₁.log = p₀.log ++ .write (cmdUpload :: le32 4 ++ le32 d.length) :: reads ∧
      (∀ ev ∈ reads, ev.IsRead) ∧
      uploadIso (some p₀) d =
        .ok (decide (rsp = rspOk ∧ totalChunks d ≤ okRun p₁.inbound),
          some { p₁ with inbound := p₁.inbound.drop m,
                         log := p₁.log ++ chunkTrace d p₁.inbound 0 m }) ∧
      (∀ i, i + 1 < totalChunks d → (chunkAt d i).length = chunkSize) ∧
      (List.range m).flatMap (chunkAt d) <+: d ∧
      (rsp = rspOk ∧ totalChunks d ≤ okRun p₁.inbound →
        m = totalChunks d ∧ (List.range m).flatMap (chunkAt d) = d) ∧
      (¬(rsp = rspOk ∧ totalChunks d ≤ okRun p₁.inbound) →
        (rsp ≠ rspOk ∧ m = 0) ∨
        (rsp = rspOk ∧ 0 < m ∧ m ≤ totalChunks d ∧
          (∀ i, i + 1 < m → ackAt p₁.inbound i = [rspOk]) ∧
          ackAt p₁.inbound (m - 1) ≠ [rspOk])) := by
  obtain ⟨⟨rsp, rspData⟩, p₁, reads, hsend, hp₁, hlog, hreads⟩ :=
    sendCommand_open hp cmdUpload (show (le32 d.length).length < 2 ^ 32 by simp)
  have hup := uploadIso_of_sendCommand hd hsend hp₁
  rw [le32_length] at hlog
  by_cases hr : rsp = rspOk
  · rw [if_pos hr] at hup
    refine ⟨rsp, rspData, p₁, reads, chunksSent (totalChunks d) p₁.inbound, hsend, hlog, hreads,
      hup, fun i => chunkAt_length, ?_, fun h => ?_, fun h => .inr ?_⟩
    · rw [flatMap_chunkAt]
      exact List.take_prefix _ _
    · have hm : chunksSent (totalChunks d) p₁.inbound = totalChunks d := if_pos h.2
      rw [hm, flatMap_chunkAt, take_totalChunks]
      exact ⟨rfl, rfl⟩
    · have hlt : okRun p₁.inbound < totalChunks d := by simpa [hr] using h
      have hm : chunksSent (totalChunks d) p₁.inbound = okRun p₁.inbound + 1 := if_neg (by omega)
      rw [hm]
      exact ⟨hr, by omega, by omega, fun i hi => ackAt_of_lt_okRun (by omega), ackAt_okRun _⟩
  · rw [if_neg hr] at hup
    exact ⟨rsp, rspData, p₁, reads, 0, hsend, hlog, hreads, hup, fun i => chunkAt_length,
      by simp, fun h => absurd h.1 hr, fun _ => .inl ⟨hr, rfl⟩⟩

/-- A three-byte image, one chunk: the board accepts the upload and acks the chunk, and
`upload_iso` writes the frame, then the chunk, and returns `True`. -/
theorem uploadIso_chunks_acked :
    ([7, 8, 9] : Bytes).length < 2 ^ 32 ∧
      uploadIso (some ⟨true, (rspOk :: le32 0).map .byte ++ [.byte rspOk], []⟩) [7, 8, 9] =
        .ok (true, some ⟨true, [], [.write (cmdUpload :: le32 4 ++ le32 3), .read 1 [rspOk],
          .read 4 (le32 0), .write [7, 8, 9], .read 1 [rspOk]]⟩) ∧
      ∃ rsp rspData p₁ reads m,
        sendCommand (some ⟨true, (rspOk :: le32 0).map .byte ++ [.byte rspOk], []⟩) cmdUpload
            (le32 3) = .ok ((rsp, rspData), some p₁) ∧
        p₁.log = [] ++ .write (cmdUpload :: le32 4 ++ le32 3) :: reads ∧
        uploadIso (some ⟨true, (rspOk :: le32 0).map .byte ++ [.byte rspOk], []⟩) [7, 8, 9] =
          .ok (decide (rsp = rspOk ∧ totalChunks [7, 8, 9] ≤ okRun p₁.inbound),
            some { p₁ with inbound := p₁.inbound.drop m,
                           log := p₁.log ++ chunkTrace [7, 8, 9] p₁.inbound 0 m }) ∧
        (rsp = rspOk ∧ totalChunks [7, 8, 9] ≤ okRun p₁.inbound →
          m = totalChunks [7, 8, 9] ∧ (List.range m).flatMap (chunkAt [7, 8, 9]) = [7, 8, 9]) := by
  obtain ⟨rsp, rspData, p₁, reads, m, hs, hl, -, hup, -, -, hok, -⟩ :=
    uploadIso_chunks [7, 8, 9] (by decide) ⟨true, (rspOk :: le32 0).map .byte ++ [.byte rspOk], []⟩ rfl
  exact ⟨by decide, rfl, rsp, rspData, p₁, reads, m, hs, hl, hup, hok⟩

end TestBoard
