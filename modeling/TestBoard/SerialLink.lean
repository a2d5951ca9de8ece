import TestBoard.Bytes

/-!
# The serial control channel

`SerialController` talks to the board over a pyserial port opened with a one-second read
timeout. The link is a list of `Rx`: bytes the board sends, and `gap`s. A gap is a silence
long enough for a pending read to time out. `read(n)` returns up to `n` bytes and returns
early at a gap (`takeRx`). A closed port raises `PortNotOpenError` on every read and write.
The port records what the controller did on it, in order (`Port.log`).

`sendCommand` is `send_command`: write `[CMD:1][LEN:4][DATA:N]`, then read the response
frame of the same shape. `sendCommand_open` : on an open port it writes the frame once and
then only reads. `sendCommand_response` : on a full response frame it returns the frame's
code and payload and leaves the rest of the link unread. `sendCommand_cut_short` : a
response cut short gives `RSP_ERROR` only when nothing came. A code alone gives that code
with an empty payload, and a short payload the code with the bytes that came, so
`sendCommand_lone_ok` : a lone `RSP_OK` byte reads as success.
-/

namespace TestBoard

/-- What the board sends: a byte, or a silence that makes a pending read time out. -/
inductive Rx
  | byte (b : Byte)
  | gap
  deriving DecidableEq, Repr

/-- An operation of the controller on the port. -/
inductive PortEvent
  | write (data : Bytes)
  | read (n : Nat) (got : Bytes)
  deriving DecidableEq, Repr

/-- The operation is a read. -/
def PortEvent.IsRead : PortEvent → Prop
  | .read .. => True
  | .write _ => False

/-- A `serial.Serial` port: whether it is open, what the board is still to send, and what the
controller has done on it. -/
structure Port where
  isOpen : Bool
  inbound : List Rx
  log : List PortEvent
  deriving DecidableEq, Repr

/-- The exceptions these paths can raise: pyserial's `PortNotOpenError`, `struct.error`, and
the `AttributeError` of a call on `self.serial = None`. -/
inductive SerialError
  | portNotOpen
  | structError
  | noSerial
  deriving DecidableEq, Repr

/-- The bytes `read(n)` returns and the link after it: up to `n` bytes, fewer when a silence
comes first. -/
def takeRx : Nat → List Rx → Bytes × List Rx
  | 0, rx => ([], rx)
  | _ + 1, [] => ([], [])
  | _ + 1, .gap :: rx => ([], rx)
  | n + 1, .byte b :: rx => ((b :: (takeRx n rx).1), (takeRx n rx).2)

/-- `port.write(data)` -/
def Port.write (p : Port) (data : Bytes) : Except SerialError Port :=
  if p.isOpen then .ok { p with log := p.log ++ [.write data] } else .error .portNotOpen

/-- `port.read(n)` -/
def Port.read (p : Port) (n : Nat) : Except SerialError (Bytes × Port) :=
  if p.isOpen then
    .ok ((takeRx n p.inbound).1,
      { p with inbound := (takeRx n p.inbound).2,
               log := p.log ++ [.read n (takeRx n p.inbound).1] })
  else .error .portNotOpen

/-- `port.close()` -/
def Port.close (p : Port) : Port :=
  { p with isOpen := false }

@[simp] theorem except_ok_bind {α β : Type} (a : α) (f : α → Except SerialError β) :
    (Except.ok a >>= f) = f a := rfl

@[simp] theorem except_error_bind {α β : Type} (e : SerialError) (f : α → Except SerialError β) :
    (Except.error e >>= f) = .error e := rfl

@[simp] theorem except_map_ok {α β : Type} (a : α) (f : α → β) :
    (f <$> (Except.ok a : Except SerialError α)) = .ok (f a) := rfl

@[simp] theorem except_pure {α : Type} (a : α) : (pure a : Except SerialError α) = .ok a := rfl

section
variable {p : Port} (hp : p.isOpen = true)
include hp

theorem Port.write_open (data : Bytes) :
    p.write data = .ok { p with log := p.log ++ [.write data] } :=
  if_pos hp

theorem Port.read_open (n : Nat) :
    p.read n = .ok ((takeRx n p.inbound).1,
      { p with inbound := (takeRx n p.inbound).2,
               log := p.log ++ [.read n (takeRx n p.inbound).1] }) :=
  if_pos hp

end

section
variable {p : Port} (hp : p.isOpen = false)
include hp

theorem Port.write_closed (data : Bytes) : p.write data = .error .portNotOpen := by
  simp [Port.write, hp]

end

theorem takeRx_bytes (bs : Bytes) (rest : List Rx) :
    takeRx bs.length (bs.map .byte ++ rest) = (bs, rest) := by
  induction bs with
  | nil => rfl
  | cons b bs ih => simp [takeRx, ih]

/-! ## `send_command` -/

/-- `RSP_OK` -/
def rspOk : Byte := 0x10
/-- `RSP_ERROR` -/
def rspError : Byte := 0x11
/-- `RSP_DATA` -/
def rspData : Byte := 0x13
/-- `RSP_STATUS` -/
def rspStatus : Byte := 0x14

/-- `bytes([code]) + struct.pack('<I', len(payload)) + payload`, the frame shape of both
directions, or `none` where `struct.pack` raises. -/
def packFrame (code : Byte) (payload : Bytes) : Option Bytes :=
  (packLe32 payload.length).map fun len => code :: len ++ payload

/-- `send_command(cmd, data)` on `self.serial`: the response code and data, and the port
after. -/
def sendCommand (serial : Option Port) (cmd : Byte) (data : Bytes) :
    Except SerialError ((Byte × Bytes) × Option Port) :=
  match serial with
  | none => .ok ((rspError, []), none)
  | some p => do
    let some packet := packFrame cmd data | throw .structError
    let p ← p.write packet
    let (rsp, p) ← p.read 1
    match rsp with
    | [] => return ((rspError, []), some p)
    | rspCode :: _ =>
      let (lenBytes, p) ← p.read 4
      match lenBytes with
      | [b0, b1, b2, b3] =>
        let dataLen := unpackLe32 b0 b1 b2 b3
        if dataLen > 0 then
          let (rspData, p) ← p.read dataLen
          return ((rspCode, rspData), some p)
        else return ((rspCode, []), some p)
      | _ => return ((rspCode, []), some p)

theorem packFrame_of_lt {code : Byte} {payload : Bytes} (h : payload.length < 2 ^ 32) :
    packFrame code payload = some (code :: le32 payload.length ++ payload) := by
  simp [packFrame, packLe32_of_lt h]

/-- On an open port, `send_command` writes its frame and then only reads, and the port stays
open. -/
theorem sendCommand_open {p : Port} (hp : p.isOpen = true) (cmd : Byte) {data : Bytes}
    (hd : data.length < 2 ^ 32) :
    ∃ r q reads, sendCommand (some p) cmd data = .ok (r, some q) ∧ q.isOpen = true ∧
      q.log = p.log ++ .write (cmd :: le32 data.length ++ data) :: reads ∧
      ∀ ev ∈ reads, ev.IsRead := by
  simp only [sendCommand, packFrame_of_lt hd, Port.write_open hp, except_ok_bind]
  rw [Port.read_open (by exact hp)]
  simp only [except_ok_bind]
  split
  -- a response code came: read the length field
  case' h_2 =>
    rw [Port.read_open (by exact hp)]
    simp only [except_ok_bind]
    split
    -- the four length bytes came: read the payload if one is announced
    case' h_1 =>
      split
      case' isTrue => rw [Port.read_open (by exact hp)]
  all_goals exact ⟨_, _, _, rfl, hp, by simp only [List.append_assoc, List.singleton_append]; rfl,
    by simp [PortEvent.IsRead]⟩

/-- On a closed port, `send_command` raises at its write. -/
theorem sendCommand_closed {p : Port} (hp : p.isOpen = false) (cmd : Byte) {data : Bytes}
    (hd : data.length < 2 ^ 32) : sendCommand (some p) cmd data = .error .portNotOpen := by
  simp only [sendCommand, packFrame_of_lt hd, Port.write_closed hp, except_error_bind]

/-- A full response frame is decoded to its code and payload, and the rest of the link is
left for the next command. -/
theorem sendCommand_response (p₀ : Port) (hp : p₀.isOpen = true) (cmd : Byte) (data : Bytes)
    (hd : data.length < 2 ^ 32) (c : Byte) (payload : Bytes) (hpl : payload.length < 2 ^ 32)
    (rest : List Rx) (hin : p₀.inbound = (c :: le32 payload.length ++ payload).map .byte ++ rest) :
    ∃ p', sendCommand (some p₀) cmd data = .ok ((c, payload), some p') ∧
      p'.inbound = rest ∧ p'.isOpen = true := by
  obtain ⟨b0, b1, b2, b3, hle, hun⟩ : ∃ b0 b1 b2 b3,
      le32 payload.length = [b0, b1, b2, b3] ∧ unpackLe32 b0 b1 b2 b3 = payload.length :=
    ⟨_, _, _, _, rfl, unpackLe32_le32 hpl⟩
  rw [hle] at hin
  simp only [sendCommand, packFrame_of_lt hd, hp, Port.write_open, Port.read_open, hin, takeRx,
    hun, List.map_cons, List.cons_append, List.singleton_append, List.append_assoc, except_ok_bind,
    except_pure, gt_iff_lt]
  rcases Nat.eq_zero_or_pos payload.length with h0 | h0
  · obtain rfl := List.eq_nil_of_length_eq_zero h0
    simp
  · simp [h0, takeRx_bytes]

/-- A status reply with a one-byte payload. -/
theorem sendCommand_response_status :
    ([] : Bytes).length < 2 ^ 32 ∧ ([0x03] : Bytes).length < 2 ^ 32 ∧
      ∃ p', sendCommand (some ⟨true, (rspStatus :: le32 1 ++ [0x03]).map .byte, []⟩) 0x05 [] =
        .ok ((rspStatus, [0x03]), some p') ∧ p'.inbound = [] ∧ p'.isOpen = true :=
  ⟨by decide, by decide, sendCommand_response ⟨true, (rspStatus :: le32 1 ++ [0x03]).map .byte, []⟩
    rfl 0x05 [] (by decide) rspStatus [0x03] (by decide) [] rfl⟩

/-- Nothing arrives before the next read times out. -/
def Silent : List Rx → Prop
  | [] => True
  | .gap :: _ => True
  | .byte _ :: _ => False

theorem takeRx_silent {n : Nat} {bs : Bytes} {rx : List Rx} (h : bs.length < n) (hs : Silent rx) :
    (takeRx n (bs.map .byte ++ rx)).1 = bs := by
  induction bs generalizing n with
  | nil =>
    obtain ⟨n, rfl⟩ := Nat.exists_eq_add_of_lt h
    match rx, hs with
    | [], _ | .gap :: _, _ => rfl
  | cons b bs ih =>
    obtain ⟨n, rfl⟩ := Nat.exists_eq_add_of_lt (Nat.zero_lt_of_lt h)
    show b :: (takeRx (0 + n) (bs.map .byte ++ rx)).1 = b :: bs
    rw [ih (by simp at h; omega)]

/-- A response cut short: `RSP_ERROR` when nothing came, the received code with an empty
payload when the length field is cut short, and the code with the bytes that came when the
payload is. -/
theorem sendCommand_cut_short (p₀ : Port) (hp : p₀.isOpen = true) (cmd : Byte) (data : Bytes)
    (hd : data.length < 2 ^ 32) (rx : List Rx) (hs : Silent rx) (c : Byte) (bs : Bytes)
    (hbs : bs.length < 4) (n : Nat) (hn : n < 2 ^ 32) (ps : Bytes) (hps : ps.length < n) :
    Prod.fst <$> sendCommand (some { p₀ with inbound := rx }) cmd data = .ok (rspError, []) ∧
      Prod.fst <$> sendCommand (some { p₀ with inbound := .byte c :: (bs.map .byte ++ rx) }) cmd
        data = .ok (c, []) ∧
      Prod.fst <$> sendCommand
        (some { p₀ with inbound := .byte c :: ((le32 n ++ ps).map .byte ++ rx) }) cmd data =
          .ok (c, ps) := by
  refine ⟨?_, ?_, ?_⟩
  · have h0 : (takeRx 1 rx).1 = [] := @takeRx_silent 1 [] rx Nat.zero_lt_one hs
    simp only [sendCommand, packFrame_of_lt hd, hp, Port.write_open, except_pure, except_ok_bind,
      Port.read_open, h0, Except.map_ok]
  · simp only [sendCommand, packFrame_of_lt hd, hp, Port.write_open, except_pure, except_ok_bind,
      Port.read_open, takeRx, takeRx_silent hbs hs]
    match bs, hbs with
    | [], _ | [_], _ | [_, _], _ | [_, _, _], _ => rfl
  · obtain ⟨b0, b1, b2, b3, hle, hun⟩ :
        ∃ b0 b1 b2 b3, le32 n = [b0, b1, b2, b3] ∧ unpackLe32 b0 b1 b2 b3 = n :=
      ⟨_, _, _, _, rfl, unpackLe32_le32 hn⟩
    rw [hle]
    simp only [sendCommand, packFrame_of_lt hd, hp, List.map_cons, List.cons_append,
      List.nil_append, Port.write_open, except_ok_bind, Port.read_open, takeRx, hun, gt_iff_lt,
      Nat.zero_lt_of_lt hps, if_true, takeRx_silent hps hs, except_pure, Except.map_ok]

/-- Silence after a ping, and a ping answered by a code alone. -/
theorem sendCommand_cut_short_ping :
    Silent [] ∧ ([0x00, 0x00] : Bytes).length < 4 ∧
      Prod.fst <$> sendCommand (some ⟨true, [], []⟩) 0x01 [] = .ok (rspError, []) ∧
      Prod.fst <$> sendCommand (some ⟨true, .byte rspOk :: ([0x00, 0x00].map .byte ++ []), []⟩)
        0x01 [] = .ok (rspOk, []) :=
  ⟨trivial, by decide, (sendCommand_cut_short ⟨true, [], []⟩ rfl 0x01 [] (by decide) [] trivial
    rspOk [0x00, 0x00] (by decide) 2 (by decide) [0x00] (by decide)).1,
    (sendCommand_cut_short ⟨true, [], []⟩ rfl 0x01 [] (by decide) [] trivial rspOk [0x00, 0x00]
      (by decide) 2 (by decide) [0x00] (by decide)).2.1⟩

/-- The board answers `RSP_OK` and falls silent: `send_command` returns `RSP_OK`, so a ping
succeeds on a response with no length field. -/
theorem sendCommand_lone_ok :
    Prod.fst <$> sendCommand (some ⟨true, [.byte rspOk, .gap], []⟩) 0x01 [] = .ok (rspOk, []) :=
  rfl

end TestBoard
