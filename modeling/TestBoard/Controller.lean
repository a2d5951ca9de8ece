import TestBoard.Upload
import TestBoard.Telemetry

/-!
# The test controller in serial mode

`SerialController` polls the board with `CMD_STATUS` until a terminal status or the
deadline, then fetches the UART log with `CMD_GET_LOG`. The deadline is the environment's:
`waitForCompletion budget` is the loop when `budget` more polls start before it passes.

Each exit of `wait_for_completion` calls `close()` and then `get_uart_log()`. `close()`
keeps `self.serial` set, so `send_command` passes its `if not self.serial` test and writes to
the closed port. `waitForCompletion_raises` : from an open port, on every reply sequence and
every deadline, `wait_for_completion` raises `PortNotOpenError` and returns no log.

`main` writes the log text in text mode, UTF-8, and looks for the marker in its encoding. The
marker holds `0xFE`, which no UTF-8 encoding holds, so `markerSeen_false` : `main`'s marker
test never succeeds. `mainSerial_saves_nothing` : from an open port `main` saves no log,
whatever the board does, and `mainSerial_log_never_written` runs it against a board that
answers every command and holds a log with a passed test and the marker: `main` dies with
`PortNotOpenError` before it writes `--output`.
-/

namespace TestBoard

/-! ## Commands and status -/

/-- `CMD_PING` -/
def cmdPing : Byte := 0x01
/-- `CMD_RUN` -/
def cmdRun : Byte := 0x03
/-- `CMD_STATUS` -/
def cmdStatus : Byte := 0x04
/-- `CMD_GET_LOG` -/
def cmdGetLog : Byte := 0x05

/-- `STATUS_NAMES.get(status_code, 'unknown')` -/
def statusName (code : Byte) : String :=
  match code.val with
  | 0x00 => "idle"
  | 0x01 => "uploading"
  | 0x02 => "flashing"
  | 0x03 => "booting"
  | 0x04 => "running"
  | 0x05 => "completed"
  | 0xFF => "error"
  | _ => "unknown"

/-- `ping` once `connect()` has set `self.serial` to `serial`, `none` when it failed. -/
def ping (serial : Option Port) : Except SerialError (Bool × Option Port) :=
  match serial with
  | none => .ok (false, none)
  | some p => do
    let ((rsp, _), serial) ← sendCommand (some p) cmdPing []
    return (rsp = rspOk, serial)

/-- `run_test` -/
def runTest (serial : Option Port) : Except SerialError (Bool × Option Port) := do
  let ((rsp, _), serial) ← sendCommand serial cmdRun []
  return (rsp = rspOk, serial)

/-- `get_status`: the status name and message. -/
def getStatus (serial : Option Port) : Except SerialError ((String × String) × Option Port) := do
  let ((rsp, data), serial) ← sendCommand serial cmdStatus []
  match data with
  | statusCode :: _ =>
    if rsp = rspStatus then
      let message := if data.length > 1 then decode .ignore (data.drop 1) else ""
      return ((statusName statusCode, message), serial)
    else return (("unknown", ""), serial)
  | [] => return (("unknown", ""), serial)

/-- `get_uart_log` -/
def getUartLog (serial : Option Port) : Except SerialError (String × Option Port) := do
  let ((rsp, data), serial) ← sendCommand serial cmdGetLog []
  if rsp = rspData then return (decode .ignore data, serial)
  return ("", serial)

/-- `close`: `self.serial.close()`, which leaves `self.serial` set. -/
def close : Option Port → Option Port
  | some p => some p.close
  | none => none

/-- `self.close()` and then `return success, self.get_uart_log()`, the code of each exit of
`wait_for_completion`. -/
def closeAndFetchLog (success : Bool) (serial : Option Port) :
    Except SerialError ((Bool × String) × Option Port) := do
  let (log, serial) ← getUartLog (close serial)
  return ((success, log), serial)

/-- `wait_for_completion`, when the deadline lets `budget` more polls start. -/
def waitForCompletion : Nat → Option Port → Except SerialError ((Bool × String) × Option Port)
  | 0, serial => closeAndFetchLog false serial
  | budget + 1, serial => do
    let ((status, _), serial) ← getStatus serial
    if status = "completed" then closeAndFetchLog true serial
    else if status = "error" then closeAndFetchLog false serial
    else waitForCompletion budget serial

/-! ## Closing before the log -/

theorem getStatus_open {p : Port} (hp : p.isOpen = true) :
    ∃ st q, getStatus (some p) = .ok (st, some q) ∧ q.isOpen = true := by
  obtain ⟨⟨rsp, data⟩, q, -, hs, hq, -⟩ :=
    sendCommand_open hp cmdStatus (show ([] : Bytes).length < 2 ^ 32 by decide)
  simp only [getStatus, hs, except_ok_bind]
  split
  · split_ifs <;> exact ⟨_, _, rfl, hq⟩
  · exact ⟨_, _, rfl, hq⟩

theorem closeAndFetchLog_raises (success : Bool) (p : Port) :
    closeAndFetchLog success (some p) = .error .portNotOpen := by
  simp [closeAndFetchLog, getUartLog, close,
    sendCommand_closed (show p.close.isOpen = false from rfl) cmdGetLog
      (show ([] : Bytes).length < 2 ^ 32 by decide)]

/-- From an open port, whatever the board replies to the polls and whenever the deadline
passes, `wait_for_completion` raises `PortNotOpenError` at the log fetch. -/
theorem waitForCompletion_raises (budget : Nat) (p : Port) (hp : p.isOpen = true) :
    waitForCompletion budget (some p) = .error .portNotOpen := by
  induction budget generalizing p with
  | zero => exact closeAndFetchLog_raises false p
  | succ budget ih =>
    obtain ⟨⟨status, message⟩, q, hs, hq⟩ := getStatus_open hp
    simp only [waitForCompletion, hs, except_ok_bind]
    split_ifs
    · exact closeAndFetchLog_raises true q
    · exact closeAndFetchLog_raises false q
    · exact ih q hq

/-- The board reports `completed` at the first poll and has the log `OK` ready. -/
theorem waitForCompletion_completed_raises :
    (⟨true, (rspStatus :: le32 1 ++ [0x05]).map .byte ++
        (rspData :: le32 2 ++ [0x4F, 0x4B]).map .byte, []⟩ : Port).isOpen = true ∧
      waitForCompletion 1 (some ⟨true, (rspStatus :: le32 1 ++ [0x05]).map .byte ++
        (rspData :: le32 2 ++ [0x4F, 0x4B]).map .byte, []⟩) = .error .portNotOpen :=
  ⟨rfl, waitForCompletion_raises 1 _ rfl⟩

/-! ## The saved log -/

/-- The bytes `main` writes to `--output` for the log text: `f.write(uart_log)` on a file
opened with `'w'`, UTF-8, POSIX line ends. -/
def savedLog (uartLog : String) : Bytes :=
  encode uartLog

/-- `TEST_END_MARKER in uart_log.encode('utf-8', errors='ignore')` -/
def markerSeen (uartLog : String) : Bool :=
  decide (endMarker <:+: encode uartLog)

/-- `main`'s marker test fails on every log text. -/
theorem markerSeen_false (uartLog : String) : markerSeen uartLog = false := by
  simp only [markerSeen, decide_eq_false_iff_not]
  intro h
  exact fe_not_mem_encode uartLog (h.subset (by decide))

/-! ## `main` -/

/-- `main` in serial mode once its arguments are valid: the exit status and the bytes saved
to `--output`, `none` when it exits before saving, or the exception it dies with. `connected`
is the port `connect()` opens in `ping`, `none` when it fails, and `iso` the image. -/
def mainSerial (connected : Option Port) (iso : Bytes) (budget : Nat) :
    Except SerialError (Nat × Option Bytes) := do
  let (ok, serial) ← ping connected
  if !ok then return (1, none)
  let (ok, serial) ← uploadIso serial iso
  if !ok then return (1, none)
  let (ok, serial) ← runTest serial
  if !ok then return (1, none)
  let ((success, uartLog), _) ← waitForCompletion budget serial
  return (if success then 0 else 1, some (savedLog uartLog))

theorem ping_open {p : Port} (hp : p.isOpen = true) :
    ∃ b q, ping (some p) = .ok (b, some q) ∧ q.isOpen = true := by
  obtain ⟨⟨rsp, data⟩, q, -, hs, hq, -⟩ :=
    sendCommand_open hp cmdPing (show ([] : Bytes).length < 2 ^ 32 by decide)
  exact ⟨_, _, by rw [ping, hs]; rfl, hq⟩

theorem runTest_open {p : Port} (hp : p.isOpen = true) :
    ∃ b q, runTest (some p) = .ok (b, some q) ∧ q.isOpen = true := by
  obtain ⟨⟨rsp, data⟩, q, -, hs, hq, -⟩ :=
    sendCommand_open hp cmdRun (show ([] : Bytes).length < 2 ^ 32 by decide)
  exact ⟨_, _, by rw [runTest, hs]; rfl, hq⟩

/-- From an open port, `main` in serial mode either exits 1 before it waits, or dies in
`wait_for_completion`: it never exits 0 and never saves a log. -/
theorem mainSerial_saves_nothing (p : Port) (hp : p.isOpen = true) (iso : Bytes)
    (hiso : iso.length < 2 ^ 32) (budget : Nat) :
    mainSerial (some p) iso budget = .ok (1, none) ∨
      mainSerial (some p) iso budget = .error .portNotOpen := by
  obtain ⟨b₁, q₁, h₁, hq₁⟩ := ping_open hp
  obtain ⟨b₂, q₂, h₂, hq₂⟩ := uploadIso_open hiso hq₁
  obtain ⟨b₃, q₃, h₃, hq₃⟩ := runTest_open hq₂
  cases b₁
  · simp [mainSerial, h₁]
  cases b₂
  · simp [mainSerial, h₁, h₂]
  cases b₃
  · simp [mainSerial, h₁, h₂, h₃]
  · simp [mainSerial, h₁, h₂, h₃, waitForCompletion_raises budget q₃ hq₃]

/-- The link carrying one response frame: the code, the payload's length and the payload. -/
def rxFrame (code : Byte) (payload : Bytes) : List Rx :=
  (code :: le32 payload.length ++ payload).map .byte

/-- A board that answers `RSP_OK` to the ping, the upload of an empty image and the run,
reports `completed`, and has the log `OK` ready: `main` dies in `wait_for_completion`. -/
theorem mainSerial_saves_nothing_ok :
    (⟨true, rxFrame rspOk [] ++ rxFrame rspOk [] ++ rxFrame rspOk [] ++
        rxFrame rspStatus [0x05] ++ rxFrame rspData [0x4F, 0x4B], []⟩ : Port).isOpen = true ∧
      ([] : Bytes).length < 2 ^ 32 ∧
      mainSerial (some ⟨true, rxFrame rspOk [] ++ rxFrame rspOk [] ++ rxFrame rspOk [] ++
        rxFrame rspStatus [0x05] ++ rxFrame rspData [0x4F, 0x4B], []⟩) [] 1 = .error .portNotOpen ∧
      (mainSerial (some ⟨true, rxFrame rspOk [] ++ rxFrame rspOk [] ++ rxFrame rspOk [] ++
          rxFrame rspStatus [0x05] ++ rxFrame rspData [0x4F, 0x4B], []⟩) [] 1 = .ok (1, none) ∨
        mainSerial (some ⟨true, rxFrame rspOk [] ++ rxFrame rspOk [] ++ rxFrame rspOk [] ++
          rxFrame rspStatus [0x05] ++ rxFrame rspData [0x4F, 0x4B], []⟩) [] 1 = .error .portNotOpen) :=
  ⟨rfl, by decide, rfl, mainSerial_saves_nothing _ rfl [] (by decide) 1⟩

/-- The board acks the ping, the upload of a one-chunk image and its chunk, and the run,
reports `completed` at the first poll, and holds the log of a passed test followed by the
marker. `main` closes the port, dies with `PortNotOpenError` at `CMD_GET_LOG`, and writes no
`--output`. -/
theorem mainSerial_log_never_written :
    mainSerial (some ⟨true, rxFrame rspOk [] ++ rxFrame rspOk [] ++ [.byte rspOk] ++
        rxFrame rspOk [] ++ rxFrame rspStatus [0x05] ++
        rxFrame rspData ([102, 0, 6, 0, 1, 0, 0, 0, 42] ++ endMarker), []⟩) [7, 8, 9] 1 =
      .error .portNotOpen :=
  rfl

end TestBoard
