import TestBoard.Controller

/-!
# The test controller in HTTP mode, and `main`

`HttpController` talks to the board's web service through a `requests.Session`. The service
is a stream of replies, one per request in the order the controller sends them: a response
with its status code, its text and what `r.json()` makes of it, or an exception (`Reply`).
Each function takes the index of the request it sends: `main` sends the ping first, then the
upload, the run, the polls, and last the request for the log. `ping`, `get_status` and
`get_uart_log` catch every exception; the requests of `upload_iso` and `run_test` do not.

`httpWaitForCompletion_success` : the wait reports success exactly when, among the polls the
deadline lets start, the first whose state is `completed` or `error` is `completed`. Unlike
the serial controller it closes nothing, and returns the text of the board's next reply to
`GET /uart-log`. `mainHttp_exit_zero` : `main` in HTTP mode exits 0 exactly when the ping,
the upload and the run get status 200 and the board then reports `completed` before `error`
within the deadline. `main_exit_zero` : whatever its arguments, the port it opens and the
board do, `main` exits 0 only in HTTP mode.
-/

namespace TestBoard

/-! ## The web service -/

/-- A JSON value as the controller compares it: a string, or any other value. -/
inductive JsonValue
  | str (s : String)
  | other
  deriving DecidableEq, Repr

/-- What `r.json()` makes of a body: an object with the values of its keys `state` and
`message`, valid JSON that is no object (`data.get` raises), or no JSON (`r.json()` raises). -/
inductive JsonBody
  | object (state message : Option JsonValue)
  | notObject
  | invalid
  deriving DecidableEq, Repr

/-- The outcome of one request of the session: a response with its status code, its text
and its JSON reading, or an exception of `requests` (no connection, a timeout). -/
inductive Reply
  | response (statusCode : Nat) (text : String) (json : JsonBody)
  | failure
  deriving DecidableEq, Repr

/-- The exception of a request that `upload_iso` or `run_test` does not catch. -/
inductive HttpError
  | requestFailed
  deriving DecidableEq, Repr

section
variable (replies : Nat → Reply)

/-- `r.status_code == 200` for the reply to the `n`-th request, which raises on an exception
of `requests`. -/
def statusOk (n : Nat) : Except HttpError Bool :=
  match replies n with
  | .response code _ _ => .ok (decide (code = 200))
  | .failure => .error .requestFailed

/-- `ping`: `GET /status`, and `False` on any exception. -/
def httpPing (n : Nat) : Bool :=
  match statusOk replies n with
  | .ok ok => ok
  | .error _ => false

/-- `upload_iso`: `POST /upload`. -/
def httpUploadIso (n : Nat) : Except HttpError Bool :=
  statusOk replies n

/-- `run_test`: `POST /run`. -/
def httpRunTest (n : Nat) : Except HttpError Bool :=
  statusOk replies n

/-- `get_status`: `data.get('state', 'unknown'), data.get('message', '')` of the JSON object
of a reply with status 200, and `'unknown', ''` on anything else. -/
def httpGetStatus (n : Nat) : JsonValue × JsonValue :=
  match replies n with
  | .response 200 _ (.object state message) =>
    (state.getD (.str "unknown"), message.getD (.str ""))
  | _ => (.str "unknown", .str "")

/-- `get_uart_log`: the text of a reply with status 200 to `GET /uart-log`, and `''` on
anything else. -/
def httpGetUartLog (n : Nat) : String :=
  match replies n with
  | .response 200 text _ => text
  | _ => ""

/-- `wait_for_completion` from the `n`-th request, when the deadline lets `budget` more polls
start: the success flag and the log. -/
def httpWaitForCompletion : Nat → Nat → Bool × String
  | 0, n => (false, httpGetUartLog replies n)
  | budget + 1, n =>
    let status := (httpGetStatus replies n).1
    if status = .str "completed" then (true, httpGetUartLog replies (n + 1))
    else if status = .str "error" then (false, httpGetUartLog replies (n + 1))
    else httpWaitForCompletion budget (n + 1)

/-- `main` in HTTP mode once its arguments are valid: the exit status and the bytes saved to
`--output`, `none` when it exits before saving, or the exception it dies with. Its requests
are the ping, the upload, the run, the polls and the log fetch, in this order. -/
def mainHttp (budget : Nat) : Except HttpError (Nat × Option Bytes) := do
  if !httpPing replies 0 then return (1, none)
  if !(← httpUploadIso replies 1) then return (1, none)
  if !(← httpRunTest replies 2) then return (1, none)
  let (success, uartLog) := httpWaitForCompletion replies budget 3
  return (if success then 0 else 1, some (savedLog uartLog))

/-! ## The wait -/

/-- The wait succeeds with the log `log` exactly when a poll within the deadline reads
`completed`, every poll before it reads neither `completed` nor `error`, and `log` is the
text of the next reply. -/
theorem httpWaitForCompletion_success (budget n : Nat) (log : String) :
    httpWaitForCompletion replies budget n = (true, log) ↔
      ∃ k < budget, (httpGetStatus replies (n + k)).1 = .str "completed" ∧
        (∀ j < k, (httpGetStatus replies (n + j)).1 ≠ .str "completed" ∧
          (httpGetStatus replies (n + j)).1 ≠ .str "error") ∧
        log = httpGetUartLog replies (n + k + 1) := by
  induction budget generalizing n with
  | zero => simp [httpWaitForCompletion]
  | succ budget ih =>
    simp only [httpWaitForCompletion]
    by_cases hc : (httpGetStatus replies n).1 = .str "completed"
    · rw [if_pos hc]
      constructor
      · intro h
        exact ⟨0, by omega, hc, fun j hj => absurd hj (by omega), (Prod.mk.inj h).2.symm⟩
      · rintro ⟨k, -, hk, hpre, rfl⟩
        cases k with
        | zero => rfl
        | succ k => exact absurd hc (hpre 0 (by omega)).1
    rw [if_neg hc]
    by_cases he : (httpGetStatus replies n).1 = .str "error"
    · rw [if_pos he]
      refine iff_of_false (by simp) ?_
      rintro ⟨k, -, hk, hpre, -⟩
      cases k with
      | zero => exact hc hk
      | succ k => exact (hpre 0 (by omega)).2 he
    rw [if_neg he, ih]
    constructor
    · rintro ⟨k, hk, hs, hpre, rfl⟩
      refine ⟨k + 1, by omega, by rwa [show n + (k + 1) = n + 1 + k by omega], fun j hj => ?_,
        by rw [show n + (k + 1) = n + 1 + k by omega]⟩
      cases j with
      | zero => exact ⟨hc, he⟩
      | succ j => rw [show n + (j + 1) = n + 1 + j by omega]; exact hpre j (by omega)
    · rintro ⟨k, hk, hs, hpre, rfl⟩
      cases k with
      | zero => exact absurd hs hc
      | succ k =>
        refine ⟨k, by omega, by rwa [show n + 1 + k = n + (k + 1) by omega], fun j hj => ?_,
          by rw [show n + 1 + k = n + (k + 1) by omega]⟩
        rw [show n + 1 + j = n + (j + 1) by omega]
        exact hpre (j + 1) (by omega)

/-! ## `main` in HTTP mode -/

theorem statusOk_true (n : Nat) :
    statusOk replies n = .ok true ↔ ∃ text json, replies n = .response 200 text json := by
  unfold statusOk
  split <;> simp_all

theorem httpPing_true (n : Nat) :
    httpPing replies n = true ↔ ∃ text json, replies n = .response 200 text json := by
  rw [← statusOk_true, httpPing]
  split <;> simp_all

/-- `main` in HTTP mode exits 0 exactly when the ping, the upload and the run succeed and the
wait reports success; it saves the log the wait returns. -/
theorem mainHttp_eq_ok_zero (budget : Nat) (saved : Option Bytes) :
    mainHttp replies budget = .ok (0, saved) ↔
      httpPing replies 0 = true ∧ statusOk replies 1 = .ok true ∧ statusOk replies 2 = .ok true ∧
      ∃ log, httpWaitForCompletion replies budget 3 = (true, log) ∧
        saved = some (savedLog log) := by
  unfold mainHttp httpUploadIso httpRunTest
  cases httpPing replies 0
  · simp [pure, Except.pure]
  rcases statusOk replies 1 with _ | _ | _
  · simp [bind, Except.bind, pure, Except.pure]
  · simp [bind, Except.bind, pure, Except.pure]
  rcases statusOk replies 2 with _ | _ | _
  · simp [bind, Except.bind, pure, Except.pure]
  · simp [bind, Except.bind, pure, Except.pure]
  rcases httpWaitForCompletion replies budget 3 with ⟨_ | _, log⟩
  · simp [bind, Except.bind, pure, Except.pure]
  · simp [bind, Except.bind, pure, Except.pure, eq_comm]

/-- `main` in HTTP mode exits 0 exactly when the ping, the upload and the run are answered
with status 200 and the board then reports `completed` before `error` within the deadline;
it then saves the text of the next reply. -/
theorem mainHttp_exit_zero (budget : Nat) (saved : Option Bytes) :
    mainHttp replies budget = .ok (0, saved) ↔
      (∃ text json, replies 0 = .response 200 text json) ∧
      (∃ text json, replies 1 = .response 200 text json) ∧
      (∃ text json, replies 2 = .response 200 text json) ∧
      ∃ k < budget, (httpGetStatus replies (3 + k)).1 = .str "completed" ∧
        (∀ j < k, (httpGetStatus replies (3 + j)).1 ≠ .str "completed" ∧
          (httpGetStatus replies (3 + j)).1 ≠ .str "error") ∧
        saved = some (savedLog (httpGetUartLog replies (3 + k + 1))) := by
  rw [mainHttp_eq_ok_zero, httpPing_true, statusOk_true, statusOk_true]
  refine and_congr_right fun _ => and_congr_right fun _ => and_congr_right fun _ => ⟨?_, ?_⟩
  · rintro ⟨log, hw, rfl⟩
    obtain ⟨k, hk, hs, hpre, rfl⟩ := (httpWaitForCompletion_success replies budget 3 log).mp hw
    exact ⟨k, hk, hs, hpre, rfl⟩
  · rintro ⟨k, hk, hs, hpre, rfl⟩
    exact ⟨_, (httpWaitForCompletion_success replies budget 3 _).mpr ⟨k, hk, hs, hpre, rfl⟩, rfl⟩

end

/-! ## `main` -/

/-- `--mode` -/
inductive Mode
  | http
  | serial
  deriving DecidableEq, Repr

/-- The arguments `main` checks before it contacts the board. -/
structure Args where
  mode : Mode
  endpoint : Option String
  port : Option String
  /-- `os.path.exists(args.iso)` -/
  isoExists : Bool

/-- The exception `main` dies with, from either controller. -/
inductive MainError
  | serial (e : SerialError)
  | http (e : HttpError)

/-- `main`: the exit status and the bytes saved to `--output`, or the exception it dies with.
`connected` is the port `connect()` opens in serial mode, `none` when it fails, `iso` the
image, and `replies` the web service in HTTP mode. `not args.endpoint` holds for no
endpoint and for the empty one. -/
def main (args : Args) (connected : Option Port) (iso : Bytes) (replies : Nat → Reply)
    (budget : Nat) : Except MainError (Nat × Option Bytes) :=
  if args.mode = .http ∧ args.endpoint.getD "" = "" then .ok (1, none)
  else if args.mode = .serial ∧ args.port.getD "" = "" then .ok (1, none)
  else if !args.isoExists then .ok (1, none)
  else match args.mode with
    | .http => (mainHttp replies budget).mapError .http
    | .serial => (mainSerial connected iso budget).mapError .serial

/-- An image too large for `struct.pack('<I', ...)` makes `upload_iso` raise. -/
theorem uploadIso_large {d : Bytes} (hd : ¬d.length < 2 ^ 32) (serial : Option Port) :
    uploadIso serial d = .error .structError := by
  simp only [uploadIso, packLe32, if_neg hd]
  rfl

/-- `main` in serial mode never exits 0 on a port `connect()` opened, or without one. -/
theorem mainSerial_ne_zero {connected : Option Port}
    (hc : ∀ p, connected = some p → p.isOpen = true) (iso : Bytes) (budget : Nat)
    (saved : Option Bytes) : mainSerial connected iso budget ≠ .ok (0, saved) := by
  cases connected with
  | none => simp [mainSerial, ping]
  | some p =>
    obtain ⟨b₁, q₁, h₁, hq₁⟩ := ping_open (hc p rfl)
    cases b₁
    · simp [mainSerial, h₁]
    by_cases hiso : iso.length < 2 ^ 32
    · obtain ⟨b₂, q₂, h₂, hq₂⟩ := uploadIso_open hiso hq₁
      cases b₂
      · simp [mainSerial, h₁, h₂]
      obtain ⟨b₃, q₃, h₃, hq₃⟩ := runTest_open hq₂
      cases b₃
      · simp [mainSerial, h₁, h₂, h₃]
      · simp [mainSerial, h₁, h₂, h₃, waitForCompletion_raises budget q₃ hq₃]
    · simp [mainSerial, h₁, uploadIso_large hiso]

/-- Whatever its arguments, the port it opens and the board's replies, `main` exits 0 only in
HTTP mode, with the outcome of `main` in HTTP mode. -/
theorem main_exit_zero (args : Args) {connected : Option Port}
    (hc : ∀ p, connected = some p → p.isOpen = true) (iso : Bytes) (replies : Nat → Reply)
    (budget : Nat) (saved : Option Bytes) (h : main args connected iso replies budget = .ok (0, saved)) :
    args.mode = .http ∧ mainHttp replies budget = .ok (0, saved) := by
  unfold main at h
  split_ifs at h
  · simp at h
  · simp at h
  · simp at h
  obtain ⟨mode, endpoint, port, isoExists⟩ := args
  cases mode with
  | http =>
    refine ⟨rfl, ?_⟩
    cases hm : mainHttp replies budget <;> simp_all [Except.mapError]
  | serial =>
    cases hm : mainSerial connected iso budget with
    | error e => simp [hm, Except.mapError] at h
    | ok v =>
      simp only [hm, Except.mapError, Except.ok.injEq] at h
      subst h
      exact absurd hm (mainSerial_ne_zero hc iso budget saved)

/-- The board answers every request with status 200, reports `completed` at the first poll
and sends the log `OK`: `main` in HTTP mode exits 0 and saves `OK`. -/
theorem main_exit_zero_http :
    (∀ p, (none : Option Port) = some p → p.isOpen = true) ∧
      main ⟨.http, some "b", none, true⟩ none []
          (fun n => if n = 3 then .response 200 "" (.object (some (.str "completed")) none)
            else .response 200 "OK" .invalid) 1 = .ok (0, some (savedLog "OK")) ∧
      Mode.http = .http ∧
      mainHttp (fun n => if n = 3 then .response 200 "" (.object (some (.str "completed")) none)
          else .response 200 "OK" .invalid) 1 = .ok (0, some (savedLog "OK")) :=
  ⟨(fun _ h => nomatch h), rfl,
    @main_exit_zero ⟨.http, some "b", none, true⟩ none (fun _ h => nomatch h) [] _ 1 _ rfl⟩

end TestBoard
