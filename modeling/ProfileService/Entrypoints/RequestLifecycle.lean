import ProfileService.Library.Digits

/-!
# The request correlation boundary

`RequestIdMiddleware.__call__` (`middlewares/request_id.py`) with `HttpResponseState`
(`request_lifecycle.py`) and the policy that resolves the request id.
-/

namespace ProfileService.Entrypoints.RequestLifecycle
open Library

abbrev Header := Str × Str

/-- What an application sends. The `headers` of a start are optional. -/
inductive Message where
  | start (status : Nat) (headers : Option (List Header))
  | body (bytes : Str) (moreBody : Bool)

/-- An exception other than `CancelledError`. -/
inductive Error where
  | osError
  | runtimeError (message : String)
  | valueError (message : String)
  | keyError (key : String)
  | exception (typeName : String)
  deriving DecidableEq

/-- An ASGI application: it sees what each of its sends raised and goes on as it likes;
one that propagates an error raises it. -/
inductive ASGIApp where
  | send (message : Message) (next : Option Error → ASGIApp)
  | ret
  | raise (error : Error)
  | cancelled

inductive Ending where
  | returned
  | raised (error : Error)
  | cancelled
  deriving DecidableEq

structure HttpRequestMetadata where
  requestId : Str
  method : Str
  path : Str

structure HttpResponseState where
  statusCode : Nat := 500
  responseStarted : Bool := false
  failed : Bool := false
  clientDisconnected : Bool := false

/-- What the observer is told; the response is as it was at that moment. -/
inductive LifecycleEvent where
  | started (request : HttpRequestMetadata)
  | failed (request : HttpRequestMetadata) (response : HttpResponseState) (error : Error)
  | disconnected (request : HttpRequestMetadata) (response : HttpResponseState)
  | finished (request : HttpRequestMetadata) (response : HttpResponseState)

namespace HttpResponseState

def markFailure (response : HttpResponseState) : HttpResponseState :=
  { response with
    failed := true
    statusCode := if response.responseStarted then response.statusCode else 500 }

def start (response : HttpResponseState) (statusCode : Nat) : HttpResponseState × Option Error :=
  if response.responseStarted then
    (response.markFailure, some (.runtimeError "ASGI application sent multiple response starts"))
  else
    ({ response with
        responseStarted := true
        statusCode := statusCode
        failed := response.failed || decide (500 ≤ statusCode) }, none)

def markClientDisconnected (response : HttpResponseState) : HttpResponseState :=
  { response with failed := true, clientDisconnected := true }

end HttpResponseState

/-! ### The request id -/

def lower (name : Str) : Str := name.map Char.toLower

/-- `MutableHeaders.__setitem__`: the first header of the name is set, its duplicates go. -/
def setHeader (key value : Str) : List Header → List Header
  | [] => [(key, value)]
  | header :: rest =>
    if header.1 = key then (key, value) :: rest.filter fun h => h.1 ≠ key
    else header :: setHeader key value rest

/-- `[A-Za-z0-9][A-Za-z0-9._:-]*` within the length. -/
def isValidRequestId (maxLength : Nat) : Str → Bool
  | [] => false
  | c :: rest => (c :: rest).length ≤ maxLength && c.isAlphanum &&
      rest.all fun d => d.isAlphanum || d == '.' || d == '_' || d == ':' || d == '-'

def resolve (maxLength : Nat) (generated : Str) (candidate : Option Str) : Except Error Str :=
  match candidate with
  | some value => if isValidRequestId maxLength value then .ok value else fallback
  | none => fallback
where
  fallback : Except Error Str :=
    if isValidRequestId maxLength generated then .ok generated
    else .error (.valueError "request id generator returned an unsafe value")

/-- `_resolve_request_id`: a header given twice is no candidate. -/
def resolveRequestId (headerName : Str) (maxLength : Nat) (generated : Str) (headers : List Header) :
    Except Error Str :=
  match (headers.filter fun h => h.1 = lower headerName).map Prod.snd with
  | [candidate] => resolve maxLength generated (some candidate)
  | _ => resolve maxLength generated none

/-! ### The boundary -/

/-- One request: the header to set, and which of the sends forwarded to the server raise. -/
structure Boundary where
  headerName : Str
  request : HttpRequestMetadata
  oserror : Nat → Bool

/-- What happened so far: every call of the wrapped `send` with what it raised, the messages
that reached the server, and what the observer saw. -/
structure Run where
  response : HttpResponseState := {}
  sends : List (Message × Option Error) := []
  forwarded : List Message := []
  events : List LifecycleEvent := []

namespace Boundary
variable (b : Boundary)

/-- `await send(outbound_message)`. -/
def forward (message outbound : Message) (run : Run) : Run × Option Error :=
  if b.oserror run.forwarded.length then
    ({ response := run.response.markClientDisconnected
       sends := run.sends ++ [(message, some .osError)]
       forwarded := run.forwarded ++ [outbound]
       events := run.events ++ [.disconnected b.request run.response.markClientDisconnected] },
      some .osError)
  else
    ({ run with
        sends := run.sends ++ [(message, none)]
        forwarded := run.forwarded ++ [outbound] }, none)

def sendWithRequestId (message : Message) (run : Run) : Run × Option Error :=
  match message with
  | .start status headers =>
    match run.response.start status with
    | (response, some error) =>
      ({ run with response := response, sends := run.sends ++ [(message, some error)] }, some error)
    | (response, none) =>
      match headers with
      | none =>
        -- `MutableHeaders(scope=outbound_message)` reads `outbound_message["headers"]`
        ({ run with
            response := response
            sends := run.sends ++ [(message, some (.keyError "headers"))] },
          some (.keyError "headers"))
      | some headers =>
        b.forward message
          (.start status (some (setHeader (lower b.headerName) b.request.requestId headers)))
          { run with response := response }
  | .body _ _ => b.forward message message run

def runApp : ASGIApp → Run → Run × Ending
  | .send message next, run =>
    runApp (next (b.sendWithRequestId message run).2) (b.sendWithRequestId message run).1
  | .ret, run => (run, .returned)
  | .raise error, run => (run, .raised error)
  | .cancelled, run => (run, .cancelled)

def internalErrorHeaders : List Header :=
  [("cache-control".toList, "no-store".toList), ("content-length".toList, "34".toList),
    ("content-type".toList, "application/json".toList)]

def internalErrorBody : Message := .body "\x7b\"detail\":\"internal server error\"\x7d".toList false

/-- `_default_internal_error_response()` called with the wrapped `send`. -/
def sendErrorResponse (run : Run) : Run × Ending :=
  match b.sendWithRequestId (.start 500 (some internalErrorHeaders)) run with
  | (run, some error) => (run, .raised error)
  | (run, none) =>
    match b.sendWithRequestId internalErrorBody run with
    | (run, some error) => (run, .raised error)
    | (run, none) => (run, .returned)

/-- `except Exception as error`. -/
def handleException (error : Error) (run : Run) : Run × Ending :=
  let response := run.response.markFailure
  if response.clientDisconnected then ({ run with response := response }, .raised error)
  else
    let run := { run with
      response := response
      events := run.events ++ [.failed b.request response error] }
    if response.responseStarted then (run, .raised error) else b.sendErrorResponse run

/-- The `try` statement without its `finally`. -/
def guarded (app : ASGIApp) (run : Run) : Run × Ending :=
  match b.runApp app run with
  | (run, .returned) =>
    if run.response.responseStarted then (run, .returned)
    else b.handleException (.runtimeError "ASGI application returned without a response") run
  | (run, .raised error) => b.handleException error run
  | (run, .cancelled) => ({ run with response := run.response.markFailure }, .cancelled)

def finish (run : Run) : Run :=
  let response := if run.response.responseStarted then run.response else run.response.markFailure
  { run with response := response, events := run.events ++ [.finished b.request response] }

def opening : Run := { events := [.started b.request] }

/-- The body of `__call__` once the request id is resolved. -/
def serve (app : ASGIApp) : Run × Ending :=
  (b.finish (b.guarded app b.opening).1, (b.guarded app b.opening).2)

end Boundary

/-- `RequestIdMiddleware.__call__` of an HTTP scope, with the resolver's defaults: the
application sees the id in the state of its scope. -/
def call (headerName method path : Str) (headers : List Header) (generated : Str)
    (oserror : Nat → Bool) (app : Str → ASGIApp) : Except Error (Run × Ending) :=
  (resolveRequestId headerName 128 generated headers).map fun requestId =>
    Boundary.serve ⟨headerName, ⟨requestId, method, path⟩, oserror⟩ (app requestId)

/-! ### What holds after every send -/

def Message.status? : Message → Option Nat
  | .start status _ => some status
  | .body _ _ => none

def starts (messages : List Message) : List Nat := messages.filterMap Message.status?

/-- The start carries the request id under the header's name, once. -/
def Boundary.Carries (b : Boundary) (headers : Option (List Header)) : Prop :=
  ∃ list, headers = some list ∧
    list.filter (fun h => h.1 = lower b.headerName) = [(lower b.headerName, b.request.requestId)]

def LifecycleEvent.isInner : LifecycleEvent → Bool
  | .started _ => false
  | .failed _ _ _ => true
  | .disconnected _ _ => true
  | .finished _ _ => false

def Run.Disconnected (run : Run) : Prop := ∃ send ∈ run.sends, send.2 = some .osError

/-- The flags of the response tell what was sent. -/
structure Tracked (b : Boundary) (run : Run) : Prop where
  forwarded_starts : starts run.forwarded =
    if run.response.responseStarted then [run.response.statusCode] else []
  unstarted : run.response.responseStarted = false →
    run.response.statusCode = 500 ∧ starts (run.sends.map Prod.fst) = []
  carries : ∀ status headers, .start status headers ∈ run.forwarded → b.Carries headers
  disconnected : run.response.clientDisconnected = true ↔ run.Disconnected
  succeeded : run.response.failed = false → starts (run.sends.map Prod.fst) = starts run.forwarded ∧
    (∀ status ∈ starts run.forwarded, status < 500) ∧ run.response.clientDisconnected = false
  observed : ∃ inner, run.events = .started b.request :: inner ∧ ∀ e ∈ inner, e.isInner = true

theorem filter_setHeader (key value : Str) (headers : List Header) :
    (setHeader key value headers).filter (fun h => h.1 = key) = [(key, value)] := by
  induction headers with
  | nil => simp [setHeader]
  | cons header rest ih =>
    rw [setHeader]
    split
    · next hkey =>
      have hrest : (rest.filter fun h => h.1 ≠ key).filter (fun h => h.1 = key) = [] := by
        rw [List.filter_filter]
        exact List.filter_eq_nil_iff.2 fun h _ => by simp
      rw [List.filter_cons_of_pos (by simp), hrest]
    · next hkey => rw [List.filter_cons_of_neg (by simpa using hkey), ih]

@[simp] theorem starts_nil : starts [] = [] := rfl

@[simp] theorem starts_append (xs ys : List Message) : starts (xs ++ ys) = starts xs ++ starts ys :=
  List.filterMap_append

@[simp] theorem starts_start (status : Nat) (headers : Option (List Header)) :
    starts [.start status headers] = [status] := rfl

@[simp] theorem starts_body (bytes : Str) (moreBody : Bool) : starts [.body bytes moreBody] = [] := rfl

@[simp] theorem disconnected_append (run : Run) (response : HttpResponseState)
    (message : Message) (raised : Option Error) (forwarded : List Message)
    (events : List LifecycleEvent) :
    Run.Disconnected ⟨response, run.sends ++ [(message, raised)], forwarded, events⟩ ↔
      run.Disconnected ∨ raised = some .osError := by
  simp [Run.Disconnected, or_and_right, exists_or]

section Start
variable {b : Boundary} {run : Run}

theorem start_of_started {status : Nat} (h : run.response.responseStarted = true) :
    run.response.start status = (run.response.markFailure,
      some (.runtimeError "ASGI application sent multiple response starts")) := by
  rw [HttpResponseState.start, if_pos h]

theorem start_of_unstarted {status : Nat} (h : run.response.responseStarted = false) :
    run.response.start status = ((run.response.start status).1, none) := by
  simp [HttpResponseState.start, h]

theorem started_send (h : run.response.responseStarted = true) (message : Message) :
    (b.sendWithRequestId message run).1.response.responseStarted = true := by
  cases message with
  | body bytes moreBody =>
    unfold Boundary.sendWithRequestId Boundary.forward
    dsimp only
    split <;> exact h
  | start status headers =>
    rw [Boundary.sendWithRequestId, start_of_started h]
    exact h

end Start

namespace Tracked
variable {b : Boundary} {run : Run}

theorem opening (b : Boundary) : Tracked b b.opening where
  forwarded_starts := rfl
  unstarted _ := ⟨rfl, rfl⟩
  carries _ _ h := nomatch h
  disconnected := by simp [Boundary.opening, Run.Disconnected]
  succeeded _ := ⟨rfl, fun _ h => (nomatch h), rfl⟩
  observed := ⟨[], rfl, fun _ h => (nomatch h)⟩

theorem markFailure (h : Tracked b run) : Tracked b { run with response := run.response.markFailure } where
  forwarded_starts := by
    have hstarts := h.forwarded_starts
    cases hstarted : run.response.responseStarted <;>
      simpa [HttpResponseState.markFailure, hstarted] using hstarts
  unstarted hstarted := by
    have hold : run.response.responseStarted = false := hstarted
    exact ⟨by simp [HttpResponseState.markFailure, hold], (h.unstarted hold).2⟩
  carries := h.carries
  disconnected := h.disconnected
  succeeded hfailed := nomatch hfailed
  observed := h.observed

theorem event (h : Tracked b run) {e : LifecycleEvent} (he : e.isInner = true) :
    Tracked b { run with events := run.events ++ [e] } where
  forwarded_starts := h.forwarded_starts
  unstarted := h.unstarted
  carries := h.carries
  disconnected := h.disconnected
  succeeded := h.succeeded
  observed := by
    obtain ⟨inner, hevents, hinner⟩ := h.observed
    refine ⟨inner ++ [e], by rw [hevents]; rfl, fun d hd => ?_⟩
    rcases List.mem_append.1 hd with hd | hd
    · exact hinner d hd
    · rw [List.mem_singleton.1 hd]
      exact he

theorem forward_body (h : Tracked b run) (bytes : Str) (moreBody : Bool) :
    Tracked b (b.forward (.body bytes moreBody) (.body bytes moreBody) run).1 := by
  obtain ⟨inner, hevents, hinner⟩ := h.observed
  have hcarries : ∀ status headers, Message.start status headers ∈
      run.forwarded ++ [.body bytes moreBody] → b.Carries headers := by
    intro status headers hmem
    rcases List.mem_append.1 hmem with hmem | hmem
    · exact h.carries status headers hmem
    · cases List.mem_singleton.1 hmem
  unfold Boundary.forward
  split
  · refine ⟨?_, ?_, hcarries, ?_, fun hfailed => (nomatch hfailed), ?_⟩
    · rw [starts_append, starts_body, List.append_nil]
      exact h.forwarded_starts
    · simpa [HttpResponseState.markClientDisconnected] using h.unstarted
    · simp [HttpResponseState.markClientDisconnected]
    · refine ⟨inner ++ [_], by rw [hevents]; rfl, fun e he => ?_⟩
      rcases List.mem_append.1 he with he | he
      · exact hinner e he
      · rw [List.mem_singleton.1 he]
        rfl
  · refine ⟨?_, ?_, hcarries, ?_, ?_, h.observed⟩
    · simpa using h.forwarded_starts
    · simpa using h.unstarted
    · simpa using h.disconnected
    · simpa using h.succeeded

theorem forward_start (h : Tracked b run) (hfirst : run.response.responseStarted = false)
    (status : Nat) (headers : List Header) :
    Tracked b (b.forward (.start status (some headers))
      (.start status (some (setHeader (lower b.headerName) b.request.requestId headers)))
      { run with response := (run.response.start status).1 }).1 := by
  obtain ⟨inner, hevents, hinner⟩ := h.observed
  obtain ⟨-, hsends⟩ := h.unstarted hfirst
  have hforwarded : starts run.forwarded = [] := by
    rw [h.forwarded_starts, hfirst]
    rfl
  have hcarries : ∀ code list, Message.start code list ∈ run.forwarded ++
      [.start status (some (setHeader (lower b.headerName) b.request.requestId headers))] →
        b.Carries list := by
    intro code list hmem
    rcases List.mem_append.1 hmem with hmem | hmem
    · exact h.carries code list hmem
    · cases List.mem_singleton.1 hmem
      exact ⟨_, rfl, filter_setHeader _ _ _⟩
  unfold Boundary.forward
  split
  · refine ⟨?_, ?_, hcarries, ?_, fun hfailed => (nomatch hfailed), ?_⟩
    · simp [HttpResponseState.markClientDisconnected, HttpResponseState.start, hfirst, hforwarded]
    · simp [HttpResponseState.markClientDisconnected, HttpResponseState.start, hfirst]
    · simp [HttpResponseState.markClientDisconnected]
    · refine ⟨inner ++ [_], by rw [hevents]; rfl, fun e he => ?_⟩
      rcases List.mem_append.1 he with he | he
      · exact hinner e he
      · rw [List.mem_singleton.1 he]
        rfl
  · refine ⟨?_, ?_, hcarries, ?_, ?_, h.observed⟩
    · simp [HttpResponseState.start, hfirst, hforwarded]
    · simp [HttpResponseState.start, hfirst]
    · simpa [HttpResponseState.start, hfirst] using h.disconnected
    · intro hfailed
      have hboth : run.response.failed = false ∧ status < 500 := by
        simpa [HttpResponseState.start, hfirst] using hfailed
      have hconnected := (h.succeeded hboth.1).2.2
      simp [HttpResponseState.start, hfirst, hforwarded, hsends, hboth.2, hconnected]

theorem refused_start (h : Tracked b run) (hstarted : run.response.responseStarted = true)
    (status : Nat) (headers : Option (List Header)) :
    Tracked b { run with
      response := run.response.markFailure
      sends := run.sends ++ [(.start status headers,
        some (.runtimeError "ASGI application sent multiple response starts"))] } := by
  have hstill : run.response.markFailure.responseStarted = true := hstarted
  refine ⟨h.markFailure.forwarded_starts, fun hnot => ?_, h.carries, ?_,
    fun hfailed => (nomatch hfailed), h.observed⟩
  · rw [hstill] at hnot
    cases hnot
  · simpa [HttpResponseState.markFailure] using h.disconnected

/-- The step: one send of the application, whose first start has headers. -/
theorem send (h : Tracked b run) (message : Message)
    (hheaders : run.response.responseStarted = true ∨ ∀ status, message ≠ .start status none) :
    Tracked b (b.sendWithRequestId message run).1 := by
  cases message with
  | body bytes moreBody => exact h.forward_body bytes moreBody
  | start status headers =>
    cases hstarted : run.response.responseStarted with
    | true =>
      simp only [Boundary.sendWithRequestId, start_of_started hstarted]
      exact h.refused_start hstarted status headers
    | false =>
      rw [Boundary.sendWithRequestId, start_of_unstarted hstarted]
      cases headers with
      | some headers => exact h.forward_start hstarted status headers
      | none =>
        rcases hheaders with hyes | hno
        · rw [hyes] at hstarted
          cases hstarted
        · exact absurd rfl (hno status)

/-- The run of an application whose response has started, by induction on it. -/
theorem runApp_started (app : ASGIApp) (h : Tracked b run)
    (hstarted : run.response.responseStarted = true) : Tracked b (b.runApp app run).1 := by
  induction app generalizing run with
  | send message next ih =>
    exact ih _ (h.send message (.inl hstarted)) (started_send hstarted message)
  | ret => exact h
  | raise error => exact h
  | cancelled => exact h

theorem sendErrorResponse (h : Tracked b run) : Tracked b (b.sendErrorResponse run).1 := by
  have hstart := h.send (.start 500 (some Boundary.internalErrorHeaders))
    (.inr fun _ hnone => by cases hnone)
  unfold Boundary.sendErrorResponse
  split
  · next heq => simpa [heq] using hstart
  · next opened heq =>
    have hopened : Tracked b opened := by simpa [heq] using hstart
    have hbody := hopened.send Boundary.internalErrorBody
      (.inr fun _ hnone => by cases hnone)
    split
    · next heq' => simpa [heq'] using hbody
    · next heq' => simpa [heq'] using hbody

theorem handleException (h : Tracked b run) (error : Error) :
    Tracked b (b.handleException error run).1 := by
  have hfailed := h.markFailure.event (e := .failed b.request run.response.markFailure error) rfl
  unfold Boundary.handleException
  simp only
  split
  · exact h.markFailure
  · split
    · exact hfailed
    · exact hfailed.sendErrorResponse

theorem guarded {app : ASGIApp} (happ : Tracked b (b.runApp app run).1) :
    Tracked b (b.guarded app run).1 := by
  unfold Boundary.guarded
  split
  · next heq =>
    rw [heq] at happ
    split
    · exact happ
    · exact happ.handleException _
  · next heq =>
    rw [heq] at happ
    exact happ.handleException _
  · next heq =>
    rw [heq] at happ
    exact happ.markFailure

end Tracked

/-! ### The lifecycle -/

def Boundary.appRun (b : Boundary) (app : ASGIApp) : Run × Ending := b.runApp app b.opening

/-- What one request guarantees, whatever its application and its server do. -/
structure Lifecycle (b : Boundary) (app : ASGIApp) (run : Run) : Prop where
  /-- At most one start reaches the server, with the request id. -/
  one_start : (starts run.forwarded).length ≤ 1
  carries : ∀ status headers, .start status headers ∈ run.forwarded → b.Carries headers
  /-- An application that ends without a start at the server, on its own and with its client
  there, is answered with a 500 and then its body, unless the start itself fails. -/
  answered : (b.appRun app).2 ≠ .cancelled → starts (b.appRun app).1.forwarded = [] →
    ¬(b.appRun app).1.Disconnected →
    starts run.forwarded = [500] ∧ ∃ headers,
      run.forwarded = (b.appRun app).1.forwarded ++ .start 500 headers ::
        if b.oserror (b.appRun app).1.forwarded.length then [] else [Boundary.internalErrorBody]
  observed : ∃ inner, run.events = .started b.request :: (inner ++ [.finished b.request run.response]) ∧
    ∀ e ∈ inner, e.isInner = true
  status : run.response.statusCode = (starts run.forwarded).head?.getD 500
  /-- Success is reported only of a plain success. -/
  succeeded : run.response.failed = false → (b.appRun app).2 = .returned ∧
    (∃ status, starts (run.sends.map Prod.fst) = [status] ∧ status < 500) ∧ ¬run.Disconnected

theorem Tracked.starts_length {b : Boundary} {run : Run} (h : Tracked b run) :
    (starts run.forwarded).length ≤ 1 := by
  rw [h.forwarded_starts]
  split
  · exact Nat.le_refl 1
  · exact Nat.zero_le 1

theorem Tracked.status {b : Boundary} {run : Run} (h : Tracked b run) :
    run.response.statusCode = (starts run.forwarded).head?.getD 500 := by
  rw [h.forwarded_starts]
  cases hstarted : run.response.responseStarted with
  | true => rfl
  | false => exact (h.unstarted hstarted).1

theorem Tracked.finish {b : Boundary} {run : Run} (h : Tracked b run) :
    Tracked b { b.finish run with events := run.events } ∧
      (b.finish run).events = run.events ++ [.finished b.request (b.finish run).response] := by
  unfold Boundary.finish
  cases hstarted : run.response.responseStarted with
  | true => exact ⟨h, rfl⟩
  | false => exact ⟨h.markFailure, rfl⟩

theorem failed_send {b : Boundary} {run : Run} (h : run.response.failed = true) (message : Message) :
    (b.sendWithRequestId message run).1.response.failed = true := by
  have hforward : ∀ (response : HttpResponseState) (message outbound : Message),
      response.failed = true →
        (b.forward message outbound { run with response := response }).1.response.failed = true := by
    intro response message outbound hresponse
    unfold Boundary.forward
    split
    · rfl
    · exact hresponse
  cases message with
  | body bytes moreBody => exact hforward run.response _ _ h
  | start status headers =>
    cases hstarted : run.response.responseStarted with
    | true =>
      rw [Boundary.sendWithRequestId, start_of_started hstarted]
      rfl
    | false =>
      have hfailed : (run.response.start status).1.failed = true := by
        simp [HttpResponseState.start, hstarted, h]
      rw [Boundary.sendWithRequestId, start_of_unstarted hstarted]
      cases headers with
      | none => exact hfailed
      | some headers => exact hforward _ _ _ hfailed

theorem failed_handleException (b : Boundary) (run : Run) (error : Error) :
    (b.handleException error run).1.response.failed = true := by
  unfold Boundary.handleException
  simp only
  split
  · rfl
  · split
    · rfl
    · unfold Boundary.sendErrorResponse
      have hstart : (b.sendWithRequestId (.start 500 (some Boundary.internalErrorHeaders)) { run with
          response := run.response.markFailure
          events := run.events ++ [.failed b.request run.response.markFailure error]
          }).1.response.failed = true := failed_send rfl _
      split
      · next heq => simpa [heq] using hstart
      · next opened heq =>
        have hopened : opened.response.failed = true := by simpa [heq] using hstart
        have hbody := failed_send (b := b) hopened Boundary.internalErrorBody
        split
        · next heq' => simpa [heq'] using hbody
        · next heq' => simpa [heq'] using hbody

theorem forwarded_forward (b : Boundary) (message outbound : Message) (run : Run) :
    (b.forward message outbound run).1.forwarded = run.forwarded ++ [outbound] := by
  unfold Boundary.forward
  split <;> rfl

theorem raised_forward (b : Boundary) (message outbound : Message) (run : Run) :
    (b.forward message outbound run).2 =
      if b.oserror run.forwarded.length then some .osError else none := by
  unfold Boundary.forward
  split <;> rfl

theorem forwarded_sendErrorResponse {b : Boundary} {run : Run}
    (h : run.response.responseStarted = false) :
    (b.sendErrorResponse run).1.forwarded = run.forwarded ++ .start 500
      (some (setHeader (lower b.headerName) b.request.requestId Boundary.internalErrorHeaders)) ::
        if b.oserror run.forwarded.length then [] else [Boundary.internalErrorBody] := by
  obtain ⟨opened, hopened⟩ : ∃ opened, opened =
      b.forward (.start 500 (some Boundary.internalErrorHeaders)) (.start 500
        (some (setHeader (lower b.headerName) b.request.requestId Boundary.internalErrorHeaders)))
      { run with response := (run.response.start 500).1 } := ⟨_, rfl⟩
  have hsend : b.sendWithRequestId (.start 500 (some Boundary.internalErrorHeaders)) run =
      opened := by
    rw [Boundary.sendWithRequestId, start_of_unstarted h, hopened]
  have hforwarded : opened.1.forwarded = run.forwarded ++ [.start 500
      (some (setHeader (lower b.headerName) b.request.requestId Boundary.internalErrorHeaders))] := by
    rw [hopened, forwarded_forward]
  have hraised : opened.2 = if b.oserror run.forwarded.length then some .osError else none := by
    rw [hopened, raised_forward]
  rw [Boundary.sendErrorResponse, hsend]
  obtain ⟨opened, raised⟩ := opened
  cases hserver : b.oserror run.forwarded.length with
  | true =>
    rw [hserver, if_pos rfl] at hraised
    rw [if_pos rfl]
    cases hraised
    exact hforwarded
  | false =>
    rw [hserver, if_neg Bool.false_ne_true] at hraised
    rw [if_neg Bool.false_ne_true]
    cases hraised
    have hbody : (b.sendWithRequestId Boundary.internalErrorBody opened).1.forwarded =
        opened.forwarded ++ [Boundary.internalErrorBody] :=
      forwarded_forward b _ _ opened
    rw [hforwarded, List.append_assoc] at hbody
    simp only
    split
    · next heq => simpa [heq] using hbody
    · next heq => simpa [heq] using hbody

/-- The handler of an application that did not start its response answers for it. -/
theorem forwarded_handleException {b : Boundary} {run : Run} (error : Error)
    (hstarted : run.response.responseStarted = false)
    (hconnected : run.response.clientDisconnected = false) :
    (b.handleException error run).1.forwarded = run.forwarded ++ .start 500
      (some (setHeader (lower b.headerName) b.request.requestId Boundary.internalErrorHeaders)) ::
        if b.oserror run.forwarded.length then [] else [Boundary.internalErrorBody] := by
  have hstill : run.response.markFailure.responseStarted = false := hstarted
  have hthere : run.response.markFailure.clientDisconnected = false := hconnected
  simp only [Boundary.handleException, hthere, hstill, Bool.false_eq_true, if_false]
  exact forwarded_sendErrorResponse hstill

theorem guarded_cases (b : Boundary) (app : ASGIApp) (run : Run) :
    ((b.runApp app run).2 = .returned ∧ (b.runApp app run).1.response.responseStarted = true ∧
        (b.guarded app run).1 = (b.runApp app run).1) ∨
      ((b.runApp app run).2 = .cancelled ∧ (b.guarded app run).1.response.failed = true) ∨
      ((b.runApp app run).2 ≠ .cancelled ∧
        ∃ error, (b.guarded app run).1 = (b.handleException error (b.runApp app run).1).1) := by
  unfold Boundary.guarded
  split
  · next heq =>
    rw [heq]
    split
    · next hstarted => exact .inl ⟨rfl, hstarted, rfl⟩
    · exact .inr (.inr ⟨fun h => (nomatch h), _, rfl⟩)
  · next heq =>
    rw [heq]
    exact .inr (.inr ⟨fun h => (nomatch h), _, rfl⟩)
  · next heq =>
    rw [heq]
    exact .inr (.inl ⟨rfl, rfl⟩)

/-- Nothing of the application has started a response, so that its handler's start is the first. -/
theorem Tracked.answered {b : Boundary} {app : ASGIApp} (happ : Tracked b (b.appRun app).1)
    (hending : (b.appRun app).2 ≠ .cancelled) (hstarts : starts (b.appRun app).1.forwarded = [])
    (hclient : ¬(b.appRun app).1.Disconnected) :
    starts (b.serve app).1.forwarded = [500] ∧ ∃ headers,
      (b.serve app).1.forwarded = (b.appRun app).1.forwarded ++ .start 500 headers ::
        if b.oserror (b.appRun app).1.forwarded.length then [] else [Boundary.internalErrorBody] := by
  have hforwarded : (b.serve app).1.forwarded = (b.guarded app b.opening).1.forwarded := rfl
  have hstarted : (b.appRun app).1.response.responseStarted = false := by
    cases hstarted : (b.appRun app).1.response.responseStarted with
    | false => rfl
    | true =>
      rw [happ.forwarded_starts, hstarted] at hstarts
      cases hstarts
  have hconnected : (b.appRun app).1.response.clientDisconnected = false := by
    rw [← Bool.not_eq_true, happ.disconnected]
    exact hclient
  rcases guarded_cases b app b.opening with ⟨-, hreturned, -⟩ | ⟨hcancelled, -⟩ | ⟨-, error, heq⟩
  · have hyes : (b.appRun app).1.response.responseStarted = true := hreturned
    rw [hyes] at hstarted
    cases hstarted
  · exact absurd hcancelled hending
  · have hall : (b.serve app).1.forwarded = (b.appRun app).1.forwarded ++ .start 500
        (some (setHeader (lower b.headerName) b.request.requestId
          Boundary.internalErrorHeaders)) ::
          if b.oserror (b.appRun app).1.forwarded.length then [] else [Boundary.internalErrorBody] := by
      rw [hforwarded, heq]
      exact forwarded_handleException error hstarted hconnected
    refine ⟨?_, _, hall⟩
    rw [hall, starts_append, hstarts]
    split <;> rfl

theorem Tracked.succeeded_serve {b : Boundary} {app : ASGIApp}
    (hguarded : Tracked b (b.guarded app b.opening).1)
    (hfailed : (b.serve app).1.response.failed = false) :
    (b.appRun app).2 = .returned ∧
      (∃ status, starts ((b.serve app).1.sends.map Prod.fst) = [status] ∧ status < 500) ∧
      ¬(b.serve app).1.Disconnected := by
  have hserve : (b.serve app).1 = b.finish (b.guarded app b.opening).1 := rfl
  have hstarted : (b.guarded app b.opening).1.response.responseStarted = true := by
    cases hstarted : (b.guarded app b.opening).1.response.responseStarted with
    | true => rfl
    | false =>
      -- the `finally` block fails a response that was never started
      have hfailure : (b.serve app).1.response.failed = true := by
        simp only [hserve, Boundary.finish, hstarted, Bool.false_eq_true, if_false]
        rfl
      rw [hfailure] at hfailed
      cases hfailed
  have hsame : (b.serve app).1.response = (b.guarded app b.opening).1.response := by
    simp only [hserve, Boundary.finish, hstarted, if_true]
  rw [hsame] at hfailed
  rcases guarded_cases b app b.opening with ⟨hreturned, -, heq⟩ | ⟨-, hfailure⟩ | ⟨-, error, heq⟩
  · obtain ⟨hsends, hlow, hconnected⟩ := hguarded.succeeded hfailed
    have hone : starts (b.guarded app b.opening).1.forwarded =
        [(b.guarded app b.opening).1.response.statusCode] := by
      rw [hguarded.forwarded_starts, hstarted]
      rfl
    refine ⟨hreturned, ⟨_, hsends.trans hone, ?_⟩, ?_⟩
    · refine hlow _ ?_
      rw [hone]
      exact List.mem_singleton_self _
    · intro hdisconnected
      rw [hguarded.disconnected.2 hdisconnected] at hconnected
      cases hconnected
  · rw [hfailure] at hfailed
    cases hfailed
  · rw [heq, failed_handleException] at hfailed
    cases hfailed

theorem Tracked.lifecycle {b : Boundary} {app : ASGIApp} (happ : Tracked b (b.appRun app).1) :
    Lifecycle b app (b.serve app).1 := by
  have hguarded : Tracked b (b.guarded app b.opening).1 := Tracked.guarded happ
  obtain ⟨hfinish, hevents⟩ := hguarded.finish
  refine ⟨hfinish.starts_length, hfinish.carries, happ.answered, ?_, hfinish.status,
    hguarded.succeeded_serve⟩
  obtain ⟨inner, hinner, hall⟩ := hguarded.observed
  refine ⟨inner, ?_, hall⟩
  show (b.finish (b.guarded app b.opening).1).events = _
  rw [hevents, hinner]
  rfl

/-! ### With the resolver -/

theorem isAlphanum_digitChar {d : Nat} (h : d < 16) : (Nat.digitChar d).isAlphanum = true := by
  have hall : ∀ a : Fin 16, (Nat.digitChar a).isAlphanum = true := by decide
  exact hall ⟨d, h⟩

theorem mem_uuidText {u : BitVec 128} {c : Char} (h : c ∈ uuidText u) : c.isAlphanum = true ∨ c = '-' := by
  by_cases hdash : c = '-'
  · exact .inr hdash
  · have hmem : c ∈ (uuidText u).filter fun c => c ≠ '-' := List.mem_filter.2 ⟨h, by simpa using hdash⟩
    rw [uuidText_filter] at hmem
    obtain ⟨d, hd, rfl⟩ := mem_fixedDigits (by decide) hmem
    exact .inl (isAlphanum_digitChar hd)

theorem isValidRequestId_uuidText (u : BitVec 128) : isValidRequestId 128 (uuidText u) = true := by
  have hlength := uuidText_length u
  obtain ⟨c, digits, hdigits⟩ : ∃ c digits, fixedHex 32 u.toNat = c :: digits :=
    List.exists_cons_of_length_eq_add_one (length_fixedDigits 16 32 u.toNat)
  have hc : c.isAlphanum = true := by
    have hmem : c ∈ fixedHex 32 u.toNat := by
      rw [hdigits]
      exact List.mem_cons_self
    obtain ⟨d, hd, rfl⟩ := mem_fixedDigits (by decide) hmem
    exact isAlphanum_digitChar hd
  obtain ⟨rest, hrest⟩ : ∃ rest, uuidText u = c :: rest := by
    rw [uuidText, hdigits]
    exact ⟨_, rfl⟩
  have htail : ∀ d ∈ rest, (d.isAlphanum || d == '.' || d == '_' || d == ':' || d == '-') = true := by
    intro d hd
    have hmem : d ∈ uuidText u := hrest ▸ List.mem_cons_of_mem c hd
    rcases mem_uuidText hmem with halpha | rfl
    · simp [halpha]
    · simp
  have hshort : (c :: rest).length ≤ 128 := by
    rw [← hrest, hlength]
    decide
  rw [hrest, isValidRequestId, hc, List.all_eq_true.2 htail]
  simpa using hshort

theorem resolve_uuidText (u : BitVec 128) (candidate : Option Str) :
    ∃ requestId, resolve 128 (uuidText u) candidate = .ok requestId ∧
      isValidRequestId 128 requestId = true := by
  have hvalid := isValidRequestId_uuidText u
  have hfallback : resolve.fallback 128 (uuidText u) = .ok (uuidText u) := if_pos hvalid
  unfold resolve
  split
  · next value =>
    by_cases hvalue : isValidRequestId 128 value = true
    · exact ⟨value, if_pos hvalue, hvalue⟩
    · exact ⟨uuidText u, (if_neg hvalue).trans hfallback, hvalid⟩
  · exact ⟨uuidText u, hfallback, hvalid⟩

end ProfileService.Entrypoints.RequestLifecycle
