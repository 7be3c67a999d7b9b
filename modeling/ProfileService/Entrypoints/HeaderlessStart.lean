import ProfileService.Entrypoints.RequestLifecycle

/-!
# A response start without headers

`send_with_request_id` sets the flags of the response before it reads the headers of the
message. A first start without a `headers` entry is therefore taken for a started response that
no server has seen, and what the lifecycle promises holds only if nothing was to be answered.
-/

namespace ProfileService.Entrypoints.RequestLifecycle
open Library

/-! ### The condition -/

/-- What the server raises for the `n`-th message it is given. -/
def raisedAt (oserror : Nat → Bool) (n : Nat) : Option Error :=
  if oserror n then some .osError else none

/-- The application, all of whose starts are refused, is cancelled or loses its client. -/
def ASGIApp.Unanswerable (oserror : Nat → Bool) : ASGIApp → Nat → Bool → Prop
  | .send (.body _ _) next, n, gone =>
    (next (raisedAt oserror n)).Unanswerable oserror (n + 1) (gone || oserror n)
  | .send (.start _ _) next, n, gone =>
    (next (some (.runtimeError "ASGI application sent multiple response starts"))).Unanswerable
      oserror n gone
  | .cancelled, _, _ => True
  | .ret, _, gone => gone = true
  | .raise _, _, gone => gone = true

/-- The first start of the application, which has sent `n` messages and lost its client or
not, comes with a `headers` entry; or it is a 500 and nothing would have been answered. -/
def ASGIApp.Headed (oserror : Nat → Bool) : ASGIApp → Nat → Bool → Prop
  | .send (.body _ _) next, n, gone =>
    (next (raisedAt oserror n)).Headed oserror (n + 1) (gone || oserror n)
  | .send (.start _ (some _)) _, _, _ => True
  | .send (.start status none) next, n, gone =>
    status = 500 ∧ (next (some (.keyError "headers"))).Unanswerable oserror n gone
  | _, _, _ => True

/-! ### After a start without headers -/

/-- The response counts as started with `status`, but no start has reached the server. -/
structure Stuck (b : Boundary) (status : Nat) (run : Run) : Prop where
  started : run.response.responseStarted = true
  statusCode : run.response.statusCode = status
  unforwarded : starts run.forwarded = []
  disconnected : run.response.clientDisconnected = true ↔ run.Disconnected
  failed : 500 ≤ status → run.response.failed = true
  succeeded : run.response.failed = false → starts (run.sends.map Prod.fst) = [status] ∧
    run.response.clientDisconnected = false
  observed : ∃ inner, run.events = .started b.request :: inner ∧ ∀ e ∈ inner, e.isInner = true

variable {b : Boundary} {run : Run} {status : Nat}

theorem forwarded_body (b : Boundary) (run : Run) (bytes : Str) (moreBody : Bool) :
    (b.sendWithRequestId (.body bytes moreBody) run).2 = raisedAt b.oserror run.forwarded.length ∧
      (b.sendWithRequestId (.body bytes moreBody) run).1.forwarded.length =
        run.forwarded.length + 1 ∧
      (b.sendWithRequestId (.body bytes moreBody) run).1.response.clientDisconnected =
        (run.response.clientDisconnected || b.oserror run.forwarded.length) ∧
      (b.sendWithRequestId (.body bytes moreBody) run).1.response.responseStarted =
        run.response.responseStarted := by
  unfold Boundary.sendWithRequestId Boundary.forward raisedAt
  dsimp only
  split
  · next h => simp [HttpResponseState.markClientDisconnected, h]
  · next h => simp [h]

namespace Stuck

theorem of_headless (h : Tracked b run) (hfirst : run.response.responseStarted = false) :
    Stuck b status (b.sendWithRequestId (.start status none) run).1 := by
  obtain ⟨-, hsends⟩ := h.unstarted hfirst
  have hforwarded : starts run.forwarded = [] := by
    rw [h.forwarded_starts, hfirst]
    rfl
  rw [Boundary.sendWithRequestId, start_of_unstarted hfirst]
  refine ⟨?_, ?_, hforwarded, ?_, fun hstatus => ?_, fun hfailed => ?_, h.observed⟩
  · simp [HttpResponseState.start, hfirst]
  · simp [HttpResponseState.start, hfirst]
  · simpa [HttpResponseState.start, hfirst] using h.disconnected
  · simp [HttpResponseState.start, hfirst, hstatus]
  · have hboth : run.response.failed = false ∧ status < 500 := by
      simpa [HttpResponseState.start, hfirst] using hfailed
    have hconnected := (h.succeeded hboth.1).2.2
    simp [HttpResponseState.start, hfirst, hsends, hconnected]

theorem markFailure (h : Stuck b status run) :
    Stuck b status { run with response := run.response.markFailure } where
  started := h.started
  statusCode := by
    simp only [HttpResponseState.markFailure, h.started, if_true]
    exact h.statusCode
  unforwarded := h.unforwarded
  disconnected := h.disconnected
  failed _ := rfl
  succeeded hfailed := by cases hfailed
  observed := h.observed

theorem event (h : Stuck b status run) {e : LifecycleEvent} (he : e.isInner = true) :
    Stuck b status { run with events := run.events ++ [e] } where
  started := h.started
  statusCode := h.statusCode
  unforwarded := h.unforwarded
  disconnected := h.disconnected
  failed := h.failed
  succeeded := h.succeeded
  observed := by
    obtain ⟨inner, hevents, hinner⟩ := h.observed
    refine ⟨inner ++ [e], by rw [hevents]; rfl, fun d hd => ?_⟩
    rcases List.mem_append.1 hd with hd | hd
    · exact hinner d hd
    · rw [List.mem_singleton.1 hd]
      exact he

theorem send_body (h : Stuck b status run) (bytes : Str) (moreBody : Bool) :
    Stuck b status (b.sendWithRequestId (.body bytes moreBody) run).1 := by
  obtain ⟨inner, hevents, hinner⟩ := h.observed
  unfold Boundary.sendWithRequestId Boundary.forward
  dsimp only
  split
  · refine ⟨h.started, h.statusCode, ?_, ?_, fun _ => rfl, fun hfailed => (by cases hfailed), ?_⟩
    · simpa using h.unforwarded
    · simp [HttpResponseState.markClientDisconnected]
    · refine ⟨inner ++ [_], by rw [hevents]; rfl, fun e he => ?_⟩
      rcases List.mem_append.1 he with he | he
      · exact hinner e he
      · rw [List.mem_singleton.1 he]
        rfl
  · refine ⟨h.started, h.statusCode, ?_, ?_, h.failed, ?_, h.observed⟩
    · simpa using h.unforwarded
    · simpa using h.disconnected
    · simpa using h.succeeded

theorem send_start (h : Stuck b status run) (code : Nat) (headers : Option (List Header)) :
    (b.sendWithRequestId (.start code headers) run).2 =
        some (.runtimeError "ASGI application sent multiple response starts") ∧
      (b.sendWithRequestId (.start code headers) run).1.forwarded = run.forwarded ∧
      (b.sendWithRequestId (.start code headers) run).1.response = run.response.markFailure ∧
      Stuck b status (b.sendWithRequestId (.start code headers) run).1 := by
  rw [Boundary.sendWithRequestId, start_of_started h.started]
  refine ⟨rfl, rfl, rfl, h.started, h.markFailure.statusCode, h.unforwarded, ?_, fun _ => rfl,
    fun hfailed => (by cases hfailed), h.observed⟩
  simpa [HttpResponseState.markFailure] using h.disconnected

/-- The rest of the application, by induction on it: whether anything was to be answered. -/
theorem runApp (app : ASGIApp) (h : Stuck b status run) :
    Stuck b status (b.runApp app run).1 ∧
      (app.Unanswerable b.oserror run.forwarded.length run.response.clientDisconnected ↔
        (b.runApp app run).2 = .cancelled ∨
          (b.runApp app run).1.response.clientDisconnected = true) := by
  induction app generalizing run with
  | send message next ih =>
    cases message with
    | body bytes moreBody =>
      obtain ⟨hraised, hlength, hgone, -⟩ := forwarded_body b run bytes moreBody
      have hrest := ih (b.sendWithRequestId (.body bytes moreBody) run).2
        (h.send_body bytes moreBody)
      rw [hlength, hgone] at hrest
      rw [ASGIApp.Unanswerable, ← hraised]
      exact hrest
    | start code headers =>
      obtain ⟨hraised, hforwarded, hresponse, hstuck⟩ := h.send_start code headers
      have hrest := ih (b.sendWithRequestId (.start code headers) run).2 hstuck
      rw [hforwarded, hresponse] at hrest
      rw [ASGIApp.Unanswerable, ← hraised]
      exact hrest
  | ret => exact ⟨h, by simp [ASGIApp.Unanswerable, Boundary.runApp]⟩
  | raise error => exact ⟨h, by simp [ASGIApp.Unanswerable, Boundary.runApp]⟩
  | cancelled => exact ⟨h, by simp [ASGIApp.Unanswerable, Boundary.runApp]⟩

/-- No error response follows a response that counts as started. -/
theorem handleException (h : Stuck b status run) (error : Error) :
    Stuck b status (b.handleException error run).1 := by
  have hstarted : run.response.markFailure.responseStarted = true := h.started
  unfold Boundary.handleException
  simp only [hstarted, if_true]
  split
  · exact h.markFailure
  · exact h.markFailure.event (e := .failed b.request run.response.markFailure error) rfl

theorem guarded {app : ASGIApp} (happ : Stuck b status (b.runApp app run).1) :
    Stuck b status (b.guarded app run).1 := by
  unfold Boundary.guarded
  split
  · next heq =>
    rw [heq] at happ
    rw [if_pos happ.started]
    exact happ
  · next heq =>
    rw [heq] at happ
    exact happ.handleException _
  · next heq =>
    rw [heq] at happ
    exact happ.markFailure

/-- What is reported is true only of a 500, and only if nothing was to be answered. -/
theorem lifecycle_iff {app : ASGIApp} (happ : Stuck b status (b.appRun app).1) :
    Lifecycle b app (b.serve app).1 ↔
      status = 500 ∧ ((b.appRun app).2 = .cancelled ∨ (b.appRun app).1.Disconnected) := by
  have hguarded : Stuck b status (b.guarded app b.opening).1 := Stuck.guarded happ
  have hresponse : (b.serve app).1.response = (b.guarded app b.opening).1.response := by
    show (b.finish (b.guarded app b.opening).1).response = _
    simp only [Boundary.finish, hguarded.started, if_true]
  have hforwarded : (b.serve app).1.forwarded = (b.guarded app b.opening).1.forwarded := rfl
  constructor
  · intro h
    refine ⟨?_, ?_⟩
    · have hstatus := h.status
      rw [hresponse, hforwarded, hguarded.statusCode, hguarded.unforwarded] at hstatus
      exact hstatus
    · by_contra hno
      rw [not_or] at hno
      obtain ⟨hstarts, -⟩ := h.answered hno.1 happ.unforwarded hno.2
      rw [hforwarded, hguarded.unforwarded] at hstarts
      cases hstarts
  · rintro ⟨rfl, hend⟩
    obtain ⟨inner, hevents, hinner⟩ := hguarded.observed
    refine ⟨?_, fun code headers hmem => ?_, fun hcancelled _ hconnected => ?_, ?_, ?_,
      fun hfailed => ?_⟩
    · rw [hforwarded, hguarded.unforwarded]
      exact Nat.zero_le 1
    · have hstart : code ∈ starts (b.serve app).1.forwarded :=
        List.mem_filterMap.2 ⟨_, hmem, rfl⟩
      rw [hforwarded, hguarded.unforwarded] at hstart
      cases hstart
    · rcases hend with hend | hend
      · exact absurd hend hcancelled
      · exact absurd hend hconnected
    · refine ⟨inner, ?_, hinner⟩
      show (b.guarded app b.opening).1.events ++ [_] = _
      rw [hevents]
      rfl
    · rw [hresponse, hforwarded, hguarded.statusCode, hguarded.unforwarded]
      rfl
    · rw [hresponse, hguarded.failed (Nat.le_refl 500)] at hfailed
      cases hfailed

end Stuck

/-! ### Every application -/

theorem Tracked.runApp (app : ASGIApp) (h : Tracked b run)
    (hfirst : run.response.responseStarted = false) :
    (Tracked b (b.runApp app run).1 ∧
        app.Headed b.oserror run.forwarded.length run.response.clientDisconnected) ∨
      ∃ status, Stuck b status (b.runApp app run).1 ∧
        (app.Headed b.oserror run.forwarded.length run.response.clientDisconnected ↔
          status = 500 ∧ ((b.runApp app run).2 = .cancelled ∨ (b.runApp app run).1.Disconnected)) := by
  induction app generalizing run with
  | send message next ih =>
    cases message with
    | body bytes moreBody =>
      obtain ⟨hraised, hlength, hgone, hstarted⟩ := forwarded_body b run bytes moreBody
      have hrest := ih (b.sendWithRequestId (.body bytes moreBody) run).2
        (h.send (.body bytes moreBody) (.inr fun _ hno => by cases hno))
        (hstarted.trans hfirst)
      rw [hlength, hgone] at hrest
      rw [ASGIApp.Headed, ← hraised]
      exact hrest
    | start status headers =>
      cases headers with
      | some headers =>
        have hsent : Tracked b (b.sendWithRequestId (.start status (some headers)) run).1 :=
          h.send _ (.inr fun _ hno => by cases hno)
        have hstarted :
            (b.sendWithRequestId (.start status (some headers)) run).1.response.responseStarted =
              true := by
          rw [Boundary.sendWithRequestId, start_of_unstarted hfirst]
          unfold Boundary.forward
          dsimp only
          split <;> simp [HttpResponseState.markClientDisconnected, HttpResponseState.start, hfirst]
        exact .inl ⟨hsent.runApp_started _ hstarted, trivial⟩
      | none =>
        have hstuck : Stuck b status (b.sendWithRequestId (.start status none) run).1 :=
          Stuck.of_headless h hfirst
        have hsend : (b.sendWithRequestId (.start status none) run).2 =
              some (.keyError "headers") ∧
            (b.sendWithRequestId (.start status none) run).1.forwarded = run.forwarded ∧
            (b.sendWithRequestId (.start status none) run).1.response.clientDisconnected =
              run.response.clientDisconnected := by
          rw [Boundary.sendWithRequestId, start_of_unstarted hfirst]
          exact ⟨rfl, rfl, by simp [HttpResponseState.start, hfirst]⟩
        obtain ⟨hraised, hforwarded, hgone⟩ := hsend
        obtain ⟨hrest, hunanswerable⟩ :=
          hstuck.runApp (next (b.sendWithRequestId (.start status none) run).2)
        rw [hforwarded, hgone, hrest.disconnected] at hunanswerable
        rw [ASGIApp.Headed, ← hraised]
        exact .inr ⟨status, hrest, and_congr_right fun _ => hunanswerable⟩
  | ret => exact .inl ⟨h, trivial⟩
  | raise error => exact .inl ⟨h, trivial⟩
  | cancelled => exact .inl ⟨h, trivial⟩

theorem lifecycle_serve_iff (b : Boundary) (app : ASGIApp) :
    Lifecycle b app (b.serve app).1 ↔ app.Headed b.oserror 0 false := by
  rcases (Tracked.opening b).runApp app rfl with ⟨happ, hheaded⟩ | ⟨status, hstuck, hheaded⟩
  · exact iff_of_true happ.lifecycle hheaded
  · exact (Stuck.lifecycle_iff hstuck).trans hheaded.symm

/-- Every request gets a safe id, and its lifecycle keeps what it promises exactly if the first
start of its application has headers, or is a 500 that nothing was to be answered after. -/
theorem request_lifecycle_iff (headerName method path : Str) (headers : List Header)
    (u : BitVec 128) (oserror : Nat → Bool) (app : Str → ASGIApp) :
    ∃ requestId run, resolveRequestId headerName 128 (uuidText u) headers = .ok requestId ∧
      isValidRequestId 128 requestId = true ∧
      call headerName method path headers (uuidText u) oserror app = .ok run ∧
      (Lifecycle ⟨headerName, ⟨requestId, method, path⟩, oserror⟩ (app requestId) run.1 ↔
        (app requestId).Headed oserror 0 false) := by
  obtain ⟨requestId, hresolve, hvalid⟩ : ∃ requestId,
      resolveRequestId headerName 128 (uuidText u) headers = .ok requestId ∧
        isValidRequestId 128 requestId = true := by
    unfold resolveRequestId
    split
    · exact resolve_uuidText u (some _)
    · exact resolve_uuidText u none
  refine ⟨requestId, _, hresolve, hvalid, ?_, lifecycle_serve_iff _ _⟩
  rw [call, hresolve]
  rfl

/-- An application that sends a 200 without headers and takes no notice of what that raises. -/
def headlessApp : ASGIApp := .send (.start 200 none) fun _ => .ret

def quietBoundary : Boundary where
  headerName := "X-Request-Id".toList
  request := ⟨"r1".toList, "GET".toList, "/".toList⟩
  oserror _ := false

/-- Nothing reaches the server, and the request is reported finished with 200. -/
theorem request_lifecycle_headless :
    (quietBoundary.serve headlessApp).1.forwarded = [] ∧
      (quietBoundary.serve headlessApp).1.response.statusCode = 200 ∧
      (quietBoundary.serve headlessApp).1.response.failed = false ∧
      ¬ Lifecycle quietBoundary headlessApp (quietBoundary.serve headlessApp).1 := by
  refine ⟨rfl, rfl, rfl, fun h => ?_⟩
  have hheaded := (lifecycle_serve_iff quietBoundary headlessApp).1 h
  exact absurd hheaded.1 (by decide)

end ProfileService.Entrypoints.RequestLifecycle
