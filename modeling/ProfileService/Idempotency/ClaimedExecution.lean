import ProfileService.Idempotency.Coordinator

/-!
# `_execute_claimed` and its heartbeat

The two tasks of one claimed execution, await by await, over their two events
(`coordinator.py:162-215`, `233-327`), with a cancellation of the execution from outside
delivered at most once. The operation, or the durable execution, is one await.
-/

namespace ProfileService.Idempotency
open Library Application

namespace Claimed

/-- What `_execute_claimed` awaits or reads: the operation, `lost_lease.is_set()`, the
request that the heartbeat stop, its join, the two hot calls and the clock. -/
inductive ClaimedOp where
  | execute
  | lost
  | stop
  | join
  | release
  | complete (completed : CompletedIdempotencyResult)
  | clock

abbrev claimedSig : Signature where
  Op := ClaimedOp
  Reply
    | .execute => IdempotencyResult
    | .lost => Bool
    | .stop => Unit
    | .join => Unit
    | .release => Bool
    | .complete _ => Bool
    | .clock => Instant

/-- `_complete` (`coordinator.py:233-260`). -/
def complete_ (policy : IdempotencyPolicy) (completed : CompletedIdempotencyResult) :
    Code claimedSig Exn Unit :=
  (.call (.complete completed) .ret : Code claimedSig Exn Bool).onOutcome fun
    | .error (.idempotencyUnavailable message) =>
      if policy.mode = .hotOnly then throw (.idempotencyUnavailable message) else return ()
    | .error e => throw e
    | .ok published =>
      if !published ∧ policy.mode = .hotOnly then throw (.idempotencyUnavailable
        "Hot result not saved; the business effect may already have happened")
      else return ()

/-- `_release` (`coordinator.py:262-272`). -/
def release_ : Code claimedSig Exn Unit :=
  (.call .release .ret : Code claimedSig Exn Bool).onOutcome fun
    | .error (.idempotencyUnavailable _) => return ()
    | .error e => throw e
    | .ok _ => return ()

/-- What `_evaluate_result` makes of a result at `now` (`coordinator.py:274-289`). -/
def evaluated (result : IdempotencyResult) (now : Instant) :
    Except Exn CompletedIdempotencyResult :=
  match result with
  | .conflict => .error (.idempotencyConflict
      "Ключ идемпотентности повторно использован с отличающимся телом запроса")
  | .inProgress => .error (.idempotencyInProgress
      "Запрос с данным ключом идемпотентности уже находится в процессе обработки")
  | .executed completed | .replay completed =>
    if completed.expiresAt ≤ now then
      .error (.idempotencyUnavailable "Replay lifetime expired before response")
    else .ok completed

/-- `_evaluate_result`: the clock is read for a completed result only. -/
def evaluateResult (result : IdempotencyResult) :
    Code claimedSig Exn CompletedIdempotencyResult :=
  match result with
  | .conflict | .inProgress => .ret (evaluated result 0)
  | .executed _ | .replay _ => .call .clock fun now => .ret (now.bind (evaluated result))

/-- `_stop_heartbeat` (`coordinator.py:319-327`): `suppress` covers the whole join. -/
def stopHeartbeat_ : Code claimedSig Exn Unit := do
  .call .stop .ret
  tryCatch (.call .join .ret) fun
    | .cancelled => return ()
    | e => throw e

def leaseLost : Code claimedSig Exn Bool := .call .lost .ret

/-- The `except BaseException` (`coordinator.py:198-201`). -/
def abandonClaim (e : Exn) : Code claimedSig Exn IdempotencyResult := do
  if !(← leaseLost) then release_
  throw e

/-- What follows the joined heartbeat (`coordinator.py:205-215`). -/
def publish (policy : IdempotencyPolicy) (result : IdempotencyResult) :
    Code claimedSig Exn CompletedIdempotencyResult := do
  if ← leaseLost then
    if policy.mode = .hotOnly then throw (.idempotencyUnavailable
      "Hot lease lost; the business effect may already have happened")
  else
    match result with
    | .executed completed | .replay completed => complete_ policy completed
    | .conflict | .inProgress => release_
  evaluateResult result

/-- `_execute_claimed` once its heartbeat task is created. -/
def executeClaimed (policy : IdempotencyPolicy) : Code claimedSig Exn CompletedIdempotencyResult := do
  let result ← (tryCatch (.call .execute .ret) abandonClaim).andFinally stopHeartbeat_
  publish policy result

/-! ### Its tasks and events -/

/-- The heartbeat task, by what it awaits; `cancelled` says how it ended. -/
inductive Beat where
  | created
  | sleeping
  | renewing
  | ended (cancelled : Bool)
  deriving DecidableEq

def Beat.done : Beat → Bool
  | .ended _ => true
  | _ => false

/-- The await at which a cancellation from outside is delivered. -/
inductive Point where
  | operation
  | release
  | join
  | complete
  deriving DecidableEq

/-- A hot-store call of the execution, whether a cancellation had been delivered before it,
and its answer; that of a renewal shows in the state of the heartbeat. -/
structure Issued where
  call : HotCall
  late : Bool
  answer : Option (Except Exn Bool)

/-- The two tasks' shared events, and what the execution has done so far: its hot-store
calls, newest first, how the operation ended, whether a check found the lease lost, the
last clock reading and the cancellation that was delivered. -/
structure State where
  beat : Beat
  stop : Bool
  cancelRequested : Bool
  lostLease : Bool
  issued : List Issued
  outcome : Option (Except Exn IdempotencyResult)
  seenLost : Bool
  clockRead : Instant
  cancelledAt : Option Point

def State.initial : State where
  beat := .created
  stop := false
  cancelRequested := false
  lostLease := false
  issued := []
  outcome := none
  seenLost := false
  clockRead := 0
  cancelledAt := none

def State.issue (c : HotCall) (answer : Option (Except Exn Bool)) (s : State) : State :=
  { s with issued := ⟨c, s.cancelledAt.isSome, answer⟩ :: s.issued }

/-- The arguments of `_execute_claimed`. -/
structure Call where
  identity : IdempotencyKey
  requestFingerprint : Digest
  leaseToken : Token
  policy : IdempotencyPolicy

/-- How the `try` block may end: as the durable execution likes, or with the stored result
of the operation under a deadline, or with any exception (`coordinator.py:183-197`). -/
def Call.MayEnd (q : Call) (r : Except Exn IdempotencyResult) : Prop :=
  q.policy.mode = .hotDurable ∨ ∃ (stored : Except Exn StoredResult) (now : Instant),
    r = stored.bind fun stored =>
      (deadlineAfter now q.policy.retentionSeconds).map fun expiresAt =>
        .executed (stored.completed q.requestFingerprint expiresAt)

inductive HotAnswer : Except Exn Bool → Prop where
  | answered (b : Bool) : HotAnswer (.ok b)
  | unavailable (message : String) : HotAnswer (.error (.idempotencyUnavailable message))

/-- A hot call is answered, or the execution is cancelled while it awaits the answer. -/
def hotExec (c : HotCall) (p : Point) (s : State) (r : Except Exn Bool) (s' : State) : Prop :=
  (HotAnswer r ∧ s' = s.issue c (some r)) ∨
    (s.cancelledAt = none ∧ r = .error .cancelled ∧
      s' = { s.issue c (some r) with cancelledAt := some p })

/-- One await of the execution. Cancelled at the join, it awaits a heartbeat that was not
done when it was told to stop. -/
def exec (q : Call) : (o : claimedSig.Op) → State → Except Exn (claimedSig.Reply o) → State → Prop
  | .execute, s, r, s' =>
    (q.MayEnd r ∧ s' = { s with outcome := some r }) ∨
      (s.cancelledAt = none ∧ r = .error .cancelled ∧
        s' = { s with outcome := some r, cancelledAt := some .operation })
  | .lost, s, r, s' => r = .ok s.lostLease ∧ s' = { s with seenLost := s.seenLost || s.lostLease }
  | .stop, s, r, s' =>
    r = .ok () ∧ s' = { s with stop := true, cancelRequested := !s.beat.done }
  | .join, s, r, s' =>
    s.beat.done = true ∧
      ((r = (if s.beat = .ended true then .error .cancelled else .ok ()) ∧ s' = s) ∨
        (s.cancelledAt = none ∧ s.cancelRequested = true ∧ r = .error .cancelled ∧
          s' = { s with cancelledAt := some .join }))
  | .release, s, r, s' => hotExec (.release q.identity q.leaseToken) .release s r s'
  | .complete completed, s, r, s' =>
    hotExec (.complete q.identity q.leaseToken completed q.policy.hotResultTtlSeconds) .complete
      s r s'
  | .clock, s, r, s' => ∃ now, r = .ok now ∧ s' = { s with clockRead := now }

/-- One step of `_heartbeat` between two of its awaits (`coordinator.py:291-317`). -/
inductive BeatStep (q : Call) (s : State) : State → Prop where
  | start (h : s.beat = .created) (hs : s.stop = false) : BeatStep q s { s with beat := .sleeping }
  | wake (h : s.beat = .sleeping) (hs : s.stop = false) :
      BeatStep q s { s.issue (.renew q.identity q.leaseToken q.policy.leaseSeconds) none with
        beat := .renewing }
  | renewed (h : s.beat = .renewing) (hs : s.stop = false) :
      BeatStep q s { s with beat := .sleeping }
  | stopped (h : s.beat.done = false) (hs : s.stop = true) :
      BeatStep q s { s with beat := .ended false }
  | sleepRaised (h : s.beat = .sleeping) :
      BeatStep q s { s with beat := .ended false, lostLease := true }
  | notRenewed (answer : Except Exn Bool) (h : s.beat = .renewing) (htrue : answer ≠ .ok true)
      (hraised : answer ≠ .error .cancelled) :
      BeatStep q s { s with beat := .ended false, lostLease := true }
  | cancelled (h : s.beat.done = false) (hc : s.cancelRequested = true) :
      BeatStep q s { s with beat := .ended true }

def machine (q : Call) : Machine claimedSig Exn Unit State where
  exec _ := exec q
  env := BeatStep q
  crash _ _ _ := False

def start (q : Call) :
    Config claimedSig Exn Unit State CompletedIdempotencyResult :=
  ⟨State.initial, fun _ => some (executeClaimed q.policy)⟩

/-! ### The same program as the coordinator's -/

section Expansion
variable {W : Type} {B : Business W} (identity : IdempotencyKey) (requestFingerprint : Digest)
  (leaseToken : Token) (operation : Operation B) (policy : IdempotencyPolicy)

/-- What each await is in the coordinator, where stopping includes the join. -/
def meaning : ∀ o : claimedSig.Op, Code (sig B) Exn (claimedSig.Reply o)
  | .execute => executeOperation identity requestFingerprint operation policy
  | .lost => Idempotency.leaseLost
  | .stop => .call .stopHeartbeat .ret
  | .join => .ret (.ok ())
  | .release => hotRelease identity leaseToken
  | .complete completed => hotComplete identity leaseToken completed policy.hotResultTtlSeconds
  | .clock => clockNow

theorem expand_complete (completed : CompletedIdempotencyResult) :
    (complete_ policy completed).expand
        (meaning identity requestFingerprint leaseToken operation policy) =
      Idempotency.complete_ identity leaseToken completed policy := by
  unfold complete_ Idempotency.complete_
  rw [Code.expand_onOutcome, Code.expand_call]
  congr 1
  funext r
  cases r with
  | error e =>
    cases e with
    | idempotencyUnavailable message =>
      by_cases hmode : policy.mode = .hotOnly
      · simp only [if_pos hmode]
        rfl
      · simp only [if_neg hmode]
        rfl
    | _ => rfl
  | ok published =>
    by_cases hlost : (!published) = true ∧ policy.mode = .hotOnly
    · simp only [if_pos hlost]
      rfl
    · simp only [if_neg hlost]
      rfl

theorem expand_release :
    release_.expand (meaning identity requestFingerprint leaseToken operation policy) =
      Idempotency.release_ identity leaseToken := by
  unfold release_ Idempotency.release_
  rw [Code.expand_onOutcome, Code.expand_call]
  congr 1
  funext r
  cases r with
  | error e => cases e <;> rfl
  | ok released => rfl

theorem expand_evaluateResult (result : IdempotencyResult) :
    (evaluateResult result).expand
        (meaning identity requestFingerprint leaseToken operation policy) =
      Idempotency.evaluateResult result := by
  have hclock : ∀ completed : CompletedIdempotencyResult,
      clockNow (B := B) >>= (fun now => if completed.expiresAt ≤ now then
        throw (.idempotencyUnavailable "Replay lifetime expired before response")
        else return completed) =
      clockNow.onOutcome fun now => .ret (now.bind (evaluated (.replay completed))) := by
    intro completed
    rw [Code.bind_def]
    congr 1
    funext r
    cases r with
    | error e => rfl
    | ok now =>
      show (if completed.expiresAt ≤ now then _ else _) = Code.ret (if _ then _ else _)
      split <;> rfl
  cases result with
  | executed completed => exact (hclock completed).symm
  | replay completed => exact (hclock completed).symm
  | conflict => rfl
  | inProgress => rfl

theorem expand_stopHeartbeat :
    stopHeartbeat_.expand (meaning identity requestFingerprint leaseToken operation policy) =
      (.call .stopHeartbeat .ret : Code (sig B) Exn Unit) := by
  unfold stopHeartbeat_
  rw [Code.expand_bind, Code.expand_call]
  refine congrArg (Code.call (σ := sig B) .stopHeartbeat) (funext fun r => ?_)
  cases r <;> rfl

theorem expand_abandonClaim (e : Exn) :
    (abandonClaim e).expand (meaning identity requestFingerprint leaseToken operation policy) =
      Idempotency.abandonClaim (B := B) identity leaseToken e := by
  unfold abandonClaim Idempotency.abandonClaim leaseLost
  rw [Code.expand_bind, Code.expand_call]
  apply congrArg (Idempotency.leaseLost (B := B) >>= ·)
  funext lost
  cases lost with
  | true => rfl
  | false =>
    show Code.expand _ (release_ >>= fun _ => throw e) = _
    rw [Code.expand_bind, expand_release]
    rfl

theorem expand_publish (result : IdempotencyResult) :
    (publish policy result).expand
        (meaning identity requestFingerprint leaseToken operation policy) =
      Idempotency.publish identity leaseToken policy result := by
  have hthen : ∀ x : Code claimedSig Exn Unit,
      (x >>= fun _ => evaluateResult result).expand
          (meaning identity requestFingerprint leaseToken operation policy) =
        x.expand (meaning identity requestFingerprint leaseToken operation policy) >>=
          fun _ => Idempotency.evaluateResult result := by
    intro x
    rw [Code.expand_bind]
    simp only [expand_evaluateResult]
  unfold publish Idempotency.publish leaseLost
  rw [Code.expand_bind, Code.expand_call]
  apply congrArg (Idempotency.leaseLost (B := B) >>= ·)
  funext lost
  cases lost with
  | true =>
    by_cases hmode : policy.mode = .hotOnly
    · simp only [if_pos hmode]
      rfl
    · simp only [if_neg hmode, if_true]
      exact expand_evaluateResult identity requestFingerprint leaseToken operation policy result
  | false =>
    cases result with
    | executed completed => exact (hthen _).trans (by rw [expand_complete]; rfl)
    | replay completed => exact (hthen _).trans (by rw [expand_complete]; rfl)
    | conflict => exact (hthen _).trans (by rw [expand_release]; rfl)
    | inProgress => exact (hthen _).trans (by rw [expand_release]; rfl)

/-- With the heartbeat in the environment and its stop and join in one step, this is
the coordinator's `_execute_claimed`. -/
theorem expand_executeClaimed :
    Idempotency.executeClaimed identity requestFingerprint leaseToken operation policy =
      .call (.startHeartbeat identity leaseToken policy.leaseSeconds)
        (Code.onReturn fun _ => (executeClaimed policy).expand
          (meaning identity requestFingerprint leaseToken operation policy)) := by
  have hbody : (tryCatch (.call .execute .ret) abandonClaim : Code claimedSig Exn _).expand
      (meaning identity requestFingerprint leaseToken operation policy) =
      tryCatch (executeOperation identity requestFingerprint operation policy)
        (Idempotency.abandonClaim identity leaseToken) := by
    rw [Code.tryCatch_def, Code.expand_onOutcome, Code.expand_call]
    apply congrArg (Code.onOutcome _)
    funext r
    cases r with
    | ok result => rfl
    | error e => exact expand_abandonClaim identity requestFingerprint leaseToken operation policy e
  show Code.call _ _ = _
  congr 1
  apply congrArg Code.onReturn
  funext started
  unfold executeClaimed
  rw [Code.expand_bind]
  congr 1
  · refine Eq.trans ?_ (Code.expand_onOutcome _ _ _).symm
    rw [hbody]
    refine congrArg (Code.onOutcome _) (funext fun r => ?_)
    rw [Code.expand_onOutcome, expand_stopHeartbeat]
    refine congrArg (Code.onOutcome _) (funext fun stopped => ?_)
    cases stopped <;> rfl
  · funext result
    exact (expand_publish identity requestFingerprint leaseToken operation policy result).symm

end Expansion
end Claimed
end ProfileService.Idempotency
