import ProfileService.Idempotency.World

/-!
# The durable execution

The unit of work, the PostgreSQL record store and
`TransactionalIdempotencyExecution`, await by await. Handlers are coroutines
over `stmtSig`: they cannot commit.
-/

namespace ProfileService.Idempotency
open Library Application

variable {W : Type} {B : Business W} {α : Type}

def utcNow : Code (dbSig B) Exn Instant := .call .clock .ret

/-- A session call under the `except SQLAlchemyError` of the unit of work. -/
def translated (x : Code (dbSig B) Exn α) : Code (dbSig B) Exn α :=
  tryCatch x fun e => throw e.leavingUow

/-- `__aexit__`: commit after a normal body, roll back after any exception; a
failing rollback replaces the exception (`unit_of_work.py:46-66`). -/
def leaveUow : Except Exn α → Code (dbSig B) Exn α
  | .ok a => do
    translated (.call .commit .ret)
    return a
  | .error e => do
    translated (.call .rollback .ret)
    throw e.leavingUow

def withUow (body : Code (dbSig B) Exn α) : Code (dbSig B) Exn α := do
  translated (.call .begin .ret)
  body.onOutcome leaveUow

/-- `get_completed` (`durable_store.py:26-52`). -/
def getCompleted (identity : IdempotencyKey) :
    Code (dbSig B) Exn (Option CompletedIdempotencyResult) := do
  let now ← utcNow
  .call (.selectRecord identity now) fun row => .ret (row.map (Option.map DurableRecord.completed))

/-- `try_add_completed` (`durable_store.py:54-97`). -/
def tryAddCompleted (identity : IdempotencyKey) (completed : CompletedIdempotencyResult) :
    Code (dbSig B) Exn Bool := do
  let now ← utcNow
  if h : now < completed.expiresAt then
    .call (.upsertRecord identity ⟨completed, now, now, le_refl now, h⟩) .ret
  else throw (.idempotencyUnavailable "Result expired before durable persistence")

/-- What a live record means for a request (`transactional_execution.py:153-157`). -/
def decideExisting (requestFingerprint : Digest) (existing : CompletedIdempotencyResult)
    (now : Instant) : Option IdempotencyResult :=
  if existing.expiresAt ≤ now then none
  else if existing.requestFingerprint ≠ requestFingerprint then some .conflict
  else some (.replay existing)

/-- `_find_existing`: the clock is read again only for a row that was found. -/
def findExisting_ (identity : IdempotencyKey) (requestFingerprint : Digest) :
    Code (dbSig B) Exn (Option IdempotencyResult) := do
  match ← withUow (getCompleted identity) with
  | none => return none
  | some existing =>
    let now ← utcNow
    return decideExisting requestFingerprint existing now

def StoredResult.completed (stored : StoredResult) (requestFingerprint : Digest)
    (expiresAt : Deadline) : CompletedIdempotencyResult :=
  { stored with
    expiresAt := expiresAt
    requestFingerprint := requestFingerprint
    expiresAt_representable := expiresAt.2 }

/-- `now + timedelta(seconds=retention_seconds)`. -/
def deadlineAfter (now : Instant) (retentionSeconds : Nat) : Except Exn Deadline :=
  if h : Representable (now + seconds retentionSeconds) then .ok ⟨_, h⟩
  else .error (.other "OverflowError" "date value out of range")

theorem deadlineAfter_eq {now : Instant} {n : Nat} {d : Deadline} (h : deadlineAfter now n = .ok d) :
    d.1 = now + seconds n := by
  unfold deadlineAfter at h
  split at h
  · cases h
    rfl
  · cases h

/-- The business transaction (`transactional_execution.py:104-113`). -/
def executeInTransaction (identity : IdempotencyKey) (requestFingerprint : Digest)
    (operation : Code (stmtSig B) Exn StoredResult) (retentionSeconds : Nat) :
    Code (dbSig B) Exn CompletedIdempotencyResult := do
  let stored ← operation.lift (stmtInDb B)
  let now ← utcNow
  let expiresAt ← .ret (deadlineAfter now retentionSeconds)
  let completed := stored.completed requestFingerprint expiresAt
  let added ← tryAddCompleted identity completed
  if added then return completed else throw .concurrentWinnerCommitted

/-- What a lost race without a live winner raises (`transactional_execution.py:123-130`). -/
def lostRace : Exn → Exn
  | .concurrentWinnerCommitted => .idempotencyUnavailable
      "Durable winner is unavailable after the losing transaction rolled back"
  | e => e

/-- The `except` of a lost race (`transactional_execution.py:112-130`). -/
def resolveRace (identity : IdempotencyKey) (requestFingerprint : Digest) (raceError : Exn) :
    Code (dbSig B) Exn IdempotencyResult := do
  match ← findExisting_ identity requestFingerprint with
  | some winner => return winner
  | none => throw (lostRace raceError)

/-- `_execute_once` (`transactional_execution.py:88-132`). -/
def executeOnce_ (identity : IdempotencyKey) (requestFingerprint : Digest)
    (operation : Code (stmtSig B) Exn StoredResult) (retentionSeconds : Nat) :
    Code (dbSig B) Exn IdempotencyResult := do
  match ← findExisting_ identity requestFingerprint with
  | some existing => return existing
  | none =>
    (withUow (executeInTransaction identity requestFingerprint operation
      retentionSeconds)).onOutcome fun
      | .ok completed => return .executed completed
      | .error e => if e.isRaceError then resolveRace identity requestFingerprint e else throw e

/-- A persistence failure leaves as an idempotency failure with `message`. -/
def unavailableAs (message : String) (x : Code (dbSig B) Exn α) : Code (dbSig B) Exn α :=
  tryCatch x fun
    | .persistenceUnavailable => throw (.idempotencyUnavailable message)
    | e => throw e

/-- `execute_once` (`transactional_execution.py:68-86`). -/
def executeOnce (identity : IdempotencyKey) (requestFingerprint : Digest)
    (operation : Code (stmtSig B) Exn StoredResult) (retentionSeconds : Nat) :
    Code (dbSig B) Exn IdempotencyResult :=
  if retentionSeconds = 0 then throw (.other "ValueError" "retention_seconds must be positive")
  else
    unavailableAs "Durable execution unavailable; commit outcome may be unknown"
      (executeOnce_ identity requestFingerprint operation retentionSeconds)

/-- `find_existing` (`transactional_execution.py:134-146`). -/
def findExisting (identity : IdempotencyKey) (requestFingerprint : Digest) :
    Code (dbSig B) Exn (Option IdempotencyResult) :=
  unavailableAs "Durable lookup unavailable" (findExisting_ identity requestFingerprint)

end ProfileService.Idempotency
