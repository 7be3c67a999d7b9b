import ProfileService.Idempotency.Execution

/-!
# `IdempotencyCoordinator`

`application/idempotency/coordinator.py`, await by await. The lease token is the
one `lease_token_factory` answered; the heartbeat task itself runs in
`WorldEnv.beat`.
-/

namespace ProfileService.Idempotency
open Library Application

variable {W : Type} {B : Business W}

def hotClaim (identity : IdempotencyKey) (requestFingerprint : Digest) (leaseToken : Token)
    (leaseSeconds : Nat) : Code (sig B) Exn ClaimResult :=
  .call (.hot (.claim identity requestFingerprint leaseToken leaseSeconds)) .ret

def hotComplete (identity : IdempotencyKey) (leaseToken : Token)
    (completed : CompletedIdempotencyResult) (cacheTtlSeconds : Nat) : Code (sig B) Exn Bool :=
  .call (.hot (.complete identity leaseToken completed cacheTtlSeconds)) .ret

def hotRelease (identity : IdempotencyKey) (leaseToken : Token) : Code (sig B) Exn Bool :=
  .call (.hot (.release identity leaseToken)) .ret

def leaseLost : Code (sig B) Exn Bool := .call .leaseLost .ret

def clockNow : Code (sig B) Exn Instant := utcNow.lift (dbInSig B)

/-- `_evaluate_result` (`coordinator.py:274-289`). -/
def evaluateResult (result : IdempotencyResult) : Code (sig B) Exn CompletedIdempotencyResult :=
  match result with
  | .conflict => throw (.idempotencyConflict
      "Ключ идемпотентности повторно использован с отличающимся телом запроса")
  | .inProgress => throw (.idempotencyInProgress
      "Запрос с данным ключом идемпотентности уже находится в процессе обработки")
  | .executed completed | .replay completed => do
    let now ← clockNow
    if completed.expiresAt ≤ now then
      throw (.idempotencyUnavailable "Replay lifetime expired before response")
    else return completed

/-- `_complete` (`coordinator.py:233-260`). -/
def complete_ (identity : IdempotencyKey) (leaseToken : Token)
    (completed : CompletedIdempotencyResult) (policy : IdempotencyPolicy) :
    Code (sig B) Exn Unit :=
  (hotComplete identity leaseToken completed policy.hotResultTtlSeconds).onOutcome fun
    | .error (.idempotencyUnavailable message) =>
      if policy.mode = .hotOnly then throw (.idempotencyUnavailable message) else return ()
    | .error e => throw e
    | .ok published =>
      if !published ∧ policy.mode = .hotOnly then throw (.idempotencyUnavailable
        "Hot result not saved; the business effect may already have happened")
      else return ()

/-- `_release` (`coordinator.py:262-272`). -/
def release_ (identity : IdempotencyKey) (leaseToken : Token) : Code (sig B) Exn Unit :=
  (hotRelease identity leaseToken).onOutcome fun
    | .error (.idempotencyUnavailable _) => return ()
    | .error e => throw e
    | .ok _ => return ()

/-- The awaited callback, as each mode is given it (`execution.py:61-65`): HOT_ONLY
awaits it with its own transactions, HOT_DURABLE inside the durable execution's. -/
structure Operation (B : Business W) where
  hotOnly : Code (dbSig B) Exn StoredResult
  hotDurable : Code (stmtSig B) Exn StoredResult

/-- `_execute_durable` (`coordinator.py:217-231`). -/
def executeDurable (identity : IdempotencyKey) (requestFingerprint : Digest)
    (operation : Operation B) (retentionSeconds : Nat) : Code (sig B) Exn IdempotencyResult :=
  (executeOnce identity requestFingerprint operation.hotDurable retentionSeconds).lift (dbInSig B)

/-- What runs under the lease (`coordinator.py:183-197`). -/
def executeOperation (identity : IdempotencyKey) (requestFingerprint : Digest)
    (operation : Operation B) (policy : IdempotencyPolicy) :
    Code (sig B) Exn IdempotencyResult :=
  if policy.mode = .hotDurable then
    executeDurable identity requestFingerprint operation policy.retentionSeconds
  else do
    let stored ← operation.hotOnly.lift (dbInSig B)
    let now ← clockNow
    let expiresAt ← .ret (deadlineAfter now policy.retentionSeconds)
    return .executed (stored.completed requestFingerprint expiresAt)

/-- The `except BaseException` of the claimed execution (`coordinator.py:198-201`). -/
def abandonClaim (identity : IdempotencyKey) (leaseToken : Token) (e : Exn) :
    Code (sig B) Exn IdempotencyResult := do
  if !(← leaseLost) then release_ identity leaseToken
  throw e

/-- What follows the joined heartbeat (`coordinator.py:205-215`). -/
def publish (identity : IdempotencyKey) (leaseToken : Token) (policy : IdempotencyPolicy)
    (result : IdempotencyResult) : Code (sig B) Exn CompletedIdempotencyResult := do
  if ← leaseLost then
    if policy.mode = .hotOnly then throw (.idempotencyUnavailable
      "Hot lease lost; the business effect may already have happened")
  else
    match result with
    | .executed completed | .replay completed =>
      complete_ identity leaseToken completed policy
    | .conflict | .inProgress => release_ identity leaseToken
  evaluateResult result

/-- `_execute_claimed` (`coordinator.py:162-215`). -/
def executeClaimed (identity : IdempotencyKey) (requestFingerprint : Digest) (leaseToken : Token)
    (operation : Operation B) (policy : IdempotencyPolicy) :
    Code (sig B) Exn CompletedIdempotencyResult := do
  .call (.startHeartbeat identity leaseToken policy.leaseSeconds) .ret
  let result ← (tryCatch (executeOperation identity requestFingerprint operation policy)
    (abandonClaim identity leaseToken)).andFinally (.call .stopHeartbeat .ret)
  publish identity leaseToken policy result

/-- `_resolve_busy` (`coordinator.py:140-160`). -/
def resolveBusy (identity : IdempotencyKey) (requestFingerprint : Digest)
    (busy : IdempotencyResult) (policy : IdempotencyPolicy) :
    Code (sig B) Exn CompletedIdempotencyResult :=
  if policy.mode = .hotDurable then do
    match ← (findExisting identity requestFingerprint).lift (dbInSig B) with
    | some existing => evaluateResult existing
    | none => evaluateResult busy
  else evaluateResult busy

/-- `execute` (`coordinator.py:79-138`). -/
def execute (identity : IdempotencyKey) (requestFingerprint : Digest) (operation : Operation B)
    (policy : IdempotencyPolicy) (leaseToken : Token) :
    Code (sig B) Exn CompletedIdempotencyResult :=
  (hotClaim identity requestFingerprint leaseToken policy.leaseSeconds).onOutcome fun
    | .error (.idempotencyUnavailable message) =>
      if policy.mode = .hotOnly then throw (.idempotencyUnavailable message)
      else do
        evaluateResult
          (← executeDurable identity requestFingerprint operation policy.retentionSeconds)
    | .error e => throw e
    | .ok (.replay completed) => evaluateResult (.replay completed)
    | .ok .conflict => resolveBusy identity requestFingerprint .conflict policy
    | .ok .inProgress => resolveBusy identity requestFingerprint .inProgress policy
    | .ok .acquired => executeClaimed identity requestFingerprint leaseToken operation policy

end ProfileService.Idempotency
