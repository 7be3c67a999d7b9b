import ProfileService.Domain.Exceptions

/-!
# Exceptions a dispatch may raise

`application/exceptions/`, the SQLAlchemy errors the unit of work looks at, and
the exceptions of the language that the orchestration meets.
-/

namespace ProfileService.Application
open Domain

/-- A `SQLAlchemyError`, by what `_raise_persistence_error` and the repositories
read off it (`infrastructure/database/unit_of_work.py:14-28`). -/
inductive SqlError where
  | integrity (constraintName : String)
  | serialization
  | connection
  | other
  deriving DecidableEq, Repr

inductive Exn where
  | domain (e : DomainError)
  | sql (e : SqlError)
  | transactionConflict
  | persistenceUnavailable
  | idempotencyUnavailable (message : String)
  | idempotencyConflict (message : String)
  | idempotencyInProgress (message : String)
  | idempotencyResultNotStored (message : String)
  | storedReplayUnavailable (message : String)
  | idempotencyKeyRequired (message : String)
  | idempotencyScopeRequired (message : String)
  | concurrentWinnerCommitted
  | nestedTransactionNotAllowed
  | transactionNotStarted
  | transactionRequired
  | cancelled
  | other (type message : String)
  deriving DecidableEq, Repr

/-- `_raise_persistence_error`: only known driver errors are translated. -/
def Exn.ofSql : SqlError → Exn
  | .serialization => .transactionConflict
  | .connection => .persistenceUnavailable
  | e => .sql e

/-- What the exit of a unit of work raises for an exception of its body
(`unit_of_work.py:52-66`). -/
def Exn.leavingUow : Exn → Exn
  | .sql e => .ofSql e
  | e => e

/-- The exceptions `_execute_once` takes for a lost race
(`transactional_execution.py:112-117`). -/
def Exn.isRaceError : Exn → Bool
  | .concurrentWinnerCommitted => true
  | .transactionConflict => true
  | .domain (.profileVersionMismatch _) => true
  | .domain (.settingsVersionMismatch _) => true
  | _ => false

/-- Neither a domain error, nor a refusal of the middleware, nor the verdict on a result
that was not kept. -/
def Exn.isOrchestration : Exn → Bool
  | .domain _ => false
  | .idempotencyResultNotStored _ => false
  | .idempotencyKeyRequired _ => false
  | .idempotencyScopeRequired _ => false
  | _ => true

theorem Exn.isOrchestration_leavingUow {e : Exn} (h : e.isOrchestration = true) :
    e.leavingUow.isOrchestration = true := by
  cases e with
  | sql q => cases q <;> rfl
  | _ => exact h

/-- A `DomainError`, an `IdempotencyError`, a `TransactionConflictError` or a
`PersistenceUnavailableError`. -/
def Exn.isExpected : Exn → Bool
  | .domain _ => true
  | .transactionConflict => true
  | .persistenceUnavailable => true
  | .idempotencyUnavailable _ => true
  | .idempotencyConflict _ => true
  | .idempotencyInProgress _ => true
  | .idempotencyResultNotStored _ => true
  | .storedReplayUnavailable _ => true
  | .idempotencyKeyRequired _ => true
  | .idempotencyScopeRequired _ => true
  | _ => false

/-! ### Blocks that raise -/

@[simp] theorem ok_bind {ε α β : Type} (a : α) (f : α → Except ε β) :
    ((.ok a : Except ε α) >>= f) = f a := rfl

@[simp] theorem error_bind {ε α β : Type} (e : ε) (f : α → Except ε β) :
    ((.error e : Except ε α) >>= f) = .error e := rfl

end ProfileService.Application
