import Mathlib.Data.Vector.Basic
import ProfileService.Library.Calendar
import ProfileService.Library.JsonDict

/-!
# Idempotency models and policy

`application/idempotency/models.py` and `policy.py`. The pydantic validators are
fields: a value that would be refused cannot be built.
-/

namespace ProfileService.Idempotency
open Library

/-- `timedelta(seconds=n)`. -/
def seconds (n : Nat) : Int := n * 1000000

abbrev Deadline := { t : Instant // Representable t }

abbrev Digest := List.Vector UInt8 32

/-- A uuid7 lease token. -/
abbrev Token := BitVec 128

structure IdempotencyKey where
  subjectId : Str
  operation : Str
  keyDigest : Digest
  subjectId_length : 1 ≤ subjectId.length ∧ subjectId.length ≤ 255
  operation_length : 1 ≤ operation.length ∧ operation.length ≤ 100
  deriving DecidableEq

def completionType : Str := "completion".toList
def snapshotType : Str := "snapshot".toList

/-- `StoredResult.validate_replayability` (`models.py:97-126`). -/
def Replayable (resultType : Str) (resultPayload : Option (List (Str × Json)))
    (resourceType resourceId : Option Str) (resourceVersion : Option Nat) : Prop :=
  if resultType = completionType then
    resultPayload = none ∧ resourceType = none ∧ resourceId = none ∧ resourceVersion = none
  else
    resourceType.isSome = resourceId.isSome ∧
    (resultPayload = none → resourceId.isSome) ∧
    (resourceVersion.isSome → resourceId.isSome)

/-- A `dict` is the list of its entries in the order of their keys, no key twice. -/
@[ext] structure StoredResult where
  resultType : Str
  resultPayload : Option (List (Str × Json))
  resultVersion : Nat
  resourceType : Option Str
  resourceId : Option Str
  resourceVersion : Option Nat
  resultType_length : 1 ≤ resultType.length ∧ resultType.length ≤ 100
  resultPayload_sorted : ∀ p, resultPayload = some p → (Json.obj p).sortKeys = .obj p
  resultPayload_distinct : ∀ p, resultPayload = some p → (Json.obj p).distinctKeys = true
  resultVersion_pos : 0 < resultVersion
  resourceType_length : ∀ t, resourceType = some t → 1 ≤ t.length ∧ t.length ≤ 100
  resourceVersion_pos : ∀ v, resourceVersion = some v → 0 < v
  replayable : Replayable resultType resultPayload resourceType resourceId resourceVersion

/-- `StoredResult.completion()`: executed, no handler result kept. -/
def StoredResult.completion : StoredResult where
  resultType := completionType
  resultPayload := none
  resultVersion := 1
  resourceType := none
  resourceId := none
  resourceVersion := none
  resultType_length := by decide
  resultPayload_sorted := by intro p h; cases h
  resultPayload_distinct := by intro p h; cases h
  resultVersion_pos := by decide
  resourceType_length := by intro t h; cases h
  resourceVersion_pos := by intro v h; cases h
  replayable := by simp [Replayable]

def StoredResult.isCompletionOnly (r : StoredResult) : Bool := r.resultType = completionType

@[ext] structure CompletedIdempotencyResult extends StoredResult where
  expiresAt : Instant
  requestFingerprint : Digest
  expiresAt_representable : Representable expiresAt

/-- `ClaimResult`: only `replay` carries a completed result. -/
inductive ClaimResult where
  | acquired
  | replay (completed : CompletedIdempotencyResult)
  | conflict
  | inProgress

/-- `IdempotencyResult`: the two successful decisions carry a completed result. -/
inductive IdempotencyResult where
  | executed (completed : CompletedIdempotencyResult)
  | replay (completed : CompletedIdempotencyResult)
  | conflict
  | inProgress

inductive IdempotencyMode where
  | hotOnly
  | hotDurable
  deriving DecidableEq, Repr

structure IdempotencyPolicy where
  mode : IdempotencyMode
  leaseSeconds : Nat
  retentionSeconds : Nat
  hotCacheSeconds : Nat
  leaseSeconds_pos : 0 < leaseSeconds
  retentionSeconds_pos : 0 < retentionSeconds
  hotCacheSeconds_pos : 0 < hotCacheSeconds
  cache_window : mode = .hotDurable → hotCacheSeconds ≤ retentionSeconds

/-- `hot_result_ttl_seconds` (`policy.py:32-36`). -/
def IdempotencyPolicy.hotResultTtlSeconds (p : IdempotencyPolicy) : Nat :=
  match p.mode with
  | .hotOnly => p.retentionSeconds
  | .hotDurable => p.hotCacheSeconds

theorem IdempotencyPolicy.hotResultTtlSeconds_pos (p : IdempotencyPolicy) :
    0 < p.hotResultTtlSeconds := by
  unfold hotResultTtlSeconds
  split
  · exact p.retentionSeconds_pos
  · exact p.hotCacheSeconds_pos

section Sample

def sampleKey : IdempotencyKey where
  subjectId := "subject".toList
  operation := "operation".toList
  keyDigest := List.Vector.replicate 32 0
  subjectId_length := by decide
  operation_length := by decide

def samplePolicy (mode : IdempotencyMode) : IdempotencyPolicy where
  mode := mode
  leaseSeconds := 30
  retentionSeconds := 86400
  hotCacheSeconds := 300
  leaseSeconds_pos := by decide
  retentionSeconds_pos := by decide
  hotCacheSeconds_pos := by decide
  cache_window _ := by decide

def sampleFingerprint : Digest := List.Vector.replicate 32 1

def sampleCompleted : CompletedIdempotencyResult :=
  { StoredResult.completion with
    expiresAt := seconds 86400
    requestFingerprint := sampleFingerprint
    expiresAt_representable := by decide }

end Sample
end ProfileService.Idempotency
