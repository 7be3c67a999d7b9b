import ProfileService.Application.Handlers
import ProfileService.Idempotency.Coordinator
import ProfileService.Idempotency.CommandFingerprint

/-!
# Dispatching (`application/dispatching/`)

The result codec, the idempotency middleware and the execution of one registered command.
-/

namespace ProfileService.Application
open Domain Library Idempotency

/-! ### The result codec (`idempotency/codec.py`) -/

/-- The adapter of a result schema: `dump_python(mode="json")`, and `validate_python` of
such a value, which may refuse it. No `dict` of a dump has a key twice. -/
structure TypeAdapter (ResultT : Type) where
  dumpPython : ResultT → Json
  validatePython : Json → Option ResultT
  dumpPython_distinct : ∀ result, (dumpPython result).distinctKeys = true

structure PydanticResultCodec (ResultT : Type) where
  adapter : TypeAdapter ResultT
  schemaVersion : Nat
  schemaVersion_pos : 0 < schemaVersion

namespace PydanticResultCodec
variable {ResultT : Type} (codec : PydanticResultCodec ResultT)

def payload (result : ResultT) : List (Str × Json) :=
  [("value".toList, (codec.adapter.dumpPython result).sortKeys)]

theorem payload_sorted (result : ResultT) (p : List (Str × Json))
    (h : some (codec.payload result) = some p) : (Json.obj p).sortKeys = .obj p := by
  cases h
  show Json.obj [("value".toList, (codec.adapter.dumpPython result).sortKeys.sortKeys)] = _
  rw [Json.sortKeys_sortKeys]
  rfl

theorem payload_distinct (result : ResultT) (p : List (Str × Json))
    (h : some (codec.payload result) = some p) : (Json.obj p).distinctKeys = true := by
  cases h
  rw [payload, Json.distinctKeys, distinctKeysEntries, Json.distinctKeys_sortKeys,
    codec.adapter.dumpPython_distinct]
  rfl

theorem snapshot_replayable (p : List (Str × Json)) :
    Replayable snapshotType (some p) none none none := by
  unfold Replayable
  rw [if_neg (by decide)]
  simp

theorem snapshotType_length : 1 ≤ snapshotType.length ∧ snapshotType.length ≤ 100 := by decide

theorem no_resourceType (t : Str) (h : (none : Option Str) = some t) :
    1 ≤ t.length ∧ t.length ≤ 100 := by cases h

theorem no_resourceVersion (v : Nat) (h : (none : Option Nat) = some v) : 0 < v := by cases h

/-- A result of the handler's type has passed `validate`. -/
def encode (result : ResultT) : StoredResult where
  resultType := snapshotType
  resultPayload := some (codec.payload result)
  resultVersion := codec.schemaVersion
  resourceType := none
  resourceId := none
  resourceVersion := none
  resultType_length := snapshotType_length
  resultPayload_sorted := codec.payload_sorted result
  resultPayload_distinct := codec.payload_distinct result
  resultVersion_pos := codec.schemaVersion_pos
  resourceType_length := no_resourceType
  resourceVersion_pos := no_resourceVersion
  replayable := snapshot_replayable (codec.payload result)

def snapshotValue (stored : StoredResult) : Option Json :=
  match stored.resultPayload with
  | some [(key, value)] =>
    if stored.resultVersion = codec.schemaVersion ∧ key = "value".toList then some value else none
  | _ => none

def decode (stored : StoredResult) : Except Exn ResultT :=
  if stored.isCompletionOnly then .error (.idempotencyResultNotStored
    "Operation completed successfully, but its result was not retained")
  else
    match (codec.snapshotValue stored).bind codec.adapter.validatePython with
    | some result => .ok result
    | none => .error (.storedReplayUnavailable
      "Stored result does not match the registered result schema")

theorem encode_not_completion (result : ResultT) : (codec.encode result).isCompletionOnly = false :=
  rfl

theorem decode_error {stored : StoredResult} {e : Exn} (h : codec.decode stored = .error e) :
    (stored.isCompletionOnly = true ∧ ∃ m, e = .idempotencyResultNotStored m) ∨
      ∃ m, e = .storedReplayUnavailable m := by
  unfold decode at h
  split at h
  · rename_i hc
    cases h
    exact .inl ⟨hc, _, rfl⟩
  · split at h
    · cases h
    · cases h
      exact .inr ⟨_, rfl⟩

theorem decode_encode {result : ResultT}
    (h : codec.adapter.validatePython (codec.adapter.dumpPython result).sortKeys = some result) :
    codec.decode (codec.encode result) = .ok result := by
  have hvalue : codec.snapshotValue (codec.encode result) =
      some (codec.adapter.dumpPython result).sortKeys := if_pos ⟨rfl, rfl⟩
  unfold decode
  rw [encode_not_completion, hvalue]
  show (match codec.adapter.validatePython _ with
    | some result => Except.ok result
    | none => .error _) = _
  rw [h]

end PydanticResultCodec

/-! ### Registration and context -/

structure CommandContext where
  idempotencyKey : Option Str
  idempotencyScope : Option Str
  idempotencyKey_length : OptionalLength 1 255 idempotencyKey
  idempotencyScope_length : OptionalLength 1 255 idempotencyScope

inductive ResultMode where
  | replayable
  | completionOnly
  deriving DecidableEq

/-- What a dispatch answers in each mode. -/
def ResultMode.Answer (ResultT : Type) : ResultMode → Type
  | .replayable => ResultT
  | .completionOnly => Unit

structure CommandHandlerRegistration (m : Type → Type) (CommandT ResultT : Type) where
  handler : CommandT → m ResultT
  codec : PydanticResultCodec ResultT
  operation : Str
  idempotencyPolicy : Option IdempotencyPolicy

section Execution
variable {W : Type} {B : Business W} {CommandT ResultT : Type}

/-- `invoke_handler` (`execution.py:41-49`). -/
def invokeHandler (registration : CommandHandlerRegistration (Code (stmtSig B) Exn) CommandT ResultT)
    (command : CommandT) (resultMode : ResultMode) : Code (stmtSig B) Exn StoredResult := do
  let result ← registration.handler command
  match resultMode with
  | .completionOnly => return StoredResult.completion
  | .replayable => return registration.codec.encode result

/-- The callback as each mode of a policy is given it (`execution.py:51-65`). -/
def callback (registration : CommandHandlerRegistration (Code (stmtSig B) Exn) CommandT ResultT)
    (command : CommandT) (resultMode : ResultMode) : Operation B where
  hotOnly := withUow ((invokeHandler registration command resultMode).lift (stmtInDb B))
  hotDurable := invokeHandler registration command resultMode

/-- `IdempotencyKey(subject_id=…, operation=…, key_digest=…)`. -/
def identityOf (subjectId operation : Str) (keyDigest : Digest) : Except Exn IdempotencyKey :=
  if hs : 1 ≤ subjectId.length ∧ subjectId.length ≤ 255 then
    if ho : 1 ≤ operation.length ∧ operation.length ≤ 100 then
      .ok ⟨subjectId, operation, keyDigest, hs, ho⟩
    else .error (.other "ValidationError" "operation")
  else .error (.other "ValidationError" "subject_id")

def computeKeyDigest (sha256 : List UInt8 → Digest) (rawKey : Str) : Digest := sha256 (utf8 rawKey)

/-- The identity `IdempotencyMiddleware.execute` derives, or what it raises. -/
def middlewareIdentity (sha256 : List UInt8 → Digest) (key scope : Option Str)
    (operationName : Str) : Except Exn IdempotencyKey :=
  match key, scope with
  | none, _ => .error (.idempotencyKeyRequired "Idempotency key is required")
  | some [], _ => .error (.idempotencyKeyRequired "Idempotency key is required")
  | _, none => .error (.idempotencyScopeRequired "Trusted idempotency scope is required")
  | _, some [] => .error (.idempotencyScopeRequired "Trusted idempotency scope is required")
  | some key, some scope => identityOf scope operationName (computeKeyDigest sha256 key)

/-- How the callback is run (`execution.py:51-75`). The fingerprint is an argument, so it
is computed before the middleware looks at the key. -/
def runCallback (sha256 : List UInt8 → Digest)
    (registration : CommandHandlerRegistration (Code (stmtSig B) Exn) CommandT ResultT)
    (modelDump : Value) (context : CommandContext) (operation : Operation B) (leaseToken : Token) :
    Code (sig B) Exn StoredResult :=
  match registration.idempotencyPolicy with
  | none => operation.hotOnly.lift (dbInSig B)
  | some policy => do
    let requestFingerprint ← .ret (computeRequestFingerprint sha256 [] modelDump)
    let identity ← .ret (middlewareIdentity sha256 context.idempotencyKey context.idempotencyScope
      registration.operation)
    let completed ← execute identity requestFingerprint operation policy leaseToken
    return completed.toStoredResult

/-- The single exit of the execution (`execution.py:77-80`). -/
def dispatchAnswer (codec : PydanticResultCodec ResultT) :
    (mode : ResultMode) → StoredResult → Except Exn (mode.Answer ResultT)
  | .completionOnly, _ => .ok ()
  | .replayable, stored => codec.decode stored

def dispatch (sha256 : List UInt8 → Digest)
    (registration : CommandHandlerRegistration (Code (stmtSig B) Exn) CommandT ResultT)
    (modelDump : CommandT → Value) (command : CommandT) (context : CommandContext)
    (resultMode : ResultMode) (leaseToken : Token) :
    Code (sig B) Exn (resultMode.Answer ResultT) := do
  let stored ← runCallback sha256 registration (modelDump command) context
    (callback registration command resultMode) leaseToken
  .ret (dispatchAnswer registration.codec resultMode stored)

end Execution

/-! ### The registry (`infrastructure/di/commands.py`) -/

structure ResultAdapters where
  nothing : TypeAdapter Unit
  profile : TypeAdapter ProfileDTO
  settings : TypeAdapter SettingsDTO

def codecOf {ResultT : Type} (adapter : TypeAdapter ResultT) : PydanticResultCodec ResultT :=
  ⟨adapter, 1, Nat.one_pos⟩

structure CommandHandlerRegistry (m : Type → Type) where
  createDefaultProfile : CommandHandlerRegistration m CreateDefaultProfileCommand Unit
  updateProfile : CommandHandlerRegistration m UpdateProfileCommand ProfileDTO
  updateAvatar : CommandHandlerRegistration m UpdateAvatarCommand ProfileDTO
  updateSettings : CommandHandlerRegistration m UpdateSettingsCommand SettingsDTO
  resetSettings : CommandHandlerRegistration m ResetSettingsCommand SettingsDTO

/-- `build_command_registry`; provisioning requires HOT_DURABLE. -/
def buildCommandRegistry {m : Type → Type} [Monad m] [MonadExcept Exn m] {zones : ZoneInfo}
    (adapters : ResultAdapters) (profiles : RepositoryProtocol m ProfileFields)
    (settings : RepositoryProtocol m (SettingsFields zones)) (clock : m Instant)
    (mutationPolicy : IdempotencyPolicy)
    (provisioningPolicy : { policy : IdempotencyPolicy // policy.mode = .hotDurable }) :
    CommandHandlerRegistry m where
  createDefaultProfile :=
    ⟨createDefaultProfileHandler profiles settings, codecOf adapters.nothing,
      "profile.create_default.v1".toList, some provisioningPolicy.1⟩
  updateProfile :=
    ⟨updateProfileHandler profiles clock, codecOf adapters.profile, "profile.update.v1".toList,
      some mutationPolicy⟩
  updateAvatar :=
    ⟨updateAvatarHandler profiles clock, codecOf adapters.profile,
      "profile.update_avatar.v1".toList, some mutationPolicy⟩
  updateSettings :=
    ⟨updateSettingsHandler settings clock, codecOf adapters.settings,
      "settings.update.v1".toList, some mutationPolicy⟩
  resetSettings :=
    ⟨resetSettingsHandler settings clock, codecOf adapters.settings, "settings.reset.v1".toList,
      some mutationPolicy⟩

end ProfileService.Application
