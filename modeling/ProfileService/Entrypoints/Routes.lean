import ProfileService.Application.Dispatching
import ProfileService.Entrypoints.Schemas
import ProfileService.Infrastructure.Database
import ProfileService.Infrastructure.Storable

/-!
# Routes and exception handlers (`entrypoints/http/`)

The writes of the HTTP interface: what each of them dispatches, what it translates itself,
and what the registered handlers make of the exceptions it lets through.
-/

namespace ProfileService.Entrypoints
open Domain Library Application Infrastructure Idempotency

structure Response where
  status : Nat
  content : Json
  headers : List (String × String)

/-! ### `exception_handlers.py` -/

def noStore : List (String × String) := [("Cache-Control", "no-store")]

def detail (text : String) : Str × Json := ("detail".toList, .str text.toList)

def versionConflict (currentVersion : Option Nat) : Response where
  status := 409
  content := .obj [detail "Version conflict",
    ("parameters".toList, match currentVersion with
      | none => .obj []
      | some version => .obj [("current_version".toList, .int version)])]
  headers := noStore

def invalidInput : Response := ⟨422, .obj [detail "Invalid request value"], noStore⟩

def conflict (text : String) : Response := ⟨409, .obj [detail text], noStore⟩

def inProgress : Response :=
  ⟨409, .obj [detail "Request is in progress"], ("Retry-After", "1") :: noStore⟩

def profileNotFound : Response := ⟨404, .obj [detail "Profile not found"], noStore⟩

def profileUnavailable : Response := ⟨503, .obj [detail "Profile temporarily unavailable"], noStore⟩

/-- `register_exception_handlers`: the handler of an exception's class, if there is one. -/
def exceptionHandler : Exn → Option Response
  | .domain .userProfileNotFound => some profileNotFound
  | .domain .userSettingsNotFound => some profileUnavailable
  | .persistenceUnavailable => some profileUnavailable
  | .idempotencyUnavailable _ => some profileUnavailable
  | .storedReplayUnavailable _ => some profileUnavailable
  | .transactionConflict => some profileUnavailable
  | .domain (.profileVersionMismatch currentVersion) => some (versionConflict currentVersion)
  | .domain (.settingsVersionMismatch currentVersion) => some (versionConflict currentVersion)
  | .domain .invalidDisplayName => some invalidInput
  | .domain .invalidBio => some invalidInput
  | .domain .invalidUsername => some invalidInput
  | .domain .reservedUsername => some invalidInput
  | .domain .invalidLocale => some invalidInput
  | .domain .invalidTheme => some invalidInput
  | .domain .invalidTimezone => some invalidInput
  | .domain .invalidPrivacyScope => some invalidInput
  | .idempotencyKeyRequired _ => some invalidInput
  | .domain .usernameAlreadyTaken => some (conflict "Username already taken")
  | .idempotencyConflict _ => some (conflict "Idempotency key conflict")
  | .idempotencyInProgress _ => some inProgress
  | _ => none

/-- What `RequestIdMiddleware` answers to an exception without a handler. -/
def internalServerError : Response := ⟨500, .obj [detail "internal server error"], noStore⟩

/-! ### The writing routes -/

/-- `command_context` (`dependencies.py:80-88`). -/
def httpScope (userId : UserId) : Str := "user:".toList ++ uuidText userId

theorem httpScope_length (userId : UserId) : OptionalLength 1 255 (some (httpScope userId)) := by
  intro s hs
  rw [← Option.some.inj hs, httpScope, List.length_append, uuidText_length]
  decide

theorem optionalLength_some {lo hi : Nat} (s : Bounded lo hi) : OptionalLength lo hi (some s.1) := by
  intro t ht
  cases ht
  exact s.2

def commandContext (userId : UserId) (idempotencyKey : Bounded 1 255) : CommandContext where
  idempotencyKey := some idempotencyKey.1
  idempotencyScope := some (httpScope userId)
  idempotencyKey_length := optionalLength_some idempotencyKey
  idempotencyScope_length := httpScope_length userId

def provisioningScope : Str := "identity:profile-provisioning".toList

theorem provisioningScope_length : OptionalLength 1 255 (some provisioningScope) := by
  have hlength : provisioningScope.length = 29 := by decide
  intro s hs
  rw [← Option.some.inj hs, hlength]
  decide

theorem uuidText_bounded (userId : UserId) : OptionalLength 1 255 (some (uuidText userId)) := by
  intro s hs
  rw [← Option.some.inj hs, uuidText_length]
  decide

def provisioningContext (userId : UserId) : CommandContext where
  idempotencyKey := some (uuidText userId)
  idempotencyScope := some provisioningScope
  idempotencyKey_length := uuidText_bounded userId
  idempotencyScope_length := provisioningScope_length

def provisionProfile (userId : UserId) (registeredAt : AwareDateTime) :
    CreateDefaultProfileCommand :=
  ⟨userId, registeredAt.1, registeredAt.2⟩

/-- An accepted request to one of the routes that dispatch a command. -/
inductive Call where
  | patchMyProfile (userId : UserId) (version : ExpectedVersion) (key : Bounded 1 255)
      (body : ProfilePatchRequest)
  | patchMySettings (userId : UserId) (version : ExpectedVersion) (key : Bounded 1 255)
      (body : SettingsPatchRequest)
  | provisionProfile (userId : UserId) (registeredAt : AwareDateTime)

def Call.isPatch : Call → Bool
  | .provisionProfile .. => false
  | _ => true

def Call.command : Call → Command
  | .patchMyProfile userId version _ body => .updateProfile (Entrypoints.patchMyProfile userId version body)
  | .patchMySettings userId version _ body =>
    .updateSettings (Entrypoints.patchMySettings userId version body)
  | .provisionProfile userId registeredAt =>
    .createDefaultProfile (Entrypoints.provisionProfile userId registeredAt)

def privateVersion (content : Json) (version : Nat) : Response :=
  ⟨200, content, [("ETag", "\"" ++ toString version ++ "\""), ("Cache-Control", "private, no-cache")]⟩

/-- What a deployment fixes: the digest, the result schemas, and the policy the container
registers the commands with (`CommandsProvider.registry`). -/
structure Deployment where
  sha256 : List UInt8 → Digest
  adapters : ResultAdapters
  policy : { policy : IdempotencyPolicy // policy.mode = .hotDurable }

section Dispatch
variable {W : Type} [DecidableEq W] {zones : ZoneInfo} {fault : Exn → Prop}

def Deployment.registry (D : Deployment) (zones : ZoneInfo) (fault : Exn → Prop) :
    CommandHandlerRegistry (Code (stmtSig (database W zones fault)) Exn) :=
  buildCommandRegistry D.adapters profiles (@settings W _ zones fault) handlerClock D.policy.1
    D.policy

def Call.dispatch (D : Deployment) (leaseToken : Token) :
    Call → Code (sig (database W zones fault)) Exn Response
  | .patchMyProfile userId version key body => do
    let profile ← Application.dispatch D.sha256 (D.registry zones fault).updateProfile
      (fun command => (Command.updateProfile command).modelDump)
      (Entrypoints.patchMyProfile userId version body) (commandContext userId key) .replayable
      leaseToken
    return privateVersion (D.adapters.profile.dumpPython profile) profile.version
  | .patchMySettings userId version key body => do
    let settings ← Application.dispatch D.sha256 (D.registry zones fault).updateSettings
      (fun command => (Command.updateSettings command).modelDump)
      (Entrypoints.patchMySettings userId version body) (commandContext userId key) .replayable
      leaseToken
    return privateVersion (D.adapters.settings.dumpPython settings) settings.version
  | .provisionProfile userId registeredAt => do
    let _ ← Application.dispatch D.sha256 (D.registry zones fault).createDefaultProfile
      (fun command => (Command.createDefaultProfile command).modelDump)
      (Entrypoints.provisionProfile userId registeredAt) (provisioningContext userId)
      .completionOnly leaseToken
    return ⟨204, .null, noStore⟩

/-- The exceptions a route translates itself. -/
def Call.translate : Call → Exn → Option Response
  | .patchMySettings .., .domain .userSettingsNotFound =>
    some ⟨404, .obj [detail "Settings not found"], []⟩
  | _, _ => none

def Call.respond (call : Call) : Except Exn Response → Response
  | .ok response => response
  | .error e => ((call.translate e).or (exceptionHandler e)).getD internalServerError

end Dispatch
end ProfileService.Entrypoints
