import ProfileService.Application.Commands

/-!
# PATCH bodies and their commands (`entrypoints/http/schemas.py`, `routers/`)

How a JSON body becomes a patch request, and how the routes turn one into a command.
-/

namespace ProfileService.Entrypoints
open Domain Library Application

/-- Why a body is rejected: a field of the wrong type, length or value, a field the schema
does not have, or the `ValueError` of a model validator. -/
inductive SchemaError where
  | invalid (field : String)
  | extraForbidden
  | valueError (message : String)
  deriving DecidableEq

abbrev Bounded (lo hi : Nat) := { s : Str // lo ≤ s.length ∧ s.length ≤ hi }

/-- `Field(min_length=lo, max_length=hi)`. -/
def readStr (field : String) (lo hi : Nat) : Json → Except SchemaError (Bounded lo hi)
  | .str s => if h : lo ≤ s.length ∧ s.length ≤ hi then .ok ⟨s, h⟩ else .error (.invalid field)
  | _ => .error (.invalid field)

/-- A member of an enumeration by its value; what `_missing_` raises is no more than that there
is none. -/
def readEnum {α : Type} (field : String) (ofStr : Str → Except DomainError α) :
    Json → Except SchemaError α
  | .str s => (ofStr s).mapError fun _ => .invalid field
  | _ => .error (.invalid field)

/-- An optional field: absent, null, or a value. -/
def readField {α : Type} (field : String) (read : Json → Except SchemaError α) (body : Json) :
    Except SchemaError (Option (Option α)) :=
  match body.get? field.toList with
  | none => .ok none
  | some .null => .ok (some none)
  | some j => (read j).map fun a => some (some a)

/-- `extra="forbid"`, on an object. -/
def forbidExtra (fields : List String) : Json → Except SchemaError Unit
  | .obj entries =>
    if entries.all fun e => (fields.map String.toList).contains e.1 then .ok () else .error .extraForbidden
  | _ => .error (.invalid "body")

/-- `validate_patch` over the fields with whether they were set and whether they are null. -/
def validatePatch (nullableFields : List String) (fields : List (String × Bool × Bool)) :
    Except SchemaError Unit :=
  let modelFieldsSet := fields.filter fun f => f.2.1
  if modelFieldsSet.isEmpty then .error (.valueError "At least one field is required")
  else
    match modelFieldsSet.find? fun f => f.1 ∉ nullableFields && f.2.2 with
    | some f => .error (.valueError (f.1 ++ " cannot be null"))
    | none => .ok ()

def fieldState {α : Type} (name : String) (field : Option (Option α)) : String × Bool × Bool :=
  (name, field.isSome, field.join.isNone)

/-- `ProfilePatchRequest`; `bioSet` says whether `bio` is in `model_fields_set`. -/
structure ProfilePatchRequest where
  displayName : Option (Bounded 1 64)
  bio : Option (Bounded 0 255)
  username : Option (Bounded 3 32)
  bioSet : Bool

def ProfilePatchRequest.modelValidate (body : Json) : Except SchemaError ProfilePatchRequest := do
  forbidExtra ["display_name", "bio", "username"] body
  let displayName ← readField "display_name" (readStr "display_name" 1 64) body
  let bio ← readField "bio" (readStr "bio" 0 255) body
  let username ← readField "username" (readStr "username" 3 32) body
  validatePatch ["bio"] [fieldState "display_name" displayName, fieldState "bio" bio,
    fieldState "username" username]
  return ⟨displayName.join, bio.join, username.join, bio.isSome⟩

structure PrivacyPatchRequest where
  whoCanSeeAvatar : Option PrivacyScope
  whoCanFindByUsername : Option PrivacyScope
  whoCanSeeBio : Option PrivacyScope

def PrivacyPatchRequest.modelValidate (body : Json) : Except SchemaError PrivacyPatchRequest := do
  forbidExtra ["who_can_see_avatar", "who_can_find_by_username", "who_can_see_bio"] body
  let scope (field : String) := readField field (readEnum field PrivacyScope.ofStr) body
  let whoCanSeeAvatar ← scope "who_can_see_avatar"
  let whoCanFindByUsername ← scope "who_can_find_by_username"
  let whoCanSeeBio ← scope "who_can_see_bio"
  validatePatch [] [fieldState "who_can_see_avatar" whoCanSeeAvatar,
    fieldState "who_can_find_by_username" whoCanFindByUsername,
    fieldState "who_can_see_bio" whoCanSeeBio]
  return ⟨whoCanSeeAvatar.join, whoCanFindByUsername.join, whoCanSeeBio.join⟩

structure SettingsPatchRequest where
  theme : Option Theme
  locale : Option Domain.Locale
  timezone : Option (Bounded 1 64)
  privacy : Option PrivacyPatchRequest

def SettingsPatchRequest.modelValidate (body : Json) : Except SchemaError SettingsPatchRequest := do
  forbidExtra ["theme", "locale", "timezone", "privacy"] body
  let theme ← readField "theme" (readEnum "theme" Theme.ofStr) body
  let locale ← readField "locale" (readEnum "locale" Locale.ofStr) body
  let timezone ← readField "timezone" (readStr "timezone" 1 64) body
  let privacy ← readField "privacy" PrivacyPatchRequest.modelValidate body
  validatePatch [] [fieldState "theme" theme, fieldState "locale" locale,
    fieldState "timezone" timezone, fieldState "privacy" privacy]
  return ⟨theme.join, locale.join, timezone.join, privacy.join⟩

/-! ### The routes -/

/-- A version `If-Match` may carry (`dependencies.py:62-74`). -/
abbrev ExpectedVersion := { n : Nat // 1 ≤ n ∧ n ≤ 2 ^ 63 - 1 }

theorem optionalLength_bounded {lo hi : Nat} (s : Option (Bounded lo hi)) :
    OptionalLength lo hi (s.map Subtype.val) := by
  intro t ht
  obtain ⟨b, -, rfl⟩ := Option.map_eq_some_iff.1 ht
  exact b.2

/-- `(body.bio or "") if "bio" in body.model_fields_set else None`. -/
def ProfilePatchRequest.requestedBio (body : ProfilePatchRequest) : Option (Bounded 0 255) :=
  if body.bioSet then some (body.bio.getD ⟨[], Nat.zero_le _, Nat.zero_le _⟩) else none

def patchMyProfile (userId : UserId) (version : ExpectedVersion) (body : ProfilePatchRequest) :
    UpdateProfileCommand where
  userId := userId
  expectedVersion := version.1
  displayName := body.displayName.map Subtype.val
  username := body.username.map Subtype.val
  bio := body.requestedBio.map Subtype.val
  expectedVersion_pos := version.2.1
  displayName_length := optionalLength_bounded _
  bio_length := optionalLength_bounded _
  username_length := optionalLength_bounded _

def patchMySettings (userId : UserId) (version : ExpectedVersion) (body : SettingsPatchRequest) :
    UpdateSettingsCommand where
  userId := userId
  expectedVersion := version.1
  theme := body.theme
  locale := body.locale
  timezone := body.timezone.map Subtype.val
  whoCanSeeAvatar := body.privacy.bind PrivacyPatchRequest.whoCanSeeAvatar
  whoCanSeeBio := body.privacy.bind PrivacyPatchRequest.whoCanSeeBio
  whoCanFindByUsername := body.privacy.bind PrivacyPatchRequest.whoCanFindByUsername
  expectedVersion_pos := version.2.1
  timezone_length := optionalLength_bounded _

end ProfileService.Entrypoints
