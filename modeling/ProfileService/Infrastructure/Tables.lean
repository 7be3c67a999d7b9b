import ProfileService.Domain.Aggregates
import ProfileService.Application.Exceptions
import ProfileService.Library.PyValue

/-!
# Tables (`infrastructure/database/models/`)

The rows of `profiles` and `user_settings`, what PostgreSQL accepts in their columns, and
how an aggregate is written to a row and read back.
-/

namespace ProfileService.Infrastructure
open Domain Library Application

/-! ### Column types -/

/-- A `text` value: no U+0000. -/
def isText (s : Str) : Bool := '\x00' ∉ s

def isVarchar (n : Nat) (s : Str) : Bool := isText s && s.length ≤ n

def isBigint (n : Nat) : Bool := n < 2 ^ 63

theorem isBigint_iff {n : Nat} : isBigint n = true ↔ n < 2 ^ 63 := decide_eq_true_iff

/-- A `timestamptz` value, from 4714-11-24 BC to the end of 294276. -/
def isTimestamptz (t : Instant) : Bool :=
  -210866803200000000 ≤ t && t < 9224318016000000000

def isNullOr {α : Type} (isValue : α → Bool) (value : Option α) : Bool := value.all isValue

def btrim (s : Str) : Str := (s.dropWhile (· = ' ')).rdropWhile (· = ' ')

/-- A mapped table with the aggregate of its repository: how an entity is written, which
columns a `SET` assigns to a stored row, and how a row is read back; the values of a `SET` that
can be sent at all, its column types, its `CHECK`s and its unique indexes by name. -/
structure Table (F : Type) [ModelFields F] where
  Row : Type
  userId : Row → UserId
  version : Row → Nat
  values : VersionedMutableEntity F → Row
  assign : Row → Row → Row
  modelValidate : Row → Except Exn (VersionedMutableEntity F)
  sendable : Row → Bool
  typed : Row → Bool
  checks : Row → List (String × Bool)
  uniques : Row → Row → List (String × Bool)

namespace Table
variable {F : Type} [ModelFields F] (table : Table F)

/-- Every column has its type and every `CHECK` holds. -/
def storable (row : table.Row) : Bool := table.typed row && (table.checks row).all Prod.snd

/-- The error PostgreSQL raises for a new version of a row, next to the others. -/
def violation (others : List table.Row) (row : table.Row) : Option SqlError :=
  if table.typed row then
    (((table.checks row).filter fun c => !c.2).head?.orElse fun _ =>
        ((others.flatMap (table.uniques row)).filter fun c => !c.2).head?).map fun c =>
      .integrity c.1
  else some .other

theorem violation_eq_none {others : List table.Row} {row : table.Row} :
    table.violation others row = none ↔
      table.storable row = true ∧ ∀ other ∈ others, (table.uniques row other).all Prod.snd = true := by
  have hhead : ∀ checks : List (String × Bool),
      (checks.filter fun c => !c.2).head? = none ↔ checks.all Prod.snd = true := by
    intro checks
    rw [List.head?_eq_none_iff, List.filter_eq_nil_iff, List.all_eq_true]
    simp
  unfold violation storable
  cases htyped : table.typed row with
  | false => simp
  | true =>
    simp only [if_true, Option.map_eq_none_iff, Bool.true_and]
    cases hcheck : ((table.checks row).filter fun c => !c.2).head? with
    | some c =>
      have hfails : ¬ (table.checks row).all Prod.snd = true := by
        rw [← hhead, hcheck]
        exact Option.some_ne_none c
      simp [hfails]
    | none =>
      have hholds := (hhead _).1 hcheck
      show ((others.flatMap (table.uniques row)).filter fun c => !c.2).head? = none ↔ _
      rw [hhead, List.all_flatMap, List.all_eq_true, hholds]
      simp

theorem violated {others : List table.Row} {row : table.Row} {name : String}
    (h : table.violation others row = some (.integrity name)) :
    (name, false) ∈ table.checks row ∨ ∃ other ∈ others, (name, false) ∈ table.uniques row other := by
  have hfails : ∀ {checks : List (String × Bool)} {c : String × Bool},
      (checks.filter fun c => !c.2).head? = some c → c.1 = name → (name, false) ∈ checks := by
    rintro checks ⟨_, holds⟩ hc rfl
    obtain ⟨hmem, hfalse⟩ := List.mem_filter.1 (List.mem_of_head? hc)
    have hfalse' : holds = false := by simpa using hfalse
    exact hfalse' ▸ hmem
  unfold violation at h
  split at h
  · obtain ⟨c, hc, hname⟩ := Option.map_eq_some_iff.1 h
    have hname' : c.1 = name := SqlError.integrity.inj hname
    cases hcheck : ((table.checks row).filter fun c => !c.2).head? with
    | some c' =>
      rw [hcheck] at hc
      obtain rfl : c' = c := Option.some.inj hc
      exact .inl (hfails hcheck hname')
    | none =>
      rw [hcheck] at hc
      obtain ⟨other, hother, hmem⟩ := List.mem_flatMap.1 (hfails hc hname')
      exact .inr ⟨other, hother, hmem⟩
  · cases h

end Table

/-! ### `profiles` -/

@[ext] structure ProfileORM where
  userId : UserId
  username : Option Str
  displayName : Str
  bio : Option Str
  avatarKey : Option Str
  status : Str
  isVerified : Bool
  version : Nat
  createdAt : Instant
  updatedAt : Option Instant
  deriving DecidableEq

namespace ProfileORM

def sendable (r : ProfileORM) : Bool :=
  isNullOr isText r.username && isText r.displayName && isNullOr isText r.bio &&
    isNullOr isText r.avatarKey && isText r.status && isBigint r.version &&
    isNullOr isTimestamptz r.updatedAt

def typed (r : ProfileORM) : Bool :=
  isNullOr (isVarchar 32) r.username && isVarchar 64 r.displayName &&
    isNullOr (isVarchar 255) r.bio && isNullOr isText r.avatarKey && isVarchar 8 r.status &&
    isBigint r.version && isTimestamptz r.createdAt && isNullOr isTimestamptz r.updatedAt

/-- The `CHECK`s of `__table_args__`, in the order PostgreSQL evaluates them. -/
def checks (r : ProfileORM) : List (String × Bool) :=
  [("ck_profiles_bio",
      isNullOr (fun bio => bio.length ≤ 255 && '\n' ∉ bio && '\r' ∉ bio) r.bio),
    ("ck_profiles_display_name",
      1 ≤ (btrim r.displayName).length && (btrim r.displayName).length ≤ 64),
    ("ck_profiles_status",
      ["ACTIVE".toList, "DISABLED".toList, "BLOCKED".toList].contains r.status),
    ("ck_profiles_timestamps", isNullOr (fun updatedAt => r.createdAt < updatedAt) r.updatedAt),
    ("ck_profiles_username",
      isNullOr (fun s => 3 ≤ s.length && s.length ≤ 32 && s.all usernameChar) r.username),
    ("ck_profiles_version", 0 < r.version)]

def uniques (r other : ProfileORM) : List (String × Bool) :=
  [("profiles_username_key", r.username = none || r.username ≠ other.username)]

/-- `model_dump(exclude={"id"})` and the primary key. -/
def values (entity : UserProfile) : ProfileORM where
  userId := entity.id
  username := entity.fields.username.map Subtype.val
  displayName := entity.fields.displayName.1
  bio := entity.fields.bio.map Subtype.val
  avatarKey := entity.fields.avatarKey
  status := entity.fields.status.value
  isVerified := entity.fields.isVerified
  version := entity.version
  createdAt := entity.createdAt
  updatedAt := entity.updatedAt

/-- `model_dump(exclude={"id", "created_at"})` over a stored row. -/
def assign (stored values : ProfileORM) : ProfileORM :=
  { values with
    userId := stored.userId
    createdAt := stored.createdAt }

/-- Over its own row, an aggregate that kept its id and creation time is written whole. -/
theorem assign_values {entity entity' : UserProfile} (hid : entity'.id = entity.id)
    (hcreated : entity'.createdAt = entity.createdAt) :
    assign (values entity) (values entity') = values entity' := by
  unfold assign values
  rw [hid, hcreated]

/-- `model_validate(dict(row))`; no stored row has a version below 1. -/
def modelValidate (row : ProfileORM) : Except Exn UserProfile :=
  if h : 1 ≤ row.version then do
    let status ← (UserProfileStatus.ofStr row.status).mapError Exn.domain
    (VersionedMutableEntity.modelValidate
      { id := row.userId
        createdAt := row.createdAt
        updatedAt := row.updatedAt
        version := row.version
        fields :=
          { username := row.username
            displayName := row.displayName
            bio := row.bio
            avatarKey := row.avatarKey
            status := status
            isVerified := row.isVerified : ProfileData }
        version_pos := h }).mapError Exn.domain
  else .error (.other "ValidationError" "version")

@[simp] theorem modelValidate_values (entity : UserProfile) :
    modelValidate (values entity) = .ok entity := by
  unfold modelValidate
  rw [dif_pos (show 1 ≤ (values entity).version from entity.version_pos)]
  simp only [values, UserProfileStatus.ofStr_value]
  exact congrArg (Except.mapError Exn.domain) entity.modelValidate_modelDump

end ProfileORM

abbrev profilesTable : Table ProfileFields where
  Row := ProfileORM
  userId := ProfileORM.userId
  version := ProfileORM.version
  values := ProfileORM.values
  assign := ProfileORM.assign
  modelValidate := ProfileORM.modelValidate
  sendable := ProfileORM.sendable
  typed := ProfileORM.typed
  checks := ProfileORM.checks
  uniques := ProfileORM.uniques

/-! ### `user_settings` -/

/-- `->>` where the value is a string. -/
def getText (key : String) (j : Json) : Option Str :=
  match j.get? key.toList with
  | some (.str s) => some s
  | _ => none

@[ext] structure SettingsORM where
  userId : UserId
  theme : Str
  locale : Str
  timezone : Str
  privacy : Json
  version : Nat
  createdAt : Instant
  updatedAt : Option Instant

def privacyKeys : List String := ["who_can_see_avatar", "who_can_find_by_username", "who_can_see_bio"]

def privacyJson (p : PrivacySettings) : Json :=
  .obj [("who_can_see_avatar".toList, .str p.whoCanSeeAvatar.value),
    ("who_can_find_by_username".toList, .str p.whoCanFindByUsername.value),
    ("who_can_see_bio".toList, .str p.whoCanSeeBio.value)]

namespace SettingsORM
variable {zones : ZoneInfo}

def sendable (r : SettingsORM) : Bool :=
  isText r.theme && isText r.locale && isText r.timezone && isBigint r.version &&
    isNullOr isTimestamptz r.updatedAt

def typed (r : SettingsORM) : Bool :=
  isVarchar 6 r.theme && isVarchar 2 r.locale && isText r.timezone && isBigint r.version &&
    isTimestamptz r.createdAt && isNullOr isTimestamptz r.updatedAt

/-- An object of exactly the three scopes. -/
def checkPrivacy : Json → Bool
  | .obj entries =>
    (entries.all fun e => (privacyKeys.map String.toList).contains e.1) &&
      privacyKeys.all fun key => ["ALL".toList, "NOBODY".toList].any fun scope =>
        getText key (.obj entries) = some scope
  | _ => false

def checks (r : SettingsORM) : List (String × Bool) :=
  [("ck_settings_locale", ["ru".toList, "en".toList].contains r.locale),
    ("ck_settings_privacy", checkPrivacy r.privacy),
    ("ck_settings_theme", ["light".toList, "dark".toList, "system".toList].contains r.theme),
    ("ck_user_settings_timestamps", isNullOr (fun updatedAt => r.createdAt < updatedAt) r.updatedAt),
    ("ck_user_settings_version", 0 < r.version)]

def values (entity : UserSettings zones) : SettingsORM where
  userId := entity.id
  theme := entity.fields.theme.value
  locale := entity.fields.locale.value
  timezone := entity.fields.timezone.1
  privacy := privacyJson entity.fields.privacy
  version := entity.version
  createdAt := entity.createdAt
  updatedAt := entity.updatedAt

def assign (stored values : SettingsORM) : SettingsORM :=
  { values with
    userId := stored.userId
    createdAt := stored.createdAt }

theorem assign_values {entity entity' : UserSettings zones} (hid : entity'.id = entity.id)
    (hcreated : entity'.createdAt = entity.createdAt) :
    assign (values entity) (values entity') = values entity' := by
  unfold assign values
  rw [hid, hcreated]

def readScope (key : String) (privacy : Json) : Except Exn PrivacyScope :=
  match getText key privacy with
  | some s => (PrivacyScope.ofStr s).mapError Exn.domain
  | none => .error (.other "ValidationError" key)

/-- `model_validate(dict(row))`; no stored row has a version below 1 or lacks a scope. -/
def modelValidate (row : SettingsORM) : Except Exn (UserSettings zones) :=
  if h : 1 ≤ row.version then do
    let theme ← (Theme.ofStr row.theme).mapError Exn.domain
    let locale ← (Locale.ofStr row.locale).mapError Exn.domain
    let whoCanSeeAvatar ← readScope "who_can_see_avatar" row.privacy
    let whoCanFindByUsername ← readScope "who_can_find_by_username" row.privacy
    let whoCanSeeBio ← readScope "who_can_see_bio" row.privacy
    (VersionedMutableEntity.modelValidate
      { id := row.userId
        createdAt := row.createdAt
        updatedAt := row.updatedAt
        version := row.version
        fields :=
          { theme := theme
            locale := locale
            timezone := row.timezone
            privacy := ⟨whoCanSeeAvatar, whoCanFindByUsername, whoCanSeeBio⟩ : SettingsData }
        version_pos := h }).mapError Exn.domain
  else .error (.other "ValidationError" "version")

@[simp] theorem modelValidate_values (entity : UserSettings zones) :
    modelValidate (values entity) = .ok entity := by
  unfold modelValidate
  rw [dif_pos (show 1 ≤ (values entity).version from entity.version_pos)]
  simp only [values, Theme.ofStr_value, Locale.ofStr_value]
  have hscopes : readScope "who_can_see_avatar" (privacyJson entity.fields.privacy) =
        .ok entity.fields.privacy.whoCanSeeAvatar ∧
      readScope "who_can_find_by_username" (privacyJson entity.fields.privacy) =
        .ok entity.fields.privacy.whoCanFindByUsername ∧
      readScope "who_can_see_bio" (privacyJson entity.fields.privacy) =
        .ok entity.fields.privacy.whoCanSeeBio := by
    refine ⟨?_, ?_, ?_⟩
    · show (PrivacyScope.ofStr _).mapError _ = _
      rw [PrivacyScope.ofStr_value]
      rfl
    · show (PrivacyScope.ofStr _).mapError _ = _
      rw [PrivacyScope.ofStr_value]
      rfl
    · show (PrivacyScope.ofStr _).mapError _ = _
      rw [PrivacyScope.ofStr_value]
      rfl
  rw [hscopes.1, hscopes.2.1, hscopes.2.2]
  exact congrArg (Except.mapError Exn.domain) entity.modelValidate_modelDump

end SettingsORM

abbrev settingsTable (zones : ZoneInfo) : Table (SettingsFields zones) where
  Row := SettingsORM
  userId := SettingsORM.userId
  version := SettingsORM.version
  values := SettingsORM.values
  assign := SettingsORM.assign
  modelValidate := SettingsORM.modelValidate
  sendable := SettingsORM.sendable
  typed := SettingsORM.typed
  checks := SettingsORM.checks
  uniques _ _ := []

end ProfileService.Infrastructure
