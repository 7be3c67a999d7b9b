import ProfileService.Domain.Mutators
import ProfileService.Infrastructure.Tables

/-!
# Hydration

The mappings the repositories write (`repositories/base.py:49-89`) and `model_validate` over
the mapping of a row, key by key: the primary key goes out under another name than the field
it comes back to.
-/

namespace ProfileService.Infrastructure
open Domain Library Application ObjectHeap

/-- What a column holds, as it is bound and as it is returned: an enumeration as its text. -/
inductive Cell where
  | null
  | uuid (u : UserId)
  | text (s : Str)
  | boolean (b : Bool)
  | bigint (n : Nat)
  | timestamptz (t : Instant)
  | jsonb (j : Json)

abbrev Columns := List (Str × Cell)

namespace Columns

def get (columns : Columns) (key : Str) : Option Cell :=
  (columns.find? fun e => e.1 = key).map Prod.snd

def excluding (keys : List Str) (columns : Columns) : Columns :=
  columns.filter fun e => !keys.contains e.1

/-- The row an `INSERT ... RETURNING` gives back: every column of the table from the values. -/
def inserted (names : List Str) (values : Columns) : Columns :=
  names.map fun name => (name, (values.get name).getD .null)

/-- The row an `UPDATE ... RETURNING` gives back: the assigned columns over the stored ones. -/
def updated (stored values : Columns) : Columns :=
  stored.map fun e => (e.1, (values.get e.1).getD e.2)

end Columns

def textOrNull (s : Option Str) : Cell := s.elim .null .text

def timestamptzOrNull (t : Option Instant) : Cell := t.elim .null .timestamptz

/-! ### Reading -/

/-- A field read under a name: its default where the key is missing, an error where the value
has another type. -/
def readCell {α : Type} (row : Columns) (key : Str) (default : α) (parse : Cell → Option α) :
    Except Exn α :=
  match row.get key with
  | none => .ok default
  | some cell => (parse cell).elim (.error (.other "ValidationError" (String.ofList key))) .ok

def parseUuid : Cell → Option UserId
  | .uuid u => some u
  | _ => none

def parseText : Cell → Option Str
  | .text s => some s
  | _ => none

def parseTextOrNull : Cell → Option (Option Str)
  | .null => some none
  | .text s => some (some s)
  | _ => none

def parseBoolean : Cell → Option Bool
  | .boolean b => some b
  | _ => none

def parseBigint : Cell → Option Nat
  | .bigint n => some n
  | _ => none

def parseTimestamptz : Cell → Option Instant
  | .timestamptz t => some t
  | _ => none

def parseTimestamptzOrNull : Cell → Option (Option Instant)
  | .null => some none
  | .timestamptz t => some (some t)
  | _ => none

def parseJsonb : Cell → Option Json
  | .jsonb j => some j
  | _ => none

/-- What the default factories of `id` and `created_at` would make up. -/
structure Defaults where
  uuid7 : UserId
  utcNow : Instant

/-- `id` by its alias `user_id`, by its own name where the alias is missing. -/
def readId (d : Defaults) (row : Columns) : Except Exn UserId :=
  match row.get "user_id".toList with
  | some cell => (parseUuid cell).elim (.error (.other "ValidationError" "user_id")) .ok
  | none => readCell row "id".toList d.uuid7 parseUuid

/-- `UserProfile.model_validate(dict(row))`. -/
def hydrateProfile (d : Defaults) (row : Columns) : Except Exn UserProfile := do
  let userId ← readId d row
  let createdAt ← readCell row "created_at".toList d.utcNow parseTimestamptz
  let updatedAt ← readCell row "updated_at".toList none parseTimestamptzOrNull
  let version ← readCell row "version".toList 1 parseBigint
  let username ← readCell row "username".toList none parseTextOrNull
  let displayName ← readCell row "display_name".toList DisplayName.default.1 parseText
  let bio ← readCell row "bio".toList none parseTextOrNull
  let avatarKey ← readCell row "avatar_key".toList none parseTextOrNull
  let status ← readCell row "status".toList UserProfileStatus.active.value parseText
  let isVerified ← readCell row "is_verified".toList false parseBoolean
  ProfileORM.modelValidate ⟨userId, username, displayName, bio, avatarKey, status, isVerified,
    version, createdAt, updatedAt⟩

variable {zones : ZoneInfo}

def hydrateSettings (d : Defaults) (row : Columns) : Except Exn (UserSettings zones) := do
  let userId ← readId d row
  let createdAt ← readCell row "created_at".toList d.utcNow parseTimestamptz
  let updatedAt ← readCell row "updated_at".toList none parseTimestamptzOrNull
  let version ← readCell row "version".toList 1 parseBigint
  let theme ← readCell row "theme".toList Theme.default.value parseText
  let locale ← readCell row "locale".toList Locale.default.value parseText
  let timezone ← readCell row "timezone".toList (Timezone.default zones).1 parseText
  let privacy ← readCell row "privacy".toList (privacyJson PrivacySettings.default) parseJsonb
  SettingsORM.modelValidate ⟨userId, theme, locale, timezone, privacy, version, createdAt, updatedAt⟩

/-! ### Writing -/

def profileNames : List Str :=
  ["user_id".toList, "username".toList, "display_name".toList, "bio".toList, "avatar_key".toList,
    "status".toList, "is_verified".toList, "version".toList, "created_at".toList,
    "updated_at".toList]

def settingsNames : List Str :=
  ["user_id".toList, "theme".toList, "locale".toList, "timezone".toList, "privacy".toList,
    "version".toList, "created_at".toList, "updated_at".toList]

/-- `UserProfile.model_dump()`. -/
def dumpProfile (entity : UserProfile) : Columns :=
  [("id".toList, .uuid entity.id),
    ("created_at".toList, .timestamptz entity.createdAt),
    ("updated_at".toList, timestamptzOrNull entity.updatedAt),
    ("version".toList, .bigint entity.version),
    ("username".toList, textOrNull (entity.fields.username.map Subtype.val)),
    ("display_name".toList, .text entity.fields.displayName.1),
    ("bio".toList, textOrNull (entity.fields.bio.map Subtype.val)),
    ("avatar_key".toList, textOrNull entity.fields.avatarKey),
    ("status".toList, .text entity.fields.status.value),
    ("is_verified".toList, .boolean entity.fields.isVerified)]

def dumpSettings (entity : UserSettings zones) : Columns :=
  [("id".toList, .uuid entity.id),
    ("created_at".toList, .timestamptz entity.createdAt),
    ("updated_at".toList, timestamptzOrNull entity.updatedAt),
    ("version".toList, .bigint entity.version),
    ("theme".toList, .text entity.fields.theme.value),
    ("locale".toList, .text entity.fields.locale.value),
    ("timezone".toList, .text entity.fields.timezone.1),
    ("privacy".toList, .jsonb (privacyJson entity.fields.privacy))]

/-- The values of `create`: the dump without `id`, and the primary key. -/
def createValues (dump : Columns) (id : UserId) : Columns :=
  dump.excluding ["id".toList] ++ [("user_id".toList, .uuid id)]

def updateValues (dump : Columns) : Columns := dump.excluding ["id".toList, "created_at".toList]

def profileColumns (r : ProfileORM) : Columns :=
  [("user_id".toList, .uuid r.userId),
    ("username".toList, textOrNull r.username),
    ("display_name".toList, .text r.displayName),
    ("bio".toList, textOrNull r.bio),
    ("avatar_key".toList, textOrNull r.avatarKey),
    ("status".toList, .text r.status),
    ("is_verified".toList, .boolean r.isVerified),
    ("version".toList, .bigint r.version),
    ("created_at".toList, .timestamptz r.createdAt),
    ("updated_at".toList, timestamptzOrNull r.updatedAt)]

def settingsColumns (r : SettingsORM) : Columns :=
  [("user_id".toList, .uuid r.userId),
    ("theme".toList, .text r.theme),
    ("locale".toList, .text r.locale),
    ("timezone".toList, .text r.timezone),
    ("privacy".toList, .jsonb r.privacy),
    ("version".toList, .bigint r.version),
    ("created_at".toList, .timestamptz r.createdAt),
    ("updated_at".toList, timestamptzOrNull r.updatedAt)]

@[simp] theorem parseTextOrNull_textOrNull (s : Option Str) :
    parseTextOrNull (textOrNull s) = some s := by
  cases s <;> rfl

@[simp] theorem parseTimestamptzOrNull_timestamptzOrNull (t : Option Instant) :
    parseTimestamptzOrNull (timestamptzOrNull t) = some t := by
  cases t <;> rfl

theorem inserted_profile (entity : UserProfile) :
    Columns.inserted profileNames (createValues (dumpProfile entity) entity.id) =
      profileColumns (ProfileORM.values entity) := rfl

theorem inserted_settings (entity : UserSettings zones) :
    Columns.inserted settingsNames (createValues (dumpSettings entity) entity.id) =
      settingsColumns (SettingsORM.values entity) := rfl

theorem updated_profile (stored : ProfileORM) (entity : UserProfile) :
    Columns.updated (profileColumns stored) (updateValues (dumpProfile entity)) =
      profileColumns (ProfileORM.assign stored (ProfileORM.values entity)) := rfl

theorem updated_settings (stored : SettingsORM) (entity : UserSettings zones) :
    Columns.updated (settingsColumns stored) (updateValues (dumpSettings entity)) =
      settingsColumns (SettingsORM.assign stored (SettingsORM.values entity)) := rfl

/-! ### Round trips -/

theorem readCell_textOrNull {row : Columns} {key : Str} {s : Option Str}
    (h : row.get key = some (textOrNull s)) : readCell row key none parseTextOrNull = .ok s := by
  rw [readCell, h]
  simp only [parseTextOrNull_textOrNull, Option.elim_some]

theorem readCell_timestamptzOrNull {row : Columns} {key : Str} {t : Option Instant}
    (h : row.get key = some (timestamptzOrNull t)) :
    readCell row key none parseTimestamptzOrNull = .ok t := by
  rw [readCell, h]
  simp only [parseTimestamptzOrNull_timestamptzOrNull, Option.elim_some]

/-- Reading the mapping of a row is reading the row: no default is ever used. -/
theorem hydrateProfile_columns (d : Defaults) (r : ProfileORM) :
    hydrateProfile d (profileColumns r) = ProfileORM.modelValidate r := by
  have hupdatedAt : readCell (profileColumns r) "updated_at".toList none parseTimestamptzOrNull =
      .ok r.updatedAt := readCell_timestamptzOrNull rfl
  have husername : readCell (profileColumns r) "username".toList none parseTextOrNull =
      .ok r.username := readCell_textOrNull rfl
  have hbio : readCell (profileColumns r) "bio".toList none parseTextOrNull = .ok r.bio :=
    readCell_textOrNull rfl
  have havatarKey : readCell (profileColumns r) "avatar_key".toList none parseTextOrNull =
      .ok r.avatarKey := readCell_textOrNull rfl
  rw [hydrateProfile, hupdatedAt, husername, hbio, havatarKey]
  rfl

theorem hydrateSettings_columns (d : Defaults) (r : SettingsORM) :
    (hydrateSettings d (settingsColumns r) : Except Exn (UserSettings zones)) =
      SettingsORM.modelValidate r := by
  have hupdatedAt : readCell (settingsColumns r) "updated_at".toList none parseTimestamptzOrNull =
      .ok r.updatedAt := readCell_timestamptzOrNull rfl
  rw [hydrateSettings, hupdatedAt]
  rfl

/-- A validator takes its own output as it is. -/
def Projects {α : Type} (ofStr : Str → Except DomainError α) (text : α → Str) : Prop :=
  ∀ s, (ofStr s >>= fun a => ofStr (text a)) = ofStr s

theorem projects_of_text {α : Type} {ofStr : Str → Except DomainError α} {text : α → Str}
    (h : ∀ a, ofStr (text a) = .ok a) : Projects ofStr text := by
  intro s
  cases hs : ofStr s with
  | error e => rfl
  | ok a => exact h a

def loaded {F : Type} (entity : VersionedMutableEntity F) : Entities F := ⟨fun _ => entity, 1⟩

def mutatedProfile (stored : UserProfile) (calls : List (ProfileMutator × Instant)) : UserProfile :=
  (runAll ProfileMutator.run 0 calls (loaded stored)).object 0

def mutatedSettings (stored : UserSettings zones) (calls : List (SettingsMutator × Instant)) :
    UserSettings zones :=
  (runAll SettingsMutator.run 0 calls (loaded stored)).object 0

theorem mutatedProfile_grows (stored : UserProfile) (calls : List (ProfileMutator × Instant)) :
    Grows stored (mutatedProfile stored calls) := by
  have hself : 0 < (loaded stored).next := Nat.zero_lt_one
  exact runAll_grows (fun _ now m hm => ⟨_, _, ProfileMutator.performs_run hm now m⟩) calls hself

theorem mutatedSettings_grows (stored : UserSettings zones)
    (calls : List (SettingsMutator × Instant)) : Grows stored (mutatedSettings stored calls) := by
  have hself : 0 < (loaded stored).next := Nat.zero_lt_one
  exact runAll_grows (fun _ now m hm => ⟨_, _, SettingsMutator.performs_run hm now m⟩) calls hself

/-- What a profile that was created, or loaded and changed, is read back as. -/
structure ProfileRoundTrips (d : Defaults) : Prop where
  created : ∀ entity : UserProfile, hydrateProfile d
    (Columns.inserted profileNames (createValues (dumpProfile entity) entity.id)) = .ok entity
  updated : ∀ (stored : UserProfile) (calls : List (ProfileMutator × Instant)), hydrateProfile d
    (Columns.updated (profileColumns (ProfileORM.values stored))
      (updateValues (dumpProfile (mutatedProfile stored calls)))) = .ok (mutatedProfile stored calls)
  /-- Requesting nothing, or the values that are there, changes nothing; an empty bio stands
  for none. -/
  noop : ∀ (entity : UserProfile) (now : Instant),
    UserProfile.updateProfile now none none none entity = .ok (false, entity) ∧
      UserProfile.updateProfile now (some entity.fields.displayName.1)
        ((entity.fields.bio.map Subtype.val).filter (· ≠ []))
        (entity.fields.username.map Subtype.val) entity = .ok (false, entity)
  username : Projects Username.ofStr Subtype.val
  displayName : Projects DisplayName.ofStr Subtype.val
  bio : Projects Bio.ofStr Subtype.val
  status : Projects UserProfileStatus.ofStr UserProfileStatus.value

structure SettingsRoundTrips (zones : ZoneInfo) (d : Defaults) : Prop where
  created : ∀ entity : UserSettings zones, hydrateSettings d
    (Columns.inserted settingsNames (createValues (dumpSettings entity) entity.id)) = .ok entity
  updated : ∀ (stored : UserSettings zones) (calls : List (SettingsMutator × Instant)),
    hydrateSettings d (Columns.updated (settingsColumns (SettingsORM.values stored))
      (updateValues (dumpSettings (mutatedSettings stored calls)))) = .ok (mutatedSettings stored calls)
  noop : ∀ (entity : UserSettings zones) (now : Instant),
    UserSettings.updateSettings none none none none now entity = .ok (false, entity) ∧
      UserSettings.updateSettings (some entity.fields.theme) (some entity.fields.locale)
        (some entity.fields.timezone.1) (some entity.fields.privacy) now entity = .ok (false, entity)
  timezone : Projects (Timezone.ofStr zones) Subtype.val
  theme : Projects Theme.ofStr Theme.value
  locale : Projects Locale.ofStr Locale.value
  scope : Projects PrivacyScope.ofStr PrivacyScope.value

theorem applyChanges_same {F : Type} [ModelFields F] [DecidableEq F]
    {entity : VersionedMutableEntity F} {now : Instant}
    {changes : ModelFields.Data F → ModelFields.Data F}
    (h : ModelFields.modelValidate (changes (ModelFields.modelDump entity.fields)) =
      .ok entity.fields) : entity.applyChanges_ now changes = .ok (false, entity) := by
  have heffect := applyChanges_effect entity now changes
  rw [h, Except.mapError, effectOf, if_pos rfl] at heffect
  exact heffect

theorem updateProfile_same (entity : UserProfile) (now : Instant)
    {displayName bio username : Option Str} (hname : displayName.getD entity.fields.displayName.1 =
      entity.fields.displayName.1)
    (hbio : bio.elim (entity.fields.bio.map Subtype.val) UserProfile.bioOrNone =
      entity.fields.bio.map Subtype.val)
    (husername : username.or (entity.fields.username.map Subtype.val) =
      entity.fields.username.map Subtype.val) :
    UserProfile.updateProfile now displayName bio username entity = .ok (false, entity) := by
  refine applyChanges_same ?_
  have hdump := ModelFields.modelValidate_modelDump entity.fields
  show ProfileFields.modelValidate { entity.fields.modelDump with
    displayName := displayName.getD entity.fields.displayName.1
    bio := bio.elim (entity.fields.bio.map Subtype.val) UserProfile.bioOrNone
    username := username.or (entity.fields.username.map Subtype.val) } = _
  rw [hname, hbio, husername]
  exact hdump

theorem profileRoundTrips (d : Defaults) : ProfileRoundTrips d where
  created entity := by
    rw [inserted_profile, hydrateProfile_columns, ProfileORM.modelValidate_values]
  updated stored calls := by
    have hgrows := mutatedProfile_grows stored calls
    rw [updated_profile, hydrateProfile_columns, ProfileORM.assign_values hgrows.id hgrows.createdAt,
      ProfileORM.modelValidate_values]
  noop entity now := by
    refine ⟨updateProfile_same entity now rfl rfl rfl, updateProfile_same entity now rfl ?_ ?_⟩
    · cases hbio : entity.fields.bio with
      | none => rfl
      | some bio =>
        by_cases hempty : bio.1 = []
        · simp [Option.filter, hempty]
        · simp [Option.filter, hempty, UserProfile.bioOrNone]
    · exact Option.or_self
  username := projects_of_text Username.ofStr_val
  displayName := projects_of_text DisplayName.ofStr_val
  bio := projects_of_text Bio.ofStr_val
  status := projects_of_text UserProfileStatus.ofStr_value

theorem settingsRoundTrips (zones : ZoneInfo) (d : Defaults) : SettingsRoundTrips zones d where
  created entity := by
    rw [inserted_settings, hydrateSettings_columns, SettingsORM.modelValidate_values]
  updated stored calls := by
    have hgrows := mutatedSettings_grows stored calls
    rw [updated_settings, hydrateSettings_columns,
      SettingsORM.assign_values hgrows.id hgrows.createdAt, SettingsORM.modelValidate_values]
  noop entity now := by
    have hdump := ModelFields.modelValidate_modelDump entity.fields
    exact ⟨applyChanges_same hdump, applyChanges_same hdump⟩
  timezone := projects_of_text Timezone.ofStr_val
  theme := projects_of_text Theme.ofStr_value
  locale := projects_of_text Locale.ofStr_value
  scope := projects_of_text PrivacyScope.ofStr_value

/-- Whatever was saved is loaded again as it was. -/
theorem persistence_roundTrips (zones : ZoneInfo) (d : Defaults) :
    ProfileRoundTrips d ∧ SettingsRoundTrips zones d :=
  ⟨profileRoundTrips d, settingsRoundTrips zones d⟩

end ProfileService.Infrastructure
