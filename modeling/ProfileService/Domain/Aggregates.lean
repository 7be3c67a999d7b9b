import ProfileService.Domain.ValueObjects
import ProfileService.Library.Calendar

/-!
# Aggregates (`domain/base.py`, `domain/aggregates/`) and the privacy policy

An aggregate is a versioned entity with the business fields of its class. A
change validates a whole candidate first and then replaces the state, so it
either leaves the entity as it was or moves version and time together. Times are
compared as instants; two datetimes of one zone object, which Python compares by their
wall clocks, are left out.
-/

namespace ProfileService.Domain
open Library

/-- The business fields of a class: the mapping `model_dump` writes of them and
`model_validate` reads back. -/
class ModelFields (F : Type) where
  Data : Type
  modelDump : F → Data
  modelValidate : Data → Except DomainError F
  modelValidate_modelDump : ∀ f, modelValidate (modelDump f) = .ok f

/-- `VersionedMutableEntity` (`domain/base.py:78-123`). -/
@[ext] structure VersionedMutableEntity (F : Type) where
  id : UserId
  createdAt : Instant
  updatedAt : Option Instant
  version : Nat
  fields : F
  version_pos : 1 ≤ version
  timestamps : ∀ t ∈ updatedAt, createdAt < t
  deriving DecidableEq

/-- A mapping given to `model_validate`, `version` already at least 1. -/
structure EntityData (D : Type) where
  id : UserId
  createdAt : Instant
  updatedAt : Option Instant
  version : Nat
  fields : D
  version_pos : 1 ≤ version

namespace VersionedMutableEntity
variable {F : Type} [ModelFields F] {self entity : VersionedMutableEntity F} {now : Instant}

def modelDump (self : VersionedMutableEntity F) : EntityData (ModelFields.Data F) :=
  ⟨self.id, self.createdAt, self.updatedAt, self.version, ModelFields.modelDump self.fields,
    self.version_pos⟩

/-- The field validators, then `_validate_timestamps`. -/
def modelValidate (data : EntityData (ModelFields.Data F)) :
    Except DomainError (VersionedMutableEntity F) := do
  let fields ← ModelFields.modelValidate data.fields
  if h : ∀ t ∈ data.updatedAt, data.createdAt < t then
    .ok ⟨data.id, data.createdAt, data.updatedAt, data.version, fields, data.version_pos, h⟩
  else .error .invalidTimestamp

@[simp] theorem modelValidate_modelDump (self : VersionedMutableEntity F) :
    modelValidate self.modelDump = .ok self := by
  unfold modelValidate modelDump
  simp only [ModelFields.modelValidate_modelDump]
  exact dif_pos self.timestamps

/-- `mark_updated` (`domain/base.py:115-123`). -/
def markUpdated (now : Instant) (self : VersionedMutableEntity F) :
    Except DomainError (VersionedMutableEntity F) :=
  modelValidate { self.modelDump with
    updatedAt := some now
    version := self.version + 1
    version_pos := Nat.le_add_left 1 self.version }

theorem markUpdated_eq (h : self.createdAt < now) :
    self.markUpdated now = .ok { self with
      updatedAt := some now
      version := self.version + 1
      version_pos := Nat.le_add_left 1 self.version
      timestamps := by
        intro t ht
        cases ht
        exact h } := by
  unfold markUpdated modelValidate modelDump
  simp only [ModelFields.modelValidate_modelDump]
  refine dif_pos ?_
  intro t ht
  cases ht
  exact h

theorem markUpdated_late (h : now ≤ self.createdAt) :
    self.markUpdated now = .error .invalidTimestamp := by
  unfold markUpdated modelValidate modelDump
  simp only [ModelFields.modelValidate_modelDump]
  refine dif_neg ?_
  intro hall
  exact absurd (hall now rfl) (Int.not_lt.2 h)

variable [DecidableEq F] {changes : ModelFields.Data F → ModelFields.Data F}

/-- `_apply_changes` (`domain/base.py:98-113`): whether there was a change, and
the entity after it. -/
def applyChanges_ (now : Instant) (changes : ModelFields.Data F → ModelFields.Data F)
    (self : VersionedMutableEntity F) : Except DomainError (Bool × VersionedMutableEntity F) := do
  let candidate ← modelValidate
    { self.modelDump with fields := changes (ModelFields.modelDump self.fields) }
  if candidate = self then return (false, self)
  else return (true, ← candidate.markUpdated now)

/-- What a change may do: refuse the values, find nothing to change, refuse the
time, or replace the fields and move version and time. Only the time check looks
at the clock. -/
theorem applyChanges_cases (now : Instant) (changes : ModelFields.Data F → ModelFields.Data F)
    (self : VersionedMutableEntity F) :
    (∃ e, ModelFields.modelValidate (changes (ModelFields.modelDump self.fields)) = .error e ∧
      self.applyChanges_ now changes = .error e) ∨
    (ModelFields.modelValidate (changes (ModelFields.modelDump self.fields)) = .ok self.fields ∧
      self.applyChanges_ now changes = .ok (false, self)) ∨
    ∃ fields : F, ModelFields.modelValidate (changes (ModelFields.modelDump self.fields)) = .ok fields ∧
      fields ≠ self.fields ∧
      ((now ≤ self.createdAt ∧ self.applyChanges_ now changes = .error .invalidTimestamp) ∨
        ∃ entity : VersionedMutableEntity F, self.createdAt < now ∧
          self.applyChanges_ now changes = .ok (true, entity) ∧
          entity.id = self.id ∧ entity.createdAt = self.createdAt ∧
          entity.updatedAt = some now ∧ entity.version = self.version + 1 ∧
          entity.fields = fields) := by
  cases hv : ModelFields.modelValidate (changes (ModelFields.modelDump self.fields)) with
  | error e =>
    refine .inl ⟨e, rfl, ?_⟩
    unfold applyChanges_ modelValidate
    simp only [hv]
    rfl
  | ok fields =>
    have hcandidate : modelValidate
        { self.modelDump with fields := changes (ModelFields.modelDump self.fields) } =
        .ok { self with fields := fields } := by
      unfold modelValidate
      simp only [hv]
      exact dif_pos self.timestamps
    have happly : self.applyChanges_ now changes =
        if ({ self with fields := fields } : VersionedMutableEntity F) = self then .ok (false, self)
        else (markUpdated now { self with fields := fields }).map (true, ·) := by
      unfold applyChanges_
      rw [hcandidate]
      rfl
    by_cases hsame : fields = self.fields
    · subst hsame
      exact .inr (.inl ⟨rfl, by rw [happly, if_pos rfl]⟩)
    · let candidate : VersionedMutableEntity F := { self with fields := fields }
      have hne : candidate ≠ self := fun h => hsame (congrArg VersionedMutableEntity.fields h)
      have hmark : self.applyChanges_ now changes = (candidate.markUpdated now).map (true, ·) := by
        rw [happly, if_neg hne]
      refine .inr (.inr ⟨fields, rfl, hsame, ?_⟩)
      by_cases htime : self.createdAt < now
      · have hlate : candidate.createdAt < now := htime
        rw [markUpdated_eq hlate] at hmark
        exact .inr ⟨_, htime, hmark, rfl, rfl, rfl, rfl, rfl⟩
      · have hlate : candidate.createdAt ≥ now := Int.not_lt.1 htime
        rw [markUpdated_late hlate] at hmark
        exact .inl ⟨hlate, hmark⟩

theorem applyChanges_ok {changed : Bool} (h : self.applyChanges_ now changes = .ok (changed, entity)) :
    ModelFields.modelValidate (changes (ModelFields.modelDump self.fields)) = .ok entity.fields ∧
      entity.id = self.id ∧ entity.createdAt = self.createdAt ∧
      ((changed = false ∧ entity = self) ∨
        (changed = true ∧ entity.fields ≠ self.fields ∧ self.createdAt < now ∧
          entity.updatedAt = some now ∧ entity.version = self.version + 1)) := by
  rcases applyChanges_cases now changes self with ⟨e, -, he⟩ | ⟨hv, hsame⟩ | ⟨fields, hv, hne, hrest⟩
  · rw [he] at h
    cases h
  · rw [hsame] at h
    cases h
    exact ⟨hv, rfl, rfl, .inl ⟨rfl, rfl⟩⟩
  · rcases hrest with ⟨-, hlate⟩ | ⟨entity', htime, hok, hid, hcreated, hupdated, hversion, hfields⟩
    · rw [hlate] at h
      cases h
    · rw [hok] at h
      cases h
      exact ⟨hfields ▸ hv, hid, hcreated, .inr ⟨rfl, hfields ▸ hne, htime, hupdated, hversion⟩⟩

/-- What an accepted change does, it would also do at any later time. -/
theorem applyChanges_later {changed : Bool} {later : Instant}
    (h : self.applyChanges_ now changes = .ok (changed, entity)) (hlater : self.createdAt < later) :
    ∃ entity', self.applyChanges_ later changes = .ok (changed, entity') := by
  obtain ⟨hv, -, -, hcases⟩ := applyChanges_ok h
  rcases applyChanges_cases later changes self with
    ⟨e, hv', -⟩ | ⟨hv', hsame⟩ | ⟨fields, hv', hne, hrest⟩
  · rw [hv] at hv'
    cases hv'
  · have hfields : entity.fields = self.fields := Except.ok.inj (hv.symm.trans hv')
    rcases hcases with ⟨rfl, -⟩ | ⟨-, hchanged, -⟩
    · exact ⟨self, hsame⟩
    · exact absurd hfields hchanged
  · have hfields : entity.fields = fields := Except.ok.inj (hv.symm.trans hv')
    rcases hcases with ⟨-, rfl⟩ | ⟨rfl, -⟩
    · exact absurd hfields.symm hne
    · rcases hrest with ⟨hlate, -⟩ | ⟨entity', -, hok, -⟩
      · exact absurd hlater (Int.not_lt.2 hlate)
      · exact ⟨entity', hok⟩

/-- A refused change: the values were invalid, or the clock was not past the creation
while a later reading would have let the change through. -/
theorem applyChanges_error {e : DomainError} (h : self.applyChanges_ now changes = .error e) :
    ModelFields.modelValidate (changes (ModelFields.modelDump self.fields)) = .error e ∨
      (e = .invalidTimestamp ∧ now ≤ self.createdAt ∧
        ∃ later entity, self.applyChanges_ later changes = .ok (true, entity)) := by
  rcases applyChanges_cases now changes self with ⟨e', hv, he⟩ | ⟨-, hsame⟩ | ⟨fields, hv, hne, hrest⟩
  · rw [he] at h
    cases h
    exact .inl hv
  · rw [hsame] at h
    cases h
  · rcases hrest with ⟨hlate, herror⟩ | ⟨entity, -, hok, -⟩
    · rw [herror] at h
      cases h
      refine .inr ⟨rfl, hlate, self.createdAt + 1, ?_⟩
      have hpast : ¬ self.createdAt + 1 ≤ self.createdAt := Int.not_le.2 (Int.lt_succ self.createdAt)
      rcases applyChanges_cases (self.createdAt + 1) changes self with
        ⟨e', hv', -⟩ | ⟨hv', -⟩ | ⟨fields', -, -, hrest'⟩
      · rw [hv] at hv'
        cases hv'
      · rw [hv] at hv'
        exact absurd (Except.ok.inj hv') hne
      · rcases hrest' with ⟨hlate', -⟩ | ⟨entity, -, hok, -⟩
        · exact absurd hlate' hpast
        · exact ⟨entity, hok⟩
    · rw [hok] at h
      cases h

end VersionedMutableEntity

def optionalOfStr {α : Type} (ofStr : Str → Except DomainError α) :
    Option Str → Except DomainError (Option α)
  | none => .ok none
  | some s => (ofStr s).map some

theorem optionalOfStr_val {α : Type} {ofStr : Str → Except DomainError α} {val : α → Str}
    (h : ∀ a, ofStr (val a) = .ok a) (a : Option α) : optionalOfStr ofStr (a.map val) = .ok a := by
  cases a with
  | none => rfl
  | some a =>
    simp only [Option.map_some, optionalOfStr, h]
    rfl

theorem optionalOfStr_ok {α : Type} {ofStr : Str → Except DomainError α} {val : α → Str}
    {normalize : Str → Str} (h : ∀ s a, ofStr s = .ok a → val a = normalize s) {s : Option Str}
    {a : Option α} (ha : optionalOfStr ofStr s = .ok a) : a.map val = s.map normalize := by
  cases s with
  | none =>
    cases ha
    rfl
  | some s =>
    cases hs : ofStr s with
    | error e =>
      rw [optionalOfStr, hs] at ha
      cases ha
    | ok b =>
      rw [optionalOfStr, hs] at ha
      cases ha
      exact congrArg some (h s b hs)

@[ext] structure ProfileFields where
  username : Option Username
  displayName : DisplayName
  bio : Option Bio
  avatarKey : Option Str
  status : UserProfileStatus
  isVerified : Bool
  deriving DecidableEq

structure ProfileData where
  username : Option Str
  displayName : Str
  bio : Option Str
  avatarKey : Option Str
  status : UserProfileStatus
  isVerified : Bool

def ProfileFields.modelDump (f : ProfileFields) : ProfileData where
  username := f.username.map Subtype.val
  displayName := f.displayName.1
  bio := f.bio.map Subtype.val
  avatarKey := f.avatarKey
  status := f.status
  isVerified := f.isVerified

/-- The validators run in the order of the fields; the first error is raised. -/
def ProfileFields.modelValidate (d : ProfileData) : Except DomainError ProfileFields := do
  let username ← optionalOfStr Username.ofStr d.username
  let displayName ← DisplayName.ofStr d.displayName
  let bio ← optionalOfStr Bio.ofStr d.bio
  return ⟨username, displayName, bio, d.avatarKey, d.status, d.isVerified⟩

theorem ProfileFields.modelValidate_ok {d : ProfileData} {f : ProfileFields} :
    ProfileFields.modelValidate d = .ok f ↔
      optionalOfStr Username.ofStr d.username = .ok f.username ∧
        DisplayName.ofStr d.displayName = .ok f.displayName ∧
        optionalOfStr Bio.ofStr d.bio = .ok f.bio ∧ f.avatarKey = d.avatarKey ∧
        f.status = d.status ∧ f.isVerified = d.isVerified := by
  obtain ⟨username, displayName, bio, avatarKey, status, isVerified⟩ := f
  unfold ProfileFields.modelValidate
  cases optionalOfStr Username.ofStr d.username with
  | error e => simp [bind, Except.bind]
  | ok username' =>
    cases DisplayName.ofStr d.displayName with
    | error e => simp [bind, Except.bind]
    | ok displayName' =>
      cases optionalOfStr Bio.ofStr d.bio with
      | error e => simp [bind, Except.bind]
      | ok bio' =>
        simp only [bind, Except.bind, pure, Except.pure, Except.ok.injEq, ProfileFields.mk.injEq]
        constructor
        · rintro ⟨rfl, rfl, rfl, rfl, rfl, rfl⟩
          exact ⟨rfl, rfl, rfl, rfl, rfl, rfl⟩
        · rintro ⟨rfl, rfl, rfl, rfl, rfl, rfl⟩
          exact ⟨rfl, rfl, rfl, rfl, rfl, rfl⟩

instance : ModelFields ProfileFields where
  Data := ProfileData
  modelDump := ProfileFields.modelDump
  modelValidate := ProfileFields.modelValidate
  modelValidate_modelDump f := by
    simp only [ProfileFields.modelValidate, ProfileFields.modelDump,
      optionalOfStr_val Username.ofStr_val, optionalOfStr_val Bio.ofStr_val, DisplayName.ofStr_val]
    rfl

abbrev UserProfile := VersionedMutableEntity ProfileFields

namespace UserProfile

def createDefault (userId : UserId) (now : Instant) : UserProfile where
  id := userId
  createdAt := now
  updatedAt := none
  version := 1
  fields :=
    { username := none
      displayName := DisplayName.default
      bio := none
      avatarKey := none
      status := .active
      isVerified := false }
  version_pos := Nat.le_refl 1
  timestamps := fun _ h => by cases h

def bioOrNone (bio : Str) : Option Str := if bio = [] then none else some bio

def updateProfile (now : Instant) (displayName bio username : Option Str) (self : UserProfile) :
    Except DomainError (Bool × UserProfile) :=
  self.applyChanges_ now fun (d : ProfileData) =>
    { d with
      displayName := displayName.getD d.displayName
      bio := bio.elim d.bio bioOrNone
      username := username.or d.username }

def updateAvatar (avatarKey : Option Str) (now : Instant) (self : UserProfile) :
    Except DomainError (Bool × UserProfile) :=
  self.applyChanges_ now fun (d : ProfileData) => { d with avatarKey := avatarKey }

end UserProfile

@[ext] structure SettingsFields (zones : ZoneInfo) where
  theme : Theme
  locale : Locale
  timezone : Timezone zones
  privacy : PrivacySettings
  deriving DecidableEq

structure SettingsData where
  theme : Theme
  locale : Locale
  timezone : Str
  privacy : PrivacySettings

section Settings
variable {zones : ZoneInfo}

def SettingsFields.modelDump (f : SettingsFields zones) : SettingsData :=
  ⟨f.theme, f.locale, f.timezone.1, f.privacy⟩

def SettingsFields.modelValidate (d : SettingsData) : Except DomainError (SettingsFields zones) := do
  let timezone ← Timezone.ofStr zones d.timezone
  return ⟨d.theme, d.locale, timezone, d.privacy⟩

instance : ModelFields (SettingsFields zones) where
  Data := SettingsData
  modelDump := SettingsFields.modelDump
  modelValidate := SettingsFields.modelValidate
  modelValidate_modelDump f := by
    simp only [SettingsFields.modelValidate, SettingsFields.modelDump, Timezone.ofStr_val]
    rfl

abbrev UserSettings (zones : ZoneInfo) := VersionedMutableEntity (SettingsFields zones)

namespace UserSettings

def createDefault (userId : UserId) (now : Instant) : UserSettings zones where
  id := userId
  createdAt := now
  updatedAt := none
  version := 1
  fields :=
    { theme := Theme.default
      locale := Locale.default
      timezone := Timezone.default zones
      privacy := PrivacySettings.default }
  version_pos := Nat.le_refl 1
  timestamps := fun _ h => by cases h

def updateSettings (theme : Option Theme) (locale : Option Locale) (timezone : Option Str)
    (privacy : Option PrivacySettings) (now : Instant) (self : UserSettings zones) :
    Except DomainError (Bool × UserSettings zones) :=
  self.applyChanges_ now fun (d : SettingsData) =>
    { d with
      theme := theme.getD d.theme
      locale := locale.getD d.locale
      timezone := timezone.getD d.timezone
      privacy := privacy.getD d.privacy }

def resetToDefaults (now : Instant) (self : UserSettings zones) :
    Except DomainError (Bool × UserSettings zones) :=
  updateSettings (some Theme.default) (some Locale.default) (some (Timezone.default zones).1)
    (some PrivacySettings.default) now self

end UserSettings

/-! ### `ProfilePrivacyPolicy` (`domain/policies/privacy.py`) -/

/-- What the three rules share: the owner always may, others when the scope is `ALL`. -/
def scopeAllows (scope : PrivacyScope) (targetUserId : UserId) (viewerId : Option UserId) : Bool :=
  if viewerId = some targetUserId then true else scope = .all

def canViewBio (targetUserId : UserId) (settings : UserSettings zones) (viewerId : Option UserId) :
    Bool := scopeAllows settings.fields.privacy.whoCanSeeBio targetUserId viewerId

def canViewAvatar (targetUserId : UserId) (settings : UserSettings zones)
    (viewerId : Option UserId) : Bool :=
  scopeAllows settings.fields.privacy.whoCanSeeAvatar targetUserId viewerId

def canFindByUsername (targetUserId : UserId) (settings : UserSettings zones)
    (viewerId : Option UserId) : Bool :=
  scopeAllows settings.fields.privacy.whoCanFindByUsername targetUserId viewerId

@[simp] theorem scopeAllows_owner (scope : PrivacyScope) (target : UserId) :
    scopeAllows scope target (some target) = true := if_pos rfl

theorem scopeAllows_nobody {target : UserId} {viewer : Option UserId} (h : viewer ≠ some target) :
    scopeAllows .nobody target viewer = false := by
  rw [scopeAllows, if_neg h]
  rfl

end Settings
end ProfileService.Domain
