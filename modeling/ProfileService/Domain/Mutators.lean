import ProfileService.Domain.Aggregates
import ProfileService.Library.ObjectHeap

/-!
# The public mutators (`domain/base.py:56-123`, `domain/aggregates/`)

The methods as they run on objects: a candidate object is built and validated, a second
validated object moves its version and time, and only then the state of the aggregate is
replaced.
-/

namespace ProfileService.Domain
open Library ObjectHeap

/-- What `model_validate` may raise. -/
inductive Refusal where
  | domain (e : DomainError)
  | validation

abbrev Entities (F : Type) := ObjectHeap (VersionedMutableEntity F)

abbrev Method (F β : Type) := Procedure Refusal (VersionedMutableEntity F) β

section Base
variable {F : Type} [ModelFields F]

def VersionedMutableEntity.withFields (self : VersionedMutableEntity F) (fields : F) :
    VersionedMutableEntity F :=
  { self with fields := fields }

/-- `mark_updated` (`base.py:115-123`). -/
def markUpdated (self : Nat) (now : Instant) : Method F Unit := do
  let candidate ← allocate (← raise (((← load self).markUpdated now).mapError .domain))
  replaceState self candidate

variable [DecidableEq F]

/-- `_apply_changes` (`base.py:98-113`); `validate` is `model_validate` of the dump with the
changes merged into it. -/
def applyChanges (self : Nat) (now : Instant)
    (validate : VersionedMutableEntity F → Except Refusal (VersionedMutableEntity F)) :
    Method F Bool := do
  let candidate ← allocate (← raise (validate (← load self)))
  if (← load candidate) = (← load self) then return false
  else
    markUpdated candidate now
    replaceState self candidate
    return true

/-- What one call comes to. -/
inductive Effect (F : Type) where
  | raises (e : Refusal)
  | unchanged
  | changes (fields : F)

/-- The effect of a request for `target` on an entity: nothing where the values are the
current ones already. -/
def effectOf (entity : VersionedMutableEntity F) (now : Instant) : Except Refusal F → Effect F
  | .error e => .raises e
  | .ok fields =>
    if fields = entity.fields then .unchanged
    else if entity.createdAt < now then .changes fields
    else .raises (.domain .invalidTimestamp)

/-- The effect of `mark_updated`, which requests no values. -/
def effectOfMark (entity : VersionedMutableEntity F) (now : Instant) : Effect F :=
  if entity.createdAt < now then .changes entity.fields else .raises (.domain .invalidTimestamp)

/-- A call did what its effect says, and nothing else. -/
def Performs {β : Type} (effect : Effect F) (reports : Bool → β) (self : Nat) (now : Instant)
    (heap : Entities F) (result : EStateM.Result Refusal (Entities F) β) : Prop :=
  match effect with
  | .raises e => ∃ heap', result = .error e heap' ∧ Kept heap heap'
  | .unchanged => ∃ heap', result = .ok (reports false) heap' ∧ Kept heap heap'
  | .changes fields => ∃ heap' entity, result = .ok (reports true) heap' ∧
      KeptBut self entity heap heap' ∧ entity.id = (heap.object self).id ∧
      entity.createdAt = (heap.object self).createdAt ∧ entity.fields = fields ∧
      entity.version = (heap.object self).version + 1 ∧ entity.updatedAt = some now

omit [DecidableEq F] in
theorem performs_markUpdated (heap : Entities F) (self : Nat) (now : Instant) :
    Performs (effectOfMark (heap.object self) now) (fun _ => ()) self now heap
      (markUpdated self now heap) := by
  unfold effectOfMark markUpdated
  by_cases htime : (heap.object self).createdAt < now
  · rw [if_pos htime]
    have hmark := VersionedMutableEntity.markUpdated_eq htime
    simp only [load_bind, hmark, Except.mapError, raise_ok_bind, allocate_bind]
    refine ⟨_, _, rfl, (kept_allocate heap _).then_but (keptBut_replaceState _ self heap.next), ?_⟩
    simp only [Function.update_self, and_self]
  · rw [if_neg htime]
    have hmark := VersionedMutableEntity.markUpdated_late (Int.not_lt.1 htime)
    simp only [load_bind, hmark, Except.mapError, raise_error_bind]
    exact ⟨heap, rfl, .refl heap⟩

/-- The generic method: where validation answers with the requested values, the call has their
effect. -/
theorem performs_applyChanges {heap : Entities F} {self : Nat} (hself : self < heap.next)
    (now : Instant) {validate : VersionedMutableEntity F → Except Refusal (VersionedMutableEntity F)}
    {target : Except Refusal F}
    (hvalidate : validate (heap.object self) = target.map (heap.object self).withFields) :
    Performs (effectOf (heap.object self) now target) id self now heap
      (applyChanges self now validate heap) := by
  cases target with
  | error e =>
    have hraise : validate (heap.object self) = .error e := hvalidate
    unfold applyChanges
    simp only [load_bind, hraise, raise_error_bind]
    exact ⟨heap, rfl, .refl heap⟩
  | ok fields =>
    obtain ⟨candidate, hcandidate⟩ : ∃ candidate : VersionedMutableEntity F,
        candidate = (heap.object self).withFields fields := ⟨_, rfl⟩
    have hbuilt : validate (heap.object self) = .ok candidate := by
      rw [hvalidate, hcandidate]
      rfl
    obtain ⟨heap₁, hheap₁⟩ : ∃ heap₁ : Entities F, heap₁ =
        ⟨Function.update heap.object heap.next candidate, heap.next + 1⟩ := ⟨_, rfl⟩
    have hkept : Kept heap heap₁ := hheap₁ ▸ kept_allocate heap candidate
    have hnew : heap₁.object heap.next = candidate := hheap₁ ▸ allocated_object heap candidate
    have hold : heap₁.object self = heap.object self := hkept.2 self hself
    have hrun : applyChanges self now validate heap =
        (if candidate = heap.object self then pure false
        else do
          markUpdated heap.next now
          replaceState self heap.next
          return true : Method F Bool) heap₁ := by
      unfold applyChanges
      simp only [load_bind, hbuilt, raise_ok_bind, allocate_bind, ← hheap₁, hnew, hold]
    by_cases hsame : fields = (heap.object self).fields
    · have hequal : candidate = heap.object self := by
        rw [hcandidate, hsame]
        rfl
      rw [effectOf, if_pos hsame, hrun, if_pos hequal]
      exact ⟨heap₁, rfl, hkept⟩
    · have hdiffers : candidate ≠ heap.object self := by
        intro h
        rw [← h, hcandidate] at hsame
        exact hsame rfl
      have hmark := performs_markUpdated heap₁ heap.next now
      have hcreated : candidate.createdAt = (heap.object self).createdAt := hcandidate ▸ rfl
      rw [hnew, effectOfMark, hcreated] at hmark
      rw [effectOf, if_neg hsame, hrun, if_neg hdiffers]
      by_cases htime : (heap.object self).createdAt < now
      · rw [if_pos htime] at hmark ⊢
        obtain ⟨heap₂, entity, hok, hbut, hid, hcreated', hfields, hversion, hupdated⟩ := hmark
        rw [hnew, hcandidate] at hid hcreated' hversion
        rw [bind_ok hok]
        refine ⟨_, entity, rfl, ?_, hid, hcreated', ?_, hversion, hupdated⟩
        · have hreplace := keptBut_replaceState heap₂ self heap.next
          rw [hbut.2.1] at hreplace
          refine ⟨Nat.le_trans hkept.1 hbut.1, ?_, fun other hother hne => ?_⟩
          · rw [hbut.2.1]
            exact hreplace.2.1
          · have hother₁ : other < heap₁.next := Nat.lt_of_lt_of_le hother hkept.1
            have hother₂ : other < heap₂.next := Nat.lt_of_lt_of_le hother₁ hbut.1
            have hlast := hreplace.2.2 other hother₂ hne
            rw [hbut.2.1, hlast, hbut.2.2 other hother₁ (Nat.ne_of_lt hother),
              hkept.2 other hother]
        · rw [hfields, hcandidate]
          rfl
      · rw [if_neg htime] at hmark ⊢
        obtain ⟨heap₂, hraised, hkept₂⟩ := hmark
        rw [bind_error hraised]
        exact ⟨heap₂, rfl, hkept.trans hkept₂⟩

omit [ModelFields F] [DecidableEq F] in
theorem Performs.map {β γ : Type} {effect : Effect F} {reports : Bool → β} {self : Nat}
    {now : Instant} {heap : Entities F} {method : Method F β}
    (h : Performs effect reports self now heap (method heap)) (report : β → γ) :
    Performs effect (fun changed => report (reports changed)) self now heap
      ((do return report (← method) : Method F γ) heap) := by
  cases effect with
  | raises e =>
    obtain ⟨heap', hraised, hkept⟩ := h
    exact ⟨heap', bind_error hraised, hkept⟩
  | unchanged =>
    obtain ⟨heap', hok, hkept⟩ := h
    exact ⟨heap', bind_ok hok, hkept⟩
  | changes fields =>
    obtain ⟨heap', entity, hok, hrest⟩ := h
    exact ⟨heap', entity, bind_ok hok, hrest⟩

theorem applyChanges_effect (self : VersionedMutableEntity F) (now : Instant)
    (changes : ModelFields.Data F → ModelFields.Data F) :
    match effectOf self now
        ((ModelFields.modelValidate (changes (ModelFields.modelDump self.fields))).mapError .domain) with
    | .raises (.domain e) => self.applyChanges_ now changes = .error e
    | .raises .validation => False
    | .unchanged => self.applyChanges_ now changes = .ok (false, self)
    | .changes fields => ∃ entity, self.applyChanges_ now changes = .ok (true, entity) ∧
        entity.fields = fields := by
  rcases VersionedMutableEntity.applyChanges_cases now changes self with
    ⟨e, hv, he⟩ | ⟨hv, hsame⟩ | ⟨fields, hv, hne, hrest⟩
  · rw [hv]
    exact he
  · rw [hv]
    simp only [Except.mapError, effectOf, if_true]
    exact hsame
  · rw [hv]
    simp only [Except.mapError, effectOf, if_neg hne]
    rcases hrest with ⟨hlate, herror⟩ | ⟨entity, htime, hok, -, -, -, -, hfields⟩
    · rw [if_neg (Int.not_lt.2 hlate)]
      exact herror
    · rw [if_pos htime]
      exact ⟨entity, hok, hfields⟩

end Base

/-- A value, or what stands for it where one is requested: nothing keeps the current one. -/
def requested {ε α β : Type} (validate : β → Except ε α) (current : α) : Option β → Except ε α
  | none => .ok current
  | some value => validate value

/-! ### `UserProfile` -/

inductive ProfileMutator where
  | updateProfile (displayName bio username : Option Str)
  | updateAvatar (avatarKey : Option Str)
  | deactivate
  | block
  | activate
  | verify
  | unverify
  | markUpdated

namespace ProfileMutator

/-- The keyword arguments of `_apply_changes` over the dump. -/
def changes : ProfileMutator → ProfileData → ProfileData
  | .updateProfile displayName bio username, d =>
    { d with
      displayName := displayName.getD d.displayName
      bio := bio.elim d.bio UserProfile.bioOrNone
      username := username.or d.username }
  | .updateAvatar avatarKey, d => { d with avatarKey := avatarKey }
  | .deactivate, d => { d with status := .disabled }
  | .block, d => { d with status := .blocked }
  | .activate, d => { d with status := .active }
  | .verify, d => { d with isVerified := true }
  | .unverify, d => { d with isVerified := false }
  | .markUpdated, d => d

/-- What the caller gets: only two of the methods report. -/
def reports : ProfileMutator → Bool → Option Bool
  | .updateProfile _ _ _, changed => some changed
  | .updateAvatar _, changed => some changed
  | _, _ => none

/-- `model_validate({**self.model_dump(), **changes})`. -/
def validate (mutator : ProfileMutator) (self : UserProfile) : Except Refusal UserProfile :=
  (VersionedMutableEntity.modelValidate
    { self.modelDump with fields := mutator.changes self.fields.modelDump }).mapError .domain

def run (self : Nat) (now : Instant) (mutator : ProfileMutator) :
    Method ProfileFields (Option Bool) :=
  match mutator with
  | .markUpdated => do
    Domain.markUpdated self now
    return none
  | mutator => do
    let changed ← applyChanges self now mutator.validate
    return mutator.reports changed

def target : ProfileMutator → ProfileFields → Except DomainError ProfileFields
  | .updateProfile displayName bio username, f => do
    let username ← requested (fun s => (Username.ofStr s).map some) f.username username
    let displayName ← requested DisplayName.ofStr f.displayName displayName
    let bio ← requested (fun s => optionalOfStr Bio.ofStr (UserProfile.bioOrNone s)) f.bio bio
    return { f with username := username, displayName := displayName, bio := bio }
  | .updateAvatar avatarKey, f => .ok { f with avatarKey := avatarKey }
  | .deactivate, f => .ok { f with status := .disabled }
  | .block, f => .ok { f with status := .blocked }
  | .activate, f => .ok { f with status := .active }
  | .verify, f => .ok { f with isVerified := true }
  | .unverify, f => .ok { f with isVerified := false }
  | .markUpdated, f => .ok f

def effect (self : UserProfile) (now : Instant) : ProfileMutator → Effect ProfileFields
  | .markUpdated => effectOfMark self now
  | mutator => effectOf self now ((mutator.target self.fields).mapError .domain)

theorem modelValidate_changes (mutator : ProfileMutator) (f : ProfileFields) :
    ProfileFields.modelValidate (mutator.changes f.modelDump) = mutator.target f := by
  have hdump : ProfileFields.modelValidate f.modelDump = .ok f :=
    ModelFields.modelValidate_modelDump f
  have husername : optionalOfStr Username.ofStr (f.username.map Subtype.val) = .ok f.username :=
    optionalOfStr_val Username.ofStr_val f.username
  have hbio : optionalOfStr Bio.ofStr (f.bio.map Subtype.val) = .ok f.bio :=
    optionalOfStr_val Bio.ofStr_val f.bio
  have hname : DisplayName.ofStr f.displayName.1 = .ok f.displayName :=
    DisplayName.ofStr_val f.displayName
  cases mutator with
  | updateProfile displayName bio username =>
    have husername' : optionalOfStr Username.ofStr (username.or (f.username.map Subtype.val)) =
        requested (fun s => (Username.ofStr s).map some) f.username username := by
      cases username with
      | none => exact husername
      | some s => rfl
    have hname' : DisplayName.ofStr (displayName.getD f.displayName.1) =
        requested DisplayName.ofStr f.displayName displayName := by
      cases displayName with
      | none => exact hname
      | some s => rfl
    have hbio' : optionalOfStr Bio.ofStr (bio.elim (f.bio.map Subtype.val) UserProfile.bioOrNone) =
        requested (fun s => optionalOfStr Bio.ofStr (UserProfile.bioOrNone s)) f.bio bio := by
      cases bio with
      | none => exact hbio
      | some s => rfl
    simp only [ProfileFields.modelValidate, changes, ProfileFields.modelDump, target, husername',
      hname', hbio']
  | markUpdated => exact hdump
  | updateAvatar avatarKey =>
    simp only [ProfileFields.modelValidate, changes, ProfileFields.modelDump, target, husername,
      hname, hbio]
    rfl
  | deactivate | block | activate | verify | unverify =>
    simp only [ProfileFields.modelValidate, changes, ProfileFields.modelDump, target, husername,
      hname, hbio]
    rfl

theorem validate_eq (mutator : ProfileMutator) (self : UserProfile) :
    mutator.validate self =
      ((mutator.target self.fields).mapError .domain).map self.withFields := by
  have hfields : ModelFields.modelValidate (F := ProfileFields)
      (mutator.changes self.fields.modelDump) = mutator.target self.fields :=
    mutator.modelValidate_changes self.fields
  unfold validate VersionedMutableEntity.modelValidate
  simp only [hfields]
  cases mutator.target self.fields with
  | error e => rfl
  | ok fields =>
    exact congrArg (Except.mapError Refusal.domain) (dif_pos self.timestamps)

/-- The step: one call on one object. -/
theorem performs_run {heap : Entities ProfileFields} {self : Nat} (hself : self < heap.next)
    (now : Instant) (mutator : ProfileMutator) :
    Performs (mutator.effect (heap.object self) now) mutator.reports self now heap
      (mutator.run self now heap) := by
  have happly := performs_applyChanges hself now (mutator.validate_eq (heap.object self))
  cases mutator with
  | markUpdated => exact (performs_markUpdated heap self now).map fun _ => none
  | updateProfile displayName bio username => exact happly.map _
  | updateAvatar avatarKey => exact happly.map _
  | deactivate | block | activate | verify | unverify => exact happly.map _

end ProfileMutator

/-! ### `UserSettings` -/

/-- An argument `Theme | str`, and the like: a member, or a text that may be the value of one. -/
inductive Given (α : Type) where
  | value (a : α)
  | text (s : Str)

/-- The validator of an enumeration, which turns what `_missing_` raises into its own error. -/
def Given.validate {α : Type} (ofStr : Str → Except DomainError α) : Given α → Except Refusal α
  | .value a => .ok a
  | .text s => (ofStr s).mapError fun _ => .validation

/-- An argument `PrivacySettings | dict[str, Any]`; an entry is `none` where it is neither a
scope nor a text. -/
inductive PrivacyArgument where
  | value (privacy : PrivacySettings)
  | mapping (entries : List (Str × Option (Given PrivacyScope)))

namespace PrivacyArgument

def privacyFields : List Str :=
  ["who_can_see_avatar".toList, "who_can_find_by_username".toList, "who_can_see_bio".toList]

/-- A field of the mapping, `ALL` where it is left out. -/
def scope (entries : List (Str × Option (Given PrivacyScope))) (key : Str) :
    Except Refusal PrivacyScope :=
  match (entries.find? fun e => e.1 = key).map Prod.snd with
  | none => .ok .all
  | some none => .error .validation
  | some (some given) => given.validate PrivacyScope.ofStr

def validate : PrivacyArgument → Except Refusal PrivacySettings
  | .value privacy => .ok privacy
  | .mapping entries => do
    if entries.any fun e => !privacyFields.contains e.1 then throw .validation
    let whoCanSeeAvatar ← scope entries "who_can_see_avatar".toList
    let whoCanFindByUsername ← scope entries "who_can_find_by_username".toList
    let whoCanSeeBio ← scope entries "who_can_see_bio".toList
    return ⟨whoCanSeeAvatar, whoCanFindByUsername, whoCanSeeBio⟩

end PrivacyArgument

structure SettingsMapping where
  theme : Given Theme
  locale : Given Locale
  timezone : Str
  privacy : PrivacyArgument

variable {zones : ZoneInfo}

/-- The field validators: the error of the time zone's comes out at once, those of pydantic
itself are collected and come out last. -/
def SettingsMapping.validate (d : SettingsMapping) : Except Refusal (SettingsFields zones) := do
  let timezone ← (Timezone.ofStr zones d.timezone).mapError Refusal.domain
  let theme ← d.theme.validate Theme.ofStr
  let locale ← d.locale.validate Locale.ofStr
  let privacy ← d.privacy.validate
  return ⟨theme, locale, timezone, privacy⟩

inductive SettingsMutator where
  | updateSettings (theme : Option (Given Theme)) (locale : Option (Given Locale))
      (timezone : Option Str) (privacy : Option PrivacyArgument)
  | resetToDefaults
  | markUpdated

namespace SettingsMutator

def updated (theme : Option (Given Theme)) (locale : Option (Given Locale)) (timezone : Option Str)
    (privacy : Option PrivacyArgument) (f : SettingsFields zones) : SettingsMapping where
  theme := theme.getD (.value f.theme)
  locale := locale.getD (.value f.locale)
  timezone := timezone.getD f.timezone.1
  privacy := privacy.getD (.value f.privacy)

/-- What is validated; `reset_to_defaults` is `update_settings` with the defaults. -/
def mapping : SettingsMutator → SettingsFields zones → SettingsMapping
  | .updateSettings theme locale timezone privacy, f => updated theme locale timezone privacy f
  | .resetToDefaults, f =>
    updated (some (.value Theme.default)) (some (.value Locale.default))
      (some "Europe/Moscow".toList) (some (.value PrivacySettings.default)) f
  | .markUpdated, f => updated none none none none f

def reports : SettingsMutator → Bool → Option Bool
  | .updateSettings _ _ _ _, changed => some changed
  | .resetToDefaults, changed => some changed
  | .markUpdated, _ => none

def validate (mutator : SettingsMutator) (self : UserSettings zones) :
    Except Refusal (UserSettings zones) := do
  let fields ← (mutator.mapping self.fields).validate
  if _ : ∀ t ∈ self.updatedAt, self.createdAt < t then return self.withFields fields
  else throw (.domain .invalidTimestamp)

def run (self : Nat) (now : Instant) (mutator : SettingsMutator) :
    Method (SettingsFields zones) (Option Bool) :=
  match mutator with
  | .markUpdated => do
    Domain.markUpdated self now
    return none
  | mutator => do
    let changed ← applyChanges self now mutator.validate
    return mutator.reports changed

def target : SettingsMutator → SettingsFields zones → Except Refusal (SettingsFields zones)
  | .updateSettings theme locale timezone privacy, f => do
    let timezone ← requested (fun s => (Timezone.ofStr zones s).mapError Refusal.domain) f.timezone
      timezone
    let theme ← requested (Given.validate Theme.ofStr) f.theme theme
    let locale ← requested (Given.validate Locale.ofStr) f.locale locale
    let privacy ← requested PrivacyArgument.validate f.privacy privacy
    return ⟨theme, locale, timezone, privacy⟩
  | .resetToDefaults, _ =>
    .ok ⟨Theme.default, Locale.default, Timezone.default zones, PrivacySettings.default⟩
  | .markUpdated, f => .ok f

def effect (self : UserSettings zones) (now : Instant) :
    SettingsMutator → Effect (SettingsFields zones)
  | .markUpdated => effectOfMark self now
  | mutator => effectOf self now (mutator.target self.fields)

theorem validate_mapping (mutator : SettingsMutator) (f : SettingsFields zones) :
    (mutator.mapping f).validate = mutator.target f := by
  have hkeep : (Timezone.ofStr zones f.timezone.1).mapError Refusal.domain = .ok f.timezone := by
    rw [Timezone.ofStr_val]
    rfl
  have hdefault : (Timezone.ofStr zones "Europe/Moscow".toList).mapError Refusal.domain =
      .ok (Timezone.default zones) := by
    have h := Timezone.ofStr_val (Timezone.default zones)
    exact congrArg (Except.mapError Refusal.domain) h
  cases mutator with
  | updateSettings theme locale timezone privacy =>
    have htimezone : (Timezone.ofStr zones (timezone.getD f.timezone.1)).mapError Refusal.domain =
        requested (fun s => (Timezone.ofStr zones s).mapError Refusal.domain) f.timezone timezone := by
      cases timezone with
      | none => exact hkeep
      | some s => rfl
    have htheme : (theme.getD (.value f.theme)).validate Theme.ofStr =
        requested (Given.validate Theme.ofStr) f.theme theme := by
      cases theme <;> rfl
    have hlocale : (locale.getD (.value f.locale)).validate Locale.ofStr =
        requested (Given.validate Locale.ofStr) f.locale locale := by
      cases locale <;> rfl
    have hprivacy : (privacy.getD (.value f.privacy)).validate =
        requested PrivacyArgument.validate f.privacy privacy := by
      cases privacy <;> rfl
    simp only [SettingsMapping.validate, mapping, updated, target, htimezone, htheme, hlocale, hprivacy]
  | resetToDefaults =>
    simp only [SettingsMapping.validate, mapping, updated, target, Option.getD_some, hdefault]
    rfl
  | markUpdated =>
    simp only [SettingsMapping.validate, mapping, updated, target, Option.getD_none, hkeep]
    rfl

theorem validate_eq (mutator : SettingsMutator) (self : UserSettings zones) :
    mutator.validate self = (mutator.target self.fields).map self.withFields := by
  unfold validate
  rw [mutator.validate_mapping self.fields]
  cases mutator.target self.fields with
  | error e => rfl
  | ok fields => exact dif_pos self.timestamps

theorem performs_run {heap : Entities (SettingsFields zones)} {self : Nat}
    (hself : self < heap.next) (now : Instant) (mutator : SettingsMutator) :
    Performs (mutator.effect (heap.object self) now) mutator.reports self now heap
      (mutator.run self now heap) := by
  have happly := performs_applyChanges hself now (mutator.validate_eq (heap.object self))
  cases mutator with
  | markUpdated => exact (performs_markUpdated heap self now).map fun _ => none
  | updateSettings theme locale timezone privacy => exact happly.map _
  | resetToDefaults => exact happly.map _

end SettingsMutator

/-! ### Runs -/

section Runs
variable {F : Type}

def objectsAfter {β : Type} : EStateM.Result Refusal (Entities F) β → Entities F
  | .ok _ heap => heap
  | .error _ heap => heap

def runAll {M : Type} (run : Nat → Instant → M → Method F (Option Bool)) (self : Nat) :
    List (M × Instant) → Entities F → Entities F
  | [], heap => heap
  | call :: calls, heap => runAll run self calls (objectsAfter (run self call.2 call.1 heap))

/-- What no call changes, and what every entity keeps. -/
structure Grows (before after : VersionedMutableEntity F) : Prop where
  id : after.id = before.id
  createdAt : after.createdAt = before.createdAt
  version : before.version ≤ after.version
  version_pos : 1 ≤ after.version
  timestamps : ∀ t ∈ after.updatedAt, after.createdAt < t

theorem Grows.refl (entity : VersionedMutableEntity F) : Grows entity entity :=
  ⟨rfl, rfl, Nat.le_refl _, entity.version_pos, entity.timestamps⟩

theorem Grows.trans {a b c : VersionedMutableEntity F} (h : Grows a b) (h' : Grows b c) :
    Grows a c :=
  ⟨h'.id.trans h.id, h'.createdAt.trans h.createdAt, Nat.le_trans h.version h'.version,
    h'.version_pos, h'.timestamps⟩

theorem Performs.grows {β : Type} {effect : Effect F} {reports : Bool → β} {self : Nat}
    {now : Instant} {heap : Entities F} {result : EStateM.Result Refusal (Entities F) β}
    (hself : self < heap.next) (h : Performs effect reports self now heap result) :
    self < (objectsAfter result).next ∧
      Grows (heap.object self) ((objectsAfter result).object self) := by
  cases effect with
  | raises e =>
    obtain ⟨heap', rfl, hnext, hkept⟩ := h
    refine ⟨Nat.lt_of_lt_of_le hself hnext, ?_⟩
    rw [objectsAfter, hkept self hself]
    exact .refl _
  | unchanged =>
    obtain ⟨heap', rfl, hnext, hkept⟩ := h
    refine ⟨Nat.lt_of_lt_of_le hself hnext, ?_⟩
    rw [objectsAfter, hkept self hself]
    exact .refl _
  | changes fields =>
    obtain ⟨heap', entity, rfl, ⟨hnext, hobject, -⟩, hid, hcreated, -, hversion, -⟩ := h
    refine ⟨Nat.lt_of_lt_of_le hself hnext, ?_⟩
    rw [objectsAfter, hobject]
    exact ⟨hid, hcreated, by omega, entity.version_pos, entity.timestamps⟩

/-- The run: every state of a run of calls, by induction on them. -/
theorem runAll_grows {M : Type} {run : Nat → Instant → M → Method F (Option Bool)} {self : Nat}
    (hrun : ∀ (heap : Entities F) (now : Instant) (m : M), self < heap.next →
      ∃ effect reports, Performs effect reports self now heap (run self now m heap))
    (calls : List (M × Instant)) {heap : Entities F} (hself : self < heap.next) :
    Grows (heap.object self) ((runAll run self calls heap).object self) := by
  induction calls generalizing heap with
  | nil => exact .refl _
  | cons call calls ih =>
    obtain ⟨effect, reports, hcall⟩ := hrun heap call.2 call.1 hself
    obtain ⟨hself', hgrows⟩ := hcall.grows hself
    exact hgrows.trans (ih hself')

end Runs

/-! ### The aggregates -/

/-- Every value object is as its validator leaves it. -/
structure ProfileFields.Normal (f : ProfileFields) : Prop where
  username : ∀ u ∈ f.username, normalizeUsername u.1 = u.1 ∧ UsernameText u.1
  displayName : strip f.displayName.1 = f.displayName.1 ∧ DisplayNameText f.displayName.1
  bio : ∀ b ∈ f.bio, BioText b.1

structure SettingsFields.Normal (f : SettingsFields zones) : Prop where
  timezone : strip f.timezone.1 = f.timezone.1 ∧ zones.accepts f.timezone.1 = true

theorem ProfileFields.normal (f : ProfileFields) : f.Normal :=
  ⟨fun u _ => ⟨normalizeUsername_val u, u.2⟩, ⟨f.displayName.2.1, f.displayName.2⟩, fun b _ => b.2⟩

theorem SettingsFields.normal (f : SettingsFields zones) : f.Normal := ⟨f.timezone.2⟩

section Effect
variable {F : Type} [DecidableEq F] {entity : VersionedMutableEntity F} {now : Instant}

theorem effectOf_unchanged {target : Except Refusal F} :
    effectOf entity now target = .unchanged ↔ target = .ok entity.fields := by
  cases target with
  | error e => exact ⟨fun h => (nomatch h), fun h => (nomatch h)⟩
  | ok fields =>
    rw [effectOf]
    by_cases hsame : fields = entity.fields
    · rw [if_pos hsame, hsame]
      exact ⟨fun _ => rfl, fun _ => rfl⟩
    · rw [if_neg hsame]
      refine ⟨fun h => ?_, fun h => absurd (Except.ok.inj h) hsame⟩
      split at h
      · cases h
      · cases h

omit [DecidableEq F] in
theorem effectOfMark_ne_unchanged : effectOfMark entity now ≠ .unchanged := by
  unfold effectOfMark
  split
  · exact fun h => nomatch h
  · exact fun h => nomatch h

end Effect

theorem ProfileMutator.effect_unchanged {self : UserProfile} {now : Instant}
    {mutator : ProfileMutator} :
    mutator.effect self now = .unchanged ↔
      mutator ≠ .markUpdated ∧ mutator.target self.fields = .ok self.fields := by
  have hlift : ∀ target : Except DomainError ProfileFields,
      target.mapError Refusal.domain = .ok self.fields ↔ target = .ok self.fields := by
    intro target
    cases target with
    | error e => exact ⟨fun h => (nomatch h), fun h => (nomatch h)⟩
    | ok fields => exact ⟨fun h => congrArg _ (Except.ok.inj h), fun h => congrArg _ (Except.ok.inj h)⟩
  by_cases hmark : mutator = .markUpdated
  · subst hmark
    exact ⟨fun h => absurd h effectOfMark_ne_unchanged, fun h => absurd rfl h.1⟩
  · have heffect : mutator.effect self now =
        effectOf self now ((mutator.target self.fields).mapError .domain) := by
      cases mutator with
      | markUpdated => exact absurd rfl hmark
      | updateProfile _ _ _ | updateAvatar _ | deactivate | block | activate | verify | unverify => rfl
    rw [heffect, effectOf_unchanged, hlift, and_iff_right hmark]

theorem SettingsMutator.effect_unchanged {self : UserSettings zones} {now : Instant}
    {mutator : SettingsMutator} :
    mutator.effect self now = .unchanged ↔
      mutator ≠ .markUpdated ∧ mutator.target self.fields = .ok self.fields := by
  by_cases hmark : mutator = .markUpdated
  · subst hmark
    exact ⟨fun h => absurd h effectOfMark_ne_unchanged, fun h => absurd rfl h.1⟩
  · have heffect : mutator.effect self now = effectOf self now (mutator.target self.fields) := by
      cases mutator with
      | markUpdated => exact absurd rfl hmark
      | updateSettings _ _ _ _ | resetToDefaults => rfl
    rw [heffect, effectOf_unchanged, and_iff_right hmark]

/-- A call raises, finds nothing to change, or moves exactly what it was asked to with version
and time; and no run of calls touches what an aggregate is made of. Whatever `create_default` or
hydration builds is an entity, and its invariants are its fields. -/
theorem mutators_atomic (zones : ZoneInfo) :
    (∀ (heap : Entities ProfileFields) (self : Nat), self < heap.next →
      (∀ (now : Instant) (mutator : ProfileMutator),
        Performs (mutator.effect (heap.object self) now) mutator.reports self now heap
            (mutator.run self now heap) ∧
          (mutator.effect (heap.object self) now = .unchanged ↔ mutator ≠ .markUpdated ∧
            mutator.target (heap.object self).fields = .ok (heap.object self).fields)) ∧
      ∀ calls, Grows (heap.object self) ((runAll ProfileMutator.run self calls heap).object self) ∧
        ((runAll ProfileMutator.run self calls heap).object self).fields.Normal) ∧
    ∀ (heap : Entities (SettingsFields zones)) (self : Nat), self < heap.next →
      (∀ (now : Instant) (mutator : SettingsMutator),
        Performs (mutator.effect (heap.object self) now) mutator.reports self now heap
            (mutator.run self now heap) ∧
          (mutator.effect (heap.object self) now = .unchanged ↔ mutator ≠ .markUpdated ∧
            mutator.target (heap.object self).fields = .ok (heap.object self).fields)) ∧
      ∀ calls, Grows (heap.object self) ((runAll SettingsMutator.run self calls heap).object self) ∧
        ((runAll SettingsMutator.run self calls heap).object self).fields.Normal := by
  constructor
  · intro heap self hself
    refine ⟨fun now mutator => ⟨mutator.performs_run hself now, mutator.effect_unchanged⟩,
      fun calls => ⟨?_, ProfileFields.normal _⟩⟩
    exact runAll_grows (fun heap now m hm => ⟨_, _, ProfileMutator.performs_run hm now m⟩) calls hself
  · intro heap self hself
    refine ⟨fun now mutator => ⟨mutator.performs_run hself now, mutator.effect_unchanged⟩,
      fun calls => ⟨?_, SettingsFields.normal _⟩⟩
    exact runAll_grows (fun heap now m hm => ⟨_, _, SettingsMutator.performs_run hm now m⟩) calls hself

section Sample

def everyZone : ZoneInfo where
  accepts _ := true
  accepts_default := rfl

def sampleObjects : Entities ProfileFields := ⟨fun _ => UserProfile.createDefault 1 0, 1⟩

def sampleCalls : List (ProfileMutator × Instant) := [(.verify, 0), (.verify, 1), (.verify, 2)]

theorem mutators_atomic_sample :
    Grows (UserProfile.createDefault 1 0)
      ((runAll ProfileMutator.run 0 sampleCalls sampleObjects).object 0) ∧
    Performs (.raises (.domain .invalidTimestamp)) ProfileMutator.verify.reports 0 0 sampleObjects
      (ProfileMutator.verify.run 0 0 sampleObjects) := by
  obtain ⟨hstep, hruns⟩ := (mutators_atomic everyZone).1 sampleObjects 0 Nat.zero_lt_one
  exact ⟨(hruns sampleCalls).1, (hstep 0 .verify).1⟩

end Sample
end ProfileService.Domain
