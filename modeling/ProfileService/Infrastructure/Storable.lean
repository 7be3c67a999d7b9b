import ProfileService.Application.Commands
import ProfileService.Infrastructure.Tables

/-!
# What the profile table can store

Which sequences of accepted changes to a profile keep its row within the column types and
the `CHECK`s of `profiles`.
-/

namespace ProfileService.Infrastructure
open Domain Library Application

abbrev AwareDateTime := { d : DateTime // d.utcoffset.isSome = true }

theorem isTimestamptz_instant (d : DateTime) : isTimestamptz d.instant = true := by
  obtain ⟨hlo, hhi⟩ := d.wall_representable
  have hoffset : -dayMicros < d.utcoffset.getD 0 ∧ d.utcoffset.getD 0 < dayMicros := by
    cases ho : d.utcoffset with
    | none => exact ⟨by decide, by decide⟩
    | some o => exact d.utcoffset_lt o ho
  unfold isTimestamptz DateTime.instant
  simp only [instantOrdinal, dayMicros] at hlo hhi hoffset
  rw [Bool.and_eq_true, decide_eq_true_eq, decide_eq_true_eq]
  show (-210866803200000000 : Int) ≤ d.wall - d.utcoffset.getD 0 ∧
    d.wall - d.utcoffset.getD 0 < (9224318016000000000 : Int)
  omega

/-! ### Which rows can be stored -/

/-- The texts of a profile that are stored as they were given. -/
def NulFree (profile : UserProfile) : Prop :=
  isText profile.fields.displayName.1 = true ∧
    isNullOr isText (profile.fields.bio.map Subtype.val) = true ∧
    isNullOr isText profile.fields.avatarKey = true

theorem btrim_of_strip {s : Str} (h : strip s = s) : btrim s = s := by
  have hfirst : ∀ l : Str, l.dropWhile isSpace = l → l.dropWhile (· = ' ') = l := by
    intro l hl
    cases l with
    | nil => rfl
    | cons c t =>
      have hc : isSpace c = false := by
        by_contra hc
        rw [Bool.not_eq_false] at hc
        have hlen := congrArg List.length hl
        simp only [List.dropWhile_cons, hc, if_true, List.length_cons] at hlen
        have hle := (List.dropWhile_suffix isSpace (l := t)).length_le
        omega
      have hne : c ≠ ' ' := by
        rintro rfl
        exact absurd hc (by decide)
      simp [hne]
  have hleft : s.dropWhile isSpace = s := by
    apply (List.dropWhile_suffix isSpace).eq_of_length_le
    calc s.length = (strip s).length := by rw [h]
      _ ≤ (s.dropWhile isSpace).length := (List.rdropWhile_prefix _ _).length_le
  have hright : s.rdropWhile isSpace = s := by
    conv_rhs => rw [← h, strip, hleft]
  have hrev : s.reverse.dropWhile isSpace = s.reverse := by
    rw [← List.reverse_inj, List.reverse_reverse]
    exact hright
  unfold btrim
  rw [hfirst s hleft]
  unfold List.rdropWhile
  rw [hfirst s.reverse hrev, List.reverse_reverse]

/-- An aggregate's row meets every `CHECK`, and every column type but that of texts with
U+0000. -/
theorem storable_values {profile : UserProfile}
    (hcreated : isTimestamptz profile.createdAt = true)
    (hupdated : isNullOr isTimestamptz profile.updatedAt = true) :
    profilesTable.storable (ProfileORM.values profile) = true ↔
      profile.version < 2 ^ 63 ∧ NulFree profile := by
  obtain ⟨id, createdAt, updatedAt, version, ⟨username, displayName, bio, avatarKey, status,
    isVerified⟩, hpos, htimes⟩ := profile
  have husername : isNullOr (isVarchar 32) (username.map Subtype.val) = true ∧
      isNullOr (fun s : Str => 3 ≤ s.length && s.length ≤ 32 && s.all usernameChar)
        (username.map Subtype.val) = true := by
    cases username with
    | none => exact ⟨rfl, rfl⟩
    | some u =>
      obtain ⟨s, ⟨hlo, hhi, hchars⟩, -⟩ := u
      have htext : isText s = true := decide_eq_true fun hnul =>
        absurd (hchars _ hnul) (by decide)
      have hall : s.all usernameChar = true := List.all_eq_true.2 hchars
      exact ⟨by simp [isNullOr, isVarchar, htext, hhi], by simp [isNullOr, hlo, hhi, hall]⟩
  have hdisplayName : isVarchar 64 displayName.1 = isText displayName.1 ∧
      1 ≤ (btrim displayName.1).length ∧ (btrim displayName.1).length ≤ 64 := by
    obtain ⟨s, hstrip, hlength, -⟩ := displayName
    rw [btrim_of_strip hstrip]
    exact ⟨by simp [isVarchar, hlength.2], hlength⟩
  have hbio : isNullOr (isVarchar 255) (bio.map Subtype.val) = isNullOr isText (bio.map Subtype.val) ∧
      isNullOr (fun s : Str => s.length ≤ 255 && '\n' ∉ s && '\r' ∉ s) (bio.map Subtype.val) = true := by
    cases bio with
    | none => exact ⟨rfl, rfl⟩
    | some b =>
      obtain ⟨s, hlength, hlf, hcr⟩ := b
      exact ⟨by simp [isNullOr, isVarchar, hlength], by simp [isNullOr, hlength, hlf, hcr]⟩
  have hstatus : isVarchar 8 status.value = true ∧
      ["ACTIVE".toList, "DISABLED".toList, "BLOCKED".toList].contains status.value = true := by
    cases status <;> decide
  have htimestamps : isNullOr (fun t => createdAt < t) updatedAt = true := by
    cases updatedAt with
    | none => rfl
    | some t => exact decide_eq_true (htimes t rfl)
  show (ProfileORM.typed _ && (ProfileORM.checks _).all Prod.snd) = true ↔ _
  have hchecks : (ProfileORM.checks (ProfileORM.values ⟨id, createdAt, updatedAt, version,
      ⟨username, displayName, bio, avatarKey, status, isVerified⟩, hpos, htimes⟩)).all Prod.snd =
      true := by
    simp only [ProfileORM.checks, ProfileORM.values, List.all_cons, List.all_nil, hbio.2,
      hstatus.2, husername.2, hdisplayName.2, Nat.lt_of_succ_le hpos, decide_true, Bool.and_true]
    exact htimestamps
  rw [hchecks, Bool.and_true]
  simp only [ProfileORM.typed, ProfileORM.values, husername.1, hdisplayName.1, hbio.1, hstatus.1,
    hcreated, hupdated, Bool.true_and, Bool.and_true, Bool.and_eq_true, NulFree, isBigint_iff]
  constructor
  · rintro ⟨⟨⟨hname, hbio⟩, hkey⟩, hversion⟩
    exact ⟨hversion, hname, hbio, hkey⟩
  · rintro ⟨hversion, hname, hbio, hkey⟩
    exact ⟨⟨⟨hname, hbio⟩, hkey⟩, hversion⟩

/-- The row of any settings can be stored as long as the version fits, no key of the time zone
database having a U+0000. -/
theorem storable_settings {zones : ZoneInfo} (hzones : ∀ s, zones.accepts s = true → isText s = true)
    {settings : UserSettings zones} (hcreated : isTimestamptz settings.createdAt = true)
    (hupdated : isNullOr isTimestamptz settings.updatedAt = true) :
    (settingsTable zones).storable (SettingsORM.values settings) = true ↔
      settings.version < 2 ^ 63 := by
  obtain ⟨id, createdAt, updatedAt, version, ⟨theme, locale, timezone, privacy⟩, hpos, htimes⟩ :=
    settings
  have htheme : isVarchar 6 theme.value = true ∧
      ["light".toList, "dark".toList, "system".toList].contains theme.value = true := by
    cases theme <;> decide
  have hlocale : isVarchar 2 locale.value = true ∧
      ["ru".toList, "en".toList].contains locale.value = true := by
    cases locale <;> decide
  have htimezone : isText timezone.1 = true := hzones _ timezone.2.2
  have hprivacy : SettingsORM.checkPrivacy (privacyJson privacy) = true := by
    obtain ⟨avatar, find, bio⟩ := privacy
    cases avatar <;> cases find <;> cases bio <;> decide
  have htimestamps : isNullOr (fun t => createdAt < t) updatedAt = true := by
    cases updatedAt with
    | none => rfl
    | some t => exact decide_eq_true (htimes t rfl)
  show (SettingsORM.typed _ && (SettingsORM.checks _).all Prod.snd) = true ↔ _
  have hchecks : (SettingsORM.checks (SettingsORM.values (⟨id, createdAt, updatedAt, version,
      ⟨theme, locale, timezone, privacy⟩, hpos, htimes⟩ : UserSettings zones))).all Prod.snd =
      true := by
    simp only [SettingsORM.checks, SettingsORM.values, List.all_cons, List.all_nil, hprivacy,
      htheme.2, hlocale.2, Nat.lt_of_succ_le hpos, decide_true, Bool.and_true]
    exact htimestamps
  rw [hchecks, Bool.and_true]
  simp only [SettingsORM.typed, SettingsORM.values, htheme.1, hlocale.1, htimezone, hcreated,
    hupdated, Bool.true_and, Bool.and_true, isBigint_iff]

/-! ### Runs of accepted changes -/

/-- A call of one of the two mutators with the arguments an accepted command carries. -/
inductive ProfileCall where
  | updateProfile (command : UpdateProfileCommand) (now : AwareDateTime)
  | updateAvatar (command : UpdateAvatarCommand) (now : AwareDateTime)

namespace ProfileCall

def apply : ProfileCall → UserProfile → Except DomainError (Bool × UserProfile)
  | .updateProfile c now, profile =>
    profile.updateProfile now.1.instant c.displayName c.bio c.username
  | .updateAvatar c now, profile => profile.updateAvatar c.avatarKey now.1.instant

def now : ProfileCall → AwareDateTime
  | .updateProfile _ now => now
  | .updateAvatar _ now => now

def changes : ProfileCall → ProfileData → ProfileData
  | .updateProfile c _, d =>
    { d with
      displayName := c.displayName.getD d.displayName
      bio := c.bio.elim d.bio UserProfile.bioOrNone
      username := c.username.or d.username }
  | .updateAvatar c _, d => { d with avatarKey := c.avatarKey }

theorem apply_eq (c : ProfileCall) (profile : UserProfile) :
    c.apply profile = profile.applyChanges_ c.now.1.instant c.changes := by
  cases c <;> rfl

def texts : ProfileCall → List Str
  | .updateProfile c _ => c.displayName.toList ++ c.bio.toList ++ c.username.toList
  | .updateAvatar c _ => c.avatarKey.toList

end ProfileCall

structure Stored where
  profile : UserProfile
  row : ProfileORM

namespace Stored

def create (userId : UserId) (now : AwareDateTime) : Stored :=
  let profile := UserProfile.createDefault userId now.1.instant
  ⟨profile, ProfileORM.values profile⟩

/-- A call that raises, or finds nothing to change, leaves both; what changed is written by
`update`. -/
def call (s : Stored) (c : ProfileCall) : Stored :=
  match c.apply s.profile with
  | .ok (true, profile) => ⟨profile, s.row.assign (ProfileORM.values profile)⟩
  | .ok (false, _) => s
  | .error _ => s

def after (s : Stored) : List ProfileCall → Stored
  | [] => s
  | c :: calls => (s.call c).after calls

def rows (s : Stored) : List ProfileCall → List ProfileORM
  | [] => [s.row]
  | c :: calls => s.row :: (s.call c).rows calls

def accepted (s : Stored) : List ProfileCall → List ProfileCall
  | [] => []
  | c :: calls =>
    if (c.apply s.profile).isOk then c :: (s.call c).accepted calls else (s.call c).accepted calls

end Stored

/-- The row is the aggregate's, and its times are `timestamptz` values. -/
structure Written (s : Stored) : Prop where
  row : s.row = ProfileORM.values s.profile
  createdAt : isTimestamptz s.profile.createdAt = true
  updatedAt : isNullOr isTimestamptz s.profile.updatedAt = true

theorem written_create (userId : UserId) (now : AwareDateTime) :
    Written (Stored.create userId now) :=
  ⟨rfl, isTimestamptz_instant now.1, rfl⟩

theorem ProfileCall.apply_ok {c : ProfileCall} {profile profile' : UserProfile} {changed : Bool}
    (h : c.apply profile = .ok (changed, profile')) :
    profile'.id = profile.id ∧ profile'.createdAt = profile.createdAt ∧
      ((changed = false ∧ profile' = profile) ∨ (changed = true ∧
        profile'.version = profile.version + 1 ∧
        ∃ now : AwareDateTime, profile'.updatedAt = some now.1.instant)) := by
  rw [ProfileCall.apply_eq] at h
  obtain ⟨-, hid, hcreated, hrest⟩ := VersionedMutableEntity.applyChanges_ok h
  refine ⟨hid, hcreated, hrest.imp_right ?_⟩
  rintro ⟨hchanged, -, -, hupdated, hversion⟩
  exact ⟨hchanged, hversion, c.now, hupdated⟩

theorem Written.call {s : Stored} (hs : Written s) (c : ProfileCall) :
    Written (s.call c) ∧ s.profile.version ≤ (s.call c).profile.version := by
  unfold Stored.call
  cases h : c.apply s.profile with
  | error e => exact ⟨hs, Nat.le_refl _⟩
  | ok result =>
    obtain ⟨changed, profile'⟩ := result
    cases changed with
    | false => exact ⟨hs, Nat.le_refl _⟩
    | true =>
      obtain ⟨hid, hcreated, ⟨hfalse, -⟩ | ⟨-, hversion, now, hupdated⟩⟩ := ProfileCall.apply_ok h
      · cases hfalse
      · refine ⟨⟨?_, ?_, ?_⟩, ?_⟩
        · show ProfileORM.assign s.row (ProfileORM.values profile') = ProfileORM.values profile'
          rw [hs.row]
          exact ProfileORM.assign_values hid hcreated
        · show isTimestamptz profile'.createdAt = true
          rw [hcreated]
          exact hs.createdAt
        · show isNullOr isTimestamptz profile'.updatedAt = true
          rw [hupdated]
          exact isTimestamptz_instant now.1
        · show s.profile.version ≤ profile'.version
          omega

theorem Written.version_le {s : Stored} (hs : Written s) (calls : List ProfileCall) :
    s.profile.version ≤ (s.after calls).profile.version := by
  induction calls generalizing s with
  | nil => exact Nat.le_refl _
  | cons c calls ih =>
    obtain ⟨hs', hle⟩ := hs.call c
    exact hle.trans (ih hs')

@[simp] theorem isText_strip (s : Str) : isText (strip s) = isText s := by
  have hnul : isSpace '\x00' = false := by decide
  simp [isText, mem_strip hnul]

theorem isText_username {s : Str} {u : Username} (h : Username.ofStr s = .ok u) :
    isText s = true := by
  apply decide_eq_true
  intro hnul
  have hmem : lowerChar '\x00' ∈ normalizeUsername s :=
    List.mem_map_of_mem ((mem_strip (by decide)).2 hnul)
  rw [← Username.ofStr_ok h] at hmem
  exact absurd (u.2.1.2.2 _ hmem) (by decide)

theorem isNullOr_bioOrNone (s : Str) :
    isNullOr isText (UserProfile.bioOrNone s) = isText s := by
  cases s with
  | nil => rfl
  | cons c s => rfl

theorem Stored.call_profile {s : Stored} {c : ProfileCall} {profile' : UserProfile} {changed : Bool}
    (h : c.apply s.profile = .ok (changed, profile')) : (s.call c).profile = profile' := by
  unfold Stored.call
  rw [h]
  cases changed with
  | true => rfl
  | false =>
    obtain ⟨-, -, ⟨-, hsame⟩ | ⟨htrue, -⟩⟩ := ProfileCall.apply_ok h
    · exact hsame.symm
    · cases htrue

/-- An accepted call brings a U+0000 in exactly by its texts. -/
theorem nulFree_apply {c : ProfileCall} {profile profile' : UserProfile} {changed : Bool}
    (hp : NulFree profile) (h : c.apply profile = .ok (changed, profile')) :
    NulFree profile' ↔ ∀ s ∈ c.texts, isText s = true := by
  rw [ProfileCall.apply_eq] at h
  obtain ⟨husername, hdisplayName, hbio, havatarKey, -, -⟩ :=
    ProfileFields.modelValidate_ok.1 (VersionedMutableEntity.applyChanges_ok h).1
  have hname := DisplayName.ofStr_ok hdisplayName
  have hbio' : profile'.fields.bio.map Subtype.val = (c.changes _).bio.map id :=
    optionalOfStr_ok (fun _ _ => Bio.ofStr_ok) hbio
  unfold NulFree
  cases c with
  | updateAvatar c now =>
    have hkept : isText profile'.fields.displayName.1 = true ∧
        isNullOr isText (profile'.fields.bio.map Subtype.val) = true := by
      rw [hname, hbio', isText_strip, Option.map_id]
      exact ⟨hp.1, hp.2.1⟩
    simp only [hkept, true_and, havatarKey, ProfileCall.changes, ProfileCall.texts]
    cases c.avatarKey <;> simp [isNullOr]
  | updateProfile c now =>
    have hdisplay : isText profile'.fields.displayName.1 = isNullOr isText c.displayName := by
      rw [hname, isText_strip]
      simp only [ProfileCall.changes]
      cases c.displayName with
      | none => exact hp.1
      | some s => rfl
    have hbios : isNullOr isText (profile'.fields.bio.map Subtype.val) = isNullOr isText c.bio := by
      rw [hbio', Option.map_id]
      simp only [ProfileCall.changes]
      cases c.bio with
      | none => exact hp.2.1
      | some s => exact isNullOr_bioOrNone s
    have havatar : isNullOr isText profile'.fields.avatarKey = true := by
      rw [havatarKey]
      exact hp.2.2
    have hnames : isNullOr isText c.username = true := by
      simp only [ProfileCall.changes] at husername
      cases hu : c.username with
      | none => rfl
      | some s =>
        rw [hu] at husername
        cases hs : Username.ofStr s with
        | error e => simp [optionalOfStr, hs, Except.map] at husername
        | ok u => exact isText_username hs
    simp only [hdisplay, hbios, havatar, and_true, ProfileCall.texts]
    have hmem : ∀ o : Option Str, isNullOr isText o = true ↔ ∀ s ∈ o.toList, isText s = true := by
      intro o
      cases o <;> simp [isNullOr]
    simp only [List.mem_append, or_imp, forall_and, ← hmem, hnames, and_true]

theorem nulFree_create (userId : UserId) (registeredAt : AwareDateTime) :
    NulFree (Stored.create userId registeredAt).profile := by
  refine ⟨?_, rfl, rfl⟩
  show isText DisplayName.default.1 = true
  decide

theorem row_mem_rows (s : Stored) (calls : List ProfileCall) : s.row ∈ s.rows calls := by
  cases calls <;> simp [Stored.rows]

/-- In every run of calls from `create_default` whose versions fit a `bigint`, all rows
written can be stored exactly when no accepted call supplies a text with U+0000. -/
theorem rows_storable_iff (userId : UserId) (registeredAt : AwareDateTime)
    (calls : List ProfileCall)
    (hversion : ((Stored.create userId registeredAt).after calls).profile.version < 2 ^ 63) :
    (∀ row ∈ (Stored.create userId registeredAt).rows calls,
        profilesTable.storable row = true) ↔
      ∀ c ∈ (Stored.create userId registeredAt).accepted calls, ∀ s ∈ c.texts, isText s = true := by
  have hrun : ∀ (calls : List ProfileCall) (s : Stored), Written s → NulFree s.profile →
      (s.after calls).profile.version < 2 ^ 63 →
      ((∀ row ∈ s.rows calls, profilesTable.storable row = true) ↔
        ∀ c ∈ s.accepted calls, ∀ t ∈ c.texts, isText t = true) := by
    intro calls
    induction calls with
    | nil =>
      intro s hs hfree hversion
      have hrow : profilesTable.storable s.row = true := by
        rw [hs.row]
        exact (storable_values hs.createdAt hs.updatedAt).2 ⟨hversion, hfree⟩
      simp [Stored.rows, Stored.accepted, hrow]
    | cons c calls ih =>
      intro s hs hfree hversion
      obtain ⟨hs', -⟩ := hs.call c
      have hrow : profilesTable.storable s.row = true := by
        have hle := hs.version_le (c :: calls)
        rw [hs.row]
        exact (storable_values hs.createdAt hs.updatedAt).2 ⟨lt_of_le_of_lt hle hversion, hfree⟩
      have hrest := ih (s.call c) hs'
      have hleft : (∀ row ∈ s.rows (c :: calls), profilesTable.storable row = true) ↔
          ∀ row ∈ (s.call c).rows calls, profilesTable.storable row = true := by
        show (∀ row ∈ s.row :: (s.call c).rows calls, profilesTable.storable row = true) ↔ _
        rw [List.forall_mem_cons]
        exact and_iff_right hrow
      rw [hleft]
      cases hc : c.apply s.profile with
      | error e =>
        have hcall : s.call c = s := by rw [Stored.call, hc]
        have haccepted : s.accepted (c :: calls) = (s.call c).accepted calls := by
          rw [Stored.accepted, hc]
          rfl
        rw [haccepted]
        exact hrest (by rw [hcall]; exact hfree) hversion
      | ok result =>
        obtain ⟨changed, profile'⟩ := result
        have haccepted : s.accepted (c :: calls) = c :: (s.call c).accepted calls := by
          rw [Stored.accepted, hc]
          rfl
        have htexts := nulFree_apply hfree hc
        rw [← Stored.call_profile hc] at htexts
        rw [haccepted, List.forall_mem_cons, ← htexts]
        constructor
        · intro hall
          have hfree' : NulFree (s.call c).profile := by
            apply ((storable_values hs'.createdAt hs'.updatedAt).1 ?_).2
            rw [← hs'.row]
            exact hall _ (row_mem_rows _ _)
          exact ⟨hfree', (hrest hfree' hversion).1 hall⟩
        · rintro ⟨hfree', hall⟩
          exact (hrest hfree' hversion).2 hall
  exact hrun calls _ (written_create userId registeredAt) (nulFree_create userId registeredAt)
    hversion

theorem sampleNow_representable (microseconds : Bool) :
    Representable (if microseconds then 1 else 0) := by
  cases microseconds <;> decide

theorem sampleNow_offset (o : Int) (ho : some (0 : Int) = some o) : -dayMicros < o ∧ o < dayMicros := by
  cases ho
  decide

/-- A clock reading at the start of 1970, or a microsecond later. -/
def sampleNow (microseconds : Bool) : AwareDateTime :=
  ⟨{ wall := if microseconds then 1 else 0
     utcoffset := some 0
     wall_representable := sampleNow_representable microseconds
     utcoffset_lt := sampleNow_offset }, rfl⟩

theorem optionalLength_none {lo hi : Nat} : OptionalLength lo hi none := fun t ht => by cases ht

theorem sampleVersion_pos : 1 ≤ 1 := Nat.le_refl 1

theorem sampleName_length : OptionalLength 1 64 (some "a\x00b".toList) := by
  intro t ht
  cases ht
  decide

def sampleRename : ProfileCall :=
  .updateProfile
    { userId := 0
      expectedVersion := 1
      displayName := some "a\x00b".toList
      bio := none
      username := none
      expectedVersion_pos := sampleVersion_pos
      displayName_length := sampleName_length
      bio_length := optionalLength_none
      username_length := optionalLength_none } (sampleNow true)

theorem sampleRename_accepted :
    sampleRename ∈ (Stored.create 0 (sampleNow false)).accepted [sampleRename] := by
  have hok : (sampleRename.apply (Stored.create 0 (sampleNow false)).profile).isOk = true := by decide
  show sampleRename ∈ (if _ then sampleRename :: [] else [])
  rw [if_pos hok]
  exact List.mem_cons_self

theorem rows_storable_iff_sample :
    ¬ ∀ row ∈ (Stored.create 0 (sampleNow false)).rows [sampleRename],
      profilesTable.storable row = true := by
  intro hall
  have htexts := (rows_storable_iff 0 (sampleNow false) [sampleRename] (by decide)).1 hall _
    sampleRename_accepted "a\x00b".toList List.mem_cons_self
  exact absurd htexts (by decide)

/-- The domain accepts the rename, and PostgreSQL refuses its row. -/
theorem rename_not_storable :
    sampleRename ∈ (Stored.create 0 (sampleNow false)).accepted [sampleRename] ∧
      ∃ row ∈ (Stored.create 0 (sampleNow false)).rows [sampleRename],
        profilesTable.storable row = false :=
  ⟨sampleRename_accepted, _, List.mem_cons_of_mem _ List.mem_cons_self, by decide⟩

end ProfileService.Infrastructure
