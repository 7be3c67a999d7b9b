import Mathlib.Data.List.Dedup
import ProfileService.Application.Exceptions
import ProfileService.Domain.Aggregates

/-!
# Public reads

The PostgreSQL readers over the committed rows, `PublicProfileDTO`, and the three
query handlers that answer third parties (`application/queries/profiles/`).
-/

namespace ProfileService.Application
open Domain Library

variable {zones : ZoneInfo}

/-- The committed rows of `profiles` and `user_settings` under their keys. -/
structure Store (zones : ZoneInfo) where
  profiles : List UserProfile
  settings : List (UserSettings zones)
  profiles_pkey : (profiles.map VersionedMutableEntity.id).Nodup
  settings_pkey : (settings.map VersionedMutableEntity.id).Nodup
  profiles_username_key : profiles.Pairwise fun p q =>
    ∀ u, p.fields.username = some u → q.fields.username ≠ some u

/-- The order in which a `SELECT` without `ORDER BY` yields its rows. -/
structure Scan where
  order : {α : Type} → List α → List α
  perm : ∀ {α : Type} (l : List α), (order l).Perm l

section Readers
variable {F : Type} [ModelFields F]

def oneOrNone {α : Type} : List α → Except Exn (Option α)
  | [] => .ok none
  | [row] => .ok (some row)
  | _ => .error (.other "MultipleResultsFound" "Multiple rows were found when one or none was required")

def hydrate (row : VersionedMutableEntity F) : Except Exn (VersionedMutableEntity F) :=
  (VersionedMutableEntity.modelValidate row.modelDump).mapError .domain

@[simp] theorem hydrate_eq (row : VersionedMutableEntity F) : hydrate row = .ok row := by
  simp [hydrate, Except.mapError]

/-- The row a `WHERE` with a unique match selects, hydrated. -/
def readOne (rows : List (VersionedMutableEntity F)) (isMatch : VersionedMutableEntity F → Bool) :
    Except Exn (Option (VersionedMutableEntity F)) := do
  match ← oneOrNone (rows.filter isMatch) with
  | none => return none
  | some row => return some (← hydrate row)

/-- `get_batch` (`readers/base.py:45-53`). -/
def readBatch (scan : Scan) (rows : List (VersionedMutableEntity F)) (entityIds : List UserId) :
    Except Exn (List (VersionedMutableEntity F)) :=
  if entityIds = [] then .ok []
  else (scan.order (rows.filter fun row => row.id ∈ entityIds)).mapM hydrate

end Readers

structure ProfileReader where
  getById : UserId → Except Exn (Option UserProfile)
  getBatch : List UserId → Except Exn (List UserProfile)
  getByUsername : Username → Except Exn (Option UserProfile)

structure SettingsReader (zones : ZoneInfo) where
  getById : UserId → Except Exn (Option (UserSettings zones))
  getBatch : List UserId → Except Exn (List (UserSettings zones))

def postgresProfileReader (scan : Scan) (s : Store zones) : ProfileReader where
  getById entityId := readOne s.profiles fun row => row.id = entityId
  getBatch := readBatch scan s.profiles
  getByUsername username := readOne s.profiles fun row => row.fields.username = some username

def postgresSettingsReader (scan : Scan) (s : Store zones) : SettingsReader zones where
  getById entityId := readOne s.settings fun row => row.id = entityId
  getBatch := readBatch scan s.settings

@[ext] structure PublicProfileDTO where
  userId : UserId
  username : Option Str
  displayName : Str
  bio : Option Str
  avatarKey : Option Str
  isVerified : Bool
  deriving DecidableEq

/-- `str(text) if text else None`. -/
def shown (text : Option Str) : Option Str := text.filter (· ≠ [])

/-- `from_domain_with_policy` (`dto/profiles.py:86-113`). -/
def PublicProfileDTO.fromDomainWithPolicy (profile : UserProfile) (settings : UserSettings zones)
    (viewerId : Option UserId) : PublicProfileDTO :=
  let canBio := canViewBio profile.id settings viewerId
  let canAvatar := canViewAvatar profile.id settings viewerId
  { userId := profile.id
    username := shown (profile.fields.username.map Subtype.val)
    displayName := profile.fields.displayName.1
    bio := if canBio then shown (profile.fields.bio.map Subtype.val) else none
    avatarKey := if canAvatar then profile.fields.avatarKey else none
    isVerified := profile.fields.isVerified }

structure GetPublicProfileQuery where
  userId : UserId
  viewerId : Option UserId

/-- Between 1 and 100 ids, the repeated ones already dropped. -/
structure GetBatchProfilesQuery where
  userIds : List UserId
  viewerId : Option UserId
  userIds_length : 1 ≤ userIds.length ∧ userIds.length ≤ 100
  userIds_nodup : userIds.Nodup

structure SearchByUsernameQuery where
  username : Str
  viewerId : Option UserId
  username_length : 3 ≤ username.length ∧ username.length ≤ 32

def getPublicProfile (profiles : ProfileReader) (settings : SettingsReader zones)
    (query : GetPublicProfileQuery) : Except Exn PublicProfileDTO := do
  match ← profiles.getById query.userId with
  | none => throw (.domain .userProfileNotFound)
  | some profile =>
    match ← settings.getById profile.id with
    | none => throw (.domain .userSettingsNotFound)
    | some settings => return .fromDomainWithPolicy profile settings query.viewerId

/-- `SearchByUsernameHandler.__call__`: a hidden profile is answered like an absent one. -/
def searchByUsername (profiles : ProfileReader) (settings : SettingsReader zones)
    (query : SearchByUsernameQuery) : Except Exn PublicProfileDTO := do
  let username ← (Username.ofStr query.username).mapError Exn.domain
  match ← profiles.getByUsername username with
  | none => throw (.domain .userProfileNotFound)
  | some profile =>
    match ← settings.getById profile.id with
    | none => throw (.domain .userSettingsNotFound)
    | some settings =>
      if !canFindByUsername profile.id settings query.viewerId then
        throw (.domain .userProfileNotFound)
      else return .fromDomainWithPolicy profile settings query.viewerId

section Batch
variable {F : Type}

/-- `{e.id: e for e in entities}[uid]`: a later entry replaces an earlier one. -/
def byId (entities : List (VersionedMutableEntity F)) (uid : UserId) :
    Option (VersionedMutableEntity F) :=
  entities.reverse.find? fun e => e.id = uid

def subscript (entities : List (VersionedMutableEntity F)) (uid : UserId) :
    Except Exn (VersionedMutableEntity F) :=
  match byId entities uid with
  | some e => .ok e
  | none => .error (.other "KeyError" ("UUID('" ++ String.ofList (uuidText uid) ++ "')"))

end Batch

def getBatchProfiles (profiles : ProfileReader) (settings : SettingsReader zones)
    (query : GetBatchProfilesQuery) : Except Exn (List PublicProfileDTO) := do
  let found ← profiles.getBatch query.userIds
  if found.isEmpty then return []
  let foundUserIds :=
    if found.length = query.userIds.length then query.userIds
    else query.userIds.filter fun uid => (byId found uid).isSome
  let settingsList ← settings.getBatch foundUserIds
  if (settingsList.map VersionedMutableEntity.id).dedup.length ≠ foundUserIds.length then
    throw (.domain .userSettingsNotFound)
  foundUserIds.mapM fun uid => do
    return .fromDomainWithPolicy (← subscript found uid) (← subscript settingsList uid) query.viewerId

/-! ### What the readers answer -/

def Store.profile (s : Store zones) (uid : UserId) : Option UserProfile :=
  s.profiles.find? fun row => row.id = uid

def Store.setting (s : Store zones) (uid : UserId) : Option (UserSettings zones) :=
  s.settings.find? fun row => row.id = uid

def Store.named (s : Store zones) (username : Username) : Option UserProfile :=
  s.profiles.find? fun row => row.fields.username = some username

theorem oneOrNone_filter {α : Type} {rows : List α} {isMatch : α → Bool}
    (h : rows.Pairwise fun a b => isMatch a = true → isMatch b = false) :
    oneOrNone (rows.filter isMatch) = .ok (rows.find? isMatch) := by
  induction rows with
  | nil => rfl
  | cons a rows ih =>
    obtain ⟨ha, hrows⟩ := List.pairwise_cons.1 h
    cases hm : isMatch a with
    | false =>
      rw [List.filter_cons_of_neg (by simp [hm]), List.find?_cons_of_neg (by simp [hm])]
      exact ih hrows
    | true =>
      have hnone : rows.filter isMatch = [] := by
        refine List.filter_eq_nil_iff.2 fun b hb => ?_
        simp [ha b hb hm]
      rw [List.filter_cons_of_pos hm, hnone, List.find?_cons_of_pos hm]
      rfl

theorem find_unique {α : Type} {rows : List α} {isMatch : α → Bool} {row : α}
    (h : rows.Pairwise fun a b => isMatch a = true → isMatch b = false) :
    rows.find? isMatch = some row ↔ row ∈ rows ∧ isMatch row = true := by
  refine ⟨fun hf => ⟨List.mem_of_find?_eq_some hf, List.find?_some hf⟩, fun ⟨hmem, hm⟩ => ?_⟩
  induction rows with
  | nil => cases hmem
  | cons a rows ih =>
    obtain ⟨ha, hrows⟩ := List.pairwise_cons.1 h
    rcases List.mem_cons.1 hmem with rfl | hmem
    · exact List.find?_cons_of_pos hm
    · have hna : ¬ isMatch a = true := fun hma => by
        have hno := ha row hmem hma
        rw [hm] at hno
        cases hno
      rw [List.find?_cons_of_neg hna]
      exact ih hrows ⟨hmem, hm⟩ hmem

theorem pkey_pairwise {F : Type} {rows : List (VersionedMutableEntity F)}
    (h : (rows.map VersionedMutableEntity.id).Nodup) (uid : UserId) :
    rows.Pairwise fun a b => decide (a.id = uid) = true → decide (b.id = uid) = false := by
  refine (List.pairwise_map.1 h).imp fun hne ha => ?_
  simp only [decide_eq_true_eq, decide_eq_false_iff_not] at ha ⊢
  exact fun hb => hne (ha.trans hb.symm)

section
variable {F : Type} [ModelFields F] {rows : List (VersionedMutableEntity F)}

theorem readOne_eq {isMatch : VersionedMutableEntity F → Bool}
    (h : rows.Pairwise fun a b => isMatch a = true → isMatch b = false) :
    readOne rows isMatch = .ok (rows.find? isMatch) := by
  unfold readOne
  rw [oneOrNone_filter h]
  cases hf : rows.find? isMatch with
  | none => rfl
  | some row =>
    show (do return some (← hydrate row)) = _
    rw [hydrate_eq]
    rfl

theorem mapM_hydrate (l : List (VersionedMutableEntity F)) : l.mapM hydrate = .ok l := by
  induction l with
  | nil => rfl
  | cons a l ih =>
    rw [List.mapM_cons, hydrate_eq, ih]
    rfl

theorem readBatch_spec (scan : Scan) (hkey : (rows.map VersionedMutableEntity.id).Nodup)
    (ids : List UserId) :
    ∃ found, readBatch scan rows ids = .ok found ∧ (found.map VersionedMutableEntity.id).Nodup ∧
      ∀ row, row ∈ found ↔ row ∈ rows ∧ row.id ∈ ids := by
  unfold readBatch
  split
  · rename_i hids
    subst hids
    exact ⟨[], rfl, .nil, by simp⟩
  · have hperm := scan.perm (rows.filter fun row => decide (row.id ∈ ids))
    refine ⟨_, mapM_hydrate _, ?_, fun row => ?_⟩
    · refine (hperm.map _).nodup_iff.2 ?_
      exact hkey.sublist (List.filter_sublist.map _)
    · rw [hperm.mem_iff, List.mem_filter]
      simp

end

namespace Store
variable {s : Store zones}

theorem profile_eq_some {uid : UserId} {p : UserProfile} :
    s.profile uid = some p ↔ p ∈ s.profiles ∧ p.id = uid := by
  unfold profile
  rw [find_unique (pkey_pairwise s.profiles_pkey uid), decide_eq_true_eq]

theorem setting_eq_some {uid : UserId} {t : UserSettings zones} :
    s.setting uid = some t ↔ t ∈ s.settings ∧ t.id = uid := by
  unfold setting
  rw [find_unique (pkey_pairwise s.settings_pkey uid), decide_eq_true_eq]

theorem username_pairwise (u : Username) : s.profiles.Pairwise fun p q =>
    decide (p.fields.username = some u) = true → decide (q.fields.username = some u) = false := by
  refine s.profiles_username_key.imp fun h hp => ?_
  simp only [decide_eq_true_eq, decide_eq_false_iff_not] at hp ⊢
  exact h u hp

theorem named_eq_some {u : Username} {p : UserProfile} :
    s.named u = some p ↔ p ∈ s.profiles ∧ p.fields.username = some u := by
  unfold named
  rw [find_unique (username_pairwise u), decide_eq_true_eq]

@[simp] theorem getById_profile (scan : Scan) (uid : UserId) :
    (postgresProfileReader scan s).getById uid = .ok (s.profile uid) :=
  readOne_eq (pkey_pairwise s.profiles_pkey uid)

@[simp] theorem getById_setting (scan : Scan) (uid : UserId) :
    (postgresSettingsReader scan s).getById uid = .ok (s.setting uid) :=
  readOne_eq (pkey_pairwise s.settings_pkey uid)

@[simp] theorem getByUsername (scan : Scan) (u : Username) :
    (postgresProfileReader scan s).getByUsername u = .ok (s.named u) :=
  readOne_eq (username_pairwise u)

end Store

/-! ### Readers of a store -/

/-- A batch read answers with the rows of the ids asked for, each once, in any order. -/
def AnswersBatch {F : Type} (rows : List (VersionedMutableEntity F))
    (getBatch : List UserId → Except Exn (List (VersionedMutableEntity F))) : Prop :=
  ∀ ids, ∃ found, getBatch ids = .ok found ∧ (found.map VersionedMutableEntity.id).Nodup ∧
    ∀ row, row ∈ found ↔ row ∈ rows ∧ row.id ∈ ids

structure ProfileReader.Serves (profiles : ProfileReader) (s : Store zones) : Prop where
  getById : ∀ uid, profiles.getById uid = .ok (s.profile uid)
  getBatch : AnswersBatch s.profiles profiles.getBatch

structure SettingsReader.Serves (settings : SettingsReader zones) (s : Store zones) : Prop where
  getById : ∀ uid, settings.getById uid = .ok (s.setting uid)
  getBatch : AnswersBatch s.settings settings.getBatch

theorem postgresProfileReader_serves (scan : Scan) (s : Store zones) :
    (postgresProfileReader scan s).Serves s :=
  ⟨s.getById_profile scan, readBatch_spec scan s.profiles_pkey⟩

theorem postgresSettingsReader_serves (scan : Scan) (s : Store zones) :
    (postgresSettingsReader scan s).Serves s :=
  ⟨s.getById_setting scan, readBatch_spec scan s.settings_pkey⟩

end ProfileService.Application
