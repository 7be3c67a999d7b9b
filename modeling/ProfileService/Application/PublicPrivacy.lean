import Mathlib.Data.List.ReduceOption
import ProfileService.Application.PublicReads

/-!
# Privacy of the public reads

Each handler's answer is a function of what the store says about single users to
one viewer (`Store.view`, `Store.listing`). Stores that say the same to a viewer
answer the viewer the same.
-/

namespace ProfileService.Application
open Domain Library

variable {zones : ZoneInfo} {s s' : Store zones} {viewer : Option UserId} {t uid : UserId}

namespace Store

/-- What a point read of `uid` shows `viewer`: no profile, a profile without
settings, or the masked profile. -/
def view (s : Store zones) (viewer : Option UserId) (uid : UserId) :
    Option (Option PublicProfileDTO) :=
  (s.profile uid).map fun p => (s.setting uid).map fun settings =>
    .fromDomainWithPolicy p settings viewer

/-- What a search for `username` shows `viewer` of `uid`. -/
def listing (s : Store zones) (viewer : Option UserId) (username : Username) (uid : UserId) :
    Option (Option PublicProfileDTO) :=
  (s.profile uid).bind fun p =>
    if p.fields.username = some username then
      match s.setting uid with
      | none => some none
      | some settings =>
        if canFindByUsername uid settings viewer then
          some (some (.fromDomainWithPolicy p settings viewer))
        else none
    else none

def found (s : Store zones) (viewer : Option UserId) (username : Username) :
    Option (Option PublicProfileDTO) :=
  (s.named username).bind fun p => s.listing viewer username p.id

theorem found_eq_some {username : Username} {x : Option PublicProfileDTO} :
    s.found viewer username = some x ↔ ∃ uid, s.listing viewer username uid = some x := by
  constructor
  · intro h
    obtain ⟨p, -, hp⟩ := Option.bind_eq_some_iff.1 h
    exact ⟨p.id, hp⟩
  · rintro ⟨uid, h⟩
    obtain ⟨p, hprofile, hp⟩ := Option.bind_eq_some_iff.1 h
    have hname : p.fields.username = some username := by
      by_contra hne
      rw [if_neg hne] at hp
      cases hp
    obtain ⟨hmem, rfl⟩ := profile_eq_some.1 hprofile
    have hnamed : s.named username = some p := named_eq_some.2 ⟨hmem, hname⟩
    rw [found, hnamed]
    exact h

end Store

def answer : Option (Option PublicProfileDTO) → Except Exn PublicProfileDTO
  | none => .error (.domain .userProfileNotFound)
  | some none => .error (.domain .userSettingsNotFound)
  | some (some dto) => .ok dto

def batchAnswer (views : List (Option PublicProfileDTO)) : Except Exn (List PublicProfileDTO) :=
  if none ∈ views then .error (.domain .userSettingsNotFound) else .ok views.reduceOption

variable {profiles : ProfileReader} {settings : SettingsReader zones}

theorem getPublicProfile_of_serves (hprofiles : profiles.Serves s) (hsettings : settings.Serves s)
    (query : GetPublicProfileQuery) :
    getPublicProfile profiles settings query = answer (s.view query.viewerId query.userId) := by
  unfold getPublicProfile Store.view
  rw [hprofiles.getById, ok_bind]
  cases hp : s.profile query.userId with
  | none => rfl
  | some p =>
    obtain ⟨-, hid⟩ := Store.profile_eq_some.1 hp
    simp only [hsettings.getById, ok_bind, hid, Option.map_some]
    cases s.setting query.userId <;> rfl

theorem getPublicProfile_eq (scan : Scan) (query : GetPublicProfileQuery) :
    getPublicProfile (postgresProfileReader scan s) (postgresSettingsReader scan s) query =
      answer (s.view query.viewerId query.userId) :=
  getPublicProfile_of_serves (postgresProfileReader_serves scan s)
    (postgresSettingsReader_serves scan s) query

theorem searchByUsername_eq (scan : Scan) (query : SearchByUsernameQuery) :
    searchByUsername (postgresProfileReader scan s) (postgresSettingsReader scan s) query =
      match Username.ofStr query.username with
      | .error e => .error (.domain e)
      | .ok username => answer (s.found query.viewerId username) := by
  unfold searchByUsername
  cases Username.ofStr query.username with
  | error e => rfl
  | ok username =>
    simp only [Except.mapError, ok_bind, Store.getByUsername, Store.found]
    cases hn : s.named username with
    | none => rfl
    | some p =>
      obtain ⟨hmem, hname⟩ := Store.named_eq_some.1 hn
      have hp : s.profile p.id = some p := Store.profile_eq_some.2 ⟨hmem, rfl⟩
      simp only [Store.getById_setting, ok_bind, Option.bind_some, Store.listing, hp, hname, if_true]
      cases s.setting p.id with
      | none => rfl
      | some settings =>
        simp only []
        cases canFindByUsername p.id settings query.viewerId <;> rfl

section Batch
variable {F : Type} {entities : List (VersionedMutableEntity F)}

theorem byId_eq_some (h : (entities.map VersionedMutableEntity.id).Nodup)
    {e : VersionedMutableEntity F} : byId entities uid = some e ↔ e ∈ entities ∧ e.id = uid := by
  have hreverse : (entities.reverse.map VersionedMutableEntity.id).Nodup := by
    rw [List.map_reverse, List.nodup_reverse]
    exact h
  unfold byId
  rw [find_unique (pkey_pairwise hreverse uid), List.mem_reverse, decide_eq_true_eq]

/-- A batch that read `rows` for `ids`, as the handler sees it: a partial function
of the id that agrees with the rows on `ids`. -/
theorem byId_batch {lookup : UserId → Option (VersionedMutableEntity F)}
    {found rows : List (VersionedMutableEntity F)} {ids : List UserId}
    (hlookup : ∀ uid e, lookup uid = some e ↔ e ∈ rows ∧ e.id = uid)
    (hnodup : (found.map VersionedMutableEntity.id).Nodup)
    (hfound : ∀ e, e ∈ found ↔ e ∈ rows ∧ e.id ∈ ids) {uid : UserId} (huid : uid ∈ ids) :
    byId found uid = lookup uid := by
  apply Option.ext
  intro e
  rw [byId_eq_some hnodup, hlookup, hfound]
  constructor
  · rintro ⟨⟨hmem, -⟩, hid⟩
    exact ⟨hmem, hid⟩
  · rintro ⟨hmem, rfl⟩
    exact ⟨⟨hmem, huid⟩, rfl⟩

theorem length_batch {lookup : UserId → Option (VersionedMutableEntity F)}
    {found rows : List (VersionedMutableEntity F)} {ids : List UserId}
    (hlookup : ∀ uid e, lookup uid = some e ↔ e ∈ rows ∧ e.id = uid)
    (hnodup : (found.map VersionedMutableEntity.id).Nodup)
    (hfound : ∀ e, e ∈ found ↔ e ∈ rows ∧ e.id ∈ ids) (hids : ids.Nodup) :
    found.length = (ids.filter fun uid => (lookup uid).isSome).length := by
  have hperm : (found.map VersionedMutableEntity.id).Perm
      (ids.filter fun uid => (lookup uid).isSome) := by
    rw [List.perm_ext_iff_of_nodup hnodup (hids.filter _)]
    intro uid
    simp only [List.mem_map, List.mem_filter, Option.isSome_iff_exists]
    constructor
    · rintro ⟨e, he, rfl⟩
      obtain ⟨hmem, hid⟩ := (hfound e).1 he
      exact ⟨hid, e, (hlookup _ e).2 ⟨hmem, rfl⟩⟩
    · rintro ⟨hid, e, he⟩
      obtain ⟨hmem, rfl⟩ := (hlookup _ e).1 he
      exact ⟨e, (hfound e).2 ⟨hmem, hid⟩, rfl⟩
  have hlength := hperm.length_eq
  rw [List.length_map] at hlength
  exact hlength

end Batch

theorem comprehension_eq {found : List UserProfile} {settingsList : List (UserSettings zones)}
    {ids : List UserId} (hprofile : ∀ uid ∈ ids, byId found uid = s.profile uid)
    (hsetting : ∀ uid ∈ ids, byId settingsList uid = s.setting uid)
    (hboth : ∀ uid ∈ ids, (s.profile uid).isSome ∧ (s.setting uid).isSome) :
    (ids.mapM fun uid => do
      return PublicProfileDTO.fromDomainWithPolicy (← subscript found uid)
        (← subscript settingsList uid) viewer) =
      (.ok (ids.filterMap (s.view viewer)).reduceOption : Except Exn (List PublicProfileDTO)) := by
  induction ids with
  | nil => rfl
  | cons uid ids ih =>
    obtain ⟨hp, ht⟩ := hboth uid List.mem_cons_self
    obtain ⟨p, hp⟩ := Option.isSome_iff_exists.1 hp
    obtain ⟨settings, ht⟩ := Option.isSome_iff_exists.1 ht
    have hrest := ih (fun v hv => hprofile v (List.mem_cons_of_mem _ hv))
      (fun v hv => hsetting v (List.mem_cons_of_mem _ hv))
      (fun v hv => hboth v (List.mem_cons_of_mem _ hv))
    have hfirst : s.view viewer uid = some (some (.fromDomainWithPolicy p settings viewer)) := by
      simp only [Store.view, hp, ht, Option.map_some]
    rw [List.mapM_cons, hrest, List.filterMap_cons, hfirst]
    simp only [subscript, hprofile uid List.mem_cons_self, hsetting uid List.mem_cons_self, hp, ht,
      ok_bind]
    rfl

theorem getBatchProfiles_of_serves (hprofiles : profiles.Serves s) (hsettings : settings.Serves s)
    (query : GetBatchProfilesQuery) :
    getBatchProfiles profiles settings query =
      batchAnswer (query.userIds.filterMap (s.view query.viewerId)) := by
  obtain ⟨found, hread, hnodup, hfound⟩ := hprofiles.getBatch query.userIds
  have hlookup : ∀ uid p, s.profile uid = some p ↔ p ∈ s.profiles ∧ p.id = uid :=
    fun _ _ => Store.profile_eq_some
  let present := query.userIds.filter fun uid => (s.profile uid).isSome
  have hlength : found.length = present.length :=
    length_batch hlookup hnodup hfound query.userIds_nodup
  have hbyId : ∀ uid ∈ query.userIds, byId found uid = s.profile uid :=
    fun uid huid => byId_batch hlookup hnodup hfound huid
  have hpresent : (if found.length = query.userIds.length then query.userIds
      else query.userIds.filter fun uid => (byId found uid).isSome) = present := by
    split
    · rename_i hall
      rw [hlength] at hall
      exact (List.filter_eq_self.2 (List.length_filter_eq_length_iff.1 hall)).symm
    · refine List.filter_congr fun uid huid => ?_
      rw [hbyId uid huid]
  have hviews : query.userIds.filterMap (s.view query.viewerId) =
      present.filterMap (s.view query.viewerId) := by
    rw [List.filterMap_filter]
    refine List.filterMap_congr fun uid _ => ?_
    cases hp : s.profile uid with
    | none => simp [Store.view, hp]
    | some p => simp
  have hsub : ∀ uid ∈ present, uid ∈ query.userIds ∧ (s.profile uid).isSome := fun uid huid => by
    simpa using List.mem_filter.1 huid
  have hpresent_nodup : present.Nodup := query.userIds_nodup.filter _
  unfold getBatchProfiles
  rw [hread, ok_bind, hpresent, hviews]
  by_cases hempty : found.isEmpty = true
  · have hnil : present = [] := by
      rw [← List.length_eq_zero_iff, ← hlength]
      simpa using hempty
    rw [if_pos hempty, hnil]
    rfl
  · rw [if_neg hempty]
    obtain ⟨settingsList, hreadS, hnodupS, hfoundS⟩ := hsettings.getBatch present
    have hlookupS : ∀ uid t, s.setting uid = some t ↔ t ∈ s.settings ∧ t.id = uid :=
      fun _ _ => Store.setting_eq_some
    have hlengthS := length_batch hlookupS hnodupS hfoundS hpresent_nodup
    simp only [hreadS, ok_bind, hnodupS.dedup, List.length_map, hlengthS, ne_eq,
      List.length_filter_eq_length_iff]
    by_cases hall : ∀ uid ∈ present, (s.setting uid).isSome = true
    · rw [if_neg (not_not_intro hall)]
      have hmissing : none ∉ present.filterMap (s.view query.viewerId) := by
        intro hmem
        obtain ⟨uid, huid, hview⟩ := List.mem_filterMap.1 hmem
        obtain ⟨settings, ht⟩ := Option.isSome_iff_exists.1 (hall uid huid)
        simp [Store.view, ht] at hview
      rw [batchAnswer, if_neg hmissing]
      exact comprehension_eq (fun uid huid => hbyId uid (hsub uid huid).1)
        (fun uid huid => byId_batch hlookupS hnodupS hfoundS huid)
        fun uid huid => ⟨(hsub uid huid).2, hall uid huid⟩
    · rw [if_pos hall]
      have hmissing : none ∈ present.filterMap (s.view query.viewerId) := by
        push Not at hall
        obtain ⟨uid, huid, hnone⟩ := hall
        obtain ⟨p, hp⟩ := Option.isSome_iff_exists.1 (hsub uid huid).2
        refine List.mem_filterMap.2 ⟨uid, huid, ?_⟩
        simp only [Bool.not_eq_true, Option.isSome_eq_false_iff, Option.isNone_iff_eq_none] at hnone
        simp [Store.view, hp, hnone]
      rw [batchAnswer, if_pos hmissing]
      rfl

theorem getBatchProfiles_eq (scan : Scan) (query : GetBatchProfilesQuery) :
    getBatchProfiles (postgresProfileReader scan s) (postgresSettingsReader scan s) query =
      batchAnswer (query.userIds.filterMap (s.view query.viewerId)) :=
  getBatchProfiles_of_serves (postgresProfileReader_serves scan s)
    (postgresSettingsReader_serves scan s) query

/-! ### Stores that look the same to a viewer -/

/-- The rows of everybody but `t` are the same. -/
structure SameExcept (t : UserId) (s s' : Store zones) : Prop where
  profile : ∀ uid, uid ≠ t → s.profile uid = s'.profile uid
  setting : ∀ uid, uid ≠ t → s.setting uid = s'.setting uid

/-- Only the bio of `t` differs, and nobody may see it. -/
structure BioHidden (t : UserId) (s s' : Store zones) : Prop extends SameExcept t s s' where
  profile_target : ∃ p p', s.profile t = some p ∧ s'.profile t = some p' ∧
    ∃ bio, p' = { p with fields := { p.fields with bio := bio } }
  setting_target : ∃ settings, s.setting t = some settings ∧ s'.setting t = some settings ∧
    settings.fields.privacy.whoCanSeeBio = .nobody

/-- Only the avatar key of `t` differs, and nobody may see it. -/
structure AvatarHidden (t : UserId) (s s' : Store zones) : Prop extends SameExcept t s s' where
  profile_target : ∃ p p', s.profile t = some p ∧ s'.profile t = some p' ∧
    ∃ avatarKey, p' = { p with fields := { p.fields with avatarKey := avatarKey } }
  setting_target : ∃ settings, s.setting t = some settings ∧ s'.setting t = some settings ∧
    settings.fields.privacy.whoCanSeeAvatar = .nobody

/-- Where `t` has a profile, it has settings that let nobody find it. -/
def Unlisted (t : UserId) (s : Store zones) : Prop :=
  ∀ p, s.profile t = some p → ∃ settings, s.setting t = some settings ∧
    settings.fields.privacy.whoCanFindByUsername = .nobody

/-- Only `t` differs, in whatever way, and nobody may find it in either store. -/
structure FindHidden (t : UserId) (s s' : Store zones) : Prop extends SameExcept t s s' where
  left : Unlisted t s
  right : Unlisted t s'

structure LooksSame (viewer : Option UserId) (s s' : Store zones) : Prop where
  view : ∀ uid, s.view viewer uid = s'.view viewer uid
  listing : ∀ username uid, s.listing viewer username uid = s'.listing viewer username uid

theorem SameExcept.view (h : SameExcept t s s') (hne : uid ≠ t) :
    s.view viewer uid = s'.view viewer uid := by
  unfold Store.view
  rw [h.profile uid hne, h.setting uid hne]

theorem SameExcept.listing (h : SameExcept t s s') (hne : uid ≠ t) (username : Username) :
    s.listing viewer username uid = s'.listing viewer username uid := by
  unfold Store.listing
  rw [h.profile uid hne, h.setting uid hne]

theorem SameExcept.looksSame (h : SameExcept t s s') {p p' : UserProfile}
    {settings : UserSettings zones} (hp : s.profile t = some p) (hp' : s'.profile t = some p')
    (hs : s.setting t = some settings) (hs' : s'.setting t = some settings)
    (hname : p'.fields.username = p.fields.username)
    (hdto : PublicProfileDTO.fromDomainWithPolicy p settings viewer =
      .fromDomainWithPolicy p' settings viewer) : LooksSame viewer s s' := by
  constructor
  · intro uid
    by_cases hne : uid = t
    · subst hne
      simp only [Store.view, hp, hp', hs, hs', Option.map_some, hdto]
    · exact h.view hne
  · intro username uid
    by_cases hne : uid = t
    · subst hne
      simp only [Store.listing, hp, hp', hs, hs', Option.bind_some, hname, hdto]
    · exact h.listing hne username

theorem BioHidden.looksSame (h : BioHidden t s s') (hviewer : viewer ≠ some t) :
    LooksSame viewer s s' := by
  obtain ⟨p, p', hp, hp', bio, rfl⟩ := h.profile_target
  obtain ⟨settings, hs, hs', hnobody⟩ := h.setting_target
  obtain ⟨-, hid⟩ := Store.profile_eq_some.1 hp
  refine h.toSameExcept.looksSame hp hp' hs hs' rfl ?_
  have hbio : canViewBio p.id settings viewer = false := by
    unfold canViewBio
    rw [hnobody, hid]
    exact scopeAllows_nobody hviewer
  simp only [PublicProfileDTO.fromDomainWithPolicy, hbio]
  rfl

theorem AvatarHidden.looksSame (h : AvatarHidden t s s') (hviewer : viewer ≠ some t) :
    LooksSame viewer s s' := by
  obtain ⟨p, p', hp, hp', avatarKey, rfl⟩ := h.profile_target
  obtain ⟨settings, hs, hs', hnobody⟩ := h.setting_target
  obtain ⟨-, hid⟩ := Store.profile_eq_some.1 hp
  refine h.toSameExcept.looksSame hp hp' hs hs' rfl ?_
  have havatar : canViewAvatar p.id settings viewer = false := by
    unfold canViewAvatar
    rw [hnobody, hid]
    exact scopeAllows_nobody hviewer
  simp only [PublicProfileDTO.fromDomainWithPolicy, havatar]
  rfl

theorem Unlisted.listing (h : Unlisted t s) (hviewer : viewer ≠ some t) (username : Username) :
    s.listing viewer username t = none := by
  unfold Store.listing
  cases hp : s.profile t with
  | none => rfl
  | some p =>
    obtain ⟨settings, hs, hnobody⟩ := h p hp
    have hfind : canFindByUsername t settings viewer = false := by
      unfold canFindByUsername
      rw [hnobody]
      exact scopeAllows_nobody hviewer
    simp only [Option.bind_some, hs, hfind, Bool.false_eq_true, if_false, ite_self]

theorem FindHidden.listing (h : FindHidden t s s') (hviewer : viewer ≠ some t)
    (username : Username) (uid : UserId) :
    s.listing viewer username uid = s'.listing viewer username uid := by
  by_cases hne : uid = t
  · subst hne
    rw [h.left.listing hviewer, h.right.listing hviewer]
  · exact h.toSameExcept.listing hne username

theorem found_congr {username : Username}
    (h : ∀ uid, s.listing viewer username uid = s'.listing viewer username uid) :
    s.found viewer username = s'.found viewer username := by
  apply Option.ext
  intro x
  rw [Store.found_eq_some, Store.found_eq_some]
  simp only [h]

/-- The searches of `viewer` cannot tell the stores apart. -/
def SameSearches (viewer : Option UserId) (s s' : Store zones) : Prop :=
  ∀ (scan scan' : Scan) (query : SearchByUsernameQuery), query.viewerId = viewer →
    searchByUsername (postgresProfileReader scan s) (postgresSettingsReader scan s) query =
      searchByUsername (postgresProfileReader scan' s') (postgresSettingsReader scan' s') query

/-- No public read of `viewer` can tell the stores apart. -/
structure SameReads (viewer : Option UserId) (s s' : Store zones) : Prop where
  point : ∀ (scan scan' : Scan) (query : GetPublicProfileQuery), query.viewerId = viewer →
    getPublicProfile (postgresProfileReader scan s) (postgresSettingsReader scan s) query =
      getPublicProfile (postgresProfileReader scan' s') (postgresSettingsReader scan' s') query
  batch : ∀ (scan scan' : Scan) (query : GetBatchProfilesQuery), query.viewerId = viewer →
    getBatchProfiles (postgresProfileReader scan s) (postgresSettingsReader scan s) query =
      getBatchProfiles (postgresProfileReader scan' s') (postgresSettingsReader scan' s') query
  search : SameSearches viewer s s'

theorem sameSearches (h : ∀ username uid,
    s.listing viewer username uid = s'.listing viewer username uid) : SameSearches viewer s s' := by
  intro scan scan' query hq
  rw [searchByUsername_eq, searchByUsername_eq, hq]
  simp only [found_congr (h _)]

theorem LooksSame.reads (h : LooksSame viewer s s') : SameReads viewer s s' := by
  refine ⟨fun scan scan' query hq => ?_, fun scan scan' query hq => ?_, sameSearches h.listing⟩
  · rw [getPublicProfile_eq, getPublicProfile_eq, hq, h.view]
  · rw [getBatchProfiles_eq, getBatchProfiles_eq, hq, funext h.view]

/-! ### What the owner sees -/

def PublicProfileDTO.unmasked (p : UserProfile) : PublicProfileDTO where
  userId := p.id
  username := p.fields.username.map Subtype.val
  displayName := p.fields.displayName.1
  bio := shown (p.fields.bio.map Subtype.val)
  avatarKey := p.fields.avatarKey
  isVerified := p.fields.isVerified

theorem shown_username (u : Option Username) : shown (u.map Subtype.val) = u.map Subtype.val := by
  cases u with
  | none => rfl
  | some u =>
    obtain ⟨x, ⟨hlo, -, -⟩, -⟩ := u
    have hne : x ≠ [] := by
      rintro rfl
      simp at hlo
    simp [shown, hne]

@[simp] theorem fromDomainWithPolicy_owner (p : UserProfile) (settings : UserSettings zones) :
    PublicProfileDTO.fromDomainWithPolicy p settings (some p.id) = .unmasked p := by
  simp only [PublicProfileDTO.fromDomainWithPolicy, canViewBio, canViewAvatar, scopeAllows_owner,
    if_true, shown_username, PublicProfileDTO.unmasked]

/-- Every public read of the owner of `p` answers it with nothing masked. -/
structure OwnerSees (s : Store zones) (p : UserProfile) : Prop where
  point : ∀ (scan : Scan) (query : GetPublicProfileQuery), query.viewerId = some p.id →
    query.userId = p.id →
    getPublicProfile (postgresProfileReader scan s) (postgresSettingsReader scan s) query =
      .ok (.unmasked p)
  batch : ∀ (scan : Scan) (query : GetBatchProfilesQuery), query.viewerId = some p.id →
    p.id ∈ query.userIds → ∀ dtos,
    getBatchProfiles (postgresProfileReader scan s) (postgresSettingsReader scan s) query = .ok dtos →
    .unmasked p ∈ dtos ∧ ∀ dto ∈ dtos, dto.userId = p.id → dto = .unmasked p
  search : ∀ (scan : Scan) (query : SearchByUsernameQuery) (username : Username),
    query.viewerId = some p.id → Username.ofStr query.username = .ok username →
    p.fields.username = some username →
    searchByUsername (postgresProfileReader scan s) (postgresSettingsReader scan s) query =
      .ok (.unmasked p)

theorem view_owner {p : UserProfile} {settings : UserSettings zones} (hp : s.profile p.id = some p)
    (hs : s.setting p.id = some settings) : s.view (some p.id) p.id = some (some (.unmasked p)) := by
  simp only [Store.view, hp, hs, Option.map_some, fromDomainWithPolicy_owner]

theorem view_userId {dto : PublicProfileDTO} (h : s.view viewer uid = some (some dto)) :
    dto.userId = uid := by
  unfold Store.view at h
  obtain ⟨p, hp, hsettings⟩ := Option.map_eq_some_iff.1 h
  obtain ⟨settings, -, rfl⟩ := Option.map_eq_some_iff.1 hsettings
  exact (Store.profile_eq_some.1 hp).2

theorem batchAnswer_ok {views : List (Option PublicProfileDTO)} {dtos : List PublicProfileDTO}
    (h : batchAnswer views = .ok dtos) : dtos = views.reduceOption := by
  unfold batchAnswer at h
  split at h
  · cases h
  · exact (Except.ok.inj h).symm

theorem ownerSees {p : UserProfile} {settings : UserSettings zones} (hp : s.profile p.id = some p)
    (hs : s.setting p.id = some settings) : OwnerSees s p := by
  refine ⟨fun scan query hviewer huser => ?_, fun scan query hviewer hmem dtos hread => ?_,
    fun scan query username hviewer hnorm hname => ?_⟩
  · rw [getPublicProfile_eq, hviewer, huser, view_owner hp hs]
    rfl
  · rw [getBatchProfiles_eq, hviewer] at hread
    have hdtos := batchAnswer_ok hread
    subst hdtos
    constructor
    · rw [List.reduceOption_mem_iff]
      exact List.mem_filterMap.2 ⟨p.id, hmem, view_owner hp hs⟩
    · intro dto hdto hid
      rw [List.reduceOption_mem_iff] at hdto
      obtain ⟨uid, -, hview⟩ := List.mem_filterMap.1 hdto
      have huid : uid = p.id := (view_userId hview).symm.trans hid
      rw [huid, view_owner hp hs] at hview
      exact (Option.some.inj (Option.some.inj hview)).symm
  · have hlisting : s.listing (some p.id) username p.id = some (some (.unmasked p)) := by
      simp only [Store.listing, hp, hs, Option.bind_some, hname, if_true, canFindByUsername,
        scopeAllows_owner, fromDomainWithPolicy_owner]
    rw [searchByUsername_eq, hnorm, hviewer]
    simp only [Store.found_eq_some.2 ⟨p.id, hlisting⟩]
    rfl

/-- Third parties learn nothing of what a user hides, and owners see all of it. -/
theorem publicReads_private (zones : ZoneInfo) :
    (∀ (s s' : Store zones) (t : UserId) (viewer : Option UserId), viewer ≠ some t →
      BioHidden t s s' ∨ AvatarHidden t s s' → SameReads viewer s s') ∧
    (∀ (s s' : Store zones) (t : UserId) (viewer : Option UserId), viewer ≠ some t →
      FindHidden t s s' → SameSearches viewer s s') ∧
    ∀ (s : Store zones) (p : UserProfile) (settings : UserSettings zones),
      s.profile p.id = some p → s.setting p.id = some settings → OwnerSees s p := by
  refine ⟨fun s s' t viewer hviewer h => ?_, fun s s' t viewer hviewer h => ?_,
    fun s p settings hp hs => ownerSees hp hs⟩
  · rcases h with h | h
    · exact (h.looksSame hviewer).reads
    · exact (h.looksSame hviewer).reads
  · exact sameSearches (h.listing hviewer)

section Sample

def sampleZones : ZoneInfo where
  accepts s := s = "Europe/Moscow".toList
  accepts_default := rfl

def sampleProfile (bio : Option Bio) : UserProfile :=
  { UserProfile.createDefault 1 0 with
    fields := { (UserProfile.createDefault 1 0).fields with bio := bio } }

def sampleSettings : UserSettings sampleZones :=
  let settings : UserSettings sampleZones := UserSettings.createDefault 1 0
  { settings with fields := { settings.fields with privacy := ⟨.all, .nobody, .nobody⟩ } }

def sampleStore (bio : Option Bio) : Store sampleZones where
  profiles := [sampleProfile bio]
  settings := [sampleSettings]
  profiles_pkey := List.nodup_singleton _
  settings_pkey := List.nodup_singleton _
  profiles_username_key := List.pairwise_singleton _ _

def sampleBio : Bio := ⟨"bio".toList, by decide, by decide, by decide⟩

theorem publicReads_private_sample :
    SameReads none (sampleStore none) (sampleStore (some sampleBio)) ∧
      SameSearches none (sampleStore none) (sampleStore (some sampleBio)) ∧
      OwnerSees (sampleStore (some sampleBio)) (sampleProfile (some sampleBio)) := by
  have hprofile : ∀ bio uid, uid ≠ 1 → (sampleStore bio).profile uid = none := by
    intro bio uid hne
    have hid : ¬ decide ((sampleProfile bio).id = uid) = true := by
      simp only [decide_eq_true_eq]
      exact fun h => hne h.symm
    exact List.find?_cons_of_neg hid
  have hsame : SameExcept 1 (sampleStore none) (sampleStore (some sampleBio)) :=
    ⟨fun uid hne => (hprofile _ uid hne).trans (hprofile _ uid hne).symm, fun _ _ => rfl⟩
  have hunlisted : ∀ bio, Unlisted 1 (sampleStore bio) :=
    fun _ _ _ => ⟨sampleSettings, rfl, rfl⟩
  obtain ⟨hreads, hsearch, howner⟩ := publicReads_private sampleZones
  refine ⟨hreads _ _ 1 none nofun (.inl ⟨hsame, ?_, ?_⟩),
    hsearch _ _ 1 none nofun ⟨hsame, hunlisted _, hunlisted _⟩,
    howner _ _ sampleSettings rfl rfl⟩
  · exact ⟨_, _, rfl, rfl, some sampleBio, rfl⟩
  · exact ⟨sampleSettings, rfl, rfl, rfl⟩

end Sample
end ProfileService.Application
