import ProfileService.Application.PublicPrivacy

/-!
# The batch read

`GetBatchProfilesQuery` with its validator, and `GetBatchProfilesHandler` against the
single reads it stands for (`application/queries/profiles/get_batch/`).
-/

namespace ProfileService.Application
open Domain Library

variable {zones : ZoneInfo} {s : Store zones} {viewer : Option UserId} {uid : UserId}

/-- `list(dict.fromkeys(v))`. -/
def deduplicateUserIds (v : List UserId) : List UserId :=
  v.foldl (fun keys uid => if keys.contains uid then keys else keys ++ [uid]) []

theorem deduplicateUserIds_concat (v : List UserId) (uid : UserId) :
    deduplicateUserIds (v ++ [uid]) =
      if uid ∈ deduplicateUserIds v then deduplicateUserIds v else deduplicateUserIds v ++ [uid] := by
  have hstep : deduplicateUserIds (v ++ [uid]) =
      if (deduplicateUserIds v).contains uid then deduplicateUserIds v
      else deduplicateUserIds v ++ [uid] := by
    rw [deduplicateUserIds, List.foldl_append]
    rfl
  rw [hstep]
  simp only [List.contains_iff_mem]

theorem deduplicateUserIds_eq (v : List UserId) : deduplicateUserIds v = v.eraseDups := by
  induction v using List.reverseRecOn with
  | nil => rfl
  | append_singleton v uid ih =>
    rw [deduplicateUserIds_concat, ih, List.eraseDups_append]
    by_cases hmem : uid ∈ v
    · have hremoved : [uid].removeAll v = [] := by simp [List.removeAll, hmem]
      rw [if_pos (List.mem_eraseDups.2 hmem), hremoved, List.eraseDups_nil, List.append_nil]
    · have hkept : [uid].removeAll v = [uid] := by simp [List.removeAll, hmem]
      rw [if_neg fun h => hmem (List.mem_eraseDups.1 h), hkept]
      rfl

theorem deduplicateUserIds_nodup (v : List UserId) : (deduplicateUserIds v).Nodup := by
  induction v using List.reverseRecOn with
  | nil => exact .nil
  | append_singleton v uid ih =>
    rw [deduplicateUserIds_concat]
    split
    · exact ih
    · next hnew =>
      refine List.Nodup.append ih (List.nodup_singleton uid) ?_
      intro other hother huid
      rw [List.mem_singleton.1 huid] at hother
      exact hnew hother

theorem deduplicateUserIds_length_le (v : List UserId) : (deduplicateUserIds v).length ≤ v.length := by
  induction v using List.reverseRecOn with
  | nil => exact Nat.le_refl 0
  | append_singleton v uid ih =>
    rw [deduplicateUserIds_concat, List.length_append, List.length_singleton]
    split
    · omega
    · rw [List.length_append, List.length_singleton]
      omega

theorem deduplicateUserIds_length {v : List UserId} (h : 1 ≤ v.length ∧ v.length ≤ 100) :
    1 ≤ (deduplicateUserIds v).length ∧ (deduplicateUserIds v).length ≤ 100 := by
  have hle := deduplicateUserIds_length_le v
  refine ⟨?_, by omega⟩
  obtain ⟨uid, huid⟩ : ∃ uid, uid ∈ v := List.exists_mem_of_length_pos h.1
  have hmem : uid ∈ deduplicateUserIds v := by
    rw [deduplicateUserIds_eq]
    exact List.mem_eraseDups.2 huid
  exact List.length_pos_of_mem hmem

/-- The validated query: the bounds are those of the list as it came, and the validator
runs after them. -/
def GetBatchProfilesQuery.modelValidate (userIds : List UserId) (viewerId : Option UserId) :
    Except Exn GetBatchProfilesQuery :=
  if h : 1 ≤ userIds.length ∧ userIds.length ≤ 100 then
    .ok ⟨deduplicateUserIds userIds, viewerId, deduplicateUserIds_length h,
      deduplicateUserIds_nodup userIds⟩
  else .error (.other "ValidationError" "user_ids")

/-- The query followed by its handler. -/
def readProfiles (profiles : ProfileReader) (settings : SettingsReader zones)
    (userIds : List UserId) (viewerId : Option UserId) : Except Exn (List PublicProfileDTO) := do
  getBatchProfiles profiles settings (← GetBatchProfilesQuery.modelValidate userIds viewerId)

/-- One single read after the other of the ids that have a profile, each at its first
occurrence. -/
def readEach (s : Store zones) (profiles : ProfileReader) (settings : SettingsReader zones)
    (userIds : List UserId) (viewerId : Option UserId) : Except Exn (List PublicProfileDTO) :=
  (userIds.eraseDups.filter fun uid => (s.profile uid).isSome).mapM fun uid =>
    getPublicProfile profiles settings ⟨uid, viewerId⟩

theorem mapM_answer (ids : List UserId) (h : ∀ uid ∈ ids, (s.profile uid).isSome = true) :
    ids.mapM (fun uid => answer (s.view viewer uid)) =
      batchAnswer (ids.filterMap (s.view viewer)) := by
  induction ids with
  | nil => rfl
  | cons uid ids ih =>
    have hrest := ih fun v hv => h v (List.mem_cons_of_mem uid hv)
    obtain ⟨p, hp⟩ := Option.isSome_iff_exists.1 (h uid List.mem_cons_self)
    rw [List.mapM_cons, hrest]
    cases ht : s.setting uid with
    | none =>
      have hview : s.view viewer uid = some none := by
        simp only [Store.view, hp, ht, Option.map_some, Option.map_none]
      have hviews : (uid :: ids).filterMap (s.view viewer) = none :: ids.filterMap (s.view viewer) :=
        List.filterMap_cons_some hview
      rw [hviews, hview, answer]
      exact (if_pos List.mem_cons_self).symm
    | some settings =>
      have hview : s.view viewer uid = some (some (.fromDomainWithPolicy p settings viewer)) := by
        simp only [Store.view, hp, ht, Option.map_some]
      have hviews : (uid :: ids).filterMap (s.view viewer) =
          some (.fromDomainWithPolicy p settings viewer) :: ids.filterMap (s.view viewer) :=
        List.filterMap_cons_some hview
      rw [hviews, hview, answer]
      unfold batchAnswer
      by_cases hmissing : none ∈ ids.filterMap (s.view viewer)
      · rw [if_pos hmissing, if_pos (List.mem_cons_of_mem _ hmissing)]
        rfl
      · have hnone : none ∉ some (PublicProfileDTO.fromDomainWithPolicy p settings viewer) ::
            ids.filterMap (s.view viewer) := by
          simpa using hmissing
        rw [if_neg hmissing, if_neg hnone]
        rfl

theorem filterMap_view_filter (ids : List UserId) :
    (ids.filter fun uid => (s.profile uid).isSome).filterMap (s.view viewer) =
      ids.filterMap (s.view viewer) := by
  rw [List.filterMap_filter]
  refine List.filterMap_congr fun uid _ => ?_
  cases hp : s.profile uid with
  | none => simp [Store.view, hp]
  | some p => simp

theorem none_mem_views {ids : List UserId} :
    none ∈ ids.filterMap (s.view viewer) ↔
      ∃ uid ∈ ids, (s.profile uid).isSome = true ∧ s.setting uid = none := by
  rw [List.mem_filterMap]
  refine exists_congr fun uid => and_congr_right fun _ => ?_
  cases hp : s.profile uid with
  | none => simp [Store.view, hp]
  | some p => simp [Store.view, hp]

section Serves
variable {profiles : ProfileReader} {settings : SettingsReader zones}

theorem readProfiles_of_length (hprofiles : profiles.Serves s) (hsettings : settings.Serves s)
    {userIds : List UserId} (h : 1 ≤ userIds.length ∧ userIds.length ≤ 100) :
    readProfiles profiles settings userIds viewer =
      batchAnswer (userIds.eraseDups.filterMap (s.view viewer)) := by
  rw [readProfiles, GetBatchProfilesQuery.modelValidate, dif_pos h, ok_bind,
    getBatchProfiles_of_serves hprofiles hsettings, ← deduplicateUserIds_eq]

theorem readProfiles_of_not_length {userIds : List UserId}
    (h : ¬(1 ≤ userIds.length ∧ userIds.length ≤ 100)) :
    readProfiles profiles settings userIds viewer = .error (.other "ValidationError" "user_ids") := by
  rw [readProfiles, GetBatchProfilesQuery.modelValidate, dif_neg h, error_bind]

theorem readEach_eq (hprofiles : profiles.Serves s) (hsettings : settings.Serves s)
    (userIds : List UserId) :
    readEach s profiles settings userIds viewer =
      batchAnswer (userIds.eraseDups.filterMap (s.view viewer)) := by
  have hone : (fun uid => getPublicProfile profiles settings ⟨uid, viewer⟩) =
      fun uid => answer (s.view viewer uid) :=
    funext fun uid => getPublicProfile_of_serves hprofiles hsettings ⟨uid, viewer⟩
  rw [readEach, hone, mapM_answer, filterMap_view_filter]
  intro uid huid
  exact (List.mem_filter.1 huid).2

theorem batchAnswer_cases (views : List (Option PublicProfileDTO)) :
    (none ∈ views ∧ batchAnswer views = .error (.domain .userSettingsNotFound)) ∨
      (none ∉ views ∧ ∃ dtos, batchAnswer views = .ok dtos) := by
  by_cases hmissing : none ∈ views
  · exact .inl ⟨hmissing, if_pos hmissing⟩
  · exact .inr ⟨hmissing, views.reduceOption, if_neg hmissing⟩

/-- A batch read within the bounds is the single reads one after the other; it fails on missing
settings only, and in which order the rows come does not show. -/
theorem batch_read_eq_single_reads {profiles' : ProfileReader} {settings' : SettingsReader zones}
    (hprofiles : profiles.Serves s) (hsettings : settings.Serves s)
    (hprofiles' : profiles'.Serves s) (hsettings' : settings'.Serves s) (userIds : List UserId)
    (viewer : Option UserId) :
    (readProfiles profiles settings userIds viewer =
      if 1 ≤ userIds.length ∧ userIds.length ≤ 100 then
        readEach s profiles settings userIds viewer
      else .error (.other "ValidationError" "user_ids")) ∧
    (readProfiles profiles settings userIds viewer = .error (.domain .userSettingsNotFound) ↔
      (1 ≤ userIds.length ∧ userIds.length ≤ 100) ∧
        ∃ uid ∈ userIds, (s.profile uid).isSome = true ∧ s.setting uid = none) ∧
    (∀ message, readProfiles profiles settings userIds viewer ≠ .error (.other "KeyError" message)) ∧
    readProfiles profiles' settings' userIds viewer =
      readProfiles profiles settings userIds viewer := by
  by_cases h : 1 ≤ userIds.length ∧ userIds.length ≤ 100
  · have hread : readProfiles profiles settings userIds viewer =
        batchAnswer (userIds.eraseDups.filterMap (s.view viewer)) :=
      readProfiles_of_length hprofiles hsettings h
    refine ⟨?_, ?_, fun message => ?_, ?_⟩
    · rw [if_pos h, hread, readEach_eq hprofiles hsettings]
    · have hmissing : none ∈ userIds.eraseDups.filterMap (s.view viewer) ↔
          ∃ uid ∈ userIds, (s.profile uid).isSome = true ∧ s.setting uid = none := by
        rw [none_mem_views]
        exact exists_congr fun uid => by rw [List.mem_eraseDups]
      rw [hread, ← hmissing]
      rcases batchAnswer_cases (userIds.eraseDups.filterMap (s.view viewer)) with
        ⟨hnone, herror⟩ | ⟨hnone, dtos, hok⟩
      · rw [herror]
        exact ⟨fun _ => ⟨h, hnone⟩, fun _ => rfl⟩
      · rw [hok]
        exact ⟨fun hok => (nomatch hok), fun hand => absurd hand.2 hnone⟩
    · rw [hread]
      rcases batchAnswer_cases (userIds.eraseDups.filterMap (s.view viewer)) with
        ⟨-, herror⟩ | ⟨-, dtos, hok⟩
      · rw [herror]
        exact fun hkey => nomatch hkey
      · rw [hok]
        exact fun hkey => nomatch hkey
    · rw [hread, readProfiles_of_length hprofiles' hsettings' h]
  · have hrefused : readProfiles profiles settings userIds viewer =
        .error (.other "ValidationError" "user_ids") := readProfiles_of_not_length h
    refine ⟨?_, ?_, fun message => ?_, ?_⟩
    · rw [if_neg h, hrefused]
    · rw [hrefused]
      exact ⟨fun herror => (nomatch herror), fun hand => absurd hand.1 h⟩
    · rw [hrefused]
      intro hkey
      injection hkey with hkey
      injection hkey with htype
      exact absurd htype (by decide)
    · rw [hrefused, readProfiles_of_not_length h]

end Serves

section Sample

def storedOrder : Scan where
  order l := l
  perm l := .refl l

def reversedOrder : Scan where
  order l := l.reverse
  perm l := l.reverse_perm

def sampleViewers : List UserId := [2, 1, 2]

theorem batch_read_eq_single_reads_sample :
    (readProfiles (postgresProfileReader storedOrder (sampleStore none))
        (postgresSettingsReader storedOrder (sampleStore none)) sampleViewers none =
      readEach (sampleStore none) (postgresProfileReader storedOrder (sampleStore none))
        (postgresSettingsReader storedOrder (sampleStore none)) sampleViewers none) ∧
    readProfiles (postgresProfileReader reversedOrder (sampleStore none))
        (postgresSettingsReader reversedOrder (sampleStore none)) sampleViewers none =
      readProfiles (postgresProfileReader storedOrder (sampleStore none))
        (postgresSettingsReader storedOrder (sampleStore none)) sampleViewers none := by
  obtain ⟨heach, -, -, horder⟩ := batch_read_eq_single_reads (s := sampleStore none)
    (postgresProfileReader_serves storedOrder _) (postgresSettingsReader_serves storedOrder _)
    (postgresProfileReader_serves reversedOrder _) (postgresSettingsReader_serves reversedOrder _)
    sampleViewers none
  have hlength : 1 ≤ sampleViewers.length ∧ sampleViewers.length ≤ 100 := by decide
  rw [if_pos hlength] at heach
  exact ⟨heach, horder⟩

/-- The bounds count repetitions: one id asked for a hundred and one times is refused, though it
is one id. -/
theorem repeated_ids_refused :
    readProfiles (postgresProfileReader storedOrder (sampleStore none))
        (postgresSettingsReader storedOrder (sampleStore none)) (List.replicate 101 2) none ≠
      readEach (sampleStore none) (postgresProfileReader storedOrder (sampleStore none))
        (postgresSettingsReader storedOrder (sampleStore none)) (List.replicate 101 2) none := by
  have hlength : ¬(1 ≤ (List.replicate 101 (2 : UserId)).length ∧
      (List.replicate 101 (2 : UserId)).length ≤ 100) := by
    rw [List.length_replicate]
    decide
  have habsent : (List.replicate 101 (2 : UserId)).filterMap
      ((sampleStore none).view none) = [] := by
    refine List.filterMap_eq_nil_iff.2 fun uid huid => ?_
    rw [List.eq_of_mem_replicate huid]
    rfl
  have hviews : (List.replicate 101 (2 : UserId)).eraseDups.filterMap
      ((sampleStore none).view none) = [] := by
    refine List.filterMap_eq_nil_iff.2 fun uid huid => ?_
    exact List.filterMap_eq_nil_iff.1 habsent uid (List.mem_eraseDups.1 huid)
  rw [readProfiles_of_not_length hlength, readEach_eq (postgresProfileReader_serves storedOrder _)
    (postgresSettingsReader_serves storedOrder _), hviews]
  exact fun h => nomatch h

end Sample
end ProfileService.Application
