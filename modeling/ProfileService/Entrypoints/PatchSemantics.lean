import ProfileService.Entrypoints.Schemas
import ProfileService.Infrastructure.Session
import ProfileService.Infrastructure.Storable

/-!
# What a PATCH does

The reference meaning of a PATCH body on a stored aggregate, and the schema, the route, the
handler and the repository against it.
-/

namespace ProfileService.Entrypoints
open Domain Library Application Infrastructure

/-! ### The reference -/

theorem next_version_pos {F : Type} (a : VersionedMutableEntity F) : 1 ≤ a.version + 1 :=
  Nat.le_add_left 1 a.version

theorem created_before {createdAt now : Instant} (h : createdAt < now) :
    ∀ t ∈ some now, createdAt < t := by
  intro t ht
  cases ht
  exact h

/-- The aggregate with new fields: nothing moves unless a field differs. -/
def renewed {F : Type} [DecidableEq F] (now : Instant) (a : VersionedMutableEntity F)
    (hnow : a.createdAt < now) (fields : F) : VersionedMutableEntity F :=
  if fields = a.fields then a
  else
    { id := a.id
      createdAt := a.createdAt
      updatedAt := some now
      version := a.version + 1
      fields := fields
      version_pos := next_version_pos a
      timestamps := created_before hnow }

section Renewed
variable {F : Type} [DecidableEq F] {a : VersionedMutableEntity F} {now : Instant}
  {hnow : a.createdAt < now}

theorem renewed_id (fields : F) : (renewed now a hnow fields).id = a.id := by
  unfold renewed
  split <;> rfl

theorem renewed_createdAt (fields : F) : (renewed now a hnow fields).createdAt = a.createdAt := by
  unfold renewed
  split <;> rfl

theorem renewed_fields (fields : F) : (renewed now a hnow fields).fields = fields := by
  unfold renewed
  split
  · rename_i h
    exact h.symm
  · rfl

theorem renewed_version {fields : F} (h : fields ≠ a.fields) :
    (renewed now a hnow fields).version = a.version + 1 := by
  rw [renewed, if_neg h]

theorem renewed_updatedAt {fields : F} (h : fields ≠ a.fields) :
    (renewed now a hnow fields).updatedAt = some now := by
  rw [renewed, if_neg h]

theorem renewed_self : renewed now a hnow a.fields = a := if_pos rfl

end Renewed

/-- What a PATCH of version `n` at `now` makes of an aggregate: `patched` are its fields with
the supplied ones replaced, or the error of a supplied value. -/
def referencePatch {F : Type} [DecidableEq F] (mismatch : Nat → DomainError)
    (patched : Except DomainError F) (n : Nat) (now : Instant) (a : VersionedMutableEntity F)
    (hnow : a.createdAt < now) : Except DomainError (VersionedMutableEntity F) :=
  if n ≠ a.version then .error (mismatch a.version) else patched.map (renewed now a hnow)

def suppliedText {α : Type} (ofStr : Str → Except DomainError α) (stored : α) :
    Option Json → Except DomainError α
  | some (.str s) => ofStr s
  | _ => .ok stored

/-- `bio`, cleared by null and by the empty text. -/
def suppliedBio (stored : Option Bio) : Option Json → Except DomainError (Option Bio)
  | some .null => .ok none
  | some (.str s) => if s = [] then .ok none else (Bio.ofStr s).map some
  | _ => .ok stored

def profilePatch (body : Json) (f : ProfileFields) : Except DomainError ProfileFields := do
  let username ← suppliedText (fun s => (Username.ofStr s).map some) f.username
    (body.get? "username".toList)
  let displayName ← suppliedText DisplayName.ofStr f.displayName (body.get? "display_name".toList)
  let bio ← suppliedBio f.bio (body.get? "bio".toList)
  return { f with
    username := username
    displayName := displayName
    bio := bio }

def suppliedEnum {α : Type} (ofStr : Str → Except DomainError α) (stored : α) : Option Json → α
  | some (.str s) =>
    match ofStr s with
    | .ok a => a
    | .error _ => stored
  | _ => stored

def suppliedPrivacy (stored : PrivacySettings) (privacy : Option Json) : PrivacySettings where
  whoCanSeeAvatar := suppliedEnum PrivacyScope.ofStr stored.whoCanSeeAvatar
    (privacy.bind (·.get? "who_can_see_avatar".toList))
  whoCanFindByUsername := suppliedEnum PrivacyScope.ofStr stored.whoCanFindByUsername
    (privacy.bind (·.get? "who_can_find_by_username".toList))
  whoCanSeeBio := suppliedEnum PrivacyScope.ofStr stored.whoCanSeeBio
    (privacy.bind (·.get? "who_can_see_bio".toList))

def settingsPatch {zones : ZoneInfo} (body : Json) (f : SettingsFields zones) :
    Except DomainError (SettingsFields zones) := do
  let timezone ← suppliedText (Timezone.ofStr zones) f.timezone (body.get? "timezone".toList)
  return {
    theme := suppliedEnum Theme.ofStr f.theme (body.get? "theme".toList)
    locale := suppliedEnum Locale.ofStr f.locale (body.get? "locale".toList)
    timezone := timezone
    privacy := suppliedPrivacy f.privacy (body.get? "privacy".toList) }

/-- The answer and the rows the reference leaves. -/
def answer {F : Type} [ModelFields F] {DTO : Type} (table : Table F)
    (fromDomain : VersionedMutableEntity F → DTO) (rows : List table.Row) :
    Except DomainError (VersionedMutableEntity F) → Except Exn DTO × List table.Row
  | .error e => (.error (.domain e), rows)
  | .ok a => (.ok (fromDomain a), replaceRow table (table.values a) rows)

/-! ### The layers against it -/

section Handler
variable {F : Type} [ModelFields F] [DecidableEq F] {table : Table F} {rows : List table.Row}
  {a : VersionedMutableEntity F} {now : Instant} {hnow : a.createdAt < now}

theorem applyChanges_eq {changes : ModelFields.Data F → ModelFields.Data F}
    (hnow : a.createdAt < now) :
    a.applyChanges_ now changes =
      (ModelFields.modelValidate (changes (ModelFields.modelDump a.fields))).map fun fields =>
        (decide (fields ≠ a.fields), renewed now a hnow fields) := by
  rcases VersionedMutableEntity.applyChanges_cases now changes a with
    ⟨e, hv, he⟩ | ⟨hv, hsame⟩ | ⟨fields, hv, hne, hrest⟩
  · rw [hv, he]
    rfl
  · rw [hv, hsame]
    simp [Except.map, renewed_self]
  · rcases hrest with ⟨hlate, -⟩ | ⟨entity, -, hok, hid, hcreated, hupdated, hversion, hfields⟩
    · exact absurd hnow (Int.not_lt.2 hlate)
    · rw [hv, hok]
      have hentity : entity = renewed now a hnow fields := by
        unfold renewed
        rw [if_neg hne]
        exact VersionedMutableEntity.ext hid hcreated hupdated hversion hfields
      simp [Except.map, hne, hentity]

variable {DTO : Type} {fromDomain : VersionedMutableEntity F → DTO} {n : Nat}
  {repository : RepositoryProtocol (SessionM table.Row) F} {raised : SqlError → Exn}

/-- What `update` does to the row of a stored aggregate, whatever it raises where PostgreSQL
refuses it. -/
def UpdatesRow (table : Table F) (rows : List table.Row) (a : VersionedMutableEntity F)
    (repository : RepositoryProtocol (SessionM table.Row) F) : Prop :=
  ∀ a' : VersionedMutableEntity F, a'.id = a.id → a'.createdAt = a.createdAt →
    (table.violation (others table (table.values a') rows) (table.values a') = none →
      runSession (repository.update a' (some a.version)) rows =
        (.ok a', replaceRow table (table.values a') rows)) ∧
    (table.violation (others table (table.values a') rows) (table.values a') ≠ none →
      ∃ e, runSession (repository.update a' (some a.version)) rows = (.error e, rows))

/-- The handler gives the reference answer exactly where PostgreSQL accepts a changed row. -/
theorem changeVersioned_reference_iff (hl : Lawful table) (h : StoredAt table rows a)
    (hget : repository.getById = getById (sequential table))
    (hupdate : UpdatesRow table rows a repository) (notFound : DomainError)
    (mismatch : Nat → DomainError) {change : Instant → VersionedMutableEntity F →
      Except DomainError (Bool × VersionedMutableEntity F)}
    {changes : ModelFields.Data F → ModelFields.Data F} {patched : Except DomainError F}
    (hchange : change now a = a.applyChanges_ now changes)
    (hpatched : ModelFields.modelValidate (changes (ModelFields.modelDump a.fields)) = patched) :
    runSession (changeVersioned (pure now) repository a.id n notFound mismatch change >>= fun a' =>
        pure (fromDomain a')) rows =
      answer table fromDomain rows (referencePatch mismatch patched n now a hnow) ↔
    (n = a.version → ∀ fields, patched = .ok fields → fields ≠ a.fields →
      table.violation (others table (table.values (renewed now a hnow fields)) rows)
        (table.values (renewed now a hnow fields)) = none) := by
  rw [runSession_bind, run_changeVersioned hl h hget]
  unfold referencePatch
  by_cases hn : n = a.version
  · subst hn
    rw [if_neg (not_not.2 rfl), if_neg (not_not.2 rfl), hchange, applyChanges_eq hnow, hpatched]
    simp only [true_implies]
    cases patched with
    | error e => simp [Except.map, answer]
    | ok fields =>
      have hrhs : (∀ fields', (.ok fields : Except DomainError F) = .ok fields' →
          fields' ≠ a.fields → table.violation (others table (table.values
            (renewed now a hnow fields')) rows) (table.values (renewed now a hnow fields')) = none) ↔
          (fields ≠ a.fields → table.violation (others table (table.values
            (renewed now a hnow fields)) rows) (table.values (renewed now a hnow fields)) = none) := by
        constructor
        · exact fun hall => hall fields rfl
        · rintro hall _ ⟨⟩
          exact hall
      rw [hrhs]
      by_cases hsame : fields = a.fields
      · subst hsame
        simp [Except.map, answer, renewed_self, replaceRow_self hl h]
      · obtain ⟨hnone, hsome⟩ := hupdate (renewed now a hnow fields) (renewed_id fields)
          (renewed_createdAt fields)
        simp only [Except.map, ne_eq, hsame, not_false_eq_true, decide_true, if_true, true_implies]
        by_cases hv : table.violation (others table (table.values (renewed now a hnow fields)) rows)
            (table.values (renewed now a hnow fields)) = none
        · rw [hnone hv]
          simp [hv, answer]
        · obtain ⟨e, he⟩ := hsome hv
          rw [he]
          simp [hv, answer]
  · have hn' : ¬ a.version = n := fun h => hn h.symm
    simp [hn, hn', answer]

end Handler
/-! ### Bodies -/

section Bodies
variable {field : String} {body : Json} {lo hi : Nat}

theorem readField_cases {α : Type} {read : Json → Except SchemaError α} {v : Option (Option α)}
    (h : readField field read body = .ok v) :
    (body.get? field.toList = none ∧ v = none) ∨
      (body.get? field.toList = some .null ∧ v = some none) ∨
      ∃ j a, body.get? field.toList = some j ∧ read j = .ok a ∧ v = some (some a) := by
  unfold readField at h
  split at h
  · rename_i hget
    cases h
    exact .inl ⟨hget, rfl⟩
  · rename_i hget
    cases h
    exact .inr (.inl ⟨hget, rfl⟩)
  · rename_i j hnull hget
    cases hr : read j with
    | error e =>
      rw [hr] at h
      cases h
    | ok a =>
      rw [hr] at h
      cases h
      exact .inr (.inr ⟨j, a, hget, hr, rfl⟩)

theorem readStr_ok {j : Json} {s : Bounded lo hi} (h : readStr field lo hi j = .ok s) :
    j = .str s.1 := by
  cases j with
  | str t =>
    by_cases hlength : lo ≤ t.length ∧ t.length ≤ hi
    · rw [readStr, dif_pos hlength] at h
      cases h
      rfl
    · rw [readStr, dif_neg hlength] at h
      cases h
  | _ => cases h

theorem readEnum_ok {α : Type} {ofStr : Str → Except DomainError α} {j : Json} {a : α}
    (h : readEnum field ofStr j = .ok a) : ∃ s, j = .str s ∧ ofStr s = .ok a := by
  cases j with
  | str s =>
    refine ⟨s, rfl, ?_⟩
    cases hs : ofStr s with
    | error e => simp [readEnum, hs, Except.mapError] at h
    | ok b =>
      simp only [readEnum, hs, Except.mapError, Except.ok.injEq] at h
      rw [h]
  | _ => cases h

theorem readField_text {α : Type} {v : Option (Option (Bounded lo hi))}
    (h : readField field (readStr field lo hi) body = .ok v) (ofStr : Str → Except DomainError α)
    (stored : α) : suppliedText ofStr stored (body.get? field.toList) =
      (v.join.map Subtype.val).elim (.ok stored) ofStr := by
  rcases readField_cases h with ⟨hget, rfl⟩ | ⟨hget, rfl⟩ | ⟨j, s, hget, hread, rfl⟩
  · rw [hget]
    rfl
  · rw [hget]
    rfl
  · rw [hget, readStr_ok hread]
    rfl

theorem readField_enum {α : Type} {ofStr : Str → Except DomainError α} {v : Option (Option α)}
    (h : readField field (readEnum field ofStr) body = .ok v) (stored : α) :
    suppliedEnum ofStr stored (body.get? field.toList) = v.join.getD stored := by
  rcases readField_cases h with ⟨hget, rfl⟩ | ⟨hget, rfl⟩ | ⟨j, a, hget, hread, rfl⟩
  · rw [hget]
    rfl
  · rw [hget]
    rfl
  · obtain ⟨s, rfl, hs⟩ := readEnum_ok hread
    rw [hget]
    simp [suppliedEnum, hs]

theorem bind_ok {ε α β : Type} {x : Except ε α} {f : α → Except ε β} {b : β}
    (h : (x >>= f) = .ok b) : ∃ a, x = .ok a ∧ f a = .ok b := by
  cases x with
  | error e => cases h
  | ok a => exact ⟨a, rfl, h⟩

theorem profileRequest_ok {request : ProfilePatchRequest}
    (h : ProfilePatchRequest.modelValidate body = .ok request) :
    ∃ displayName bio username,
      forbidExtra ["display_name", "bio", "username"] body = .ok () ∧
      readField "display_name" (readStr "display_name" 1 64) body = .ok displayName ∧
      readField "bio" (readStr "bio" 0 255) body = .ok bio ∧
      readField "username" (readStr "username" 3 32) body = .ok username ∧
      request = ⟨displayName.join, bio.join, username.join, bio.isSome⟩ := by
  obtain ⟨⟨⟩, hforbid, h⟩ := bind_ok h
  obtain ⟨displayName, hdisplayName, h⟩ := bind_ok h
  obtain ⟨bio, hbio, h⟩ := bind_ok h
  obtain ⟨username, husername, h⟩ := bind_ok h
  obtain ⟨-, -, h⟩ := bind_ok h
  cases h
  exact ⟨displayName, bio, username, hforbid, hdisplayName, hbio, husername, rfl⟩

theorem forbidExtra_ok {fields : List String} (h : forbidExtra fields body = .ok ()) {key : Str}
    {j : Json} (hget : body.get? key = some j) : key ∈ fields.map String.toList := by
  cases body with
  | obj entries =>
    by_cases hall : (entries.all fun e => (fields.map String.toList).contains e.1) = true
    · obtain ⟨e, he, -⟩ := Option.map_eq_some_iff.1 hget
      have hkey := List.find?_some he
      have hmem := List.mem_reverse.1 (List.mem_of_find?_eq_some he)
      have hfield := List.all_eq_true.1 hall e hmem
      rw [decide_eq_true_eq] at hkey
      rw [List.contains_iff_mem] at hfield
      rw [← hkey]
      exact hfield
    · rw [forbidExtra, if_neg hall] at h
      cases h
  | _ => cases hget

theorem fieldTexts_iff {v : Option (Option (Bounded lo hi))}
    (h : readField field (readStr field lo hi) body = .ok v) :
    (∀ s ∈ (v.join.map Subtype.val).toList, isText s = true) ↔
      ∀ s, body.get? field.toList = some (.str s) → isText s = true := by
  rcases readField_cases h with ⟨hget, rfl⟩ | ⟨hget, rfl⟩ | ⟨j, s, hget, hread, rfl⟩
  · simp [hget]
  · simp [hget]
  · simp [hget, readStr_ok hread]

theorem bioTexts_iff (displayName : Option (Bounded 1 64)) (username : Option (Bounded 3 32))
    {bio : Option (Option (Bounded 0 255))}
    (h : readField "bio" (readStr "bio" 0 255) body = .ok bio) :
    (∀ s ∈ (ProfilePatchRequest.requestedBio ⟨displayName, bio.join, username, bio.isSome⟩
        |>.map Subtype.val).toList, isText s = true) ↔
      ∀ s, body.get? "bio".toList = some (.str s) → isText s = true := by
  rcases readField_cases h with ⟨hget, rfl⟩ | ⟨hget, rfl⟩ | ⟨j, s, hget, hread, rfl⟩
  · rw [hget]
    simp [ProfilePatchRequest.requestedBio]
  · rw [hget]
    simp [ProfilePatchRequest.requestedBio, isText]
  · rw [hget, readStr_ok hread]
    simp [ProfilePatchRequest.requestedBio]

/-- A text of an accepted body is asked for by the command, and no other is. -/
theorem profileTexts_iff {request : ProfilePatchRequest}
    (h : ProfilePatchRequest.modelValidate body = .ok request) (userId : UserId)
    (n : ExpectedVersion) (now : AwareDateTime) :
    (∀ s ∈ (ProfileCall.updateProfile (patchMyProfile userId n request) now).texts,
        isText s = true) ↔
      ∀ key s, body.get? key = some (.str s) → isText s = true := by
  obtain ⟨displayName, bio, username, hforbid, hdisplayName, hbio, husername, rfl⟩ :=
    profileRequest_ok h
  have hsplit : (∀ s ∈ (ProfileCall.updateProfile (patchMyProfile userId n
      ⟨displayName.join, bio.join, username.join, bio.isSome⟩) now).texts, isText s = true) ↔
      ((∀ s, body.get? "display_name".toList = some (.str s) → isText s = true) ∧
        ∀ s, body.get? "bio".toList = some (.str s) → isText s = true) ∧
        ∀ s, body.get? "username".toList = some (.str s) → isText s = true := by
    rw [← fieldTexts_iff hdisplayName, ← fieldTexts_iff husername,
      ← bioTexts_iff displayName.join username.join hbio]
    simp only [ProfileCall.texts, List.mem_append, or_imp, forall_and]
    rfl
  rw [hsplit]
  constructor
  · rintro ⟨⟨hname, hbio'⟩, huser⟩ key s hget
    have hkey := forbidExtra_ok hforbid hget
    simp only [List.map_cons, List.map_nil, List.mem_cons, List.not_mem_nil, or_false] at hkey
    rcases hkey with rfl | rfl | rfl
    · exact hname s hget
    · exact hbio' s hget
    · exact huser s hget
  · intro hall
    exact ⟨⟨hall _, hall _⟩, hall _⟩

end Bodies

/-! ### The commands against the reference -/

theorem profile_patched {body : Json} {request : ProfilePatchRequest}
    (h : ProfilePatchRequest.modelValidate body = .ok request) (userId : UserId)
    (n : ExpectedVersion) (now : AwareDateTime) (f : ProfileFields) :
    ProfileFields.modelValidate
        ((ProfileCall.updateProfile (patchMyProfile userId n request) now).changes f.modelDump) =
      profilePatch body f := by
  obtain ⟨displayName, bio, username, -, hdisplayName, hbio, husername, rfl⟩ := profileRequest_ok h
  have hnames : optionalOfStr Username.ofStr
      ((username.join.map Subtype.val).or (f.username.map Subtype.val)) =
      suppliedText (fun s => (Username.ofStr s).map some) f.username
        (body.get? "username".toList) := by
    rw [readField_text husername]
    cases username.join with
    | none => exact optionalOfStr_val Username.ofStr_val f.username
    | some s => rfl
  have hdisplays : DisplayName.ofStr ((displayName.join.map Subtype.val).getD f.displayName.1) =
      suppliedText DisplayName.ofStr f.displayName (body.get? "display_name".toList) := by
    rw [readField_text hdisplayName]
    cases displayName.join with
    | none => exact DisplayName.ofStr_val f.displayName
    | some s => rfl
  have hbios : optionalOfStr Bio.ofStr
      ((ProfilePatchRequest.requestedBio ⟨displayName.join, bio.join, username.join, bio.isSome⟩
        |>.map Subtype.val).elim (f.bio.map Subtype.val) UserProfile.bioOrNone) =
      suppliedBio f.bio (body.get? "bio".toList) := by
    rcases readField_cases hbio with ⟨hget, rfl⟩ | ⟨hget, rfl⟩ | ⟨j, s, hget, hread, rfl⟩
    · rw [hget]
      exact optionalOfStr_val Bio.ofStr_val f.bio
    · rw [hget]
      rfl
    · rw [hget, readStr_ok hread]
      show optionalOfStr Bio.ofStr (UserProfile.bioOrNone s.1) =
        if s.1 = [] then .ok none else (Bio.ofStr s.1).map some
      unfold UserProfile.bioOrNone
      split <;> rfl
  unfold ProfileFields.modelValidate profilePatch
  rw [← hnames, ← hdisplays, ← hbios]
  rfl

section Settings
variable {zones : ZoneInfo} {body : Json}

theorem privacyRequest_ok {request : PrivacyPatchRequest}
    (h : PrivacyPatchRequest.modelValidate body = .ok request) (stored : PrivacySettings) :
    suppliedEnum PrivacyScope.ofStr stored.whoCanSeeAvatar
        (body.get? "who_can_see_avatar".toList) =
        request.whoCanSeeAvatar.getD stored.whoCanSeeAvatar ∧
      suppliedEnum PrivacyScope.ofStr stored.whoCanFindByUsername
        (body.get? "who_can_find_by_username".toList) =
        request.whoCanFindByUsername.getD stored.whoCanFindByUsername ∧
      suppliedEnum PrivacyScope.ofStr stored.whoCanSeeBio (body.get? "who_can_see_bio".toList) =
        request.whoCanSeeBio.getD stored.whoCanSeeBio := by
  obtain ⟨-, -, h⟩ := bind_ok h
  obtain ⟨avatar, havatar, h⟩ := bind_ok h
  obtain ⟨find, hfind, h⟩ := bind_ok h
  obtain ⟨bio, hbio, h⟩ := bind_ok h
  obtain ⟨-, -, h⟩ := bind_ok h
  cases h
  exact ⟨readField_enum havatar _, readField_enum hfind _, readField_enum hbio _⟩

theorem settings_patched {request : SettingsPatchRequest}
    (h : SettingsPatchRequest.modelValidate body = .ok request) (userId : UserId)
    (n : ExpectedVersion) (f : SettingsFields zones) :
    @SettingsFields.modelValidate zones
        { f.modelDump with
          theme := (patchMySettings userId n request).theme.getD f.modelDump.theme
          locale := (patchMySettings userId n request).locale.getD f.modelDump.locale
          timezone := (patchMySettings userId n request).timezone.getD f.modelDump.timezone
          privacy := requestedPrivacy (patchMySettings userId n request) f.privacy } =
      settingsPatch body f := by
  obtain ⟨-, -, h⟩ := bind_ok h
  obtain ⟨theme, htheme, h⟩ := bind_ok h
  obtain ⟨locale, hlocale, h⟩ := bind_ok h
  obtain ⟨timezone, htimezone, h⟩ := bind_ok h
  obtain ⟨privacy, hprivacy, h⟩ := bind_ok h
  obtain ⟨-, -, h⟩ := bind_ok h
  cases h
  have hzone : Timezone.ofStr zones ((timezone.join.map Subtype.val).getD f.timezone.1) =
      suppliedText (Timezone.ofStr zones) f.timezone (body.get? "timezone".toList) := by
    rw [readField_text htimezone]
    cases timezone.join with
    | none => exact Timezone.ofStr_val f.timezone
    | some s => rfl
  have hscopes : requestedPrivacy (patchMySettings userId n ⟨theme.join, locale.join,
      timezone.join, privacy.join⟩) f.privacy = suppliedPrivacy f.privacy
        (body.get? "privacy".toList) := by
    rcases readField_cases hprivacy with ⟨hget, rfl⟩ | ⟨hget, rfl⟩ | ⟨j, p, hget, hread, rfl⟩
    · rw [hget]
      rfl
    · rw [hget]
      rfl
    · obtain ⟨havatar, hfind, hbio⟩ := privacyRequest_ok hread f.privacy
      rw [hget]
      exact congr (congr (congrArg PrivacySettings.mk havatar.symm) hfind.symm) hbio.symm
  unfold SettingsFields.modelValidate settingsPatch
  rw [readField_enum htheme, readField_enum hlocale, ← hzone, ← hscopes]
  rfl

end Settings

/-! ### The whole request -/

def profileRow (dto : ProfileDTO) : ProfileORM where
  userId := dto.userId
  username := dto.username
  displayName := dto.displayName
  bio := dto.bio
  avatarKey := dto.avatarKey
  status := dto.status.value
  isVerified := dto.isVerified
  version := dto.version
  createdAt := dto.createdAt
  updatedAt := dto.updatedAt

def settingsRow (dto : SettingsDTO) : SettingsORM where
  userId := dto.userId
  theme := dto.theme.value
  locale := dto.locale.value
  timezone := dto.timezone
  privacy := privacyJson dto.privacy
  version := dto.version
  createdAt := dto.createdAt
  updatedAt := dto.updatedAt

abbrev sessionProfiles : RepositoryProtocol (SessionM ProfileORM) ProfileFields :=
  postgresProfileRepository (sequential profilesTable)

abbrev sessionSettings (zones : ZoneInfo) :
    RepositoryProtocol (SessionM SettingsORM) (SettingsFields zones) :=
  postgresSettingsRepository (sequential (settingsTable zones))

theorem sessionProfiles_update {rows : List ProfileORM} {a : UserProfile}
    (h : StoredAt profilesTable rows a) : UpdatesRow profilesTable rows a sessionProfiles := by
  intro a' hid hcreated
  have hrun : runSession (sessionProfiles.update a' (some a.version)) rows = _ :=
    (runSession_tryCatch _ _).trans (by rw [run_update lawful_profiles h hid hcreated])
  constructor
  · intro hnone
    rw [hrun, hnone]
  · intro hsome
    obtain ⟨e, he⟩ := Option.ne_none_iff_exists'.1 hsome
    rw [hrun, he]
    exact ⟨_, rfl⟩

theorem sessionSettings_update {zones : ZoneInfo} {rows : List SettingsORM}
    {a : UserSettings zones} (h : StoredAt (settingsTable zones) rows a) :
    UpdatesRow (settingsTable zones) rows a (sessionSettings zones) := by
  intro a' hid hcreated
  have hrun : runSession ((sessionSettings zones).update a' (some a.version)) rows = _ :=
    run_update (lawful_settings zones) h hid hcreated _ _
  constructor
  · intro hnone
    rw [hrun, hnone]
  · intro hsome
    obtain ⟨e, he⟩ := Option.ne_none_iff_exists'.1 hsome
    rw [hrun, he]
    exact ⟨_, rfl⟩

theorem storable_timestamptz {a : UserProfile}
    (h : profilesTable.storable (ProfileORM.values a) = true) :
    isTimestamptz a.createdAt = true ∧ isNullOr isTimestamptz a.updatedAt = true := by
  have htyped : ProfileORM.typed (ProfileORM.values a) = true := (Bool.and_eq_true_iff.1 h).1
  simp only [ProfileORM.typed, Bool.and_eq_true] at htyped
  exact ⟨htyped.1.2, htyped.2⟩

/-- Which renewed profile PostgreSQL accepts where no other row has its username. -/
theorem renewed_profile_accepted {rows : List ProfileORM} {a : UserProfile} {body : Json}
    {request : ProfilePatchRequest} (h : ProfilePatchRequest.modelValidate body = .ok request)
    (n : ExpectedVersion) (now : AwareDateTime) (hnow : a.createdAt < now.1.instant)
    (hstorable : profilesTable.storable (ProfileORM.values a) = true) {fields : ProfileFields}
    (hpatch : profilePatch body a.fields = .ok fields) (hne : fields ≠ a.fields)
    (hunique : ∀ other ∈ rows, other.userId ≠ a.id →
      fields.username = none ∨ other.username ≠ fields.username.map Subtype.val) :
    profilesTable.violation
        (others profilesTable (ProfileORM.values (renewed now.1.instant a hnow fields)) rows)
        (ProfileORM.values (renewed now.1.instant a hnow fields)) = none ↔
      a.version + 1 < 2 ^ 63 ∧ ∀ key s, body.get? key = some (.str s) → isText s = true := by
  let a' := renewed now.1.instant a hnow fields
  have htimes := storable_timestamptz hstorable
  have hfree : NulFree a := ((storable_values htimes.1 htimes.2).1 hstorable).2
  have hversion : a'.version = a.version + 1 := renewed_version hne
  have happly : (ProfileCall.updateProfile (patchMyProfile a.id n request) now).apply a =
      .ok (true, a') := by
    rw [ProfileCall.apply_eq]
    refine (applyChanges_eq hnow).trans ?_
    have hpatched : ModelFields.modelValidate (F := ProfileFields)
        ((ProfileCall.updateProfile (patchMyProfile a.id n request) now).changes
          (ModelFields.modelDump a.fields)) = .ok fields :=
      (profile_patched h a.id n now a.fields).trans hpatch
    rw [hpatched]
    simp [Except.map, hne, a']
  have hcreated : isTimestamptz a'.createdAt = true := by
    rw [show a'.createdAt = a.createdAt from renewed_createdAt fields]
    exact htimes.1
  have hupdated : isNullOr isTimestamptz a'.updatedAt = true := by
    rw [show a'.updatedAt = some now.1.instant from renewed_updatedAt hne]
    exact isTimestamptz_instant now.1
  rw [profilesTable.violation_eq_none, ← profileTexts_iff h a.id n now, ← nulFree_apply hfree happly,
    storable_values hcreated hupdated, hversion]
  apply and_iff_left
  intro other hother
  obtain ⟨hmem, hid⟩ := List.mem_filter.1 hother
  have hother' : other.userId ≠ a.id := by
    intro hsame
    exact absurd hid (by simp [hsame, renewed_id, ProfileORM.values])
  have husername : (ProfileORM.values a').username = fields.username.map Subtype.val := by
    show a'.fields.username.map Subtype.val = _
    rw [show a'.fields = fields from renewed_fields fields]
  show (((ProfileORM.values a').username = none ||
    (ProfileORM.values a').username ≠ other.username : Bool) && true) = true
  rw [husername, Bool.and_true, Bool.or_eq_true, decide_eq_true_eq, decide_eq_true_eq]
  rcases hunique other hmem hother' with hnone | hdiffers
  · exact .inl (by rw [hnone]; rfl)
  · exact .inr (Ne.symm hdiffers)

theorem storable_settings_timestamptz {zones : ZoneInfo} {a : UserSettings zones}
    (h : (settingsTable zones).storable (SettingsORM.values a) = true) :
    isTimestamptz a.createdAt = true ∧ isNullOr isTimestamptz a.updatedAt = true := by
  have htyped : SettingsORM.typed (SettingsORM.values a) = true := (Bool.and_eq_true_iff.1 h).1
  simp only [SettingsORM.typed, Bool.and_eq_true] at htyped
  exact ⟨htyped.1.2, htyped.2⟩

theorem renewed_settings_accepted {zones : ZoneInfo}
    (hzones : ∀ s, zones.accepts s = true → isText s = true) {rows : List SettingsORM}
    {a : UserSettings zones} (now : AwareDateTime) (hnow : a.createdAt < now.1.instant)
    (hstorable : (settingsTable zones).storable (SettingsORM.values a) = true)
    {fields : SettingsFields zones} (hne : fields ≠ a.fields) :
    (settingsTable zones).violation (others (settingsTable zones)
        (SettingsORM.values (renewed now.1.instant a hnow fields)) rows)
        (SettingsORM.values (renewed now.1.instant a hnow fields)) = none ↔
      a.version + 1 < 2 ^ 63 := by
  have htimes := storable_settings_timestamptz hstorable
  have hcreated : isTimestamptz (renewed now.1.instant a hnow fields).createdAt = true := by
    rw [renewed_createdAt]
    exact htimes.1
  have hupdated : isNullOr isTimestamptz (renewed now.1.instant a hnow fields).updatedAt = true := by
    rw [renewed_updatedAt hne]
    exact isTimestamptz_instant now.1
  rw [Table.violation_eq_none, storable_settings hzones hcreated hupdated, renewed_version hne]
  exact and_iff_left fun other _ => rfl

/-- A PATCH of a stored profile or of stored settings that has an accepted body, a clock
past the creation and no username conflict does what the reference says, exactly where a
change to the row fits its columns. -/
theorem patch_reference_iff {zones : ZoneInfo}
    (hzones : ∀ s, zones.accepts s = true → isText s = true) :
    (∀ a : UserProfile, profileRow (.fromDomain a) = profilesTable.values a) ∧
    (∀ a : UserSettings zones, settingsRow (.fromDomain a) = (settingsTable zones).values a) ∧
    (∀ (rows : List ProfileORM) (a : UserProfile) (body : Json) (request : ProfilePatchRequest)
        (n : ExpectedVersion) (now : AwareDateTime) (hnow : a.createdAt < now.1.instant),
      StoredAt profilesTable rows a → profilesTable.storable (ProfileORM.values a) = true →
      ProfilePatchRequest.modelValidate body = .ok request →
      (∀ fields, profilePatch body a.fields = .ok fields → ∀ other ∈ rows, other.userId ≠ a.id →
        fields.username = none ∨ other.username ≠ fields.username.map Subtype.val) →
      (runSession (updateProfileHandler sessionProfiles (pure now.1.instant)
          (patchMyProfile a.id n request)) rows =
          answer profilesTable ProfileDTO.fromDomain rows
            (referencePatch (fun version => .profileVersionMismatch (some version))
              (profilePatch body a.fields) n.1 now.1.instant a hnow) ↔
        (n.1 = a.version → ∀ fields, profilePatch body a.fields = .ok fields →
          fields ≠ a.fields → a.version + 1 < 2 ^ 63 ∧
            ∀ key s, body.get? key = some (.str s) → isText s = true))) ∧
    ∀ (rows : List SettingsORM) (a : UserSettings zones) (body : Json)
        (request : SettingsPatchRequest) (n : ExpectedVersion) (now : AwareDateTime)
        (hnow : a.createdAt < now.1.instant),
      StoredAt (settingsTable zones) rows a →
      (settingsTable zones).storable (SettingsORM.values a) = true →
      SettingsPatchRequest.modelValidate body = .ok request →
      (runSession (updateSettingsHandler (sessionSettings zones) (pure now.1.instant)
          (patchMySettings a.id n request)) rows =
          answer (settingsTable zones) SettingsDTO.fromDomain rows
            (referencePatch (fun version => .settingsVersionMismatch (some version))
              (settingsPatch body a.fields) n.1 now.1.instant a hnow) ↔
        (n.1 = a.version → ∀ fields, settingsPatch body a.fields = .ok fields →
          fields ≠ a.fields → a.version + 1 < 2 ^ 63)) := by
  refine ⟨fun _ => rfl, fun _ => rfl, ?_, ?_⟩
  · intro rows a body request n now hnow hstored hstorable hbody hunique
    refine (changeVersioned_reference_iff lawful_profiles hstored rfl (sessionProfiles_update hstored)
      .userProfileNotFound _ rfl (profile_patched hbody a.id n now a.fields)).trans ?_
    refine forall_congr' fun _ => forall_congr' fun fields => forall_congr' fun hpatch =>
      forall_congr' fun hne => ?_
    exact renewed_profile_accepted hbody n now hnow hstorable hpatch hne (hunique fields hpatch)
  · intro rows a body request n now hnow hstored hstorable hbody
    refine (changeVersioned_reference_iff (lawful_settings zones) hstored rfl
      (sessionSettings_update hstored) .userSettingsNotFound _ rfl
      (settings_patched hbody a.id n a.fields)).trans ?_
    refine forall_congr' fun _ => forall_congr' fun fields => forall_congr' fun _ =>
      forall_congr' fun hne => ?_
    exact renewed_settings_accepted hzones now hnow hstorable hne

/-! ### A refused rename -/

def moscowOnly : ZoneInfo where
  accepts s := s = "Europe/Moscow".toList
  accepts_default := by decide

def sampleProfile : UserProfile := UserProfile.createDefault 0 (sampleNow false).1.instant

def sampleBody (name : String) : Json := .obj [("display_name".toList, .str name.toList)]

def sampleRequest (name : String) (h : 1 ≤ name.toList.length ∧ name.toList.length ≤ 64) :
    ProfilePatchRequest :=
  ⟨some ⟨name.toList, h⟩, none, none, false⟩

theorem sampleProfile_stored :
    StoredAt profilesTable [ProfileORM.values sampleProfile] sampleProfile where
  mem := List.mem_cons_self
  pkey _ hrow _ := List.mem_singleton.1 hrow

theorem patch_reference_iff_sample :
    runSession (updateProfileHandler sessionProfiles (pure (sampleNow true).1.instant)
        (patchMyProfile sampleProfile.id ⟨1, by decide⟩ (sampleRequest "b" (by decide))))
        [ProfileORM.values sampleProfile] =
      answer profilesTable ProfileDTO.fromDomain [ProfileORM.values sampleProfile]
        (referencePatch (fun version => .profileVersionMismatch (some version))
          (profilePatch (sampleBody "b") sampleProfile.fields) 1 (sampleNow true).1.instant
          sampleProfile (by decide)) := by
  have hzones : ∀ s, moscowOnly.accepts s = true → isText s = true := by
    intro s hs
    rw [of_decide_eq_true hs]
    decide
  refine ((patch_reference_iff hzones).2.2.1 _ sampleProfile (sampleBody "b")
    (sampleRequest "b" (by decide)) ⟨1, by decide⟩ (sampleNow true) (by decide) sampleProfile_stored
    (by decide) rfl ?_).2 ?_
  · rintro fields - other hother hid
    rw [List.mem_singleton.1 hother] at hid
    exact absurd rfl hid
  · rintro - fields - -
    refine ⟨by decide, fun key s hget => ?_⟩
    obtain ⟨e, he, hs⟩ := Option.map_eq_some_iff.1 hget
    rw [List.mem_singleton.1 (List.mem_of_find?_eq_some he)] at hs
    cases hs
    decide

/-- PostgreSQL refuses a name with U+0000 that every layer above accepts. -/
theorem rename_refused :
    ProfilePatchRequest.modelValidate (sampleBody "a\x00b") =
        .ok (sampleRequest "a\x00b" (by decide)) ∧
      runSession (updateProfileHandler sessionProfiles (pure (sampleNow true).1.instant)
          (patchMyProfile sampleProfile.id ⟨1, by decide⟩ (sampleRequest "a\x00b" (by decide))))
          [ProfileORM.values sampleProfile] =
        (.error (.sql .other), [ProfileORM.values sampleProfile]) ∧
      (answer profilesTable ProfileDTO.fromDomain [ProfileORM.values sampleProfile]
        (referencePatch (fun version => .profileVersionMismatch (some version))
          (profilePatch (sampleBody "a\x00b") sampleProfile.fields) 1 (sampleNow true).1.instant
          sampleProfile (by decide))).1.isOk = true :=
  ⟨rfl, rfl, by decide⟩

end ProfileService.Entrypoints
