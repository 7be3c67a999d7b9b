import ProfileService.Entrypoints.Routes
import ProfileService.Idempotency.Answers
import ProfileService.Idempotency.Escapes
import ProfileService.Infrastructure.Concurrency

/-!
# No expected error escapes as an internal server error

Which exceptions a dispatch of a writing route can end with, for any rows, any other
dispatches and any failures of the two stores, and which of them have a handler: all but
the refusal of a clock that is not past the creation of the row.
-/

namespace ProfileService.Entrypoints
open Domain Library Library.Machine Application Infrastructure Idempotency

/-! ### The registered classes -/

/-- The client gets an answer of its own for the exception, a 4xx or a 503. -/
def Call.Handled (call : Call) (e : Exn) : Prop :=
  ∃ response, (call.translate e).or (exceptionHandler e) = some response ∧
    ((400 ≤ response.status ∧ response.status < 500) ∨ response.status = 503)

def Registered (d : DomainError) : Prop := (exceptionHandler (.domain d)).isSome = true

theorem exceptionHandler_status {e : Exn} {response : Response}
    (h : exceptionHandler e = some response) :
    (400 ≤ response.status ∧ response.status < 500) ∨ response.status = 503 := by
  unfold exceptionHandler at h
  split at h
  all_goals cases h
  all_goals simp [profileNotFound, profileUnavailable, versionConflict, invalidInput, conflict,
    inProgress]

theorem translate_status {call : Call} {e : Exn} {response : Response}
    (h : call.translate e = some response) : response.status = 404 := by
  unfold Call.translate at h
  split at h
  · cases h
    rfl
  · cases h

theorem Call.handled_of_registered {call : Call} {e : Exn}
    (h : (exceptionHandler e).isSome = true) : call.Handled e := by
  obtain ⟨response, hresponse⟩ := Option.isSome_iff_exists.1 h
  cases ht : call.translate e with
  | some translated =>
    have hstatus : translated.status = 404 := translate_status ht
    refine ⟨translated, by rw [ht]; rfl, .inl ?_⟩
    omega
  | none => exact ⟨response, by rw [ht]; exact hresponse, exceptionHandler_status hresponse⟩

theorem registered_of_orchestration {e : Exn} (h : e.isOrchestration = true)
    (hexpected : e.isExpected = true) : (exceptionHandler e).isSome = true := by
  cases e with
  | domain d => cases h
  | idempotencyResultNotStored message => cases h
  | idempotencyKeyRequired message => rfl
  | idempotencyScopeRequired message => cases h
  | transactionConflict => rfl
  | persistenceUnavailable => rfl
  | idempotencyUnavailable message => rfl
  | idempotencyConflict message => rfl
  | idempotencyInProgress message => rfl
  | storedReplayUnavailable message => rfl
  | _ => cases hexpected

theorem registered_of_race {d : DomainError} (h : Exn.isRaceError (.domain d) = true) :
    Registered d := by
  cases d with
  | profileVersionMismatch version => rfl
  | settingsVersionMismatch version => rfl
  | _ => cases h

/-! ### What the aggregates refuse -/

theorem optionalOfStr_registered {α : Type} {ofStr : Str → Except DomainError α} {s : Option Str}
    {d : DomainError} (hofStr : ∀ s d, ofStr s = .error d → Registered d)
    (h : optionalOfStr ofStr s = .error d) : Registered d := by
  cases s with
  | none => cases h
  | some s =>
    cases hs : ofStr s with
    | ok a =>
      rw [optionalOfStr, hs] at h
      cases h
    | error d' =>
      rw [optionalOfStr, hs] at h
      cases h
      exact hofStr s d hs

theorem username_registered {s : Str} {d : DomainError} (h : Username.ofStr s = .error d) :
    Registered d := by
  unfold Username.ofStr at h
  dsimp only at h
  split at h
  · split at h
    · cases h
      rfl
    · cases h
  · cases h
    rfl

theorem displayName_registered {s : Str} {d : DomainError} (h : DisplayName.ofStr s = .error d) :
    Registered d := by
  unfold DisplayName.ofStr at h
  dsimp only at h
  split at h
  · split at h
    · cases h
    · cases h
      rfl
  · cases h
    rfl

theorem bio_registered {s : Str} {d : DomainError} (h : Bio.ofStr s = .error d) :
    Registered d := by
  unfold Bio.ofStr at h
  split at h
  · split at h
    · cases h
    · cases h
      rfl
  · cases h
    rfl

theorem profile_registered {data : ProfileData} {d : DomainError}
    (h : ProfileFields.modelValidate data = .error d) : Registered d := by
  unfold ProfileFields.modelValidate at h
  cases husername : optionalOfStr Username.ofStr data.username with
  | error e =>
    rw [husername] at h
    cases h
    exact optionalOfStr_registered (fun _ _ => username_registered) husername
  | ok username =>
    rw [husername] at h
    cases hname : DisplayName.ofStr data.displayName with
    | error e =>
      rw [hname] at h
      cases h
      exact displayName_registered hname
    | ok displayName =>
      rw [hname] at h
      cases hbio : optionalOfStr Bio.ofStr data.bio with
      | error e =>
        rw [hbio] at h
        cases h
        exact optionalOfStr_registered (fun _ _ => bio_registered) hbio
      | ok bio =>
        rw [hbio] at h
        cases h

variable {zones : ZoneInfo}

theorem settings_registered {data : SettingsData} {d : DomainError}
    (h : (SettingsFields.modelValidate data : Except DomainError (SettingsFields zones)) =
      .error d) : Registered d := by
  unfold SettingsFields.modelValidate at h
  cases htimezone : Timezone.ofStr zones data.timezone with
  | ok timezone =>
    rw [htimezone] at h
    cases h
  | error e =>
    rw [htimezone] at h
    cases h
    unfold Timezone.ofStr at htimezone
    dsimp only at htimezone
    split at htimezone
    · cases htimezone
    · cases htimezone
      rfl

/-- What the argument needs of a change: it keeps identity and creation time, and its
refusals are registered, except that of a clock not past the creation. -/
structure Decent {F : Type} (change : Change F) : Prop where
  kept : ∀ {now a a'}, change now a = .ok (true, a') → a'.id = a.id ∧ a'.createdAt = a.createdAt
  refused : ∀ {now a d}, change now a = .error d → Registered d ∨
    (d = .invalidTimestamp ∧ now ≤ a.createdAt ∧ ∃ later a', change later a = .ok (true, a'))

theorem updateProfile_decent (command : UpdateProfileCommand) : Decent command.change where
  kept h := by
    unfold UpdateProfileCommand.change UserProfile.updateProfile at h
    obtain ⟨-, hid, hcreated, -⟩ := VersionedMutableEntity.applyChanges_ok h
    exact ⟨hid, hcreated⟩
  refused h := by
    unfold UpdateProfileCommand.change UserProfile.updateProfile at h ⊢
    rcases VersionedMutableEntity.applyChanges_error h with hv | hlate
    · exact .inl (profile_registered hv)
    · exact .inr hlate

theorem updateSettings_decent (command : UpdateSettingsCommand) :
    Decent (command.change : Change (SettingsFields zones)) where
  kept h := by
    unfold UpdateSettingsCommand.change UserSettings.updateSettings at h
    obtain ⟨-, hid, hcreated, -⟩ := VersionedMutableEntity.applyChanges_ok h
    exact ⟨hid, hcreated⟩
  refused h := by
    unfold UpdateSettingsCommand.change UserSettings.updateSettings at h ⊢
    rcases VersionedMutableEntity.applyChanges_error h with hv | hlate
    · exact .inl (settings_registered hv)
    · exact .inr hlate

/-! ### What the handlers raise -/

section Handlers
variable {W : Type} [DecidableEq W] {H : HotStore W} {F : Failures} {fault : Exn → Prop}
  {name : TableName} {w : W} {id : UserId} {expectedVersion : Nat}
  {s s' : World W H (database W zones fault)}
  {D : DomainError → World W H (database W zones fault) → Prop}

/-- The last clock reading of `w` is not past the creation of the stored version that
the change was to replace. -/
def LateChange (name : TableName) (id : UserId) (expectedVersion : Nat)
    (change : Change (FieldsOf zones name)) (w : W) (s : World W H (database W zones fault)) : Prop :=
  ∃ a, Loaded name a s ∧ a.id = id ∧ a.version = expectedVersion ∧ s.clockRead w ≤ a.createdAt ∧
    ∃ later a', change later a = .ok (true, a')

theorem LateChange.frame {change : Change (FieldsOf zones name)}
    (h : LateChange name id expectedVersion change w s) (hf : Frame w s s') :
    LateChange name id expectedVersion change w s' := by
  obtain ⟨a, hloaded, hid, hversion, hclock, hlater⟩ := h
  exact ⟨a, hloaded.frame hf, hid, hversion, hf.clockRead ▸ hclock, hlater⟩

theorem LateChange.rollback {change : Change (FieldsOf zones name)}
    (h : LateChange name id expectedVersion change w s) :
    LateChange name id expectedVersion change w (s.rollback w) := by
  obtain ⟨a, ⟨v, hv, hrow⟩, hid, hversion, hclock, hlater⟩ := h
  have hversions : (rowOf name a.id (s.rollback w)).versions = (rowOf name a.id s).versions :=
    Row.rollback_versions
  exact ⟨a, ⟨v, hversions ▸ hv, hrow⟩, hid, hversion, hclock, hlater⟩

abbrev RaisesStmt {α : Type} (F : Failures) (w : W)
    (D : DomainError → World W H (database W zones fault) → Prop)
    (x : Code (stmtSig (database W zones fault)) Exn α)
    (s : World W H (database W zones fault)) : Prop :=
  SafeStmt F Sound w (Raises (Escapes D)) x s

variable (hfault : ∀ e, fault e → e.isOrchestration = true)
  (hregistered : ∀ d s, Registered d → D d s)

include hfault hregistered

theorem raises_update {a a' : VersionedMutableEntity (FieldsOf zones name)} {v : Option Nat}
    {missingError : Exn} {conflictError : DomainError} (hconflict : Registered conflictError)
    (ht : s.inTransaction w = true) (hloaded : Loaded name a s) (hid : a'.id = a.id)
    (hcreated : a'.createdAt = a.createdAt) :
    RaisesStmt F w D (update (statements name) missingError (.domain conflictError) a' v) s := by
  refine safe_update (fun _ hi => hi) hfault ht hloaded hid hcreated ?_ ?_ ?_ ?_
  · intro s₁ rows hf hi ht₁ hs
    exact hi.update ht₁ (hloaded.frame hf) hid hcreated hs
  · exact fun s₁ _ => raises_ok a' s₁
  · exact fun e s₁ he => raises_error (.inl he)
  · exact fun s₁ => raises_error (.inr ⟨conflictError, rfl, hregistered _ _ hconflict⟩)

omit hfault in
theorem escapes_usernameTaken {e : Exn} (h : Escapes D e s) : Escapes D (usernameTaken e) s := by
  rcases h with h | ⟨d, rfl, hd⟩
  · unfold usernameTaken
    split
    · split
      · exact .inr ⟨_, rfl, hregistered _ _ rfl⟩
      · exact .inl rfl
    · exact .inl h
  · exact .inr ⟨d, rfl, hd⟩

variable (name) in
theorem raises_changeVersioned
    {repository : RepositoryProtocol (Code (stmtSig (database W zones fault)) Exn)
      (FieldsOf zones name)}
    {notFound : DomainError} {mismatch : Nat → DomainError} {change : Change (FieldsOf zones name)}
    (hchange : Decent change) (hnotFound : Registered notFound)
    (hmismatch : ∀ version, Registered (mismatch version))
    (hlate : ∀ s, LateChange name id expectedVersion change w s → D .invalidTimestamp s)
    (hget : repository.getById id = getById (statements name) id)
    (hupdate : ∀ {a a' : VersionedMutableEntity (FieldsOf zones name)} {s}, s.inTransaction w = true →
      Loaded name a s → a'.id = a.id → a'.createdAt = a.createdAt →
      RaisesStmt F w D (repository.update a' (some expectedVersion)) s)
    (ht : s.inTransaction w = true) (hown : (rowOf name id s).own w = none) :
    RaisesStmt F w D (changeVersioned handlerClock repository id expectedVersion notFound mismatch
      change) s := by
  have hknown : ∀ {d : DomainError} (s : World W H (database W zones fault)), Registered d →
      Raises (Escapes D)
        (.error (.domain d) : Except Exn (VersionedMutableEntity (FieldsOf zones name))) s :=
    fun s hd => raises_error (.inr ⟨_, rfl, hregistered _ s hd⟩)
  refine safe_changeVersioned ?_ (fun _ hi => hi.readClock) ht ?_ ?_ ?_ ?_ ?_ ?_
  · rw [hget]
    exact safe_getById (fun _ hi => hi) ht hown
  · exact fun e s₁ he => raises_error (.inl (hfault e he))
  · exact fun s₁ _ => hknown s₁ hnotFound
  · exact fun a s₁ _ _ _ => hknown s₁ (hmismatch _)
  · intro a s₁ d hid hloaded _ hversion hrefused
    rcases hchange.refused hrefused with hd | ⟨rfl, hclock, hlater⟩
    · exact hknown s₁ hd
    · exact raises_error (.inr ⟨_, rfl, hlate s₁ ⟨a, hloaded, hid, hversion, hclock, hlater⟩⟩)
  · exact fun a a' s₁ _ _ _ _ _ => raises_ok a' s₁
  · intro a a' s₁ hid hloaded _ hok ht₁ _ _
    obtain ⟨hid', hcreated⟩ := hchange.kept hok
    exact hupdate ht₁ hloaded hid' hcreated

theorem raises_updateProfileHandler {command : UpdateProfileCommand}
    (hframe : ∀ {d s s'}, D d s → Frame w s s' → D d s')
    (hlate : ∀ s, LateChange .profiles command.userId command.expectedVersion command.change w s →
      D .invalidTimestamp s)
    (ht : s.inTransaction w = true) (hown : (rowOf .profiles command.userId s).own w = none) :
    RaisesStmt F w D (updateProfileHandler profiles handlerClock command) s := by
  refine Safe.bind_raises (raises_changeVersioned .profiles hfault hregistered
    (updateProfile_decent command) rfl (fun _ => rfl) hlate rfl ?_ ht hown)
    fun profile s₁ _ => fun s₂ _ _ => raises_ok _ s₂
  intro a a' s₁ ht₁ hloaded hid hcreated
  refine Safe.tryCatch (raises_update hfault hregistered rfl ht₁ hloaded hid hcreated)
    (fun a s₂ _ => raises_ok a s₂) fun e s₂ he _ => ?_
  intro s₃ hf _
  refine raises_error ?_
  rcases escapes_usernameTaken hregistered (he e rfl) with h | ⟨d, hd, hknown⟩
  · exact .inl h
  · exact .inr ⟨d, hd, hframe hknown hf⟩

theorem raises_updateSettingsHandler {command : UpdateSettingsCommand}
    (hlate : ∀ s, LateChange .settings command.userId command.expectedVersion command.change w s →
      D .invalidTimestamp s)
    (ht : s.inTransaction w = true) (hown : (rowOf .settings command.userId s).own w = none) :
    RaisesStmt F w D (updateSettingsHandler (@settings W _ zones fault) handlerClock command) s := by
  refine Safe.bind_raises (raises_changeVersioned .settings hfault hregistered
    (updateSettings_decent command) rfl (fun _ => rfl) hlate rfl ?_ ht hown)
    fun settings s₁ _ => fun s₂ _ _ => raises_ok _ s₂
  intro a a' s₁ ht₁ hloaded hid hcreated
  exact raises_update hfault hregistered rfl ht₁ hloaded hid hcreated

omit hregistered in
theorem raises_createDefaultProfileHandler {command : CreateDefaultProfileCommand}
    (ht : s.inTransaction w = true) (hown : ∀ name, (rowOf name command.userId s).own w = none) :
    RaisesStmt F w D (createDefaultProfileHandler profiles (@settings W _ zones fault) command) s := by
  have hprofiles : SafeStmt F Sound w (fun r s' => (∀ e, r = .error e → e.isOrchestration = true) ∧
      (∀ a, r = .ok a → s'.inTransaction w = true ∧
        (rowOf .settings command.userId s').own w = none))
      (createDefaultIfAbsent (statements .profiles) (.domain .userProfileNotFound)
        UserProfile.createDefault command.userId command.registeredAt.instant) s := by
    refine safe_createDefaultIfAbsent .profiles (fun _ hi => hi) hfault rfl ht
      (hown .profiles) ?_ ?_ ?_
    · exact fun s₁ rows _ hi ht₁ hs => hi.insert ht₁ hs
    · intro a s₁ _ ht₁ hothers
      refine ⟨nofun, fun _ _ => ⟨ht₁, ?_⟩⟩
      exact (hothers .settings command.userId TableName.noConfusion).trans (hown .settings)
    · intro e s₁ he
      refine ⟨fun e' h => ?_, nofun⟩
      cases h
      exact he
  refine hprofiles.bind (fun profile s₁ hp _ => ?_) fun e s₁ hp => raises_error (.inl (hp.1 e rfl))
  obtain ⟨ht₁, hown₁⟩ := hp.2 profile rfl
  have hsettings : RaisesStmt F w D (createDefaultIfAbsent (statements .settings)
      (.domain .userSettingsNotFound) (@UserSettings.createDefault zones) command.userId
      command.registeredAt.instant) s₁ := by
    refine safe_createDefaultIfAbsent .settings (fun _ hi => hi) hfault rfl ht₁ hown₁ ?_ ?_ ?_
    · exact fun s₂ rows _ hi ht₂ hs => hi.insert ht₂ hs
    · exact fun a s₂ _ _ _ => raises_ok a s₂
    · exact fun e s₂ he => raises_error (.inl he)
  exact hsettings.bind_raises fun _ s₂ _ => fun s₃ _ _ => raises_ok () s₃

end Handlers

end ProfileService.Entrypoints
