import ProfileService.Entrypoints.CommandRuns
import ProfileService.Idempotency.BreakerTransparency
import ProfileService.Library.Discipline

/-!
# The order of the locks of an execution

A transaction locks a profile before a settings row before its record, and nothing after
that. A command that sends no username writes each profile with the one it has loaded.
-/

namespace ProfileService.Entrypoints
open Domain Library Library.Machine Application Infrastructure Idempotency

variable {W : Type} [DecidableEq W] {zones : ZoneInfo} {fault : Exn → Prop} {name : TableName}
  {id : UserId} {w u : W} {H : HotStore W} {F : Failures} {α β : Type}
  {s s' : World W H (database W zones fault)} {p : Phase} {keeps : Prop}

/-! ### The order of the locks -/

/-- The place of a table in the order; 0 is no transaction, 1 one without locks and 4 one that
has locked its record. -/
def rank : TableName → Nat
  | .profiles => 2
  | .settings => 3

/-- How far a transaction has come: its last lock, and the profile it loaded before the first. -/
structure Phase where
  lock : Nat
  profile : Option UserProfile

def Phase.loads (p : Phase) :
    (name : TableName) → Except Exn (Option (tableOf zones name).Row) → Option UserProfile
  | .profiles, .ok (some row) => if p.lock = 1 then (ProfileORM.modelValidate row).toOption else none
  | _, _ => p.profile

def Phase.after (p : Phase) (name : TableName) :
    (o : TableOp (tableOf zones name)) → Except Exn o.Reply → Phase
  | .select _, r => ⟨p.lock, p.loads name r⟩
  | .exists_ _, _ => p
  | .update .., _ => ⟨rank name, none⟩
  | .insertOrNothing _, _ => ⟨rank name, none⟩

/-- A profile is written with the username it was loaded with. -/
def KeepsName (profile : Option UserProfile) :
    (name : TableName) → UserId → Option Nat → (tableOf zones name).Row → Prop
  | .profiles, id, v, values => ∃ a a' : UserProfile, profile = some a ∧ id = a.id ∧
      v = some a.version ∧ values = ProfileORM.values a' ∧ a'.id = a.id ∧
      a'.createdAt = a.createdAt ∧ a'.fields.username = a.fields.username
  | .settings, _, _, _ => True

def Nameless : (name : TableName) → (tableOf zones name).Row → Prop
  | .profiles, row => ProfileORM.username row = none
  | .settings, _ => True

/-- Rows are written inside a transaction and in the order of the tables. -/
def Permitted (keeps : Prop) (p : Phase) (name : TableName) : TableOp (tableOf zones name) → Prop
  | .update id v values =>
    (1 ≤ p.lock ∧ p.lock < rank name) ∧ (keeps → KeepsName p.profile name id v values)
  | .insertOrNothing row => (1 ≤ p.lock ∧ p.lock < rank name) ∧ Nameless name row
  | _ => True

def lockOrder (keeps : Prop) : Discipline (dbSig (database W zones fault)) Exn Phase where
  permits p
    | .begin => p.lock = 0
    | .commit => 1 ≤ p.lock
    | .rollback => 1 ≤ p.lock
    | .upsertRecord _ _ => 1 ≤ p.lock ∧ p.lock < 4
    | .stmt ⟨name, o⟩ => Permitted keeps p name o
    | _ => True
  next p
    | .begin, r => ⟨if r.toBool then 1 else 0, none⟩
    | .commit, _ => ⟨0, none⟩
    | .rollback, _ => ⟨0, none⟩
    | .upsertRecord _ _, _ => ⟨4, none⟩
    | .stmt ⟨name, o⟩, r => p.after name o r
    | _, _ => p

def lockOrderOf (keeps : Prop) : Discipline (sig (database W zones fault)) Exn Phase where
  permits p
    | .db o => (lockOrder keeps).permits p o
    | _ => True
  next p
    | .db o, r => (lockOrder keeps).next p o r
    | _, _ => p

def stmtOrder (keeps : Prop) : Discipline (stmtSig (database W zones fault)) Exn Phase where
  permits p
    | .clock => True
    | .stmt o => (lockOrder keeps).permits p (.stmt o)
  next p
    | .clock, _ => p
    | .stmt o, r => (lockOrder keeps).next p (.stmt o) r

theorem lockOrder_agrees : (lockOrder keeps : Discipline (dbSig (database W zones fault)) Exn
    Phase).Agrees (dbInSig _) (lockOrderOf keeps) where
  permits _ _ h := h
  next p o r := by cases r <;> rfl

theorem stmtOrder_agrees : (stmtOrder keeps : Discipline (stmtSig (database W zones fault)) Exn
    Phase).Agrees (stmtInDb _) (lockOrder keeps) where
  permits p o h := by cases o <;> exact h
  next p o r := by cases o <;> cases r <;> rfl

/-! ### The code keeps the order -/

section Unit
variable {x : Code (dbSig (database W zones fault)) Exn α} {Q : Except Exn α → Phase → Prop}

abbrev Inside : Except Exn α → Phase → Prop := fun _ p => 1 ≤ p.lock

abbrev Outside : Except Exn α → Phase → Prop := fun _ p => p.lock = 0

theorem obeys_translated (h : x.Obeys (lockOrder keeps) Q p)
    (hQ : ∀ e e' p, Q (.error e) p → Q (.error e') p) :
    (translated x).Obeys (lockOrder keeps) Q p :=
  h.tryCatch (fun _ _ h => h) fun e p he => hQ e _ p he

theorem obeys_unavailableAs {message : String} (h : x.Obeys (lockOrder keeps) Outside p) :
    (unavailableAs message x).Obeys (lockOrder keeps) Outside p := by
  refine h.tryCatch (fun _ _ h => h) fun e p he => ?_
  cases e <;> exact he

theorem obeys_withUow (h : x.Obeys (lockOrder keeps) Inside ⟨1, none⟩) (hp : p.lock = 0) :
    (withUow x).Obeys (lockOrder keeps) Outside p := by
  have hbegin : (translated (.call .begin .ret) :
      Code (dbSig (database W zones fault)) Exn Unit).Obeys
      (lockOrder keeps) (fun r p => p = ⟨if r.toBool then 1 else 0, none⟩) p :=
    obeys_translated ⟨hp, fun r => rfl⟩ fun _ _ _ h => h
  refine hbegin.bind (fun _ p hp => ?_) fun e p h => h ▸ rfl
  obtain rfl := hp
  refine h.onOutcome fun r p hp => ?_
  have hleave : ∀ o : DbOp (database W zones fault), (lockOrder keeps).permits p o →
      (∀ r, ((lockOrder keeps).next p o r).lock = 0) →
      (translated (.call o .ret)).Obeys (lockOrder keeps) Outside p :=
    fun o ho hnext => obeys_translated ⟨ho, fun r => hnext _⟩ fun _ _ _ h => h
  cases r with
  | ok a => exact (hleave .commit hp fun _ => rfl).bind (fun _ _ h => h) fun _ _ h => h
  | error e => exact (hleave .rollback hp fun _ => rfl).bind (fun _ _ h => h) fun _ _ h => h

end Unit

theorem obeys_utcNow (p : Phase) :
    (utcNow : Code (dbSig (database W zones fault)) Exn Instant).Obeys (lockOrder keeps)
      (fun _ last => last = p) p :=
  ⟨trivial, fun _ => rfl⟩

theorem obeys_findExisting_ {k : IdempotencyKey} {fp : Digest} (hp : p.lock = 0) :
    (findExisting_ k fp : Code (dbSig (database W zones fault)) Exn _).Obeys (lockOrder keeps)
      Outside p := by
  have hread : (getCompleted k : Code (dbSig (database W zones fault)) Exn _).Obeys
      (lockOrder keeps) Inside ⟨1, none⟩ := by
    refine (obeys_utcNow ⟨1, none⟩).bind (fun now p h => ?_) fun e p h => ?_
    · subst h
      exact ⟨trivial, fun r => le_refl 1⟩
    · subst h
      exact le_refl 1
  refine (obeys_withUow hread hp).bind (fun found p h => ?_) fun e p h => h
  cases found with
  | none => exact h
  | some existing =>
    refine (obeys_utcNow p).bind (fun now last hlast => ?_) fun e last hlast => ?_
    · subst hlast
      exact h
    · subst hlast
      exact h

theorem obeys_resolveRace {k : IdempotencyKey} {fp : Digest} {e : Exn} (hp : p.lock = 0) :
    (resolveRace k fp e : Code (dbSig (database W zones fault)) Exn _).Obeys (lockOrder keeps)
      Outside p := by
  refine (obeys_findExisting_ hp).bind (fun found p h => ?_) fun e p h => h
  cases found <;> exact h

/-! ### The handlers -/

abbrev Unrecorded : Except Exn α → Phase → Prop := fun _ p => 1 ≤ p.lock ∧ p.lock < 4

theorem unrecorded_one {p : Phase} (h : p.lock = 1) : 1 ≤ p.lock ∧ p.lock < 4 := by
  rw [h]
  decide

theorem unrecorded_rank {p : Phase} (h : p.lock = rank name) : 1 ≤ p.lock ∧ p.lock < 4 := by
  rw [h]
  cases name <;> decide

section Handlers
variable {a : VersionedMutableEntity (FieldsOf zones name)} {v : Option Nat} {e₁ e₂ : Exn}

theorem obeys_raise {r : Except Exn α} {Q : Except Exn α → Phase → Prop} (h : Q r p) :
    (raise r : Code (stmtSig (database W zones fault)) Exn α).Obeys (stmtOrder keeps) Q p := by
  cases r <;> exact h

theorem obeys_getById (name : TableName) (p : Phase) :
    (getById (statements name) id : Code (stmtSig (database W zones fault)) Exn _).Obeys
      (stmtOrder keeps) (fun _ last => last.lock = p.lock) p := by
  refine ⟨trivial, fun r => ?_⟩
  cases r with
  | error e => rfl
  | ok row =>
    cases row with
    | none => rfl
    | some row =>
      have hraised : (raise ((tableOf zones name).modelValidate row) :
          Code (stmtSig (database W zones fault)) Exn _).Obeys (stmtOrder keeps)
          (fun _ last => last.lock = p.lock) ⟨p.lock, p.loads name (.ok (some row))⟩ :=
        obeys_raise rfl
      exact hraised.bind (fun _ _ h => h) fun _ _ h => h

theorem obeys_getProfile (hp : p.lock = 1) :
    (getById (statements .profiles) id : Code (stmtSig (database W zones fault)) Exn _).Obeys
      (stmtOrder keeps) (fun r last => last.lock = 1 ∧
        ∀ a, r = .ok (some a) → last.profile = some a) p := by
  refine ⟨trivial, fun r => ?_⟩
  cases r with
  | error e => exact ⟨hp, fun a h => by cases h⟩
  | ok row =>
    cases row with
    | none => exact ⟨hp, fun a h => by cases h⟩
    | some row =>
      have hraised : (raise (ProfileORM.modelValidate row) :
          Code (stmtSig (database W zones fault)) Exn UserProfile).Obeys (stmtOrder keeps)
          (fun r last => last.lock = 1 ∧ ∀ a, r = .ok a → last.profile = some a)
          ⟨p.lock, if p.lock = 1 then (ProfileORM.modelValidate row).toOption else none⟩ := by
        refine obeys_raise ⟨hp, fun a h => ?_⟩
        rw [if_pos hp, h]
        rfl
      refine hraised.bind (fun a last h => ⟨h.1, fun b hb => ?_⟩) fun e last h =>
        ⟨h.1, fun a ha => by cases ha⟩
      obtain rfl := Option.some.inj (Except.ok.inj hb)
      exact h.2 a rfl

theorem obeys_update (h : 1 ≤ p.lock ∧ p.lock < rank name)
    (hkeeps : keeps → KeepsName p.profile name a.id v ((tableOf zones name).values a)) :
    (update (statements name) e₁ e₂ a v : Code (stmtSig (database W zones fault)) Exn _).Obeys
      (stmtOrder keeps) (fun _ last => last.lock = rank name) p := by
  refine ⟨⟨h, hkeeps⟩, fun r => ?_⟩
  cases r with
  | error e => rfl
  | ok row =>
    cases row with
    | some row => exact obeys_raise rfl
    | none =>
      refine ⟨trivial, fun r => ?_⟩
      cases r with
      | error e => rfl
      | ok there => cases there <;> rfl

theorem obeys_createDefaultIfAbsent (name : TableName) {userId : UserId} {now : Instant}
    {createDefault : UserId → Instant → VersionedMutableEntity (FieldsOf zones name)}
    (h : 1 ≤ p.lock ∧ p.lock < rank name)
    (hnameless : Nameless name ((tableOf zones name).values (createDefault userId now))) :
    (createDefaultIfAbsent (statements name) e₁ createDefault userId now :
      Code (stmtSig (database W zones fault)) Exn _).Obeys
      (stmtOrder keeps) (fun _ last => last.lock = rank name) p := by
  refine ⟨⟨h, hnameless⟩, fun r => ?_⟩
  cases r with
  | error e => rfl
  | ok row =>
    cases row with
    | some row => exact obeys_raise rfl
    | none =>
      refine (obeys_getById name ⟨rank name, none⟩).bind (fun found p h => ?_) fun e p h => h
      cases found <;> exact h

theorem obeys_changeVersioned (name : TableName)
    {K : Phase → VersionedMutableEntity (FieldsOf zones name) → Prop}
    {repository : RepositoryProtocol (Code (stmtSig (database W zones fault)) Exn)
      (FieldsOf zones name)}
    {expectedVersion : Nat} {notFound : DomainError} {mismatch : Nat → DomainError}
    {change : Change (FieldsOf zones name)}
    (hget : (repository.getById id).Obeys (stmtOrder keeps)
      (fun r last => last.lock = 1 ∧ ∀ a, r = .ok (some a) → K last a) ⟨1, none⟩)
    (hupdate : ∀ p now a a', p.lock = 1 → K p a → a.version = expectedVersion →
      change now a = .ok (true, a') →
      (repository.update a' (some expectedVersion)).Obeys (stmtOrder keeps) Unrecorded p) :
    (changeVersioned handlerClock repository id expectedVersion notFound mismatch change).Obeys
      (stmtOrder keeps) Unrecorded ⟨1, none⟩ := by
  refine hget.bind (fun found p h => ?_) fun e p h => unrecorded_one h.1
  obtain ⟨hp, hknows⟩ := h
  cases found with
  | none => exact unrecorded_one hp
  | some entity =>
    show (if _ then _ else _ : Code (stmtSig (database W zones fault)) Exn _).Obeys _ _ p
    split
    · exact unrecorded_one hp
    · rename_i hversion
      refine ⟨trivial, fun now => ?_⟩
      cases now with
      | error e => exact unrecorded_one hp
      | ok now =>
        show (raiseDomain (change now entity) >>= _ :
          Code (stmtSig (database W zones fault)) Exn _).Obeys (stmtOrder keeps) Unrecorded p
        cases hchange : change now entity with
        | error d => exact unrecorded_one hp
        | ok changed =>
          obtain ⟨changed, entity'⟩ := changed
          cases changed with
          | false => exact unrecorded_one hp
          | true =>
            exact hupdate p now entity entity' hp (hknows entity rfl) (not_not.1 hversion) hchange

theorem obeys_profiles_update {a : UserProfile} (hp : p.lock = 1)
    (hkeeps : keeps → @KeepsName zones p.profile .profiles a.id v (ProfileORM.values a)) :
    ((profiles : RepositoryProtocol (Code (stmtSig (database W zones fault)) Exn) _).update a
      v).Obeys (stmtOrder keeps) Unrecorded p := by
  have hplain : (update (statements .profiles) (.domain .userProfileNotFound)
      (.domain (.profileVersionMismatch none)) a v :
        Code (stmtSig (database W zones fault)) Exn _).Obeys (stmtOrder keeps)
      (fun _ last => last.lock = rank .profiles) p := obeys_update (by rw [hp]; decide) hkeeps
  exact hplain.tryCatch (fun a p h => unrecorded_rank h) fun e p h => unrecorded_rank h

theorem obeys_settings_update {a : UserSettings zones} (hp : p.lock = 1) :
    ((settings : RepositoryProtocol (Code (stmtSig (database W zones fault)) Exn) _).update a
      v).Obeys (stmtOrder keeps) Unrecorded p := by
  have hplain : (update (statements .settings) (.domain .userSettingsNotFound)
      (.domain (.settingsVersionMismatch none)) a v :
        Code (stmtSig (database W zones fault)) Exn _).Obeys (stmtOrder keeps)
      (fun _ last => last.lock = rank .settings) p :=
    obeys_update (by rw [hp]; decide) fun _ => trivial
  exact hplain.imp fun r p h => unrecorded_rank h

end Handlers

/-- A command that sends a username. -/
def renames : Command → Bool
  | .updateProfile c => c.username.isSome
  | _ => false

theorem kept_username {command : Command} {u : RowUpdate zones .profiles} {now : Instant}
    {a a' : UserProfile} (hcommand : renames command = false)
    (hu : rowUpdate zones .profiles command = some u) (hok : u.change now a = .ok (true, a')) :
    a'.fields.username = a.fields.username := by
  have hsame : ∀ {changes : ProfileData → ProfileData},
      a.applyChanges_ now changes = .ok (true, a') →
      (changes (ProfileFields.modelDump a.fields)).username = a.fields.username.map Subtype.val →
      a'.fields.username = a.fields.username := by
    intro changes hchanges hname
    obtain ⟨hfields, -⟩ := VersionedMutableEntity.applyChanges_ok hchanges
    obtain ⟨husername, -⟩ := ProfileFields.modelValidate_ok.1 hfields
    have hread : optionalOfStr Username.ofStr (changes (ProfileFields.modelDump a.fields)).username =
        .ok a'.fields.username := husername
    rw [hname, optionalOfStr_val Username.ofStr_val] at hread
    exact (Except.ok.inj hread).symm
  cases command with
  | updateProfile c =>
    cases hu
    have hupdated : UserProfile.updateProfile now c.displayName c.bio c.username a = .ok (true, a') :=
      hok
    unfold UserProfile.updateProfile at hupdated
    refine hsame hupdated ?_
    change c.username.isSome = false at hcommand
    rw [Option.isSome_eq_false_iff, Option.isNone_iff_eq_none] at hcommand
    show c.username.or _ = _
    rw [hcommand]
    rfl
  | updateAvatar c =>
    cases hu
    have hupdated : UserProfile.updateAvatar c.avatarKey now a = .ok (true, a') := hok
    unfold UserProfile.updateAvatar at hupdated
    exact hsame hupdated rfl
  | createDefaultProfile c => cases hu
  | updateSettings c => cases hu
  | resetSettings c => cases hu

theorem obeys_invokeHandler {CommandT ResultT : Type}
    {registration : CommandHandlerRegistration (Code (stmtSig (database W zones fault)) Exn)
      CommandT ResultT} {command : CommandT} {mode : ResultMode}
    (h : (registration.handler command).Obeys (stmtOrder keeps) Unrecorded p) :
    (invokeHandler registration command mode).Obeys (stmtOrder keeps) Unrecorded p := by
  refine h.bind (fun result p h => ?_) fun e p h => h
  cases mode <;> exact h

theorem obeys_changeProfile {command : Command} {u : RowUpdate zones .profiles}
    {notFound : DomainError} {mismatch : Nat → DomainError}
    (hu : rowUpdate zones .profiles command = some u) :
    (changeVersioned handlerClock (profiles : RepositoryProtocol
      (Code (stmtSig (database W zones fault)) Exn) _) u.userId u.expectedVersion notFound mismatch
      u.change).Obeys (stmtOrder (renames command = false)) Unrecorded ⟨1, none⟩ := by
  refine obeys_changeVersioned .profiles (K := fun p a => p.profile = some a) (obeys_getProfile rfl)
    fun p now a a' hp hknown hversion hok => obeys_profiles_update hp fun hkeeps => ?_
  obtain ⟨hid, hcreated, -⟩ := rowUpdate_kept hu hok
  exact ⟨a, a', hknown, hid, congrArg some hversion.symm, rfl, hid, hcreated,
    kept_username hkeeps hu hok⟩

theorem obeys_changeSettings {userId : UserId} {expectedVersion : Nat} {notFound : DomainError}
    {mismatch : Nat → DomainError} {change : Change (SettingsFields zones)} :
    (changeVersioned handlerClock (settings : RepositoryProtocol
      (Code (stmtSig (database W zones fault)) Exn) _) userId expectedVersion notFound mismatch
      change).Obeys (stmtOrder keeps) Unrecorded ⟨1, none⟩ := by
  exact obeys_changeVersioned .settings (K := fun _ _ => True)
    ((obeys_getById .settings ⟨1, none⟩).imp fun r p h => ⟨h, fun _ _ => trivial⟩)
    fun p now a a' hp _ _ _ => obeys_settings_update hp

theorem obeys_operation {D : Deployment} {mode : ResultMode} (command : Command) :
    (operationOf D zones fault mode command : Operation (database W zones fault)).hotDurable.Obeys
      (stmtOrder (renames command = false)) Unrecorded ⟨1, none⟩ := by
  have hreturn : ∀ {F R : Type} {keeps : Prop} {f : F → R}
      {x : Code (stmtSig (database W zones fault)) Exn F},
      x.Obeys (stmtOrder keeps) Unrecorded ⟨1, none⟩ →
      (x >>= fun a => pure (f a)).Obeys (stmtOrder keeps) Unrecorded ⟨1, none⟩ :=
    fun h => h.bind (fun _ _ h => h) fun _ _ h => h
  cases command with
  | createDefaultProfile c =>
    refine obeys_invokeHandler ?_
    have hprofile : ((profiles : RepositoryProtocol (Code (stmtSig (database W zones fault)) Exn)
        _).createDefaultIfAbsent c.userId c.registeredAt.instant).Obeys
        (stmtOrder (renames (.createDefaultProfile c) = false))
        (fun _ last => last.lock = rank .profiles) ⟨1, none⟩ :=
      obeys_createDefaultIfAbsent .profiles (by decide) rfl
    have hsettings : ∀ p : Phase, p.lock = rank .profiles →
        ((settings : RepositoryProtocol (Code (stmtSig (database W zones fault)) Exn)
          (SettingsFields zones)).createDefaultIfAbsent c.userId c.registeredAt.instant).Obeys
        (stmtOrder (renames (.createDefaultProfile c) = false))
        (fun _ last => last.lock = rank .settings) p := fun p hp =>
      obeys_createDefaultIfAbsent .settings (by rw [hp]; decide) trivial
    refine hprofile.bind (fun _ p h => ?_) fun e p h => unrecorded_rank h
    exact (hsettings p h).bind (fun _ p h => unrecorded_rank h) fun e p h => unrecorded_rank h
  | updateProfile c =>
    have hu : rowUpdate zones .profiles (.updateProfile c) =
      some ⟨c.userId, c.expectedVersion, c.change⟩ := rfl
    exact obeys_invokeHandler (hreturn (obeys_changeProfile hu))
  | updateAvatar c =>
    have hu : rowUpdate zones .profiles (.updateAvatar c) =
      some ⟨c.userId, c.expectedVersion, c.change⟩ := rfl
    exact obeys_invokeHandler (hreturn (obeys_changeProfile hu))
  | updateSettings c => exact obeys_invokeHandler (hreturn obeys_changeSettings)
  | resetSettings c => exact obeys_invokeHandler (hreturn obeys_changeSettings)

/-! ### The executions -/

section Execution
variable {k : IdempotencyKey} {fp : Digest} {retentionSeconds : Nat}
  {operation : Code (stmtSig (database W zones fault)) Exn StoredResult}

theorem obeys_tryAddCompleted {completed : CompletedIdempotencyResult}
    (h : 1 ≤ p.lock ∧ p.lock < 4) :
    (tryAddCompleted k completed : Code (dbSig (database W zones fault)) Exn Bool).Obeys
      (lockOrder keeps) Inside p := by
  refine (obeys_utcNow p).bind (fun now last hlast => ?_) fun e last hlast => hlast ▸ h.1
  subst hlast
  show (if _ : _ then _ else _ : Code (dbSig (database W zones fault)) Exn Bool).Obeys _ _ _
  split
  · exact ⟨h, fun r => (by decide : 1 ≤ 4)⟩
  · exact h.1

theorem obeys_executeInTransaction
    (h : operation.Obeys (stmtOrder keeps) Unrecorded ⟨1, none⟩) :
    (executeInTransaction k fp operation retentionSeconds).Obeys (lockOrder keeps) Inside
      ⟨1, none⟩ := by
  refine (h.lift stmtOrder_agrees).bind (fun stored p hp => ?_) fun e p hp => hp.1
  refine (obeys_utcNow p).bind (fun now last hlast => ?_) fun e last hlast => hlast ▸ hp.1
  subst hlast
  have hdeadline : (Code.ret (deadlineAfter now retentionSeconds) :
      Code (dbSig (database W zones fault)) Exn Deadline).Obeys (lockOrder keeps)
      (fun _ p => p = last) last := rfl
  refine hdeadline.bind (fun expiresAt p hsame => ?_) fun e p hsame => hsame ▸ hp.1
  subst hsame
  refine (obeys_tryAddCompleted hp).bind (fun added last hlast => ?_) fun e last hlast => hlast
  cases added <;> exact hlast

theorem obeys_executeOnce (h : operation.Obeys (stmtOrder keeps) Unrecorded ⟨1, none⟩)
    (hp : p.lock = 0) :
    (executeOnce k fp operation retentionSeconds).Obeys (lockOrder keeps) Outside p := by
  unfold executeOnce
  split
  · exact hp
  · refine obeys_unavailableAs ((obeys_findExisting_ hp).bind (fun found p hp => ?_)
      fun e p hp => hp)
    cases found with
    | some existing => exact hp
    | none =>
      refine (obeys_withUow (obeys_executeInTransaction h) hp).onOutcome fun r p hp => ?_
      cases r with
      | ok completed => exact hp
      | error e =>
        show (if _ then _ else _ : Code (dbSig (database W zones fault)) Exn _).Obeys _ _ _
        split
        · exact obeys_resolveRace hp
        · exact hp

end Execution

theorem obeys_of_settles {x : Code (sig (database W zones fault)) Exn α} (h : x.AllCalls Op.Settles)
    (hp : p.lock = 0) : x.Obeys (lockOrderOf keeps) Outside p := by
  have hsteady : x.Obeys (lockOrderOf keeps) (fun _ last => last = p) p := by
    refine Code.Obeys.of_steady (h.imp fun o ho => ?_)
    cases o with
    | hot c => exact fun _ => ⟨trivial, fun _ => rfl⟩
    | leaseLost => exact fun _ => ⟨trivial, fun _ => rfl⟩
    | db o =>
      cases o with
      | clock => exact fun _ => ⟨trivial, fun _ => rfl⟩
      | _ => exact ho.elim
    | _ => exact ho.elim
  exact hsteady.imp fun r last h => h ▸ hp

section Coordinator
variable {identity : IdempotencyKey} {requestFingerprint : Digest} {leaseToken : Token}
  {policy : IdempotencyPolicy} {operation : Operation (database W zones fault)}

theorem obeys_executeDurable (h : operation.hotDurable.Obeys (stmtOrder keeps) Unrecorded ⟨1, none⟩)
    {retentionSeconds : Nat} (hp : p.lock = 0) :
    (executeDurable identity requestFingerprint operation retentionSeconds).Obeys
      (lockOrderOf keeps) Outside p :=
  (obeys_executeOnce h hp).lift lockOrder_agrees

theorem obeys_executeClaimed (hmode : policy.mode = .hotDurable)
    (h : operation.hotDurable.Obeys (stmtOrder keeps) Unrecorded ⟨1, none⟩) (hp : p.lock = 0) :
    (executeClaimed identity requestFingerprint leaseToken operation policy).Obeys
      (lockOrderOf keeps) Outside p := by
  refine ⟨trivial, fun started => ?_⟩
  cases started with
  | error e => exact hp
  | ok _ =>
    have hbody : (tryCatch (executeOperation identity requestFingerprint operation policy)
        (abandonClaim identity leaseToken)).Obeys (lockOrderOf keeps) Outside p := by
      unfold executeOperation
      rw [if_pos hmode]
      exact (obeys_executeDurable h hp).tryCatch (fun _ _ hlast => hlast) fun e last hlast =>
        obeys_of_settles (settles_abandonClaim e) hlast
    have hstop : ((tryCatch (executeOperation identity requestFingerprint operation policy)
        (abandonClaim identity leaseToken)).andFinally (.call .stopHeartbeat .ret)).Obeys
        (lockOrderOf keeps) Outside p := by
      refine hbody.onOutcome fun r last hlast => ⟨trivial, fun stopped => ?_⟩
      cases stopped <;> exact hlast
    exact hstop.bind (fun result last hlast => obeys_of_settles settles_publish hlast)
      fun e last hlast => hlast

theorem obeys_execute (hmode : policy.mode = .hotDurable)
    (h : operation.hotDurable.Obeys (stmtOrder keeps) Unrecorded ⟨1, none⟩) (hp : p.lock = 0) :
    (execute identity requestFingerprint operation policy leaseToken).Obeys (lockOrderOf keeps)
      Outside p := by
  have hbusy : ∀ busy, (resolveBusy identity requestFingerprint busy policy :
      Code (sig (database W zones fault)) Exn _).Obeys (lockOrderOf keeps) Outside p := by
    intro busy
    unfold resolveBusy
    rw [if_pos hmode]
    have hlookup : ((findExisting identity requestFingerprint).lift
        (dbInSig (database W zones fault))).Obeys (lockOrderOf keeps) Outside p :=
      (obeys_unavailableAs (obeys_findExisting_ hp)).lift lockOrder_agrees
    refine hlookup.bind (fun found last hlast => ?_) fun e last hlast => hlast
    cases found with
    | none => exact obeys_of_settles (settles_evaluateResult _) hlast
    | some existing => exact obeys_of_settles (settles_evaluateResult _) hlast
  refine ⟨trivial, fun r => ?_⟩
  cases r with
  | ok claim =>
    cases claim with
    | acquired => exact obeys_executeClaimed hmode h hp
    | replay completed =>
      show (evaluateResult (.replay completed) :
        Code (sig (database W zones fault)) Exn _).Obeys _ _ p
      exact obeys_of_settles (settles_evaluateResult _) hp
    | conflict => exact hbusy _
    | inProgress => exact hbusy _
  | error e =>
    cases e with
    | idempotencyUnavailable message =>
      show (if _ then _ else _ : Code (sig (database W zones fault)) Exn _).Obeys _ _ _
      split
      · exact hp
      · exact (obeys_executeDurable h hp).bind
          (fun result last hlast => obeys_of_settles (settles_evaluateResult _) hlast)
          fun e last hlast => hlast
    | _ => exact hp

end Coordinator

end ProfileService.Entrypoints
