import Mathlib.Data.List.Pairwise
import ProfileService.Infrastructure.Concurrency
import ProfileService.Library.RowTrace

/-!
# The history of a row

Every version of a row is the default that a provisioning inserted where there was none, or
what an updating command made of the version it expected. A version number therefore
belongs to one content for ever, and a conditional update writes over what was loaded.
-/

namespace ProfileService.Infrastructure
open Domain Library Library.Machine Application Idempotency

variable {W : Type} [DecidableEq W] {zones : ZoneInfo} {fault : Exn → Prop}
  {H : HotStore W} {F : Failures} {name : TableName} {w : W} {id : UserId}
  {s s' : World W H (database W zones fault)}

/-! ### What a command makes of a row -/

structure RowUpdate (zones : ZoneInfo) (name : TableName) where
  userId : UserId
  expectedVersion : Nat
  change : Change (FieldsOf zones name)

/-- What a command asks of the rows of a table, if it updates one of them. -/
def rowUpdate (zones : ZoneInfo) : (name : TableName) → Command → Option (RowUpdate zones name)
  | .profiles, .updateProfile c => some ⟨c.userId, c.expectedVersion, c.change⟩
  | .profiles, .updateAvatar c => some ⟨c.userId, c.expectedVersion, c.change⟩
  | .settings, .updateSettings c => some ⟨c.userId, c.expectedVersion, c.change⟩
  | .settings, .resetSettings c => some ⟨c.userId, c.expectedVersion, c.change⟩
  | _, _ => none

/-- The version an update makes of the one it expects; none where it finds another one,
refuses the values or changes nothing. -/
def RowUpdate.apply (u : RowUpdate zones name) (now : Instant)
    (a : VersionedMutableEntity (FieldsOf zones name)) :
    Option (VersionedMutableEntity (FieldsOf zones name)) :=
  if a.id = u.userId ∧ a.version = u.expectedVersion then
    match u.change now a with
    | .ok (true, a') => some a'
    | _ => none
  else none

def defaultOf (zones : ZoneInfo) :
    (name : TableName) → UserId → Instant → VersionedMutableEntity (FieldsOf zones name)
  | .profiles => UserProfile.createDefault
  | .settings => UserSettings.createDefault

/-- How a command writes a row of a user: over nothing or over its content. -/
def Writes (zones : ZoneInfo) (name : TableName) (id : UserId) (command : Command) :
    Option (tableOf zones name).Row → (tableOf zones name).Row → Prop
  | none, row => ∃ c, command = .createDefaultProfile c ∧ c.userId = id ∧
      row = (tableOf zones name).values (defaultOf zones name id c.registeredAt.instant)
  | some old, row => ∃ u a a' now, rowUpdate zones name command = some u ∧
      u.apply now a = some a' ∧ a.id = id ∧ old = (tableOf zones name).values a ∧
      row = (tableOf zones name).values a'

instance (zones : ZoneInfo) : (name : TableName) → DecidableEq (FieldsOf zones name)
  | .profiles => inferInstanceAs (DecidableEq ProfileFields)
  | .settings => inferInstanceAs (DecidableEq (SettingsFields zones))

/-- A change either keeps an aggregate as it is or makes its next version. -/
def Moves {F : Type} (changed : Bool) (a a' : VersionedMutableEntity F) : Prop :=
  a'.id = a.id ∧ a'.createdAt = a.createdAt ∧
    ((changed = false ∧ a' = a) ∨ (changed = true ∧ a'.version = a.version + 1))

theorem applyChanges_moves {F : Type} [ModelFields F] [DecidableEq F] {now : Instant}
    {a a' : VersionedMutableEntity F} {changes : ModelFields.Data F → ModelFields.Data F}
    {changed : Bool} (h : a.applyChanges_ now changes = .ok (changed, a')) : Moves changed a a' := by
  obtain ⟨-, hid, hcreated, hcases⟩ := VersionedMutableEntity.applyChanges_ok h
  refine ⟨hid, hcreated, ?_⟩
  rcases hcases with hsame | ⟨hchanged, -, -, -, hversion⟩
  · exact .inl hsame
  · exact .inr ⟨hchanged, hversion⟩

/-- What a change makes of the fields of an aggregate does not depend on the time. -/
def Applies {F : Type} [ModelFields F] [DecidableEq F] (change : Change F) : Prop :=
  ∀ a, ∃ changes : ModelFields.Data F → ModelFields.Data F, ∀ now,
    change now a = a.applyChanges_ now changes

theorem profile_applies {change : Change ProfileFields}
    (hchange : (∃ c : UpdateProfileCommand, change = c.change) ∨
      ∃ c : UpdateAvatarCommand, change = c.change) : Applies change := by
  intro a
  rcases hchange with ⟨c, rfl⟩ | ⟨c, rfl⟩
  · unfold UpdateProfileCommand.change UserProfile.updateProfile
    exact ⟨_, fun _ => rfl⟩
  · unfold UpdateAvatarCommand.change UserProfile.updateAvatar
    exact ⟨_, fun _ => rfl⟩

theorem settings_applies {change : Change (SettingsFields zones)}
    (hchange : (∃ c : UpdateSettingsCommand, change = c.change) ∨
      ∃ c : ResetSettingsCommand, change = c.change) : Applies change := by
  intro a
  rcases hchange with ⟨c, rfl⟩ | ⟨c, rfl⟩
  · unfold UpdateSettingsCommand.change UserSettings.updateSettings
    exact ⟨_, fun _ => rfl⟩
  · unfold ResetSettingsCommand.change UserSettings.resetToDefaults UserSettings.updateSettings
    exact ⟨_, fun _ => rfl⟩

theorem rowUpdate_applies {command : Command} {u : RowUpdate zones name}
    (h : rowUpdate zones name command = some u) : Applies u.change := by
  cases name with
  | profiles =>
    cases command with
    | updateProfile c =>
      cases h
      exact profile_applies (.inl ⟨c, rfl⟩)
    | updateAvatar c =>
      cases h
      exact profile_applies (.inr ⟨c, rfl⟩)
    | _ => cases h
  | settings =>
    cases command with
    | updateSettings c =>
      cases h
      exact settings_applies (.inl ⟨c, rfl⟩)
    | resetSettings c =>
      cases h
      exact settings_applies (.inr ⟨c, rfl⟩)
    | _ => cases h

theorem rowUpdate_moves {command : Command} {u : RowUpdate zones name} {now : Instant}
    {a a' : VersionedMutableEntity (FieldsOf zones name)} {changed : Bool}
    (h : rowUpdate zones name command = some u) (hok : u.change now a = .ok (changed, a')) :
    Moves changed a a' := by
  obtain ⟨changes, happlies⟩ := rowUpdate_applies h a
  rw [happlies] at hok
  exact applyChanges_moves hok

theorem rowUpdate_later {command : Command} {u : RowUpdate zones name} {now later : Instant}
    {a a' : VersionedMutableEntity (FieldsOf zones name)} {changed : Bool}
    (h : rowUpdate zones name command = some u) (hok : u.change now a = .ok (changed, a'))
    (hlater : a.createdAt < later) : ∃ a'', u.change later a = .ok (changed, a'') := by
  obtain ⟨changes, happlies⟩ := rowUpdate_applies h a
  rw [happlies] at hok ⊢
  exact VersionedMutableEntity.applyChanges_later hok hlater

theorem rowUpdate_kept {command : Command} {u : RowUpdate zones name} {now : Instant}
    {a a' : VersionedMutableEntity (FieldsOf zones name)}
    (h : rowUpdate zones name command = some u) (hok : u.change now a = .ok (true, a')) :
    a'.id = a.id ∧ a'.createdAt = a.createdAt ∧ a'.version = a.version + 1 := by
  obtain ⟨hid, hcreated, ⟨hfalse, -⟩ | ⟨-, hversion⟩⟩ := rowUpdate_moves h hok
  · cases hfalse
  · exact ⟨hid, hcreated, hversion⟩

theorem rowUpdate_same {command : Command} {u : RowUpdate zones name} {now : Instant}
    {a a' : VersionedMutableEntity (FieldsOf zones name)}
    (h : rowUpdate zones name command = some u) (hok : u.change now a = .ok (false, a')) :
    a' = a := by
  obtain ⟨-, -, ⟨-, hsame⟩ | ⟨htrue, -⟩⟩ := rowUpdate_moves h hok
  · exact hsame
  · cases htrue

theorem apply_eq_some {u : RowUpdate zones name} {now : Instant}
    {a a' : VersionedMutableEntity (FieldsOf zones name)} :
    u.apply now a = some a' ↔
      a.id = u.userId ∧ a.version = u.expectedVersion ∧ u.change now a = .ok (true, a') := by
  unfold RowUpdate.apply
  split
  · rename_i h
    simp only [h, true_and]
    constructor
    · intro hmatch
      split at hmatch
      · rename_i a'' hok
        cases hmatch
        exact hok
      · cases hmatch
    · intro hok
      rw [hok]
  · rename_i h
    constructor
    · exact fun hmatch => by cases hmatch
    · exact fun hok => absurd ⟨hok.1, hok.2.1⟩ h

theorem rowUpdate_table {command : Command} {name' : TableName} {u : RowUpdate zones name}
    {u' : RowUpdate zones name'} (h : rowUpdate zones name command = some u)
    (h' : rowUpdate zones name' command = some u') : name' = name := by
  cases name <;> cases name' <;> cases command
  all_goals first | rfl | (cases h; done) | cases h'

theorem rowUpdate_not_createDefault {c : CreateDefaultProfileCommand} :
    rowUpdate zones name (.createDefaultProfile c) = none := by
  cases name <;> rfl

theorem rowUpdate_past {command : Command} {u : RowUpdate zones name} {now : Instant}
    {a a' : VersionedMutableEntity (FieldsOf zones name)}
    (h : rowUpdate zones name command = some u) (hok : u.change now a = .ok (true, a')) :
    a.createdAt < now := by
  obtain ⟨changes, happlies⟩ := rowUpdate_applies h a
  rw [happlies] at hok
  obtain ⟨-, -, -, ⟨hfalse, -⟩ | ⟨-, -, hpast, -⟩⟩ := VersionedMutableEntity.applyChanges_ok hok
  · cases hfalse
  · exact hpast

theorem Writes.version {command : Command} {old row : (tableOf zones name).Row}
    (h : Writes zones name id command (some old) row) :
    (tableOf zones name).version row = (tableOf zones name).version old + 1 := by
  obtain ⟨u, a, a', now, hu, happly, -, rfl, rfl⟩ := h
  obtain ⟨-, -, hok⟩ := apply_eq_some.1 happly
  rw [(lawful_tableOf zones name).version, (lawful_tableOf zones name).version]
  exact (rowUpdate_kept hu hok).2.2

/-! ### The invariant -/

/-- The versions of a row that the commits of a run made. -/
def stagedVersions (name : TableName) (id : UserId) (log : List (Commit W (database W zones fault))) :
    List (Version W (tableOf zones name).Row) :=
  log.filterMap fun c =>
    ((show Uncommitted zones from c.staged) name id).map fun row => ⟨some c.worker, row⟩

/-- Sound rows whose versions are those before the run and those its commits made, each of
them as its command makes versions. -/
structure Accounted (commands : W → Command)
    (base : (name : TableName) → UserId → Option (tableOf zones name).Row)
    (s : World W H (database W zones fault)) : Prop where
  sound : Sound s
  traced : ∀ name id, (rowOf name id s).Traced (fun row => base name id = some row)
    fun w => Writes zones name id (commands w)
  versions : ∀ name id, (rowOf name id s).versions =
    stagedVersions name id s.log ++ (base name id).toList.map fun row => ⟨none, row⟩

variable {commands : W → Command}
  {base : (name : TableName) → UserId → Option (tableOf zones name).Row}

/-- The content of a row once the commits of `past` have happened. -/
def committedAfter (name : TableName)
    (base : (name : TableName) → UserId → Option (tableOf zones name).Row)
    (past : List (Commit W (database W zones fault))) (id : UserId) :
    Option (tableOf zones name).Row :=
  let before : List (Version W (tableOf zones name).Row) :=
    (base name id).toList.map fun row => ⟨none, row⟩
  (stagedVersions name id past ++ before).head?.map Version.row

theorem Accounted.committed (h : Accounted commands base s) (name : TableName) (id : UserId) :
    (rowOf name id s).committed = committedAfter name base s.log id :=
  congrArg (fun versions => (List.head? versions).map Version.row) (h.versions name id)

theorem Accounted.commit (h : Accounted commands base s) : Accounted commands base (s.commit w) where
  sound := h.sound.commit
  traced name id := (h.traced name id).commit
  versions name id := by
    show ((rowOf name id s).commit w).versions = _
    have hlog : stagedVersions name id (s.commit w).log =
        (((rowOf name id s).own w).map fun row => ⟨some w, row⟩).toList ++
          stagedVersions name id s.log := by
      cases ho : (rowOf name id s).own w with
      | none => exact List.filterMap_cons_none (congrArg (Option.map _) ho)
      | some row => exact List.filterMap_cons_some (congrArg (Option.map _) ho)
    rw [hlog]
    cases ho : (rowOf name id s).own w with
    | none =>
      rw [Row.commit_of_not_own ho]
      exact h.versions name id
    | some row =>
      rw [Row.commit_of_own ho]
      show ⟨some w, row⟩ :: (rowOf name id s).versions = _
      rw [h.versions name id]
      rfl

theorem Accounted.rollback (h : Accounted commands base s) :
    Accounted commands base (s.rollback w) where
  sound := h.sound.rollback
  traced name id := (h.traced name id).rollback
  versions name id := Row.rollback_versions.trans (h.versions name id)

theorem Accounted.quiet (he : Quiet w s s') (h : Accounted commands base s) :
    Accounted commands base s' := by
  cases he with
  | same => exact h
  | readClock => exact ⟨h.sound.readClock, h.traced, h.versions⟩
  | begin _ => exact ⟨h.sound.begin, h.traced, h.versions⟩
  | commit _ => exact h.commit
  | rollback _ => exact h.rollback

theorem Accounted.env (he : WorldEnv s s') (h : Accounted commands base s) :
    Accounted commands base s' := by
  cases he with
  | tick now hle => exact ⟨h.sound.env (.tick s now hle), h.traced, h.versions⟩
  | hot hot he => exact ⟨h.sound.env (.hot s hot he), h.traced, h.versions⟩
  | beat u hb r hot hw hrun he =>
    exact ⟨h.sound.env (.beat s u hb r hot hw hrun he), h.traced, h.versions⟩

theorem Accounted.crash (h : Accounted commands base s) : Accounted commands base (s.crash w) := by
  unfold World.crash
  split
  · exact ⟨⟨h.rollback.sound.rows, h.rollback.sound.idle⟩, h.rollback.traced, h.rollback.versions⟩
  · exact ⟨⟨h.sound.rows, h.sound.idle⟩, h.traced, h.versions⟩

theorem Accounted.beside (h : Accounted commands base s) (hbusiness : s'.business = s.business)
    (hinTransaction : s'.inTransaction = s.inTransaction) (hlog : s'.log = s.log) :
    Accounted commands base s' := by
  obtain ⟨now, hot, heartbeat, records, business, inTransaction, clockRead, log⟩ := s'
  cases hbusiness
  cases hinTransaction
  cases hlog
  exact ⟨⟨h.sound.rows, h.sound.idle⟩, h.traced, h.versions⟩

theorem Accounted.visible_of_base (h : Accounted commands base s)
    (hbase : (base name id).isSome = true) : ((rowOf name id s).visible w).isSome = true := by
  obtain ⟨row, hrow⟩ := Option.isSome_iff_exists.1 hbase
  refine Row.visible_isSome (v := ⟨none, row⟩) ?_
  rw [h.versions name id, hrow]
  exact List.mem_append_right _ (List.mem_singleton_self _)

theorem own_id {a : VersionedMutableEntity (FieldsOf zones name)} (h : Sound s)
    (hown : (rowOf name id s).own w = some ((tableOf zones name).values a)) : a.id = id := by
  obtain ⟨createdAt, hall⟩ := h.rows name id
  obtain ⟨b, hb, hid, -⟩ := hall.visible (Row.visible_of_own hown)
  rw [values_inj hb]
  exact hid

/-! ### The statements -/

theorem Accounted.write {row : (tableOf zones name).Row} (h : Accounted commands base s)
    (ht : s.inTransaction w = true)
    (hsound : RowSound zones name id ((rowOf name id s).write w row))
    (hnext : Writes zones name id (commands w) (rowOf name id s).committed row) :
    Accounted commands base (setRows name (Function.update (fun id => rowOf name id s) id
      ((rowOf name id s).write w row)) s) where
  sound := h.sound.write ht hsound
  traced name' id' := by
    by_cases hname : name' = name
    · subst hname
      rw [rowOf_setRows_self]
      by_cases hid : id' = id
      · subst hid
        rw [Function.update_self]
        exact (h.traced _ _).write hnext
      · rw [Function.update_of_ne hid]
        exact h.traced _ id'
    · rw [rowOf_setRows_ne hname]
      exact h.traced name' id'
  versions name' id' := by
    refine Eq.trans ?_ (h.versions name' id')
    by_cases hname : name' = name
    · subst hname
      rw [rowOf_setRows_self]
      by_cases hid : id' = id
      · subst hid
        rw [Function.update_self, Row.write_versions]
      · rw [Function.update_of_ne hid]
    · rw [rowOf_setRows_ne hname]

theorem Accounted.version_inj (h : Accounted commands base s)
    {v v' : Version W (tableOf zones name).Row} (hv : v ∈ (rowOf name id s).versions)
    (hv' : v' ∈ (rowOf name id s).versions)
    (hversion : (tableOf zones name).version v.row = (tableOf zones name).version v'.row) :
    v = v' := by
  by_contra hne
  let Below (older newer : (tableOf zones name).Row) : Prop :=
    (tableOf zones name).version older < (tableOf zones name).version newer
  have hnext : ∀ t a b, Writes zones name id (commands t) (some a) b → Below a b := by
    intro t a b hab
    show _ < (tableOf zones name).version b
    rw [hab.version]
    exact Nat.lt_succ_self _
  have hpair : (rowOf name id s).versions.Pairwise fun newer older => Below older.row newer.row :=
    (h.traced name id).history.pairwise hnext fun _ _ _ => lt_trans
  let Apart (x y : Version W (tableOf zones name).Row) : Prop :=
    (tableOf zones name).version x.row ≠ (tableOf zones name).version y.row
  have : Std.Symm Apart := ⟨fun _ _ hxy => hxy.symm⟩
  have hapart : (rowOf name id s).versions.Pairwise Apart := hpair.imp fun hlt => (ne_of_lt hlt).symm
  exact hapart.forall hv hv' hne hversion

/-- The conditional update meets the very content that was loaded. -/
theorem Accounted.update {u : RowUpdate zones name}
    {a a' : VersionedMutableEntity (FieldsOf zones name)} {now : Instant}
    {rows : Rows W (tableOf zones name)} (h : Accounted commands base s)
    (ht : s.inTransaction w = true) (hown : (rowOf name a.id s).own w = none)
    (hloaded : Loaded name a s) (hu : rowUpdate zones name (commands w) = some u)
    (happly : u.apply now a = some a')
    (hs : TableStep w (fun id => rowOf name id s)
      (.update a'.id (some u.expectedVersion) ((tableOf zones name).values a')) rows) :
    Accounted commands base (setRows name rows s) := by
  obtain ⟨-, hversion, hok⟩ := apply_eq_some.1 happly
  obtain ⟨hid, hcreated, -⟩ := rowUpdate_kept hu hok
  cases hs with
  | same =>
    rw [setRows_same]
    exact h
  | update _ _ stored _ hfree hvisible hexpected _ =>
    obtain ⟨v, hv, hrow⟩ := hloaded
    obtain ⟨-, hall⟩ := (h.sound.rows name a.id).createdAt hv hrow
    rw [hid] at hvisible ⊢
    have hcommitted : (rowOf name a.id s).committed = some stored := by
      rw [← Row.visible_of_not_own hown]
      exact hvisible
    obtain ⟨v', hv', hrow'⟩ := Row.mem_of_committed hcommitted
    have hsame : v' = v := by
      refine h.version_inj hv' hv ?_
      have hstored : u.expectedVersion = (tableOf zones name).version stored := by
        simpa using hexpected
      rw [hrow', ← hstored, hrow, (lawful_tableOf zones name).version, hversion]
    have hstored : stored = (tableOf zones name).values a := by
      rw [← hrow', hsame, hrow]
    have hassign : (tableOf zones name).assign stored ((tableOf zones name).values a') =
        (tableOf zones name).values a' := assign_sound hall hid hcreated hvisible
    rw [hassign]
    refine h.write ht ⟨a.createdAt, hall.write ⟨a', rfl, hid, hcreated⟩⟩ ?_
    rw [hcommitted]
    exact ⟨u, a, a', now, hu, happly, rfl, hstored, rfl⟩

theorem Accounted.insert {c : CreateDefaultProfileCommand} {rows : Rows W (tableOf zones name)}
    (h : Accounted commands base s) (ht : s.inTransaction w = true)
    (hcommand : commands w = .createDefaultProfile c)
    (hs : TableStep w (fun id => rowOf name id s) (.insertOrNothing
      ((tableOf zones name).values (defaultOf zones name c.userId c.registeredAt.instant))) rows) :
    Accounted commands base (setRows name rows s) := by
  have hid : (defaultOf zones name c.userId c.registeredAt.instant).id = c.userId := by
    cases name <;> rfl
  cases hs with
  | same =>
    rw [setRows_same]
    exact h
  | insert _ hfree hvisible _ =>
    have hkey : (tableOf zones name).userId ((tableOf zones name).values
        (defaultOf zones name c.userId c.registeredAt.instant)) = c.userId :=
      ((lawful_tableOf zones name).userId _).trans hid
    rw [hkey] at hfree hvisible ⊢
    refine h.write ht ⟨_, (Row.All.of_not_visible hfree hvisible).write ⟨_, rfl, hid, rfl⟩⟩ ?_
    rw [(Option.or_eq_none_iff.1 hvisible).2]
    exact ⟨c, hcommand, rfl, rfl⟩

theorem TableStep.visible_isSome {o : TableOp (tableOf zones name)}
    {rows rows' : Rows W (tableOf zones name)} (h : TableStep w rows o rows') (id : UserId)
    (hv : ((rows id).visible w).isSome = true) : ((rows' id).visible w).isSome = true := by
  cases h with
  | same => exact hv
  | update key _ stored values _ _ _ _ =>
    by_cases hid : id = key
    · subst hid
      rw [Function.update_self, Row.visible_write_self]
      rfl
    · rwa [Function.update_of_ne hid]
  | insert row _ _ _ =>
    by_cases hid : id = (tableOf zones name).userId row
    · subst hid
      rw [Function.update_self, Row.visible_write_self]
      rfl
    · rwa [Function.update_of_ne hid]

/-- What one await of an operation can do to the rows. -/
theorem stmtExec_rows {o : StmtOp (database W zones fault)}
    {r : Except Exn ((stmtSig (database W zones fault)).Reply o)} (h : stmtExec F w o s r s') :
    (∀ name id, rowOf name id s' = rowOf name id s) ∨
      ∃ name, ∃ o : TableOp (tableOf zones name), ∃ rows,
        TableStep w (fun id => rowOf name id s) o rows ∧ s' = setRows name rows s := by
  cases o with
  | clock =>
    obtain ⟨-, rfl⟩ := h
    exact .inl fun _ _ => rfl
  | stmt o =>
    simp only [stmtExec, dbExec] at h
    split at h
    · obtain ⟨b, ⟨rows, hexec, rfl⟩, rfl⟩ := h
      exact .inr ⟨o.1, o.2, rows, tableExec_step hexec, rfl⟩
    · obtain ⟨-, rfl⟩ := h
      exact .inl fun _ _ => rfl

theorem stmtExec_visible {o : StmtOp (database W zones fault)}
    {r : Except Exn ((stmtSig (database W zones fault)).Reply o)} (h : stmtExec F w o s r s')
    (name : TableName) (id : UserId) (hv : ((rowOf name id s).visible w).isSome = true) :
    ((rowOf name id s').visible w).isSome = true := by
  rcases stmtExec_rows h with hsame | ⟨table, o, rows, hs, rfl⟩
  · rwa [hsame]
  · by_cases hname : name = table
    · subst hname
      rw [rowOf_setRows_self]
      exact hs.visible_isSome id hv
    · rwa [rowOf_setRows_ne hname]

def VersionsGrow (s s' : World W H (database W zones fault)) : Prop :=
  ∀ name id, (rowOf name id s).versions <:+ (rowOf name id s').versions

theorem VersionsGrow.of_frame (hf : Frame w s s') : VersionsGrow s s' :=
  fun name id => (hf.business name id).grows

theorem Loaded.grow {a : VersionedMutableEntity (FieldsOf zones name)} (h : Loaded name a s)
    (hg : VersionsGrow s s') : Loaded name a s' := by
  obtain ⟨v, hv, hrow⟩ := h
  exact ⟨v, (hg name a.id).subset hv, hrow⟩

theorem VersionsGrow.of_commit : VersionsGrow s (s.commit w) :=
  fun _ _ => Row.versions_suffix_commit

theorem VersionsGrow.of_rollback : VersionsGrow s (s.rollback w) := by
  intro name id
  have hsame : (rowOf name id (s.rollback w)).versions = (rowOf name id s).versions :=
    Row.rollback_versions
  rw [hsame]

theorem VersionsGrow.of_step (h : DbStep w s s') : VersionsGrow s s' := by
  cases h with
  | same => exact fun _ _ => List.suffix_refl _
  | readClock => exact fun _ _ => List.suffix_refl _
  | begin _ => exact fun _ _ => List.suffix_refl _
  | commit _ => exact .of_commit
  | rollback _ => exact .of_rollback
  | write _ _ _ _ _ => exact fun _ _ => List.suffix_refl _
  | stmt o r b _ hexec =>
    obtain ⟨rows, hexec, rfl⟩ := hexec
    intro name id
    change _ <:+ (rowOf name id (setRows o.1 rows s)).versions
    by_cases hname : name = o.1
    · subst hname
      rw [rowOf_setRows_self, (tableExec_step hexec).versions id]
      exact List.suffix_refl _
    · rw [rowOf_setRows_ne hname]

/-! ### The updating handlers -/

/-- Two rows with one username, which the unique index lets only one of them have. -/
def SharesUsername : (name : TableName) → (row other : (tableOf zones name).Row) → Prop
  | .profiles, row, other => ProfileORM.username row ≠ none ∧
      ProfileORM.username row = ProfileORM.username other
  | .settings, _, _ => False

/-- Why the committed rows refuse an update of one of them: another version is there, another
user has the username, or the aggregate of the expected version does not take the change. -/
inductive RefusedBy (u : RowUpdate zones name) (now : Instant)
    (rows : UserId → Option (tableOf zones name).Row) : DomainError → Prop where
  | otherVersion {d : DomainError} {row : (tableOf zones name).Row}
      (hrace : Exn.isRaceError (.domain d) = true) (hrow : rows u.userId = some row)
      (hversion : (tableOf zones name).version row ≠ u.expectedVersion) : RefusedBy u now rows d
  | usernameTaken {a a' : VersionedMutableEntity (FieldsOf zones name)} {other : UserId}
      {row : (tableOf zones name).Row}
      (hrow : rows u.userId = some ((tableOf zones name).values a)) (happly : u.apply now a = some a')
      (hne : other ≠ u.userId) (hother : rows other = some row)
      (hshares : SharesUsername name ((tableOf zones name).values a') row) :
      RefusedBy u now rows .usernameAlreadyTaken
  | change {a : VersionedMutableEntity (FieldsOf zones name)} {d : DomainError}
      (hrow : rows u.userId = some ((tableOf zones name).values a)) (hid : a.id = u.userId)
      (hversion : a.version = u.expectedVersion) (hchange : u.change now a = .error d) :
      RefusedBy u now rows d

/-- A domain error of an update of a stored row: after a commit of `since` or a later one the
committed rows refuse it. Only a database that reports violations unasked can do without. -/
def Refusal (base : (name : TableName) → UserId → Option (tableOf zones name).Row)
    (since : List (Commit W (database W zones fault))) (u : RowUpdate zones name) (now : Instant)
    (d : DomainError) (s : World W H (database W zones fault)) : Prop :=
  (d = .usernameAlreadyTaken ∧ fault (.sql (.integrity "profiles_username_key"))) ∨
    ∃ past, since <:+ past ∧ past <:+ s.log ∧ RefusedBy u now (committedAfter name base past) d

/-- How an update ends inside its transaction: it has written the version it returns, it has
written nothing as there was nothing to change, or it raises. -/
def Updated (base : (name : TableName) → UserId → Option (tableOf zones name).Row)
    (since : List (Commit W (database W zones fault))) (u : RowUpdate zones name) (w : W) :
    Except Exn (VersionedMutableEntity (FieldsOf zones name)) →
      World W H (database W zones fault) → Prop
  | .ok a, s => (rowOf name u.userId s).own w = some ((tableOf zones name).values a) ∨
      ((∀ name id, (rowOf name id s).own w = none) ∧
        ∃ loaded now, Loaded name loaded s ∧ loaded.id = u.userId ∧
          loaded.version = u.expectedVersion ∧ u.change now loaded = .ok (false, a))
  | .error e, s => (e.isOrchestration = true ∨ ∃ d, e = .domain d) ∧
      ∀ d, usernameTaken e = .domain d → Refusal base since u (s.clockRead w) d s

def Unchanged (u : RowUpdate zones name) (a : VersionedMutableEntity (FieldsOf zones name))
    (s : World W H (database W zones fault)) : Prop :=
  Loaded name a s ∧ a.version = u.expectedVersion ∧ ∃ now, u.change now a = .ok (false, a)

/-- What an update makes of a committed version of the number it expects. -/
def Outcome (u : RowUpdate zones name) (a : VersionedMutableEntity (FieldsOf zones name))
    (s : World W H (database W zones fault)) : Prop :=
  ∃ loaded now changed, Loaded name loaded s ∧ loaded.id = u.userId ∧
    loaded.version = u.expectedVersion ∧ u.change now loaded = .ok (changed, a)

theorem Unchanged.grow {u : RowUpdate zones name}
    {a : VersionedMutableEntity (FieldsOf zones name)} (h : Unchanged u a s)
    (hg : VersionsGrow s s') : Unchanged u a s' :=
  ⟨Loaded.grow h.1 hg, h.2⟩

theorem Outcome.grow {u : RowUpdate zones name} {a : VersionedMutableEntity (FieldsOf zones name)}
    (h : Outcome u a s) (hg : VersionsGrow s s') : Outcome u a s' := by
  obtain ⟨loaded, now, changed, hloaded, hrest⟩ := h
  exact ⟨loaded, now, changed, Loaded.grow hloaded hg, hrest⟩

theorem Accounted.outcome {u : RowUpdate zones name}
    {a : VersionedMutableEntity (FieldsOf zones name)} (h : Accounted commands base s)
    (hu : rowUpdate zones name (commands w) = some u)
    (hown : (rowOf name id s).own w = some ((tableOf zones name).values a)) : Outcome u a s := by
  have hwrites := (h.traced name id).pending w _ (Row.own_eq_some.1 hown)
  cases hc : (rowOf name id s).committed with
  | none =>
    rw [hc] at hwrites
    obtain ⟨c, hcommand, -⟩ := hwrites
    rw [hcommand, rowUpdate_not_createDefault] at hu
    cases hu
  | some old =>
    rw [hc] at hwrites
    obtain ⟨u', loaded, a', now, hu', happly, hid, rfl, hrow⟩ := hwrites
    obtain rfl := Option.some.inj (hu.symm.trans hu')
    obtain ⟨huser, hversion, hok⟩ := apply_eq_some.1 happly
    rw [values_inj hrow]
    obtain ⟨v, hv, hvrow⟩ := Row.mem_of_committed hc
    exact ⟨loaded, now, true, ⟨v, hid.symm ▸ hv, hvrow⟩, huser, hversion, hok⟩

omit [DecidableEq W] in
/-- Only the unique index of the usernames reports a username in use. -/
theorem violation_username {others : List (tableOf zones name).Row} {row : (tableOf zones name).Row}
    (h : (tableOf zones name).violation others row = some (.integrity "profiles_username_key")) :
    ∃ other ∈ others, SharesUsername name row other := by
  rcases Table.violated _ h with hcheck | ⟨other, hother, hunique⟩
  · cases name with
    | profiles =>
      change _ ∈ ProfileORM.checks row at hcheck
      simp [ProfileORM.checks] at hcheck
    | settings =>
      change _ ∈ SettingsORM.checks row at hcheck
      simp [SettingsORM.checks] at hcheck
  · refine ⟨other, hother, ?_⟩
    cases name with
    | profiles =>
      change _ ∈ ProfileORM.uniques row other at hunique
      simpa [ProfileORM.uniques, SharesUsername] using hunique
    | settings => cases hunique

omit [DecidableEq W] in
theorem usernameTaken_domain {e : Exn} {d : DomainError} (he : e.isOrchestration = true)
    (h : usernameTaken e = .domain d) :
    e = .sql (.integrity "profiles_username_key") ∧ d = .usernameAlreadyTaken := by
  unfold usernameTaken at h
  split at h
  · split at h
    · rename_i hname
      exact ⟨by rw [hname], (Exn.domain.inj h).symm⟩
    · cases h
  · rw [h] at he
    cases he

omit [DecidableEq W] in
@[simp] theorem usernameTaken_usernameTaken (e : Exn) :
    usernameTaken (usernameTaken e) = usernameTaken e := by
  cases e with
  | sql q =>
    cases q with
    | integrity constraintName =>
      by_cases hname : constraintName = "profiles_username_key"
      · simp [usernameTaken, hname]
      · simp [usernameTaken, hname]
    | _ => rfl
  | _ => rfl

/-- What the rows refused in a world between two others is a refusal. -/
theorem refusal_of_once {P : World W H (database W zones fault) → Prop}
    {s₀ : World W H (database W zones fault)} {u : RowUpdate zones name} {now : Instant}
    {d : DomainError} (h : Once (Accounted commands base) P s₀ s)
    (hp : ∀ s₁, Accounted commands base s₁ → P s₁ →
      RefusedBy u now (fun id => (rowOf name id s₁).committed) d) :
    Refusal base s₀.log u now d s := by
  obtain ⟨s₁, hsince, hpast, hi, hs₁⟩ := h
  have hrefused := hp s₁ hi hs₁
  rw [show (fun id => (rowOf name id s₁).committed) = committedAfter name base s₁.log from
    funext (hi.committed name)] at hrefused
  exact .inr ⟨s₁.log, hsince, hpast, hrefused⟩

theorem Refusal.later {since since' : List (Commit W (database W zones fault))}
    {u : RowUpdate zones name} {now : Instant} {d : DomainError} (h : Refusal base since u now d s)
    (hsince : since' <:+ since) (hlog : s.log <:+ s'.log) : Refusal base since' u now d s' := by
  rcases h with hunasked | ⟨past, hpast, hlater, hrefused⟩
  · exact .inl hunasked
  · exact .inr ⟨past, hsince.trans hpast, hlater.trans hlog, hrefused⟩

theorem Updated.since {since since' : List (Commit W (database W zones fault))}
    {u : RowUpdate zones name} {r : Except Exn (VersionedMutableEntity (FieldsOf zones name))}
    (h : Updated base since u w r s) (hsince : since' <:+ since) : Updated base since' u w r s := by
  cases r with
  | ok a => exact h
  | error e => exact ⟨h.1, fun d hd => (h.2 d hd).later hsince (List.suffix_refl _)⟩

theorem Updated.refused {since : List (Commit W (database W zones fault))} {u : RowUpdate zones name}
    {d : DomainError} (h : Refusal base since u (s.clockRead w) d s) :
    Updated base since u w (.error (.domain d)) s := by
  refine ⟨.inr ⟨d, rfl⟩, fun d' hd' => ?_⟩
  cases hd'
  exact h

theorem Accounted.expected {a : VersionedMutableEntity (FieldsOf zones name)}
    {row : (tableOf zones name).Row} (h : Accounted commands base s) (hloaded : Loaded name a s)
    (hcommitted : (rowOf name a.id s).committed = some row)
    (hversion : (tableOf zones name).version row = a.version) :
    row = (tableOf zones name).values a := by
  obtain ⟨v, hv, hrow⟩ := hloaded
  obtain ⟨v', hv', rfl⟩ := Row.mem_of_committed hcommitted
  have hsame : v' = v := by
    refine h.version_inj hv' hv ?_
    rw [hversion, hrow, (lawful_tableOf zones name).version]
  rw [hsame, hrow]

theorem refusal_usernameTaken {u : RowUpdate zones name} {s₀ : World W H (database W zones fault)}
    {a a' : VersionedMutableEntity (FieldsOf zones name)} {now : Instant}
    (happly : u.apply now a = some a') (hid : a'.id = a.id) (hloaded : Loaded name a s₀)
    (hown : ∀ id, (rowOf name id s₀).own w = none)
    (h : Once (Accounted commands base) (RefusedUpdate name w a' (some u.expectedVersion) s₀
      (.integrity "profiles_username_key")) s₀ s) :
    Refusal base s₀.log u now .usernameAlreadyTaken s := by
  obtain ⟨huser, hversion, -⟩ := apply_eq_some.1 happly
  refine refusal_of_once h fun s₁ hi hrefused => ?_
  obtain ⟨hf, ⟨row, hvisible, hexpected⟩, hrefused⟩ := hrefused
  have hcommitted : ∀ id, (rowOf name id s₁).visible w = (rowOf name id s₁).committed := fun id =>
    Row.visible_of_not_own (((hf.business name id).own).trans (hown id))
  rcases hrefused with halone | ⟨other, content, hne, -, hother, hviolation⟩
  · obtain ⟨other, hother, -⟩ := violation_username halone
    cases hother
  · obtain ⟨other', hmem, hshares⟩ := violation_username hviolation
    obtain rfl := List.mem_singleton.1 hmem
    rw [hid] at hvisible hne
    have hrow : row = (tableOf zones name).values a := by
      refine hi.expected (hloaded.frame hf) ((hcommitted _).symm.trans hvisible) ?_
      simpa [hversion, eq_comm] using hexpected
    refine .usernameTaken ?_ happly (huser ▸ hne) ((hcommitted other).symm.trans hother) hshares
    rw [← huser, ← hcommitted, hvisible, hrow]

section Handlers
variable (hfault : ∀ e, fault e → e.isOrchestration = true)

include hfault

theorem safe_update_accounted {u : RowUpdate zones name}
    {a a' : VersionedMutableEntity (FieldsOf zones name)} {missingError : Exn}
    {conflictError : DomainError} (hconflict : Exn.isRaceError (.domain conflictError) = true)
    (hu : rowUpdate zones name (commands w) = some u)
    (happly : u.apply (s.clockRead w) a = some a') (ht : s.inTransaction w = true)
    (hown : ∀ id, (rowOf name id s).own w = none) (hloaded : Loaded name a s) :
    SafeStmt F (Accounted commands base) w (Updated base s.log u w) (update (statements name)
      missingError (.domain conflictError) a' (some u.expectedVersion)) s := by
  obtain ⟨huser, -, hok⟩ := apply_eq_some.1 happly
  obtain ⟨hid, hcreated, -⟩ := rowUpdate_kept hu hok
  refine safe_updateVersion (fun _ hi => hi.sound) ht hloaded hid hcreated ?_ ?_ ?_ ?_
  · intro s₁ rows hf hi ht₁ hs
    have hown₁ : (rowOf name a.id s₁).own w = none := (hf.business name a.id).own.trans (hown _)
    exact hi.update ht₁ hown₁ (hloaded.frame hf) hu happly hs
  · intro s₁ hwritten
    rw [hid, huser] at hwritten
    exact .inl hwritten
  · intro e s₁ he
    refine ⟨.inl (he.isOrchestration hfault), fun d hd => ?_⟩
    obtain ⟨rfl, rfl⟩ := usernameTaken_domain (he.isOrchestration hfault) hd
    rcases he with hunasked | hother | ⟨q, hq, hclock, honce⟩
    · exact .inl ⟨rfl, hunasked⟩
    · cases hother
    · obtain rfl := (Exn.sql.inj hq).symm
      rw [hclock]
      exact refusal_usernameTaken happly hid hloaded hown honce
  · intro s₁ hother
    refine Updated.refused (refusal_of_once (hother (hown _)) fun s₂ _ hs₂ => ?_)
    obtain ⟨row, hrow, hversion⟩ := hs₂
    rw [hid, huser] at hrow
    refine .otherVersion hconflict hrow fun heq => ?_
    simp [heq] at hversion

/-- The same, unless the row was not there when the session `w` looked for it from `s` on. -/
def Ended (base : (name : TableName) → UserId → Option (tableOf zones name).Row)
    (u : RowUpdate zones name) (w : W) (s : World W H (database W zones fault))
    (r : Except Exn (VersionedMutableEntity (FieldsOf zones name)))
    (s' : World W H (database W zones fault)) : Prop :=
  Updated base s.log u w r s' ∨
    (((rowOf name u.userId s).visible w).isSome = false ∧ ∃ d, r = .error (.domain d))

variable (name) in
theorem safe_rowUpdate
    {repository : RepositoryProtocol (Code (stmtSig (database W zones fault)) Exn)
      (FieldsOf zones name)}
    {u : RowUpdate zones name} {notFound : DomainError} {mismatch : Nat → DomainError}
    (hmismatch : ∀ version, Exn.isRaceError (.domain (mismatch version)) = true)
    (hget : repository.getById u.userId = getById (statements name) u.userId)
    (hupdate : ∀ {a a' : VersionedMutableEntity (FieldsOf zones name)}
      {s : World W H (database W zones fault)}, u.apply (s.clockRead w) a = some a' →
      s.inTransaction w = true → (∀ id, (rowOf name id s).own w = none) → Loaded name a s →
      SafeStmt F (Accounted commands base) w (Updated base s.log u w)
        (repository.update a' (some u.expectedVersion)) s)
    (ht : s.inTransaction w = true) (hown : ∀ name id, (rowOf name id s).own w = none) :
    SafeStmt F (Accounted commands base) w (Ended base u w s)
      (changeVersioned handlerClock repository u.userId u.expectedVersion notFound mismatch
        u.change) s := by
  refine safe_changeVersioned ?_ (fun _ hi => hi.quiet .readClock) ht ?_ ?_ ?_ ?_ ?_ ?_
  · rw [hget]
    exact safe_getById (fun _ hi => hi.sound) ht (hown _ _)
  · intro e s₁ he
    refine .inl ⟨.inl (hfault e he), fun d hd => ?_⟩
    obtain ⟨rfl, rfl⟩ := usernameTaken_domain (hfault e he) hd
    exact .inl ⟨rfl, he⟩
  · exact fun s₁ habsent => .inr ⟨habsent, _, rfl⟩
  · intro a s₁ hid hstood hversion
    refine .inl (.refused (refusal_of_once hstood fun s₂ _ hs₂ => ?_))
    refine .otherVersion (hmismatch _) hs₂ ?_
    rwa [(lawful_tableOf zones name).version]
  · intro a s₁ d hid _ hstood hversion hrefused
    exact .inl (.refused (refusal_of_once hstood fun s₂ _ hs₂ => .change hs₂ hid hversion hrefused))
  · intro a a' s₁ hid hloaded hversion hsame hown₁
    exact .inl (.inr ⟨fun name id => (hown₁ name id).trans (hown name id),
      a, _, hloaded, hid, hversion, hsame⟩)
  · intro a a' s₁ hid hloaded hversion hok ht₁ hown₁ hlog
    exact (hupdate (apply_eq_some.2 ⟨hid, hversion, hok⟩) ht₁
      (fun id => (hown₁ _ id).trans (hown _ id)) hloaded).mono fun _ _ h => .inl (h.since hlog)

omit hfault in
theorem updated_usernameTaken {since : List (Commit W (database W zones fault))}
    {u : RowUpdate zones .profiles} {e : Exn} (h : Updated base since u w (.error e) s) :
    Updated base since u w (.error (usernameTaken e)) s := by
  refine ⟨?_, fun d hd => h.2 d (by rwa [usernameTaken_usernameTaken] at hd)⟩
  rcases h.1 with he | ⟨d, rfl⟩
  · unfold usernameTaken
    split
    · split
      · exact .inr ⟨_, rfl⟩
      · exact .inl rfl
    · exact .inl he
  · exact .inr ⟨d, rfl⟩

omit hfault in
theorem Updated.frame {since : List (Commit W (database W zones fault))} {u : RowUpdate zones name}
    {r : Except Exn (VersionedMutableEntity (FieldsOf zones name))} (h : Updated base since u w r s)
    (hf : Frame w s s') : Updated base since u w r s' := by
  cases r with
  | ok a =>
    rcases h with h | ⟨hown, loaded, now, hloaded, hrest⟩
    · exact .inl (((hf.business name u.userId).own).trans h)
    · exact .inr ⟨fun name id => ((hf.business name id).own).trans (hown name id),
        loaded, now, hloaded.frame hf, hrest⟩
  | error e =>
    refine ⟨h.1, fun d hd => ?_⟩
    rw [hf.clockRead]
    exact (h.2 d hd).later (List.suffix_refl _) hf.log

def changeRow (W : Type) [DecidableEq W] (zones : ZoneInfo) (fault : Exn → Prop) :
    (name : TableName) → Command → Option (Code (stmtSig (database W zones fault)) Exn
      (VersionedMutableEntity (FieldsOf zones name)))
  | .profiles, .updateProfile c => some (changeVersioned handlerClock profiles c.userId
      c.expectedVersion .userProfileNotFound (fun version => .profileVersionMismatch (some version))
      c.change)
  | .profiles, .updateAvatar c => some (changeVersioned handlerClock profiles c.userId
      c.expectedVersion .userProfileNotFound (fun _ => .profileVersionMismatch none) c.change)
  | .settings, .updateSettings c => some (changeVersioned handlerClock settings c.userId
      c.expectedVersion .userSettingsNotFound
      (fun version => .settingsVersionMismatch (some version)) c.change)
  | .settings, .resetSettings c => some (changeVersioned handlerClock settings c.userId
      c.expectedVersion .userSettingsNotFound (fun _ => .settingsVersionMismatch none) c.change)
  | _, _ => none

theorem safe_profiles_update {u : RowUpdate zones .profiles} {a a' : UserProfile}
    (hu : rowUpdate zones .profiles (commands w) = some u)
    (happly : u.apply (s.clockRead w) a = some a') (ht : s.inTransaction w = true)
    (hown : ∀ id, (rowOf .profiles id s).own w = none) (hloaded : Loaded .profiles a s) :
    SafeStmt F (Accounted commands base) w (Updated base s.log u w)
      (profiles.update a' (some u.expectedVersion)) s := by
  have hplain : SafeStmt F (Accounted commands base) w (Updated base s.log u w)
      (update (statements .profiles) (.domain .userProfileNotFound)
        (.domain (.profileVersionMismatch none)) a' (some u.expectedVersion)) s :=
    safe_update_accounted hfault rfl hu happly ht hown hloaded
  refine Safe.tryCatch hplain (fun _ _ h => h) fun e s₁ he _ => ?_
  intro s₂ hf _
  exact updated_usernameTaken (he.frame hf)

theorem safe_changeRow {u : RowUpdate zones name}
    {x : Code (stmtSig (database W zones fault)) Exn (VersionedMutableEntity (FieldsOf zones name))}
    (hx : changeRow W zones fault name (commands w) = some x)
    (hu : rowUpdate zones name (commands w) = some u) (ht : s.inTransaction w = true)
    (hown : ∀ name id, (rowOf name id s).own w = none) :
    SafeStmt F (Accounted commands base) w (Ended base u w s) x s := by
  cases name with
  | profiles =>
    cases hc : commands w with
    | updateProfile c =>
      rw [hc] at hx hu
      cases hx
      cases hu
      refine safe_rowUpdate .profiles hfault (fun _ => rfl) rfl ?_ ht hown
      exact safe_profiles_update hfault (by rw [hc]; rfl)
    | updateAvatar c =>
      rw [hc] at hx hu
      cases hx
      cases hu
      refine safe_rowUpdate .profiles hfault (fun _ => rfl) rfl ?_ ht hown
      exact safe_profiles_update hfault (by rw [hc]; rfl)
    | _ =>
      rw [hc] at hx
      cases hx
  | settings =>
    cases hc : commands w with
    | updateSettings c =>
      rw [hc] at hx hu
      cases hx
      cases hu
      refine safe_rowUpdate .settings hfault (fun _ => rfl) rfl ?_ ht hown
      exact safe_update_accounted hfault rfl (by rw [hc]; rfl)
    | resetSettings c =>
      rw [hc] at hx hu
      cases hx
      cases hu
      refine safe_rowUpdate .settings hfault (fun _ => rfl) rfl ?_ ht hown
      exact safe_update_accounted hfault rfl (by rw [hc]; rfl)
    | _ =>
      rw [hc] at hx
      cases hx

end Handlers

end ProfileService.Infrastructure
