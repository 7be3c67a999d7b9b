import ProfileService.Infrastructure.Concurrency

/-!
# The row locks of a transaction

`machine` writes a row in one step. PostgreSQL locks the row that the `WHERE` of an `UPDATE`
finds, and only then asks the unique indexes; the lock lasts until the transaction ends,
whatever the statement waits for in between. `LockStep` runs the tasks with these locks.
-/

namespace ProfileService.Infrastructure
open Domain Library Library.Machine Application Idempotency

variable {W : Type} [DecidableEq W] {zones : ZoneInfo} {fault : Exn → Prop} {H : HotStore W}
  {F : Failures} {name : TableName} {id : UserId} {w u : W} {α : Type}

inductive Lock where
  | row (name : TableName) (id : UserId)
  | record (identity : IdempotencyKey)
  deriving DecidableEq

abbrev Locks (W : Type) := Lock → Option W

namespace Locks
variable (locks : Locks W) (w : W) (s : World W H (database W zones fault))

/-- No other transaction has locked the row or written it. -/
def Available (name : TableName) (id : UserId) : Prop :=
  (∀ u, locks (.row name id) = some u → u = w) ∧ (rowOf name id s).Free w

/-- The unique indexes find no row that another transaction may still change. -/
def Decided (name : TableName) (id : UserId) (row : (tableOf zones name).Row) : Prop :=
  ∀ other, other ≠ id → ∀ content, (rowOf name other s).Content content →
    (tableOf zones name).violation [content] row ≠ none → locks.Available w s name other

/-- What an update would write over the row that its `WHERE` finds, if the checks of the row
accept it. -/
def Updating (name : TableName) (id : UserId) (expectedVersion : Option Nat)
    (values row : (tableOf zones name).Row) : Prop :=
  ∃ stored, ((rowOf name id s).visible w).filter (fun row =>
      expectedVersion.all (· = (tableOf zones name).version row)) = some stored ∧
    row = (tableOf zones name).assign stored values ∧ (tableOf zones name).violation [] row = none

/-- A statement waits for nobody. An update has its lock by then. -/
def StatementServed : (name : TableName) → TableOp (tableOf zones name) → Prop
  | name, .update id expectedVersion values =>
    ∀ row, Updating w s name id expectedVersion values row →
      locks (.row name id) = some w ∧ locks.Decided w s name id row
  | name, .insertOrNothing row =>
    (tableOf zones name).violation [] row = none →
      locks.Available w s name ((tableOf zones name).userId row) ∧
        locks.Decided w s name ((tableOf zones name).userId row) row
  | _, _ => True

def Served : Op (database W zones fault) → Prop
  | .db (.upsertRecord k _) => s.inTransaction w = true →
    (∀ u, locks (.record k) = some u → u = w) ∧ (s.records k).Free w
  | .db (.stmt ⟨name, o⟩) => s.inTransaction w = true → locks.StatementServed w s name o
  | _ => True

def Lockable (name : TableName) (id : UserId) (expectedVersion : Option Nat)
    (values : (tableOf zones name).Row) : Prop :=
  s.inTransaction w = true ∧ (∃ row, Updating w s name id expectedVersion values row) ∧
    locks (.row name id) = none ∧ (rowOf name id s).Free w

/-- The `DO UPDATE` of an upsert locks the record it meets, whether or not it has expired. -/
def acquired : (o : Op (database W zones fault)) →
    Except Exn ((sig (database W zones fault)).Reply o) → Locks W
  | .db (.upsertRecord k _), r =>
    if r.toBool then Function.update locks (.record k) (some w) else locks
  | _, _ => locks

def held : Locks W := fun l => (locks l).filter fun w => s.inTransaction w

end Locks

section Calls
variable {locks : Locks W} {s s' : World W H (database W zones fault)} {v : W}

theorem held_eq_some {l : Lock} :
    locks.held s l = some v ↔ locks l = some v ∧ s.inTransaction v = true :=
  Option.filter_eq_some_iff

theorem acquired_row {o : Op (database W zones fault)}
    {r : Except Exn ((sig (database W zones fault)).Reply o)} :
    locks.acquired w o r (.row name id) = locks (.row name id) := by
  cases o with
  | db o =>
    cases o with
    | upsertRecord k row =>
      show (if r.toBool then Function.update locks (.record k) (some w) else locks) _ = _
      split
      · exact Function.update_of_ne (by simp) _ _
      · rfl
    | _ => rfl
  | _ => rfl

theorem acquired_record {o : Op (database W zones fault)}
    {r : Except Exn ((sig (database W zones fault)).Reply o)} {k : IdempotencyKey}
    (h : locks.acquired w o r (.record k) = some v) :
    locks (.record k) = some v ∨ v = w ∧ ∃ row, o = .db (.upsertRecord k row) := by
  cases o with
  | db o =>
    cases o with
    | upsertRecord k' row =>
      change (if r.toBool then Function.update locks (.record k') (some w) else locks) _ = _ at h
      split at h
      · by_cases hk : k = k'
        · subst hk
          rw [Function.update_self] at h
          exact .inr ⟨(Option.some.inj h).symm, row, rfl⟩
        · rw [Function.update_of_ne (by simpa using hk)] at h
          exact .inl h
      · exact .inl h
    | _ => exact .inl h
  | _ => exact .inl h

/-! ### Rows that are locked -/

theorem free_setRows {o : TableOp (tableOf zones name)} {name' : TableName}
    {rows : Rows W (tableOf zones name)}
    (hs : TableStep w (fun id => rowOf name id s) o rows)
    (hserved : locks.StatementServed w s name o) (hfree : (rowOf name' id s).Free v)
    (hlock : locks (.row name' id) = some v) : (rowOf name' id (setRows name rows s)).Free v := by
  have hwrite : ∀ id' row, locks (.row name id') = some w ∨ locks.Available w s name id' →
      (rowOf name' id (setRows name (Function.update (fun id => rowOf name id s) id'
        ((rowOf name id' s).write w row)) s)).Free v := by
    intro id' row hmine
    by_cases hname : name' = name
    · subst hname
      rw [rowOf_setRows_self]
      by_cases hid : id = id'
      · subst hid
        rw [Function.update_self]
        have hv : v = w := by
          rcases hmine with hmine | ⟨hmine, -⟩
          · exact Option.some.inj (hlock.symm.trans hmine)
          · exact hmine v hlock
        subst hv
        exact Row.free_of_own Row.own_write_self
      · rw [Function.update_of_ne hid]
        exact hfree
    · rw [rowOf_setRows_ne hname]
      exact hfree
  cases hs with
  | same => rwa [setRows_same]
  | update userId expectedVersion stored values _ hvisible hversion haccepted =>
    refine hwrite _ _ (.inl (hserved _ ⟨stored, ?_, rfl, haccepted.1⟩).1)
    exact Option.filter_eq_some_iff.2 ⟨hvisible, hversion⟩
  | insert row _ _ haccepted => exact hwrite _ _ (.inr (hserved haccepted.1).1)

theorem free_dbExec {o : DbOp (database W zones fault)}
    {r : Except Exn ((dbSig (database W zones fault)).Reply o)} (he : dbExec F w o s r s')
    (hserved : locks.Served w s (.db o) ∨ ∃ e, r = .error e ∧ (fault e ∨ F.fault e))
    (hfree : (rowOf name id s).Free v) (hlock : locks (.row name id) = some v) :
    (rowOf name id s').Free v := by
  cases o with
  | stmt o =>
    obtain ⟨name', o⟩ := o
    cases ht : s.inTransaction w with
    | false =>
      simp only [dbExec, ht, Bool.false_eq_true, if_false] at he
      rw [he.2]
      exact hfree
    | true =>
      simp only [dbExec, ht, if_true] at he
      obtain ⟨b, ⟨rows, hexec, rfl⟩, rfl⟩ := he
      rcases hserved with hserved | ⟨e, rfl, -⟩
      · exact free_setRows (tableExec_step hexec) (hserved ht) hfree hlock
      · have hsame := tableExec_error hexec
        change rows = fun id => rowOf name' id s at hsame
        subst hsame
        change (rowOf name id (setRows name' (fun id => rowOf name' id s) s)).Free v
        rwa [setRows_same]
  | _ =>
    cases dbExec_housekeeping rfl he with
    | same => exact hfree
    | readClock => exact hfree
    | begin _ => exact hfree
    | commit _ => exact hfree.commit
    | rollback _ => exact hfree.rollback
    | write _ _ _ _ _ => exact hfree

theorem free_act {o : Op (database W zones fault)}
    {r : Except Exn ((sig (database W zones fault)).Reply o)} (he : opExec F w o s r s')
    (hserved : locks.Served w s o ∨ ∃ e, r = .error e ∧ (fault e ∨ F.fault e))
    (hfree : (rowOf name id s).Free v) (hlock : locks (.row name id) = some v) :
    (rowOf name id s').Free v := by
  cases o with
  | hot c =>
    obtain ⟨hot, -, rfl⟩ := he
    exact hfree
  | startHeartbeat k token lease =>
    obtain ⟨-, rfl⟩ := he
    exact hfree
  | leaseLost =>
    obtain ⟨-, rfl⟩ := he
    exact hfree
  | stopHeartbeat =>
    obtain ⟨-, rfl⟩ := he
    exact hfree
  | db o => exact free_dbExec he hserved hfree hlock

/-! ### Calls that wait for nobody -/

theorem settings_apart {row content : SettingsORM}
    (hrow : (settingsTable zones).violation [] row = none) :
    (settingsTable zones).violation [content] row = none :=
  (Table.violation_eq_none _).2 ⟨((Table.violation_eq_none _).1 hrow).1, fun _ _ => rfl⟩

theorem profiles_collide {row content : ProfileORM}
    (hrow : profilesTable.violation [] row = none)
    (h : profilesTable.violation [content] row ≠ none) :
    ∃ username, row.username = some username ∧ content.username = some username := by
  by_contra hnone
  refine h ((Table.violation_eq_none _).2 ⟨((Table.violation_eq_none _).1 hrow).1,
    fun other hother => ?_⟩)
  obtain rfl := List.mem_singleton.1 hother
  show (ProfileORM.uniques row other).all Prod.snd = true
  cases hu : row.username with
  | none => simp [ProfileORM.uniques, hu]
  | some username =>
    have hother : other.username ≠ some username := fun heq => hnone ⟨username, hu, heq⟩
    simpa [ProfileORM.uniques, hu] using Ne.symm hother

theorem writeRow_enabled (fault : Exn → Prop) {row : (tableOf zones name).Row}
    (hfree : (rowOf name id s).Free w)
    (hdecided : locks.Decided w s name id row) (hown : ∀ other, (rowOf name other s).own w = none) :
    ∃ r rows, writeRow fault w id row (fun id => rowOf name id s) r rows := by
  by_cases haccepted : Accepted (fun id => rowOf name id s) id row
  · exact ⟨_, _, .inl ⟨hfree, haccepted, rfl, rfl⟩⟩
  cases hviolation : (tableOf zones name).violation [] row with
  | some q => exact ⟨_, _, .inr ⟨⟨_, .inr ⟨q, .inl hviolation, rfl⟩, rfl⟩, rfl⟩⟩
  | none =>
    have hcollides : ¬ ∀ other, other ≠ id → ∀ content, (rowOf name other s).Content content →
        (tableOf zones name).violation [content] row = none :=
      fun hall => haccepted ⟨hviolation, hall⟩
    simp only [not_forall] at hcollides
    obtain ⟨other, hother, content, hcontent, hrefused⟩ := hcollides
    obtain ⟨q, hq⟩ := Option.ne_none_iff_exists'.1 hrefused
    have hfree' := (hdecided other hother content hcontent hrefused).2
    have hvisible : (rowOf name other s).visible w = some content := by
      rw [Row.visible_of_not_own (hown other)]
      rcases hcontent with hcommitted | ⟨u, hpending⟩
      · exact hcommitted
      · obtain rfl := hfree' u content hpending
        have hnone := hown other
        rw [Row.own_eq_some.2 hpending] at hnone
        cases hnone
    exact ⟨_, _, .inr ⟨⟨_, .inr ⟨q, .inr ⟨other, content, hother, hfree', hvisible, hq⟩, rfl⟩, rfl⟩,
      rfl⟩⟩

theorem stmt_enabled {o : TableOp (tableOf zones name)} (ht : s.inTransaction w = true)
    (h : ∃ r rows, tableExec fault w o (fun id => rowOf name id s) r rows) :
    ∃ r s', dbExec F w (.stmt ⟨name, o⟩ : DbOp (database W zones fault)) s r s' := by
  obtain ⟨r, rows, hexec⟩ := h
  refine ⟨r, { s with business := Tables.setRows name rows s.business }, ?_⟩
  simp only [dbExec, ht, if_true]
  exact ⟨_, ⟨rows, hexec, rfl⟩, rfl⟩

theorem unlocked_enabled (fault : Exn → Prop) {expectedVersion : Option Nat}
    {values : (tableOf zones name).Row}
    (h : ¬ ∃ row, Locks.Updating w s name id expectedVersion values row) :
    ∃ r rows, tableExec fault w (.update id expectedVersion values) (fun id => rowOf name id s) r
      rows := by
  cases hv : ((rowOf name id s).visible w).filter fun row =>
      expectedVersion.all (· = (tableOf zones name).version row) with
  | none =>
    cases hsend : (tableOf zones name).sendable values with
    | true => exact ⟨.ok none, fun id => rowOf name id s, by simp [tableExec, hv, hsend]⟩
    | false => exact ⟨.error (.sql .other), fun id => rowOf name id s, by simp [tableExec, hv, hsend]⟩
  | some stored =>
    cases hviolation : (tableOf zones name).violation []
        ((tableOf zones name).assign stored values) with
    | none => exact absurd ⟨_, stored, hv, rfl, hviolation⟩ h
    | some q =>
      refine ⟨.error (.sql q), fun id => rowOf name id s, ?_⟩
      simp only [tableExec, hv]
      exact .inr ⟨⟨_, .inr ⟨q, .inl hviolation, rfl⟩, rfl⟩, rfl⟩

theorem updating_enabled (fault : Exn → Prop) {expectedVersion : Option Nat}
    {values row : (tableOf zones name).Row}
    (h : Locks.Updating w s name id expectedVersion values row) (hfree : (rowOf name id s).Free w)
    (hdecided : locks.Decided w s name id row) (hown : ∀ other, (rowOf name other s).own w = none) :
    ∃ r rows, tableExec fault w (.update id expectedVersion values) (fun id => rowOf name id s) r
      rows := by
  obtain ⟨stored, hstored, rfl, -⟩ := h
  obtain ⟨r, rows, hw⟩ := writeRow_enabled fault hfree hdecided hown
  refine ⟨r, rows, ?_⟩
  simp only [tableExec, hstored]
  exact hw

theorem updating_unique {expectedVersion : Option Nat} {values row row' : (tableOf zones name).Row}
    (h : Locks.Updating w s name id expectedVersion values row)
    (h' : Locks.Updating w s name id expectedVersion values row') : row' = row := by
  obtain ⟨stored, hstored, rfl, -⟩ := h
  obtain ⟨stored', hstored', rfl, -⟩ := h'
  rw [Option.some.inj (hstored'.symm.trans hstored)]

end Calls

/-! ### The tasks with their locks -/

structure Locking (W : Type) [DecidableEq W] (H : HotStore W) (zones : ZoneInfo)
    (fault : Exn → Prop) (α : Type) where
  config : Library.Config (sig (database W zones fault)) Exn W (World W H (database W zones fault)) α
  locks : Locks W

/-- One step of the tasks with their locks. A fault needs no lock. -/
inductive LockStep (F : Failures) : Locking W H zones fault α → Locking W H zones fault α → Prop where
  | lock {c : Locking W H zones fault α} {w name id v values k}
      (htask : c.config.task w = some (.call (.db (.stmt ⟨name, .update id v values⟩)) k))
      (hlock : c.locks.Lockable w c.config.state name id v values) :
      LockStep F c ⟨c.config, Function.update c.locks (.row name id) (some w)⟩
  | act {c : Locking W H zones fault α} {w o k r s'} (htask : c.config.task w = some (.call o k))
      (hexec : opExec F w o c.config.state r s')
      (hserved : c.locks.Served w c.config.state o ∨ ∃ e, r = .error e ∧ (fault e ∨ F.fault e)) :
      LockStep F c ⟨⟨s', Function.update c.config.task w (some (k r))⟩,
        (c.locks.acquired w o r).held s'⟩
  | env {c : Locking W H zones fault α} {s'} (henv : WorldEnv c.config.state s') :
      LockStep F c ⟨⟨s', c.config.task⟩, c.locks⟩
  | crash {c : Locking W H zones fault α} {w o k} (htask : c.config.task w = some (.call o k))
      (hcrash : F.crash) :
      LockStep F c ⟨⟨c.config.state.crash w, Function.update c.config.task w none⟩,
        c.locks.held (c.config.state.crash w)⟩

/-- Locks only forbid steps. -/
theorem LockStep.step {c c' : Locking W H zones fault α} (h : LockStep F c c') :
    (machine W H (database W zones fault) F).Reachable c.config c'.config := by
  cases h with
  | lock _ _ => exact .refl
  | act htask hexec _ => exact .single (.act htask hexec)
  | env henv => exact .single (.env henv)
  | crash htask hcrash => exact .single (.crash htask ⟨hcrash, rfl⟩)

def LocksReachable (F : Failures) : Locking W H zones fault α → Locking W H zones fault α → Prop :=
  Relation.ReflTransGen (LockStep F)

theorem LocksReachable.reachable {c c' : Locking W H zones fault α} (h : LocksReachable F c c') :
    (machine W H (database W zones fault) F).Reachable c.config c'.config := by
  induction h with
  | refl => exact .refl
  | tail _ hs ih => exact ih.trans hs.step

/-- A task goes on: its call waits for nobody, or locks its row. -/
inductive GoesOn (F : Failures) (c : Locking W H zones fault α) : Prop where
  | act {w o k r s'} (htask : c.config.task w = some (.call o k))
      (hserved : c.locks.Served w c.config.state o) (hexec : opExec F w o c.config.state r s')
  | lock {w name id v values k}
      (htask : c.config.task w = some (.call (.db (.stmt ⟨name, .update id v values⟩)) k))
      (hlock : c.locks.Lockable w c.config.state name id v values)

theorem GoesOn.step {c : Locking W H zones fault α} (h : GoesOn F c) : ∃ c', LockStep F c c' := by
  cases h with
  | act htask hserved hexec => exact ⟨_, .act htask hexec (.inl hserved)⟩
  | lock htask hlock => exact ⟨_, .lock htask hlock⟩

end ProfileService.Infrastructure
