import ProfileService.Entrypoints.LockOrder
import ProfileService.Entrypoints.ThirdPartyReads
import ProfileService.Infrastructure.RowLocks

/-!
# No deadlock between executions

Whoever waits for a lock waits for a transaction that is further on. Only a rename that waits
for a username waits for one that may be behind it.
-/

namespace ProfileService.Entrypoints
open Domain Library Library.Machine Application Infrastructure Idempotency

variable {W : Type} [DecidableEq W] {zones : ZoneInfo} {fault : Exn → Prop} {name : TableName}
  {id : UserId} {w u v : W} {H : HotStore W} {F : Failures} {α : Type}
  {s s' : World W H (database W zones fault)} {p : Phase} {keeps : Prop} {locks : Locks W}

/-! ### What a phase says of the rows -/

/-- The rows of `w`, as far as it has come, and the profile it has loaded. -/
structure Locked (w : W) (p : Phase) (s : World W H (database W zones fault)) : Prop where
  idle : s.inTransaction w = false → p.lock = 0
  active : s.inTransaction w = true → 1 ≤ p.lock
  rows : ∀ name id row, (rowOf name id s).own w = some row → rank name ≤ p.lock
  records : ∀ k row, (s.records k).own w = some row → 4 ≤ p.lock
  loaded : ∀ a : UserProfile, p.profile = some a → Loaded .profiles a s

theorem Locked.frame (h : Locked w p s) (hf : Frame w s s') : Locked w p s' where
  idle ht := h.idle (hf.inTransaction.symm.trans ht)
  active ht := h.active (hf.inTransaction.symm.trans ht)
  rows name id row ho := h.rows name id row (((hf.business name id).own).symm.trans ho)
  records k row ho := h.records k row (((hf.records k).own).symm.trans ho)
  loaded a ha := (h.loaded a ha).frame hf

theorem locked_ended (ht : s.inTransaction w = false)
    (hrows : ∀ name id, (rowOf name id s).own w = none)
    (hrecords : ∀ k, (s.records k).own w = none) : Locked w ⟨0, none⟩ s where
  idle _ := rfl
  active h := by rw [ht] at h; cases h
  rows name id row ho := by rw [hrows] at ho; cases ho
  records k row ho := by rw [hrecords] at ho; cases ho
  loaded a ha := by cases ha

theorem locked_commit : Locked w ⟨0, none⟩ (s.commit w) :=
  locked_ended (by simp [World.commit]) (fun _ _ => Row.own_commit_self)
    fun _ => Row.own_commit_self

theorem locked_rollback : Locked w ⟨0, none⟩ (s.rollback w) :=
  locked_ended (by simp [World.rollback]) (fun _ _ => Row.own_rollback_self)
    fun _ => Row.own_rollback_self

theorem Locked.opened (h : Locked w p s) (hp : 1 ≤ p.lock) : s.inTransaction w = true := by
  cases ht : s.inTransaction w with
  | true => rfl
  | false =>
    have hzero := h.idle ht
    omega

theorem Locked.idled (h : Locked w p s) (hp : p.lock = 0) : Locked w ⟨0, none⟩ s where
  idle _ := rfl
  active ht := hp ▸ h.active ht
  rows name id row ho := hp ▸ h.rows name id row ho
  records k row ho := hp ▸ h.records k row ho
  loaded a ha := by cases ha

theorem Locked.later {lock : Nat} (h : Locked w p s) (ht : s.inTransaction w = true)
    (hle : p.lock ≤ lock) : Locked w ⟨lock, none⟩ s where
  idle hidle := by rw [ht] at hidle; cases hidle
  active _ := le_trans (h.active ht) hle
  rows name id row ho := le_trans (h.rows name id row ho) hle
  records k row ho := le_trans (h.records k row ho) hle
  loaded a ha := by cases ha

theorem Locked.writeRecord {k : IdempotencyKey} {row : DurableRecord} (h : Locked w p s)
    (ht : s.inTransaction w = true) (hp : p.lock < 4) :
    Locked w ⟨4, none⟩ (s.writeRecord w k row) where
  idle hidle := by
    change s.inTransaction w = false at hidle
    rw [ht] at hidle
    cases hidle
  active _ := by decide
  rows name id row ho := le_trans (h.rows name id row ho) (le_of_lt hp)
  records _ _ _ := le_refl 4
  loaded a ha := by cases ha

theorem Locked.write {o : TableOp (tableOf zones name)} {rows : Rows W (tableOf zones name)}
    (h : Locked w p s) (hp : 1 ≤ p.lock ∧ p.lock < rank name)
    (hs : TableStep w (fun id => rowOf name id s) o rows) :
    Locked w ⟨rank name, none⟩ (setRows name rows s) := by
  have hother : ∀ name' id row, (rowOf name' id (setRows name rows s)).own w = some row →
      name' = name ∨ (rowOf name' id s).own w = some row := by
    intro name' id row ho
    by_cases hname : name' = name
    · exact .inl hname
    · exact .inr (by rwa [rowOf_setRows_ne hname] at ho)
  have hrank : rank name < 4 := by cases name <;> decide
  exact {
    idle := fun hidle => by
      change s.inTransaction w = false at hidle
      rw [h.opened hp.1] at hidle
      cases hidle
    active := fun _ => le_trans hp.1 (le_of_lt hp.2)
    rows := fun name' id row ho => by
      rcases hother name' id row ho with rfl | hold
      · exact le_refl _
      · exact le_trans (h.rows name' id row hold) (le_of_lt hp.2)
    records := fun k row ho => by
      have hrecord := h.records k row ho
      show 4 ≤ rank name
      omega
    loaded := fun a ha => by cases ha }

theorem Locked.loads (h : Locked w p s) (hs : Infrastructure.Sound s)
    {r : Except Exn (Option (tableOf zones name).Row)}
    (hr : r = .ok ((rowOf name id s).visible w) ∨ ∃ e, fault e ∧ r = .error e) {a : UserProfile}
    (ha : p.loads name r = some a) : Loaded .profiles a s := by
  cases name with
  | settings => exact h.loaded a ha
  | profiles =>
    rcases hr with rfl | ⟨e, -, rfl⟩
    · cases hv : (rowOf .profiles id s).visible w with
      | none =>
        rw [hv] at ha
        exact h.loaded a ha
      | some row =>
        rw [hv] at ha
        change (if p.lock = 1 then (ProfileORM.modelValidate row).toOption else none) = some a at ha
        split at ha
        · rename_i hp
          have hown : (rowOf .profiles id s).own w = none := by
            cases ho : (rowOf .profiles id s).own w with
            | none => rfl
            | some mine =>
              have hrank : 2 ≤ p.lock := h.rows .profiles id mine ho
              omega
          rw [Row.visible_of_not_own hown] at hv
          obtain ⟨createdAt, hall⟩ := hs.rows .profiles id
          obtain ⟨v, hmem, rfl⟩ := Row.mem_of_committed hv
          obtain ⟨b, hb, hid, -⟩ := hall.versions v hmem
          have hread : (ProfileORM.modelValidate v.row).toOption = some b := by
            rw [hb]
            exact congrArg Except.toOption (ProfileORM.modelValidate_values b)
          obtain rfl : b = a := Option.some.inj (hread.symm.trans ha)
          exact ⟨v, hid ▸ hmem, hb⟩
        · cases ha
    · exact h.loaded a ha

theorem Locked.begin (h : Locked w p s) (hp : p.lock = 0) : Locked w ⟨1, none⟩ (s.begin w) where
  idle ht := by simp [World.begin] at ht
  active _ := le_refl 1
  rows name id row ho := le_trans (h.rows name id row ho) (by rw [hp]; exact Nat.zero_le _)
  records k row ho := le_trans (h.records k row ho) (by rw [hp]; exact Nat.zero_le _)
  loaded a ha := by cases ha

theorem Locked.upsert {k : IdempotencyKey} {row : DurableRecord} {r : Except Exn Bool}
    (h : Locked w p s) (hp : 1 ≤ p.lock ∧ p.lock < 4)
    (he : dbExec F w (.upsertRecord k row) s r s') : Locked w ⟨4, none⟩ s' := by
  have ht := h.opened hp.1
  have hkept : Locked w ⟨4, none⟩ s := h.later ht (le_of_lt hp.2)
  simp only [dbExec, ht, if_true] at he
  rcases he with ⟨hfree, he⟩ | ⟨e, -, -, rfl⟩
  · cases hv : (s.records k).visible w with
    | none =>
      rw [hv] at he
      obtain ⟨-, rfl⟩ := he
      exact h.writeRecord ht hp.2
    | some old =>
      rw [hv] at he
      by_cases hexpired : old.completed.expiresAt ≤ row.createdAt
      · simp only [hexpired, if_true] at he
        obtain ⟨-, rfl⟩ := he
        exact h.writeRecord ht hp.2
      · simp only [hexpired, if_false] at he
        obtain ⟨-, rfl⟩ := he
        exact hkept
  · exact hkept

theorem Locked.stmt {o : TableOp (tableOf zones name)}
    {r : Except Exn ((database W zones fault).Reply ⟨name, o⟩)} (h : Locked w p s)
    (hs : Infrastructure.Sound s) (hpermits : Permitted keeps p name o)
    (he : dbExec F w (.stmt (B := database W zones fault) ⟨name, o⟩) s r s') :
    Locked w (p.after name o r) s' := by
  cases ht : s.inTransaction w with
  | false =>
    -- outside a transaction nothing but a read is permitted
    simp only [dbExec, ht, Bool.false_eq_true, if_false] at he
    obtain ⟨rfl, rfl⟩ := he
    have hp := h.idle ht
    cases o with
    | select userId => cases name <;> exact h
    | exists_ userId => exact h
    | update userId expectedVersion values =>
      have hopen : 1 ≤ p.lock := hpermits.1.1
      omega
    | insertOrNothing row =>
      have hopen : 1 ≤ p.lock := hpermits.1.1
      omega
  | true =>
    simp only [dbExec, ht, if_true] at he
    obtain ⟨b, ⟨rows, hexec, rfl⟩, rfl⟩ := he
    change Locked w (p.after name o r) (setRows name rows s)
    cases o with
    | select userId =>
      obtain ⟨hr, hsame⟩ := hexec
      change rows = fun id => rowOf name id s at hsame
      rw [hsame, setRows_same]
      exact ⟨h.idle, h.active, h.rows, h.records, fun a ha => h.loads hs hr ha⟩
    | exists_ userId =>
      obtain ⟨-, hsame⟩ := hexec
      change rows = fun id => rowOf name id s at hsame
      rw [hsame, setRows_same]
      exact h
    | update userId expectedVersion values => exact h.write hpermits.1 (tableExec_step hexec)
    | insertOrNothing row => exact h.write hpermits.1 (tableExec_step hexec)

theorem Locked.dbStep {o : DbOp (database W zones fault)}
    {r : Except Exn ((dbSig (database W zones fault)).Reply o)} (h : Locked w p s)
    (hs : Infrastructure.Sound s) (hpermits : (lockOrder keeps).permits p o)
    (he : dbExec F w o s r s') : Locked w ((lockOrder keeps).next p o r) s' := by
  cases o with
  | clock =>
    obtain ⟨rfl, rfl⟩ := he
    exact ⟨h.idle, h.active, h.rows, h.records, h.loaded⟩
  | begin =>
    have hp : p.lock = 0 := hpermits
    simp only [dbExec] at he
    split at he
    · rename_i ht
      have hactive := h.active ht
      omega
    · rcases he with ⟨rfl, rfl⟩ | ⟨e, -, rfl, rfl⟩
      · exact h.begin hp
      · exact h.idled hp
  | commit =>
    simp only [dbExec, h.opened hpermits, if_true] at he
    rcases he with ⟨-, rfl⟩ | ⟨e, -, -, rfl | rfl⟩
    · exact locked_commit
    · exact locked_commit
    · exact locked_rollback
  | rollback =>
    simp only [dbExec, h.opened hpermits, if_true] at he
    obtain ⟨rfl, -⟩ := he
    exact locked_rollback
  | selectRecord k now =>
    obtain ⟨rfl, -⟩ := he
    exact h
  | upsertRecord k row => exact h.upsert hpermits he
  | stmt o => exact h.stmt hs hpermits he

theorem Locked.step {o : Op (database W zones fault)}
    {r : Except Exn ((sig (database W zones fault)).Reply o)} (h : Locked w p s)
    (hs : Infrastructure.Sound s) (hpermits : (lockOrderOf keeps).permits p o)
    (he : opExec F w o s r s') : Locked w ((lockOrderOf keeps).next p o r) s' := by
  cases o with
  | hot c =>
    obtain ⟨hot, -, rfl⟩ := he
    exact ⟨h.idle, h.active, h.rows, h.records, h.loaded⟩
  | startHeartbeat k token lease =>
    obtain ⟨-, rfl⟩ := he
    exact ⟨h.idle, h.active, h.rows, h.records, h.loaded⟩
  | leaseLost =>
    obtain ⟨-, rfl⟩ := he
    exact h
  | stopHeartbeat =>
    obtain ⟨-, rfl⟩ := he
    exact ⟨h.idle, h.active, h.rows, h.records, h.loaded⟩
  | db o => exact h.dbStep hs hpermits he

theorem Locked.crash (h : Locked w p s) : Locked w ⟨0, none⟩ (s.crash w) := by
  unfold World.crash
  split
  · have hrolled : Locked w ⟨0, none⟩ (s.rollback w) := locked_rollback
    exact ⟨hrolled.idle, hrolled.active, hrolled.rows, hrolled.records, hrolled.loaded⟩
  · rename_i ht
    have hidled := h.idled (h.idle (eq_false_of_ne_true ht))
    exact ⟨hidled.idle, hidled.active, hidled.rows, hidled.records, hidled.loaded⟩

theorem Locked.lock_le {o : Op (database W zones fault)}
    {r : Except Exn ((sig (database W zones fault)).Reply o)} (h : Locked w p s)
    (hpermits : (lockOrderOf keeps).permits p o) (he : opExec F w o s r s')
    (hstays : s'.inTransaction w = true) : p.lock ≤ ((lockOrderOf keeps).next p o r).lock := by
  cases o with
  | db o =>
    cases o with
    | begin =>
      have hp : p.lock = 0 := hpermits
      rw [hp]
      exact Nat.zero_le _
    | commit =>
      have hp : 1 ≤ p.lock := hpermits
      have he : dbExec F w .commit s r s' := he
      simp only [dbExec, h.opened hp, if_true] at he
      rcases he with ⟨-, rfl⟩ | ⟨e, -, -, rfl | rfl⟩
      · simp [World.commit] at hstays
      · simp [World.commit] at hstays
      · simp [World.rollback] at hstays
    | rollback =>
      have hp : 1 ≤ p.lock := hpermits
      have he : dbExec F w .rollback s r s' := he
      simp only [dbExec, h.opened hp, if_true] at he
      obtain ⟨rfl, -⟩ := he
      simp [World.rollback] at hstays
    | upsertRecord k row => exact le_of_lt hpermits.2
    | stmt o =>
      obtain ⟨name, o⟩ := o
      cases o with
      | update userId expectedVersion values => exact le_of_lt hpermits.1.2
      | insertOrNothing row => exact le_of_lt hpermits.1.2
      | _ => exact le_refl _
    | _ => exact le_refl _
  | _ => exact le_refl _

/-! ### What it says of the explicit locks -/

/-- What the locks of `w` say of it: it is in a transaction, nobody else has written their rows,
and either it has passed their place in the order or its update has just locked them. -/
structure Held (locks : Locks W) (task : Option (Code (sig (database W zones fault)) Exn α))
    (w : W) (p : Phase) (s : World W H (database W zones fault)) : Prop where
  opened : ∀ l, locks l = some w → s.inTransaction w = true
  free : ∀ name id, locks (.row name id) = some w → (rowOf name id s).Free w
  rows : ∀ name id, locks (.row name id) = some w → rank name ≤ p.lock ∨
    ∃ expectedVersion values k,
      task = some (.call (.db (.stmt ⟨name, .update id expectedVersion values⟩)) k)
  records : ∀ k, locks (.record k) = some w → 4 ≤ p.lock

/-- The rest of a task obeys the order from the phase that its rows and its locks say it has
reached; a task that has died has none. -/
def Orderly (keeps : Prop) (locks : Locks W)
    (task : Option (Code (sig (database W zones fault)) Exn α)) (w : W)
    (s : World W H (database W zones fault)) : Prop :=
  ∃ p, Locked w p s ∧ Held locks task w p s ∧
    task.elim (p.lock = 0) fun x => x.Obeys (lockOrderOf keeps) Outside p

variable {c c' : Locking W H zones fault α} {sends : W → Prop}

theorem Orderly.beside {task : Option (Code (sig (database W zones fault)) Exn α)} {locks' : Locks W}
    (h : Orderly keeps locks task v s) (hf : Frame v s s')
    (hrows : ∀ name id, locks' (.row name id) = some v → locks (.row name id) = some v)
    (hrecords : ∀ k, locks' (.record k) = some v → locks (.record k) = some v)
    (hfree : ∀ name id, (rowOf name id s).Free v → locks (.row name id) = some v →
      (rowOf name id s').Free v) : Orderly keeps locks' task v s' := by
  obtain ⟨p, hlocked, hheld, hrest⟩ := h
  refine ⟨p, hlocked.frame hf, ⟨fun l hl => ?_, fun name id hl => ?_, fun name id hl => ?_,
    fun k hl => ?_⟩, hrest⟩
  · refine hf.inTransaction.trans ?_
    cases l with
    | row name id => exact hheld.opened _ (hrows name id hl)
    | record k => exact hheld.opened _ (hrecords k hl)
  · exact hfree name id (hheld.free name id (hrows name id hl)) (hrows name id hl)
  · exact hheld.rows name id (hrows name id hl)
  · exact hheld.records k (hrecords k hl)

theorem Orderly.act {o : Op (database W zones fault)} {k r}
    (h : Orderly (α := α) keeps locks (some (.call o k)) w s) (hs : Infrastructure.Sound s)
    (he : opExec F w o s r s')
    (hserved : locks.Served w s o ∨ ∃ e, r = .error e ∧ (fault e ∨ F.fault e)) :
    Orderly keeps ((locks.acquired w o r).held s') (some (k r)) w s' := by
  obtain ⟨p, hlocked, hheld, hpermits, hrest⟩ := h
  refine ⟨(lockOrderOf keeps).next p o r, hlocked.step hs hpermits he, ⟨fun l hl => ?_,
    fun name id hl => ?_, fun name id hl => ?_, fun k hl => ?_⟩, hrest r⟩
  · exact (held_eq_some.1 hl).2
  · have hold := (held_eq_some.1 hl).1
    rw [acquired_row] at hold
    exact free_act he hserved (hheld.free name id hold) hold
  · obtain ⟨hold, hstays⟩ := held_eq_some.1 hl
    rw [acquired_row] at hold
    left
    rcases hheld.rows name id hold with hpassed | ⟨expectedVersion, values, k', hcall⟩
    · exact le_trans hpassed (hlocked.lock_le hpermits he hstays)
    · cases hcall
      exact le_refl _
  · obtain ⟨hold, hstays⟩ := held_eq_some.1 hl
    rcases acquired_record hold with hold | ⟨-, row, rfl⟩
    · exact le_trans (hheld.records k hold) (hlocked.lock_le hpermits he hstays)
    · exact le_refl 4

theorem Orderly.lock {task : Option (Code (sig (database W zones fault)) Exn α)}
    {expectedVersion : Option Nat} {values : (tableOf zones name).Row} {k}
    (h : Orderly keeps locks task v s)
    (htask : v = w →
      task = some (.call (.db (.stmt ⟨name, .update id expectedVersion values⟩)) k))
    (hlock : locks.Lockable w s name id expectedVersion values) :
    Orderly keeps (Function.update locks (.row name id) (some w)) task v s := by
  obtain ⟨p, hlocked, hheld, hrest⟩ := h
  obtain ⟨hopen, -, hnone, hfree⟩ := hlock
  have hkept : ∀ {l : Lock}, Function.update locks (.row name id) (some w) l = some v →
      locks l = some v ∨ v = w ∧ l = .row name id := by
    intro l hl
    by_cases heq : l = .row name id
    · subst heq
      rw [Function.update_self] at hl
      exact .inr ⟨(Option.some.inj hl).symm, rfl⟩
    · rw [Function.update_of_ne heq] at hl
      exact .inl hl
  refine ⟨p, hlocked, ⟨fun l hl => ?_, fun name' id' hl => ?_, fun name' id' hl => ?_,
    fun k' hl => ?_⟩, hrest⟩
  · rcases hkept hl with hold | ⟨rfl, -⟩
    · exact hheld.opened l hold
    · exact hopen
  · rcases hkept hl with hold | ⟨rfl, heq⟩
    · exact hheld.free name' id' hold
    · cases heq
      exact hfree
  · rcases hkept hl with hold | ⟨hv, heq⟩
    · exact hheld.rows name' id' hold
    · cases heq
      exact .inr ⟨expectedVersion, values, k, htask hv⟩
  · rcases hkept hl with hold | ⟨-, heq⟩
    · exact hheld.records k' hold
    · cases heq

theorem Orderly.crash {task : Option (Code (sig (database W zones fault)) Exn α)}
    (h : Orderly keeps locks task w s) :
    Orderly (α := α) keeps (locks.held (s.crash w)) none w (s.crash w) := by
  obtain ⟨p, hlocked, -, -⟩ := h
  have hended : ∀ l, locks.held (s.crash w) l ≠ some w := fun l hl => by
    have hopen := (held_eq_some.1 hl).2
    rw [crash_inTransaction] at hopen
    cases hopen
  exact ⟨⟨0, none⟩, hlocked.crash, ⟨fun l hl => absurd hl (hended l),
    fun _ _ hl => absurd hl (hended _), fun _ _ hl => absurd hl (hended _),
    fun _ hl => absurd hl (hended _)⟩, rfl⟩

/-- Every step keeps every task orderly. -/
theorem lockStep_orderly (hs : LockStep F c c') (hsound : Infrastructure.Sound c.config.state)
    (h : ∀ w, Orderly (sends w) c.locks (c.config.task w) w c.config.state) (v : W) :
    Orderly (sends v) c'.locks (c'.config.task v) v c'.config.state := by
  cases hs with
  | lock htask hlock => exact (h v).lock (fun hv => hv ▸ htask) hlock
  | @act w o k r s' htask hexec hserved =>
    by_cases hv : v = w
    · subst hv
      have hmine := h v
      rw [htask] at hmine
      simp only [Function.update_self]
      exact hmine.act hsound hexec hserved
    · simp only [Function.update_of_ne hv]
      refine (h v).beside (opExec_frame hexec hv) (fun name id hl => ?_) (fun k' hl => ?_)
        fun name id hfree hlock => free_act hexec hserved hfree hlock
      · exact acquired_row.symm.trans (held_eq_some.1 hl).1
      · rcases acquired_record (held_eq_some.1 hl).1 with hold | ⟨heq, -⟩
        · exact hold
        · exact absurd heq hv
  | env henv =>
    refine (h v).beside (henv.frame v) (fun _ _ hl => hl) (fun _ hl => hl) fun name id hfree _ => ?_
    cases henv <;> exact hfree
  | @crash w o k htask hcrash =>
    by_cases hv : v = w
    · subst hv
      simp only [Function.update_self]
      exact (h v).crash
    · simp only [Function.update_of_ne hv]
      refine (h v).beside (crash_frame _ hv) (fun name id hl => (held_eq_some.1 hl).1)
        (fun k hl => (held_eq_some.1 hl).1) fun name id hfree _ => ?_
      unfold World.crash
      split
      · exact hfree.rollback
      · exact hfree

/-! ### Who waits -/

/-- The transaction of `t` has locked or written something of the given rank. -/
inductive HasLock (t : W) (c : Locking W H zones fault α) : Nat → Prop where
  | written (name : TableName) (id : UserId) (row : (tableOf zones name).Row)
      (h : (rowOf name id c.config.state).own t = some row) : HasLock t c (rank name)
  | locked (name : TableName) (id : UserId) (h : c.locks (.row name id) = some t) :
      HasLock t c (rank name)
  | recorded (k : IdempotencyKey) (row : DurableRecord)
      (h : (c.config.state.records k).own t = some row) : HasLock t c 4
  | met (k : IdempotencyKey) (h : c.locks (.record k) = some t) : HasLock t c 4

/-- A call at a place in the order waits for a transaction that is further on. -/
def WaitsFor (c : Locking W H zones fault α) (lock : Nat) : Prop :=
  ∃ u further, lock < further ∧ further ≤ 4 ∧ HasLock u c further

/-- The update of a profile has locked its row and writes it a new username, which is that of a
row another transaction may still change: it waits for that transaction. -/
def RenameWaits (w : W) (c : Locking W H zones fault α) : Prop :=
  ∃ (id other : UserId) (v : Option Nat) (values row stored content : ProfileORM) (username : Str)
    (k : _), c.config.task w = some (.call (.db (.stmt ⟨.profiles, .update id v values⟩)) k) ∧
    c.config.state.inTransaction w = true ∧ c.locks (.row .profiles id) = some w ∧
    Locks.Updating w c.config.state .profiles id v values row ∧ row.username = some username ∧
    (rowOf .profiles id c.config.state).committed = some stored ∧ stored.username ≠ some username ∧
    other ≠ id ∧ (rowOf .profiles other c.config.state).Content content ∧
    content.username = some username ∧ ¬ c.locks.Available w c.config.state .profiles other

theorem rank_le (name : TableName) : rank name ≤ 4 := by cases name <;> decide

theorem waitsFor_row {lock : Nat} (hlock : lock < rank name)
    (h : ¬ c.locks.Available w c.config.state name id) : WaitsFor c lock := by
  unfold Locks.Available at h
  rw [not_and_or] at h
  rcases h with h | h
  · simp only [not_forall] at h
    obtain ⟨u, hu, -⟩ := h
    exact ⟨u, rank name, hlock, rank_le name, .locked name id hu⟩
  · obtain ⟨u, row, hpending⟩ := Row.exists_pending h
    exact ⟨u, rank name, hlock, rank_le name, .written name id row (Row.own_eq_some.2 hpending)⟩

theorem waitsFor_record {lock : Nat} {k : IdempotencyKey} (hlock : lock < 4)
    (h : ¬ ((∀ u, c.locks (.record k) = some u → u = w) ∧ (c.config.state.records k).Free w)) :
    WaitsFor c lock := by
  rw [not_and_or] at h
  rcases h with h | h
  · simp only [not_forall] at h
    obtain ⟨u, hu, -⟩ := h
    exact ⟨u, 4, hlock, le_refl 4, .met k hu⟩
  · obtain ⟨u, row, hpending⟩ := Row.exists_pending h
    exact ⟨u, 4, hlock, le_refl 4, .recorded k row (Row.own_eq_some.2 hpending)⟩

theorem RenameWaits.not_served (h : RenameWaits w c) :
    ∃ o k, c.config.task w = some (.call o k) ∧ ¬ c.locks.Served w c.config.state o := by
  obtain ⟨id, other, v, values, row, stored, content, username, k, htask, ht, -, hrow, husername, -,
    -, hother, hcontent, hname, hbusy⟩ := h
  refine ⟨_, k, htask, fun hserved => hbusy ((hserved ht row hrow).2 other hother content hcontent
    fun hnone => ?_)⟩
  have hunique := ((Table.violation_eq_none _).1 hnone).2 content (List.mem_singleton_self _)
  change (ProfileORM.uniques row content).all Prod.snd = true at hunique
  simp [ProfileORM.uniques, husername, hname] at hunique

theorem Locked.own_none (h : Locked w p s) (hp : p.lock < rank name) (id : UserId) :
    (rowOf name id s).own w = none := by
  cases ho : (rowOf name id s).own w with
  | none => rfl
  | some mine =>
    have hrank := h.rows name id mine ho
    omega

section Calls
variable {commands : W → Command}
  {base : (name : TableName) → UserId → Option (tableOf zones name).Row}
  (hacc : Accounted commands base c.config.state)
  (hnames : NamesApart (show Tables W zones from c.config.state.business))
  (hlocked : Locked w p c.config.state)

include hacc hnames hlocked

omit hacc hnames in
theorem idle_update_goesOn {expectedVersion : Option Nat} {values : (tableOf zones name).Row} {k}
    (hpermits : Permitted keeps p name (.update id expectedVersion values))
    (htask : c.config.task w =
      some (.call (.db (.stmt ⟨name, .update id expectedVersion values⟩)) k))
    (h : ¬ ∃ row, Locks.Updating w c.config.state name id expectedVersion values row) :
    GoesOn F c := by
  obtain ⟨r, s', he⟩ := stmt_enabled (F := F) (hlocked.opened hpermits.1.1)
    (unlocked_enabled fault h)
  exact .act htask (fun _ row hrow => absurd ⟨row, hrow⟩ h) he

/-- An update that has locked its row goes on, unless it is a rename that waits. -/
theorem update_goesOn {expectedVersion : Option Nat} {values : (tableOf zones name).Row} {k}
    (hpermits : Permitted keeps p name (.update id expectedVersion values))
    (htask : c.config.task w =
      some (.call (.db (.stmt ⟨name, .update id expectedVersion values⟩)) k))
    (hlock : c.locks (.row name id) = some w) (hfree : (rowOf name id c.config.state).Free w) :
    GoesOn F c ∨ (¬ keeps ∧ RenameWaits w c) := by
  by_cases hupdating : ∃ row, Locks.Updating w c.config.state name id expectedVersion values row
  swap
  · exact .inl (idle_update_goesOn hlocked hpermits htask hupdating)
  obtain ⟨row, hupdating⟩ := hupdating
  obtain ⟨⟨hopen, hplace⟩, hkept⟩ := hpermits
  have hown := hlocked.own_none hplace
  by_cases hdecided : c.locks.Decided w c.config.state name id row
  · obtain ⟨r, s', he⟩ := stmt_enabled (F := F) (hlocked.opened hopen)
      (updating_enabled fault hupdating hfree hdecided hown)
    refine .inl (.act htask (fun _ row' hrow' => ⟨hlock, ?_⟩) he)
    rw [updating_unique hupdating hrow']
    exact hdecided
  · right
    unfold Locks.Decided at hdecided
    simp only [not_forall] at hdecided
    obtain ⟨other, hother, content, hcontent, hrefused, hbusy⟩ := hdecided
    have hrow := hupdating
    obtain ⟨stored, hstored, rfl, hviolation⟩ := hupdating
    obtain ⟨hvisible, hversion⟩ := Option.filter_eq_some_iff.1 hstored
    rw [Row.visible_of_not_own (hown id)] at hvisible
    cases name with
    | settings => exact absurd (settings_apart hviolation) hrefused
    | profiles =>
      obtain ⟨username, husername, hcontentName⟩ := profiles_collide hviolation hrefused
      have hnew : ProfileORM.username stored ≠ some username := fun hu =>
        hnames id other hother stored content (.inl hvisible) hcontent username hu hcontentName
      refine ⟨fun hkeeps => hnew ?_, id, other, expectedVersion, values, _, stored, content, username,
        k, htask, hlocked.opened hopen, hlock, hrow, husername, hvisible, hnew, hother, hcontent,
        hcontentName, hbusy⟩
      -- otherwise it writes the username that it has read
      obtain ⟨a, a', hloaded, rfl, rfl, rfl, -, -, hsame⟩ := hkept hkeeps
      have hread : stored = ProfileORM.values a :=
        hacc.expected (hlocked.loaded a hloaded) hvisible (by simpa [eq_comm] using hversion)
      have hwritten : a'.fields.username.map Subtype.val = some username := husername
      rw [hread]
      exact (congrArg (Option.map Subtype.val) hsame).symm.trans hwritten

theorem update_goesOn_or_waits {expectedVersion : Option Nat} {values : (tableOf zones name).Row} {k}
    (hpermits : Permitted keeps p name (.update id expectedVersion values))
    (htask : c.config.task w =
      some (.call (.db (.stmt ⟨name, .update id expectedVersion values⟩)) k)) :
    (GoesOn F c ∨ (¬ keeps ∧ RenameWaits w c)) ∨ WaitsFor c p.lock := by
  have ht := hlocked.opened hpermits.1.1
  by_cases hupdating : ∃ row, Locks.Updating w c.config.state name id expectedVersion values row
  · by_cases havailable : c.locks.Available w c.config.state name id
    · left
      cases hl : c.locks (.row name id) with
      | none => exact .inl (.lock htask ⟨ht, hupdating, hl, havailable.2⟩)
      | some u =>
        obtain rfl := havailable.1 u hl
        exact update_goesOn hacc hnames hlocked hpermits htask hl havailable.2
    · exact .inr (waitsFor_row hpermits.1.2 havailable)
  · exact .inl (.inl (idle_update_goesOn hlocked hpermits htask hupdating))

omit hacc hnames in
/-- An insertion goes on, or waits for its key; a new row has no username to wait for. -/
theorem insert_goesOn_or_waits {row : (tableOf zones name).Row} {k}
    (hpermits : (1 ≤ p.lock ∧ p.lock < rank name) ∧ Nameless name row)
    (htask : c.config.task w = some (.call (.db (.stmt ⟨name, .insertOrNothing row⟩)) k)) :
    GoesOn F c ∨ WaitsFor c p.lock := by
  obtain ⟨⟨hopen, hplace⟩, hnameless⟩ := hpermits
  have ht := hlocked.opened hopen
  cases hviolation : (tableOf zones name).violation [] row with
  | some q =>
    have hexec : ∃ r rows, tableExec fault w (.insertOrNothing row)
        (fun id => rowOf name id c.config.state) r rows := by
      refine ⟨.error (.sql q), fun id => rowOf name id c.config.state, ?_⟩
      cases hv : (rowOf name ((tableOf zones name).userId row) c.config.state).visible w with
      | none =>
        simp only [tableExec, hv]
        exact .inr ⟨⟨_, .inr ⟨q, .inl hviolation, rfl⟩, rfl⟩, rfl⟩
      | some stored => simp [tableExec, hv, hviolation]
    obtain ⟨r, s', he⟩ := stmt_enabled (F := F) ht hexec
    refine .inl (.act htask (fun _ haccepted => ?_) he)
    rw [hviolation] at haccepted
    cases haccepted
  | none =>
    by_cases havailable : c.locks.Available w c.config.state name ((tableOf zones name).userId row)
    swap
    · exact .inr (waitsFor_row hplace havailable)
    have hdecided : c.locks.Decided w c.config.state name ((tableOf zones name).userId row) row := by
      intro other _ content _ hrefused
      cases name with
      | settings => exact absurd (settings_apart hviolation) hrefused
      | profiles =>
        obtain ⟨username, hrow, -⟩ := profiles_collide hviolation hrefused
        exact absurd (hnameless.symm.trans hrow) (by simp)
    have hexec : ∃ r rows, tableExec fault w (.insertOrNothing row)
        (fun id => rowOf name id c.config.state) r rows := by
      cases hv : (rowOf name ((tableOf zones name).userId row) c.config.state).visible w with
      | none =>
        obtain ⟨r, rows, hw⟩ := writeRow_enabled fault havailable.2 hdecided
          (hlocked.own_none hplace)
        refine ⟨r, rows, ?_⟩
        simp only [tableExec, hv]
        exact hw
      | some stored =>
        exact ⟨.ok none, fun id => rowOf name id c.config.state, by simp [tableExec, hv, hviolation]⟩
    obtain ⟨r, s', he⟩ := stmt_enabled (F := F) ht hexec
    exact .inl (.act htask (fun _ _ => ⟨havailable, hdecided⟩) he)

omit hacc hnames in
theorem upsert_goesOn_or_waits {k : IdempotencyKey} {row : DurableRecord} {rest}
    (hpermits : 1 ≤ p.lock ∧ p.lock < 4)
    (htask : c.config.task w = some (.call (.db (.upsertRecord k row)) rest)) :
    GoesOn F c ∨ WaitsFor c p.lock := by
  have ht := hlocked.opened hpermits.1
  by_cases havailable : (∀ u, c.locks (.record k) = some u → u = w) ∧
      (c.config.state.records k).Free w
  swap
  · exact .inr (waitsFor_record hpermits.2 havailable)
  have hexec : ∃ r s', dbExec F w (.upsertRecord k row) c.config.state r s' := by
    cases hv : (c.config.state.records k).visible w with
    | none =>
      exact ⟨.ok true, c.config.state.writeRecord w k row, by
        simp [dbExec, ht, hv, havailable.2]⟩
    | some old =>
      by_cases hexpired : old.completed.expiresAt ≤ row.createdAt
      · exact ⟨.ok true, c.config.state.writeRecord w k row, by
          simp [dbExec, ht, hv, havailable.2, hexpired]⟩
      · exact ⟨.ok false, c.config.state, by simp [dbExec, ht, hv, havailable.2, hexpired]⟩
  obtain ⟨r, s', he⟩ := hexec
  exact .inl (.act htask (fun _ => havailable) he)

omit hacc hnames hlocked in
theorem steady_enabled {o : DbOp (database W zones fault)} (hstmt : DbOp.isStmt o = false)
    (hupsert : DbOp.isUpsert o = false) : ∃ r s', dbExec F w o s r s' := by
  cases ht : s.inTransaction w with
  | false =>
    cases o with
    | clock => exact ⟨_, _, rfl, rfl⟩
    | selectRecord k now => exact ⟨_, _, rfl, .inl rfl⟩
    | begin => exact ⟨.ok (), s.begin w, by simp [dbExec, ht]⟩
    | commit => exact ⟨.error .transactionNotStarted, s, by simp [dbExec, ht]⟩
    | rollback => exact ⟨.error .transactionNotStarted, s, by simp [dbExec, ht]⟩
    | upsertRecord k row => cases hupsert
    | stmt o => cases hstmt
  | true =>
    cases o with
    | clock => exact ⟨_, _, rfl, rfl⟩
    | selectRecord k now => exact ⟨_, _, rfl, .inl rfl⟩
    | begin => exact ⟨.error .nestedTransactionNotAllowed, s, by simp [dbExec, ht]⟩
    | commit => exact ⟨.ok (), s.commit w, by simp [dbExec, ht]⟩
    | rollback => exact ⟨.ok (), s.rollback w, by simp [dbExec, ht]⟩
    | upsertRecord k row => cases hupsert
    | stmt o => cases hstmt

omit hacc hnames hlocked in
theorem read_enabled {o : TableOp (tableOf zones name)} (ho : o.writes = false) :
    ∃ r s', dbExec F w (.stmt ⟨name, o⟩ : DbOp (database W zones fault)) s r s' := by
  cases ht : s.inTransaction w with
  | false => exact ⟨.error .transactionRequired, s, by simp [dbExec, ht]⟩
  | true =>
    cases o with
    | select userId =>
      exact stmt_enabled ht ⟨.ok ((rowOf name userId s).visible w), _, .inl rfl, rfl⟩
    | exists_ userId =>
      exact stmt_enabled ht ⟨.ok ((rowOf name userId s).visible w).isSome, _, .inl rfl, rfl⟩
    | update _ _ _ => cases ho
    | insertOrNothing _ => cases ho

/-- A permitted call goes on, or waits for a transaction that is further on, or is a rename that
waits. -/
theorem call_goesOn_or_waits {o : Op (database W zones fault)} {k}
    (hhot : ∀ w now call h, ∃ r h', H.exec w now call h r h')
    (hpermits : (lockOrderOf keeps).permits p o) (htask : c.config.task w = some (.call o k)) :
    (GoesOn F c ∨ (¬ keeps ∧ RenameWaits w c)) ∨ WaitsFor c p.lock := by
  have hgoes : c.locks.Served w c.config.state o → (∃ r s', opExec F w o c.config.state r s') →
      (GoesOn F c ∨ (¬ keeps ∧ RenameWaits w c)) ∨ WaitsFor c p.lock :=
    fun hserved ⟨r, s', he⟩ => .inl (.inl (.act htask hserved he))
  cases o with
  | hot call =>
    obtain ⟨r, hot, he⟩ := hhot w c.config.state.now call c.config.state.hot
    exact hgoes trivial ⟨r, _, hot, he, rfl⟩
  | startHeartbeat identity token lease => exact hgoes trivial ⟨_, _, rfl, rfl⟩
  | leaseLost => exact hgoes trivial ⟨_, _, rfl, rfl⟩
  | stopHeartbeat => exact hgoes trivial ⟨_, _, rfl, rfl⟩
  | db o =>
    have hdb : c.locks.Served w c.config.state (.db o) →
        (∃ r s', dbExec F w o c.config.state r s') →
        (GoesOn F c ∨ (¬ keeps ∧ RenameWaits w c)) ∨ WaitsFor c p.lock := hgoes
    cases o with
    | stmt o =>
      obtain ⟨name, o⟩ := o
      cases o with
      | select userId => exact hdb (fun _ => trivial) (read_enabled rfl)
      | exists_ userId => exact hdb (fun _ => trivial) (read_enabled rfl)
      | update userId expectedVersion values =>
        exact update_goesOn_or_waits hacc hnames hlocked hpermits htask
      | insertOrNothing row => exact (insert_goesOn_or_waits hlocked hpermits htask).imp_left .inl
    | upsertRecord k row => exact (upsert_goesOn_or_waits hlocked hpermits htask).imp_left .inl
    | _ => exact hdb trivial (steady_enabled rfl rfl)

end Calls

/-! ### The run -/

theorem orderly_of_reachable (hr : LocksReachable F c c')
    (hsound : ∀ d : Library.Config (sig (database W zones fault)) Exn W
      (World W H (database W zones fault)) α,
      (machine W H (database W zones fault) F).Reachable c.config d → Infrastructure.Sound d.state)
    (h : ∀ w, Orderly (sends w) c.locks (c.config.task w) w c.config.state) :
    ∀ w, Orderly (sends w) c'.locks (c'.config.task w) w c'.config.state := by
  induction hr with
  | refl => exact h
  | tail hr hs ih => exact lockStep_orderly hs (hsound _ (LocksReachable.reachable hr)) ih

/-- Whoever waits, waits for a transaction further on, and the last one does not wait. -/
theorem goesOn_of_orderly {commands : W → Command}
    {base : (name : TableName) → UserId → Option (tableOf zones name).Row}
    (hhot : ∀ w now call h, ∃ r h', H.exec w now call h r h')
    (hacc : Accounted commands base c.config.state)
    (hnames : NamesApart (show Tables W zones from c.config.state.business))
    (h : ∀ w, Orderly (sends w) c.locks (c.config.task w) w c.config.state) {w : W}
    {x : Code (sig (database W zones fault)) Exn α} (htask : c.config.task w = some x)
    (hlocked : Locked w p c.config.state)
    (hobeys : x.Obeys (lockOrderOf (sends w)) Outside p) (hcall : ∀ r, x ≠ .ret r) :
    GoesOn F c ∨ ∃ w, ¬ sends w ∧ RenameWaits w c := by
  induction hleft : 4 - p.lock using Nat.strong_induction_on generalizing w x p with
  | _ n ih =>
    cases x with
    | ret r => exact absurd rfl (hcall r)
    | call o k =>
      rcases call_goesOn_or_waits (F := F) hacc hnames hlocked hhot hobeys.1 htask with
        (hgoes | hrename) | ⟨u, further, hlt, hle, hlock⟩
      · exact .inl hgoes
      · exact .inr ⟨w, hrename⟩
      · obtain ⟨q, hlocked', hheld, hrest⟩ := h u
        -- the holder of the lock is further on, and has more to do
        have hgo : further ≤ q.lock → GoesOn F c ∨ ∃ w, ¬ sends w ∧ RenameWaits w c := by
          intro hfurther
          cases hu : c.config.task u with
          | none =>
            rw [hu] at hrest
            change q.lock = 0 at hrest
            omega
          | some y =>
            rw [hu] at hrest
            refine ih (4 - q.lock) (by omega) hu hlocked' hrest (fun r hret => ?_) rfl
            subst hret
            change q.lock = 0 at hrest
            omega
        cases hlock with
        | written name id row ho => exact hgo (hlocked'.rows name id row ho)
        | recorded k row ho => exact hgo (hlocked'.records k row ho)
        | met k hl => exact hgo (hheld.records k hl)
        | locked name id hl =>
          rcases hheld.rows name id hl with hpassed | ⟨expectedVersion, values, k', hu⟩
          · exact hgo hpassed
          · -- its update has just locked the row, and has nobody to wait for
            rw [hu] at hrest
            have hfree := hheld.free name id hl
            exact (update_goesOn hacc hnames hlocked' hrest.1 hu hl hfree).imp_right
              fun hrename => ⟨u, hrename⟩

/-- Any number of executions of the registered commands, in any interleaving and whatever may
fail: as long as one of them has something to do, one of them goes on, or a rename has locked its
profile and waits for its username. -/
theorem no_deadlock {R : RedisClient} {D : Deployment} {commands : W → Command}
    {modes : W → ResultMode} {job : W → Request (database W zones fault)}
    {population : Population zones} {now : Instant} {stored : IdempotencyKey → Option DurableRecord}
    {c : Locking W (redisHotStore W R) zones fault CompletedIdempotencyResult}
    (hfault : ∀ e, fault e → Failures.any.fault e) (hF : ∀ e, F.fault e → Failures.any.fault e)
    (hmode : ∀ w, (job w).policy.mode = .hotDurable)
    (hoperation : ∀ w, (job w).operation = operationOf D zones _ (modes w) (commands w))
    (hnames : ∀ (p q : UserProfile) id other, population.entity .profiles id = some p →
      population.entity .profiles other = some q → other ≠ id →
      ∀ u, p.fields.username = some u → q.fields.username ≠ some u)
    (hr : LocksReachable F ⟨opening R job population now stored, fun _ => none⟩ c)
    {w : W} {o : Op (database W zones fault)}
    {k : Except Exn ((sig (database W zones fault)).Reply o) →
      Code (sig (database W zones fault)) Exn CompletedIdempotencyResult}
    (htask : c.config.task w = some (.call o k)) :
    GoesOn F c ∨ ∃ w, renames (commands w) = true ∧ RenameWaits w c := by
  have horchestration : ∀ e, Failures.any.fault e → e.isOrchestration = true := any_orchestration
  have hgoverned : ∀ d : Library.Config (sig (database W zones fault)) Exn W
      (World W (redisHotStore W R) (database W zones fault)) CompletedIdempotencyResult,
      (machine W (redisHotStore W R) (database W zones fault) F).Reachable
        (opening R job population now stored) d → Accounted commands population.rows d.state :=
    fun d hr => (executions_governed (fun e he => horchestration e (hfault e he))
      (fun e he => horchestration e (hF e he)) redisExec_raises hmode hoperation hr).inv.1
  have happart : NamesApart (show Tables W zones from c.config.state.business) :=
    reachable_business (K := fun b : Tables W zones => NamesApart b)
      (fun _ _ _ hs h => NamesApart.step hs h) hr.reachable (initial_namesApart hnames)
  have horderly : ∀ w, Orderly (renames (commands w) = false) c.locks (c.config.task w) w
      c.config.state := by
    refine orderly_of_reachable hr (fun d hd => (hgoverned d hd).sound) fun v => ?_
    refine ⟨⟨0, none⟩, locked_ended rfl (fun name id => population.own_stored v name id)
      (fun _ => rfl), ⟨fun _ hl => ?_, fun _ _ hl => ?_, fun _ _ hl => ?_, fun _ hl => ?_⟩, ?_⟩
    · cases hl
    · cases hl
    · cases hl
    · cases hl
    · refine obeys_execute (hmode v) ?_ rfl
      rw [hoperation v]
      exact obeys_operation (commands v)
  obtain ⟨p, hlocked, -, hrest⟩ := horderly w
  rw [htask] at hrest
  refine (goesOn_of_orderly (fun _ _ call h => Redis.exec_enabled call h) (hgoverned _ hr.reachable)
    happart horderly htask hlocked hrest fun _ hret => by cases hret).imp_right ?_
  rintro ⟨v, hsends, hwaits⟩
  exact ⟨v, eq_true_of_ne_false hsends, hwaits⟩

section Sample

/-- Two copies of one update at their start, with nothing that fails. -/
theorem no_deadlock_sample : GoesOn Failures.never
    (⟨opening (sampleClient true) (fun _ => sampleExecution sampleRename) somebody 20 fun _ => none,
      fun _ => none⟩ : Locking Bool (redisHotStore Bool (sampleClient true)) moscowOnly
        (fun _ => False) CompletedIdempotencyResult) := by
  have hnames : ∀ (p q : UserProfile) id other, somebody.entity .profiles id = some p →
      somebody.entity .profiles other = some q → other ≠ id →
      ∀ u, p.fields.username = some u → q.fields.username ≠ some u := by
    intro p q id other hp hq hne
    have honly : ∀ {id : UserId} {p : UserProfile}, somebody.entity .profiles id = some p →
        id = sampleProfile.id := by
      intro id p hp
      change (if id = sampleProfile.id then some sampleProfile else none) = some p at hp
      split at hp
      · assumption
      · cases hp
    exact absurd ((honly hq).trans (honly hp).symm) hne
  refine (no_deadlock (F := Failures.never) (fun _ h => False.elim h) (fun _ h => False.elim h)
    (fun _ => rfl) sampleExecution_operation hnames .refl (w := true) rfl).resolve_right ?_
  rintro ⟨w, hsends, -⟩
  cases hsends

end Sample

end ProfileService.Entrypoints
