import ProfileService.Idempotency.Frame
import ProfileService.Infrastructure.Database
import ProfileService.Infrastructure.Session

/-!
# Repositories and handlers among concurrent sessions

What one session may rely on while any number of others run: every content of a row is an
aggregate of its user, all with one creation time. The repositories and the updating
handlers are followed statement by statement under that invariant.
-/

namespace ProfileService.Infrastructure
open Domain Library Library.Machine Application Idempotency

variable {W : Type} [DecidableEq W] {zones : ZoneInfo} {fault : Exn → Prop}
  {H : HotStore W} {F : Failures} {name : TableName} {w : W} {id : UserId}
  {s s' s₁ s₂ : World W H (database W zones fault)} {α β : Type}

theorem lawful_tableOf (zones : ZoneInfo) : (name : TableName) → Lawful (tableOf zones name)
  | .profiles => lawful_profiles
  | .settings => lawful_settings zones

def rowOf (name : TableName) (id : UserId) (s : World W H (database W zones fault)) :
    Row W (tableOf zones name).Row :=
  Tables.rows s.business name id

def setRows (name : TableName) (rows : Rows W (tableOf zones name))
    (s : World W H (database W zones fault)) : World W H (database W zones fault) :=
  { s with business := Tables.setRows name rows s.business }

/-! ### The invariant -/

/-- Every content of a row is an aggregate of its user, created at one time. -/
def RowSound (zones : ZoneInfo) (name : TableName) (id : UserId)
    (c : Row W (tableOf zones name).Row) : Prop :=
  ∃ createdAt, c.All fun r => ∃ a : VersionedMutableEntity (FieldsOf zones name),
    r = (tableOf zones name).values a ∧ a.id = id ∧ a.createdAt = createdAt

/-- All rows are sound, and a session without a transaction has no uncommitted rows. -/
structure Sound (s : World W H (database W zones fault)) : Prop where
  rows : ∀ name id, RowSound zones name id (rowOf name id s)
  idle : ∀ w, s.inTransaction w = false → ∀ name id, (rowOf name id s).own w = none

/-- The aggregate is a committed version of its row. -/
def Loaded (name : TableName) (a : VersionedMutableEntity (FieldsOf zones name))
    (s : World W H (database W zones fault)) : Prop :=
  ∃ v ∈ (rowOf name a.id s).versions, v.row = (tableOf zones name).values a

theorem values_inj {a b : VersionedMutableEntity (FieldsOf zones name)}
    (h : (tableOf zones name).values a = (tableOf zones name).values b) : a = b := by
  have hread := (lawful_tableOf zones name).readBack a
  rw [h, (lawful_tableOf zones name).readBack b] at hread
  exact (Except.ok.inj hread).symm

theorem Loaded.frame {a : VersionedMutableEntity (FieldsOf zones name)} (h : Loaded name a s)
    (hf : Frame w s s') : Loaded name a s' := by
  obtain ⟨v, hv, hrow⟩ := h
  exact ⟨v, (hf.business name a.id).grows.subset hv, hrow⟩

omit [DecidableEq W] in
theorem RowSound.createdAt {c : Row W (tableOf zones name).Row} (h : RowSound zones name id c)
    {a : VersionedMutableEntity (FieldsOf zones name)} {v : Version W (tableOf zones name).Row}
    (hv : v ∈ c.versions) (hrow : v.row = (tableOf zones name).values a) :
    a.id = id ∧ c.All fun r => ∃ b : VersionedMutableEntity (FieldsOf zones name),
      r = (tableOf zones name).values b ∧ b.id = id ∧ b.createdAt = a.createdAt := by
  obtain ⟨createdAt, hall⟩ := h
  obtain ⟨b, hb, hid, hcreated⟩ := hall.versions v hv
  rw [hrow] at hb
  obtain rfl := values_inj hb
  exact ⟨hid, hcreated ▸ hall⟩

theorem assign_sound {a a' : VersionedMutableEntity (FieldsOf zones name)}
    {stored : (tableOf zones name).Row} {c : Row W (tableOf zones name).Row}
    (hall : c.All fun r => ∃ b : VersionedMutableEntity (FieldsOf zones name),
      r = (tableOf zones name).values b ∧ b.id = id ∧ b.createdAt = a.createdAt)
    (hid : a'.id = id) (hcreated : a'.createdAt = a.createdAt) (hvisible : c.visible w = some stored) :
    (tableOf zones name).assign stored ((tableOf zones name).values a') =
      (tableOf zones name).values a' := by
  obtain ⟨b, rfl, hidb, hcreatedb⟩ := hall.visible hvisible
  exact (lawful_tableOf zones name).assign (hid.trans hidb.symm) (hcreated.trans hcreatedb.symm)

@[simp] theorem rowOf_setRows_self {rows : Rows W (tableOf zones name)} :
    rowOf name id (setRows name rows s) = rows id := by
  simp [rowOf, setRows, Tables.setRows]

theorem rowOf_setRows_ne {name' : TableName} {rows : Rows W (tableOf zones name)}
    (h : name' ≠ name) : rowOf name' id (setRows name rows s) = rowOf name' id s := by
  simp [rowOf, setRows, Tables.setRows, h]

theorem Sound.write {row : (tableOf zones name).Row} (h : Sound s) (ht : s.inTransaction w = true)
    (hrow : RowSound zones name id ((rowOf name id s).write w row)) :
    Sound (setRows name (Function.update (fun id => rowOf name id s) id
      ((rowOf name id s).write w row)) s) := by
  constructor
  · intro name' id'
    by_cases hname : name' = name
    · subst hname
      rw [rowOf_setRows_self]
      by_cases hid : id' = id
      · subst hid
        rw [Function.update_self]
        exact hrow
      · rw [Function.update_of_ne hid]
        exact h.rows _ id'
    · rw [rowOf_setRows_ne hname]
      exact h.rows name' id'
  · intro u hu name' id'
    have hne : u ≠ w := by
      rintro rfl
      exact absurd (ht.symm.trans hu) (by decide)
    by_cases hname : name' = name
    · subst hname
      rw [rowOf_setRows_self]
      by_cases hid : id' = id
      · subst hid
        rw [Function.update_self, Row.own_write_ne hne]
      · rw [Function.update_of_ne hid]
        exact h.idle u hu _ id'
    · rw [rowOf_setRows_ne hname]
      exact h.idle u hu name' id'

theorem Sound.readClock (h : Sound s) : Sound (s.readClock w) := ⟨h.rows, h.idle⟩

theorem Sound.begin (h : Sound s) : Sound (s.begin w) := by
  refine ⟨h.rows, fun u hu => h.idle u ?_⟩
  by_cases huw : u = w
  · subst huw
    simp [World.begin] at hu
  · simpa [World.begin, huw] using hu

theorem Sound.commit (h : Sound s) : Sound (s.commit w) := by
  constructor
  · intro name id
    obtain ⟨createdAt, hall⟩ := h.rows name id
    exact ⟨createdAt, hall.commit⟩
  · intro u hu name id
    by_cases huw : u = w
    · subst huw
      exact Row.own_commit_self
    · exact (Row.own_commit_ne huw).trans (h.idle u (by simpa [World.commit, huw] using hu) name id)

theorem Sound.rollback (h : Sound s) : Sound (s.rollback w) := by
  constructor
  · intro name id
    obtain ⟨createdAt, hall⟩ := h.rows name id
    exact ⟨createdAt, hall.rollback⟩
  · intro u hu name id
    by_cases huw : u = w
    · subst huw
      exact Row.own_rollback_self
    · exact (Row.own_rollback_ne huw).trans
        (h.idle u (by simpa [World.rollback, huw] using hu) name id)

theorem Sound.housekeeping (he : Housekeeping w s s') (h : Sound s) : Sound s' := by
  cases he with
  | same => exact h
  | readClock => exact h.readClock
  | begin _ => exact h.begin
  | commit _ => exact h.commit
  | rollback _ => exact h.rollback
  | write _ _ _ _ _ => exact ⟨h.rows, h.idle⟩

theorem Sound.env (he : WorldEnv s s') (h : Sound s) : Sound s' := by
  cases he with
  | tick _ _ => exact ⟨h.rows, h.idle⟩
  | hot _ _ => exact ⟨h.rows, h.idle⟩
  | beat _ _ _ _ _ _ _ => exact ⟨h.rows, h.idle⟩

theorem Sound.crash (h : Sound s) : Sound (s.crash w) := by
  unfold World.crash
  split
  · exact ⟨h.rollback.rows, h.rollback.idle⟩
  · exact ⟨h.rows, h.idle⟩

/-! ### The statements -/

abbrev SafeStmt (F : Failures) (I : World W H (database W zones fault) → Prop) (w : W)
    (Q : Except Exn α → World W H (database W zones fault) → Prop)
    (x : Code (stmtSig (database W zones fault)) Exn α)
    (s : World W H (database W zones fault)) : Prop :=
  Safe (stmtRely F) I w Q x s

variable {I : World W H (database W zones fault) → Prop}

/-- Between the worlds `s₀` and `s` there was one where `P` held. -/
def Once (I P : World W H (database W zones fault) → Prop)
    (s₀ s : World W H (database W zones fault)) : Prop :=
  ∃ s₁, s₀.log <:+ s₁.log ∧ s₁.log <:+ s.log ∧ I s₁ ∧ P s₁

theorem Once.frame {P : World W H (database W zones fault) → Prop} {s₀ : World W H (database W zones fault)}
    (h : Once I P s₀ s) (hf : Frame w s s') : Once I P s₀ s' := by
  obtain ⟨s₁, hsince, hpast, hi, hp⟩ := h
  exact ⟨s₁, hsince, hpast.trans hf.log, hi, hp⟩

theorem safe_statement {o : TableOp (tableOf zones name)}
    {Q : Except Exn o.Reply → World W H (database W zones fault) → Prop}
    (ht : s.inTransaction w = true)
    (hkeep : ∀ s₁ rows, Frame w s s₁ → I s₁ → s₁.inTransaction w = true →
      TableStep w (fun id => rowOf name id s₁) o rows → I (setRows name rows s₁))
    (hpost : ∀ s₁ r rows s₂, Frame w s s₁ → I s₁ →
      tableExec fault w o (fun id => rowOf name id s₁) r rows → Frame w (setRows name rows s₁) s₂ →
      Q r s₂) :
    SafeStmt F I w Q (.call (.stmt ⟨name, o⟩) .ret) s := by
  intro s₁ hf hi r s₂ he
  have ht₁ : s₁.inTransaction w = true := hf.inTransaction.trans ht
  obtain ⟨b, ⟨rows, hexec, rfl⟩, rfl⟩ : ∃ b, (∃ rows,
      tableExec fault w o (fun id => rowOf name id s₁) r rows ∧
        b = Tables.setRows name rows s₁.business) ∧ s₂ = { s₁ with business := b } :=
    (if_pos ht₁).mp he
  exact ⟨hkeep s₁ rows hf hi ht₁ (tableExec_step hexec),
    fun s₃ hf₃ _ => hpost s₁ r rows s₃ hf hi hexec hf₃⟩

theorem setRows_same : setRows name (fun id => rowOf name id s) s = s := by
  have hrows : Function.update (Tables.rows s.business) name (fun id => rowOf name id s) =
      Tables.rows s.business := Function.update_eq_self name _
  have hsame : Tables.setRows name (fun id => rowOf name id s) s.business = s.business :=
    congrArg (fun rows => Tables.mk rows (Tables.log s.business)) hrows
  unfold setRows
  rw [hsame]

theorem keep_same {o : TableOp (tableOf zones name)} {rows : Rows W (tableOf zones name)}
    (ho : o.writes = false)
    (hs : TableStep w (fun id => rowOf name id s) o rows) (hi : I s) : I (setRows name rows s) := by
  cases hs with
  | same => rw [setRows_same]; exact hi
  | update _ _ _ _ _ _ _ _ => cases ho
  | insert _ _ _ _ => cases ho

/-- A statement commits nothing. -/
theorem TableStep.versions {o : TableOp (tableOf zones name)} {rows rows' : Rows W (tableOf zones name)}
    (h : TableStep w rows o rows') (id : UserId) : (rows' id).versions = (rows id).versions := by
  cases h with
  | same => rfl
  | update key _ stored values _ _ _ _ =>
    by_cases hid : id = key
    · subst hid
      rw [Function.update_self, Row.write_versions]
    · rw [Function.update_of_ne hid]
  | insert row _ _ _ =>
    by_cases hid : id = (tableOf zones name).userId row
    · subst hid
      rw [Function.update_self, Row.write_versions]
    · rw [Function.update_of_ne hid]

theorem Loaded.setRows {a : VersionedMutableEntity (FieldsOf zones name)}
    {o : TableOp (tableOf zones name)} {rows : Rows W (tableOf zones name)} (h : Loaded name a s)
    (hs : TableStep w (fun id => rowOf name id s) o rows) :
    Loaded name a (setRows name rows s) := by
  obtain ⟨u, hu, hrow⟩ := h
  refine ⟨u, ?_, hrow⟩
  rw [rowOf_setRows_self, hs.versions]
  exact hu

/-- The conditional update of what was loaded keeps the rows sound. -/
theorem Sound.update {a a' : VersionedMutableEntity (FieldsOf zones name)} {v : Option Nat}
    {rows : Rows W (tableOf zones name)} (h : Sound s) (ht : s.inTransaction w = true)
    (hloaded : Loaded name a s) (hid : a'.id = a.id) (hcreated : a'.createdAt = a.createdAt)
    (hs : TableStep w (fun id => rowOf name id s)
      (.update a'.id v ((tableOf zones name).values a')) rows) : Sound (setRows name rows s) := by
  cases hs with
  | same => rw [setRows_same]; exact h
  | update _ _ stored _ hfree hvisible _ _ =>
    obtain ⟨u, hu, hrow⟩ := hloaded
    obtain ⟨-, hall⟩ := (h.rows name a.id).createdAt hu hrow
    rw [← hid] at hall
    have hassign : (tableOf zones name).assign stored ((tableOf zones name).values a') =
        (tableOf zones name).values a' := assign_sound hall rfl hcreated hvisible
    rw [hassign]
    exact h.write ht ⟨a.createdAt, hall.write ⟨a', rfl, rfl, hcreated⟩⟩

theorem Sound.insert {a : VersionedMutableEntity (FieldsOf zones name)}
    {rows : Rows W (tableOf zones name)} (h : Sound s) (ht : s.inTransaction w = true)
    (hs : TableStep w (fun id => rowOf name id s)
      (.insertOrNothing ((tableOf zones name).values a)) rows) : Sound (setRows name rows s) := by
  cases hs with
  | same => rw [setRows_same]; exact h
  | insert _ hfree hvisible _ =>
    have hkey : (tableOf zones name).userId ((tableOf zones name).values a) = a.id :=
      (lawful_tableOf zones name).userId a
    rw [hkey] at hfree hvisible ⊢
    exact h.write ht ⟨a.createdAt,
      (Row.All.of_not_visible hfree hvisible).write ⟨a, rfl, rfl, rfl⟩⟩

/-! ### The repositories -/

def Stands (name : TableName) (id : UserId) (a : VersionedMutableEntity (FieldsOf zones name))
    (s : World W H (database W zones fault)) : Prop :=
  (rowOf name id s).committed = some ((tableOf zones name).values a)

/-- What `get_by_id` may end with from `s₀` on: an aggregate it read is a committed version,
and was the newest one when it was read. -/
structure Got (I : World W H (database W zones fault) → Prop) (name : TableName) (w : W)
    (id : UserId) (s₀ : World W H (database W zones fault))
    (r : Except Exn (Option (VersionedMutableEntity (FieldsOf zones name))))
    (s : World W H (database W zones fault)) : Prop where
  error : ∀ e, r = .error e → fault e
  loaded : ∀ a, r = .ok (some a) → a.id = id ∧ Loaded name a s
  stood : ∀ a, r = .ok (some a) → Once I (Stands name id a) s₀ s
  absent : r = .ok none → ((rowOf name id s₀).visible w).isSome = false
  kept : Frame w s₀ s

/-- Another version of the row was committed than `v`. -/
def OtherVersion (name : TableName) (id : UserId) (v : Option Nat)
    (s : World W H (database W zones fault)) : Prop :=
  ∃ row, (rowOf name id s).committed = some row ∧
    v.all (· = (tableOf zones name).version row) = false

/-- The update of a version that is there is refused by the types, the checks or the indexes. -/
def RefusedUpdate (name : TableName) (w : W) (a : VersionedMutableEntity (FieldsOf zones name))
    (v : Option Nat) (s₀ : World W H (database W zones fault)) (q : SqlError)
    (s : World W H (database W zones fault)) : Prop :=
  Frame w s₀ s ∧ (∃ row, (rowOf name a.id s).visible w = some row ∧
      v.all (· = (tableOf zones name).version row) = true) ∧
    Refused w (fun id => rowOf name id s) a.id ((tableOf zones name).values a) q

def UpdateError (fault : Exn → Prop) (I : World W H (database W zones fault) → Prop)
    (name : TableName) (w : W) (a : VersionedMutableEntity (FieldsOf zones name)) (v : Option Nat)
    (s₀ : World W H (database W zones fault)) (e : Exn) (s : World W H (database W zones fault)) :
    Prop :=
  fault e ∨ e = .sql .other ∨ ∃ q, e = .sql q ∧ s.clockRead w = s₀.clockRead w ∧
    Once I (RefusedUpdate name w a v s₀ q) s₀ s

theorem UpdateError.isOrchestration {a : VersionedMutableEntity (FieldsOf zones name)}
    {v : Option Nat} {e : Exn} (hfault : ∀ e, fault e → e.isOrchestration = true)
    (h : UpdateError fault I name w a v s e s') : e.isOrchestration = true := by
  rcases h with h | rfl | ⟨q, rfl, -⟩
  · exact hfault e h
  · rfl
  · rfl

section Repositories
variable (hI : ∀ s : World W H (database W zones fault), I s → Sound s)

include hI

theorem safe_select (ht : s.inTransaction w = true) (hown : (rowOf name id s).own w = none) :
    SafeStmt F I w (fun r s' => (∀ e, r = .error e → fault e) ∧
        (∀ row, r = .ok (some row) → ∃ a : VersionedMutableEntity (FieldsOf zones name),
          row = (tableOf zones name).values a ∧ a.id = id ∧ Loaded name a s' ∧
            Once I (Stands name id a) s s') ∧
        (r = .ok none → ((rowOf name id s).visible w).isSome = false) ∧ Frame w s s')
      ((statements name).select id) s := by
  refine safe_statement ht (fun s₁ rows _ hi _ hs => keep_same rfl hs hi)
    fun s₁ r rows s₂ hf hi he hf₂ => ?_
  obtain ⟨hr, rfl⟩ := he
  rw [setRows_same] at hf₂
  rcases hr with rfl | ⟨e, hraised, rfl⟩
  · refine ⟨nofun, fun row hrow => ?_, fun hnone => ?_, hf.trans hf₂⟩
    · have hown₁ : (rowOf name id s₁).own w = none := ((hf.business name id).own).trans hown
      have hvisible : (rowOf name id s₁).visible w = some row := Except.ok.inj hrow
      rw [Row.visible_of_not_own hown₁] at hvisible
      obtain ⟨createdAt, hall⟩ := (hI s₁ hi).rows name id
      obtain ⟨a, rfl, hid, -⟩ := hall.committed hvisible
      obtain ⟨v, hv, hrow'⟩ := Row.mem_of_committed hvisible
      exact ⟨a, rfl, hid, Loaded.frame ⟨v, hid ▸ hv, hrow'⟩ hf₂, s₁, hf.log, hf₂.log, hi, hvisible⟩
    · have hvisible : (rowOf name id s₁).visible w = none := Except.ok.inj hnone
      by_contra hsome
      have hsome₁ := (hf.business name id).visible_isSome (eq_true_of_ne_false hsome)
      change ((rowOf name id s₁).visible w).isSome = true at hsome₁
      rw [hvisible] at hsome₁
      cases hsome₁
  · refine ⟨fun e' he => ?_, nofun, nofun, hf.trans hf₂⟩
    cases he
    exact hraised

theorem safe_getById (ht : s.inTransaction w = true) (hown : (rowOf name id s).own w = none) :
    SafeStmt F I w (Got I name w id s) (getById (statements name) id) s := by
  refine (safe_select hI ht hown).bind (fun found s₁ hp _ => ?_)
    fun e s' hp => ⟨fun e' he => hp.1 e' (by rw [Except.error.inj he]), nofun, nofun, nofun, hp.2.2.2⟩
  obtain ⟨-, hfound, habsent, hkept⟩ := hp
  cases found with
  | none => exact fun s₂ hf₂ _ => ⟨nofun, nofun, nofun, fun _ => habsent rfl, hkept.trans hf₂⟩
  | some row =>
    obtain ⟨a, rfl, hid, hloaded, hstood⟩ := hfound row rfl
    have hread : (tableOf zones name).modelValidate ((tableOf zones name).values a) = .ok a :=
      (lawful_tableOf zones name).readBack a
    show SafeStmt F I w _ (do return some (← raise ((tableOf zones name).modelValidate
      ((tableOf zones name).values a)))) s₁
    rw [hread]
    refine fun s₂ hf₂ _ => ⟨nofun, fun b hb => ?_, fun b hb => ?_, nofun, hkept.trans hf₂⟩
    · cases hb
      exact ⟨hid, hloaded.frame hf₂⟩
    · cases hb
      exact hstood.frame hf₂

/-- What the conditional update of an aggregate that was loaded may end with. -/
structure AfterUpdate (I : World W H (database W zones fault) → Prop) (name : TableName) (w : W)
    (a a' : VersionedMutableEntity (FieldsOf zones name)) (v : Option Nat)
    (s₀ : World W H (database W zones fault)) (r : Except Exn (Option (tableOf zones name).Row))
    (s : World W H (database W zones fault)) : Prop where
  error : ∀ e, r = .error e → UpdateError fault I name w a' v s₀ e s
  written : ∀ row, r = .ok (some row) → row = (tableOf zones name).values a' ∧
    (rowOf name a'.id s).own w = some row
  other : r = .ok none → (rowOf name a'.id s₀).own w = none →
    Once I (OtherVersion name a'.id v) s₀ s
  inTransaction : s.inTransaction w = true
  loaded : Loaded name a s

theorem safe_updateStmt {a a' : VersionedMutableEntity (FieldsOf zones name)} {v : Option Nat}
    (ht : s.inTransaction w = true) (hloaded : Loaded name a s) (hid : a'.id = a.id)
    (hcreated : a'.createdAt = a.createdAt)
    (hkeep : ∀ s₁ rows, Frame w s s₁ → I s₁ → s₁.inTransaction w = true →
      TableStep w (fun id => rowOf name id s₁) (.update a'.id v ((tableOf zones name).values a'))
        rows → I (setRows name rows s₁)) :
    SafeStmt F I w (AfterUpdate I name w a a' v s)
      ((statements name).update a'.id v ((tableOf zones name).values a')) s := by
  refine safe_statement ht hkeep fun s₁ r rows s₂ hf hi he hf₂ => ?_
  have ht₂ : s₂.inTransaction w = true := hf₂.inTransaction.trans (hf.inTransaction.trans ht)
  have hloaded₁ : Loaded name a s₁ := hloaded.frame hf
  have hloaded₂ : Loaded name a s₂ := (hloaded₁.setRows (tableExec_step he)).frame hf₂
  obtain ⟨u, hu, hrow⟩ := hloaded₁
  obtain ⟨hida, hall⟩ := ((hI s₁ hi).rows name a.id).createdAt hu hrow
  cases hv : ((rowOf name a'.id s₁).visible w).filter fun row =>
      v.all (· = (tableOf zones name).version row) with
  | none =>
    simp only [tableExec, hv] at he
    obtain ⟨hr, rfl⟩ := he
    rw [setRows_same] at hf₂
    rcases hr with ⟨-, rfl⟩ | ⟨e, hraised, rfl⟩
    · refine ⟨by simp, fun _ h => (by cases h), fun _ hown => ?_, ht₂, hloaded₂⟩
      have hown₁ : (rowOf name a'.id s₁).own w = none := ((hf.business name a'.id).own).trans hown
      rw [← hid] at hu
      obtain ⟨row, hrow'⟩ := Option.isSome_iff_exists.1 (Row.visible_isSome (t := w) hu)
      have hcommitted : (rowOf name a'.id s₁).committed = some row := by
        rw [← Row.visible_of_not_own hown₁]
        exact hrow'
      refine ⟨s₁, hf.log, hf₂.log, hi, row, hcommitted, eq_false_of_ne_true fun hall => ?_⟩
      rw [hrow'] at hv
      simp [Option.filter, hall] at hv
    · refine ⟨fun e' he => ?_, by simp, by simp, ht₂, hloaded₂⟩
      cases he
      exact hraised.imp_right fun h => .inl h.2
  | some stored =>
    simp only [tableExec, hv] at he
    obtain ⟨hvisible, hexpected⟩ := Option.filter_eq_some_iff.1 hv
    have hassign : (tableOf zones name).assign stored ((tableOf zones name).values a') =
        (tableOf zones name).values a' := by
      rw [← hid] at hall
      exact assign_sound hall rfl hcreated hvisible
    rw [hassign] at he
    rcases he with ⟨hfree, -, rfl, rfl⟩ | ⟨⟨e, hraised, rfl⟩, rfl⟩
    · refine ⟨by simp, fun row hrow' => ?_, by simp, ht₂, hloaded₂⟩
      have hrow'' := Option.some.inj (Except.ok.inj hrow')
      rw [← hrow'']
      refine ⟨rfl, ((hf₂.business name a'.id).own).trans ?_⟩
      show (rowOf name a'.id (setRows name _ s₁)).own w = _
      rw [rowOf_setRows_self, Function.update_self, Row.own_write_self]
    · rw [setRows_same] at hf₂
      refine ⟨fun e' he => ?_, by simp, by simp, ht₂, hloaded₂⟩
      cases he
      rcases hraised with hraised | ⟨q, hrefused, rfl⟩
      · exact .inl hraised
      · exact .inr (.inr ⟨q, rfl, hf₂.clockRead.trans hf.clockRead, s₁, hf.log, hf₂.log, hi, hf,
          ⟨stored, hvisible, hexpected⟩, hrefused⟩)

omit hI in
/-- A row of which a version was loaded is found. -/
theorem safe_exists {a : VersionedMutableEntity (FieldsOf zones name)} {id : UserId}
    (ht : s.inTransaction w = true) (hloaded : Loaded name a s) (hid : id = a.id) :
    SafeStmt F I w (fun r s' => (∀ e, r = .error e → fault e) ∧ r ≠ .ok false ∧ Frame w s s')
      ((statements name).exists_ id) s := by
  refine safe_statement ht (fun s₁ rows _ hi _ hs => keep_same rfl hs hi)
    fun s₁ r rows s₂ hf hi he hf₂ => ?_
  obtain ⟨hr, rfl⟩ := he
  rw [setRows_same] at hf₂
  obtain ⟨u, hu, -⟩ := hloaded.frame hf
  rcases hr with rfl | ⟨e, hraised, rfl⟩
  · refine ⟨by simp, fun hfalse => ?_, hf.trans hf₂⟩
    rw [hid, Row.visible_isSome hu] at hfalse
    cases hfalse
  · refine ⟨fun e' he => ?_, fun h => (by cases h), hf.trans hf₂⟩
    cases he
    exact hraised

/-- The conditional update of an aggregate that was loaded: it writes the aggregate over the
version it names, or finds another version there. -/
theorem safe_updateVersion {a a' : VersionedMutableEntity (FieldsOf zones name)} {v : Option Nat}
    {Q : Except Exn (VersionedMutableEntity (FieldsOf zones name)) →
      World W H (database W zones fault) → Prop} {missingError conflictError : Exn}
    (ht : s.inTransaction w = true) (hloaded : Loaded name a s) (hid : a'.id = a.id)
    (hcreated : a'.createdAt = a.createdAt)
    (hkeep : ∀ s₁ rows, Frame w s s₁ → I s₁ → s₁.inTransaction w = true →
      TableStep w (fun id => rowOf name id s₁) (.update a'.id v ((tableOf zones name).values a'))
        rows → I (setRows name rows s₁))
    (hok : ∀ s', (rowOf name a'.id s').own w = some ((tableOf zones name).values a') → Q (.ok a') s')
    (herror : ∀ e s', UpdateError fault I name w a' v s e s' → Q (.error e) s')
    (hconflict : ∀ s', ((rowOf name a'.id s).own w = none →
      Once I (OtherVersion name a'.id v) s s') → Q (.error conflictError) s') :
    SafeStmt F I w Q (update (statements name) missingError conflictError a' v) s := by
  refine (safe_updateStmt hI ht hloaded hid hcreated hkeep).bind (fun found s₁ hp _ => ?_)
    fun e s' hp => herror e s' (hp.error e rfl)
  cases found with
  | some row =>
    obtain ⟨rfl, hown⟩ := hp.written row rfl
    have hread : (tableOf zones name).modelValidate ((tableOf zones name).values a') = .ok a' :=
      (lawful_tableOf zones name).readBack a'
    show SafeStmt F I w Q (raise ((tableOf zones name).modelValidate
      ((tableOf zones name).values a'))) s₁
    rw [hread]
    exact fun s₂ hf₂ _ => hok s₂ (((hf₂.business name a'.id).own).trans hown)
  | none =>
    refine (safe_exists hp.inTransaction hp.loaded hid).bind (fun there s₂ hthere _ => ?_)
      fun e s' hraised => herror e s' (.inl (hraised.1 e rfl))
    cases there with
    | true =>
      exact fun s₃ hf₃ _ =>
        hconflict s₃ fun hown => (hp.other rfl hown).frame (hthere.2.2.trans hf₃)
    | false => exact absurd rfl hthere.2.1

variable (hfault : ∀ e, fault e → e.isOrchestration = true)

include hfault

theorem safe_update {a a' : VersionedMutableEntity (FieldsOf zones name)} {v : Option Nat}
    {Q : Except Exn (VersionedMutableEntity (FieldsOf zones name)) →
      World W H (database W zones fault) → Prop} {missingError conflictError : Exn}
    (ht : s.inTransaction w = true) (hloaded : Loaded name a s) (hid : a'.id = a.id)
    (hcreated : a'.createdAt = a.createdAt)
    (hkeep : ∀ s₁ rows, Frame w s s₁ → I s₁ → s₁.inTransaction w = true →
      TableStep w (fun id => rowOf name id s₁) (.update a'.id v ((tableOf zones name).values a'))
        rows → I (setRows name rows s₁))
    (hok : ∀ s', (rowOf name a'.id s').own w = some ((tableOf zones name).values a') → Q (.ok a') s')
    (herror : ∀ e s', e.isOrchestration = true → Q (.error e) s')
    (hconflict : ∀ s', Q (.error conflictError) s') :
    SafeStmt F I w Q (update (statements name) missingError conflictError a' v) s :=
  safe_updateVersion hI ht hloaded hid hcreated hkeep hok
    (fun e s' he => herror e s' (he.isOrchestration hfault)) fun s' _ => hconflict s'

/-- What the insertion of a default may end with. -/
structure AfterInsert (name : TableName) (w : W) (id : UserId)
    (a : VersionedMutableEntity (FieldsOf zones name)) (s₀ : World W H (database W zones fault))
    (r : Except Exn (Option (tableOf zones name).Row)) (s : World W H (database W zones fault)) :
    Prop where
  error : ∀ e, r = .error e → e.isOrchestration = true
  inserted : ∀ row, r = .ok (some row) → row = (tableOf zones name).values a
  unwritten : r = .ok none → (rowOf name id s).own w = none
  visible : (∃ row, r = .ok row) → ((rowOf name id s).visible w).isSome = true
  inTransaction : s.inTransaction w = true
  others : ∀ name' id', name' ≠ name → (rowOf name' id' s).own w = (rowOf name' id' s₀).own w

omit hI in
theorem safe_insertStmt {a : VersionedMutableEntity (FieldsOf zones name)} (hid : a.id = id)
    (ht : s.inTransaction w = true) (hown : (rowOf name id s).own w = none)
    (hkeep : ∀ s₁ rows, Frame w s s₁ → I s₁ → s₁.inTransaction w = true →
      TableStep w (fun id => rowOf name id s₁) (.insertOrNothing ((tableOf zones name).values a))
        rows → I (setRows name rows s₁)) :
    SafeStmt F I w (AfterInsert name w id a s)
      ((statements name).insertOrNothing ((tableOf zones name).values a)) s := by
  have hkey : (tableOf zones name).userId ((tableOf zones name).values a) = a.id :=
    (lawful_tableOf zones name).userId a
  rw [hid] at hkey
  refine safe_statement ht hkeep fun s₁ r rows s₂ hf hi he hf₂ => ?_
  have ht₂ : s₂.inTransaction w = true := hf₂.inTransaction.trans (hf.inTransaction.trans ht)
  have hown₁ : (rowOf name id s₁).own w = none := ((hf.business name id).own).trans hown
  have hothers : ∀ name' id', name' ≠ name →
      (rowOf name' id' s₂).own w = (rowOf name' id' s).own w := by
    intro name' id' hname
    have hsame := (hf₂.business name' id').own
    change (rowOf name' id' s₂).own w = (rowOf name' id' (setRows name rows s₁)).own w at hsame
    rw [hsame, rowOf_setRows_ne hname]
    exact (hf.business name' id').own
  have hsees : ((rows id).visible w).isSome = true → ((rowOf name id s₂).visible w).isSome = true := by
    intro hv
    refine (hf₂.business name id).visible_isSome ?_
    change ((rowOf name id (setRows name rows s₁)).visible w).isSome = true
    rw [rowOf_setRows_self]
    exact hv
  simp only [tableExec, hkey] at he
  cases hv : (rowOf name id s₁).visible w with
  | none =>
    simp only [hv] at he
    rcases he with ⟨hfree, -, rfl, rfl⟩ | ⟨⟨e, hraised, rfl⟩, rfl⟩
    · refine ⟨by simp, fun row hrow => (Option.some.inj (Except.ok.inj hrow)).symm, by simp,
        fun _ => hsees ?_, ht₂, hothers⟩
      rw [Function.update_self, Row.visible_write_self]
      rfl
    · refine ⟨fun e' he => ?_, by simp, by simp, by simp, ht₂, hothers⟩
      cases he
      rcases hraised with hraised | ⟨q, -, rfl⟩
      · exact hfault e hraised
      · rfl
  | some stored =>
    simp only [hv] at he
    obtain ⟨⟨-, rfl⟩ | ⟨e, hraised, rfl⟩, rfl⟩ := he
    · refine ⟨by simp, fun _ h => (by cases h), fun _ => ?_, fun _ => hsees ?_, ht₂, hothers⟩
      · have hsame := (hf₂.business name id).own
        change (rowOf name id s₂).own w = (rowOf name id (setRows name _ s₁)).own w at hsame
        rw [hsame, setRows_same, hown₁]
      · rw [hv]
        rfl
    · refine ⟨fun e' he => ?_, by simp, by simp, by simp, ht₂, hothers⟩
      cases he
      rcases hraised with hraised | ⟨q, -, rfl⟩
      · exact hfault e hraised
      · rfl

variable (name) in
/-- Provisioning one half: afterwards its row is there, and the other table is as it was. -/
theorem safe_createDefaultIfAbsent
    {createDefault : UserId → Instant → VersionedMutableEntity (FieldsOf zones name)}
    {now : Instant} {missingError : Exn}
    {Q : Except Exn (VersionedMutableEntity (FieldsOf zones name)) →
      World W H (database W zones fault) → Prop}
    (hid : (createDefault id now).id = id) (ht : s.inTransaction w = true)
    (hown : (rowOf name id s).own w = none)
    (hkeep : ∀ s₁ rows, Frame w s s₁ → I s₁ → s₁.inTransaction w = true →
      TableStep w (fun id => rowOf name id s₁)
        (.insertOrNothing ((tableOf zones name).values (createDefault id now))) rows →
      I (setRows name rows s₁))
    (hok : ∀ a s', ((rowOf name id s').visible w).isSome = true → s'.inTransaction w = true →
      (∀ name' id', name' ≠ name → (rowOf name' id' s').own w = (rowOf name' id' s).own w) →
      Q (.ok a) s')
    (herror : ∀ e s', e.isOrchestration = true → Q (.error e) s') :
    SafeStmt F I w Q
      (createDefaultIfAbsent (statements name) missingError createDefault id now) s := by
  refine (safe_insertStmt hfault hid ht hown hkeep).bind (fun found s₁ hp _ => ?_)
    fun e s' hp => herror e s' (hp.error e rfl)
  have ht₁ := hp.inTransaction
  have hthere := hp.visible ⟨found, rfl⟩
  have hstays : ∀ s₂, Frame w s₁ s₂ → ((rowOf name id s₂).visible w).isSome = true :=
    fun s₂ hf => (hf.business name id).visible_isSome hthere
  have hothers₂ : ∀ s₂, Frame w s₁ s₂ → ∀ name' id', name' ≠ name →
      (rowOf name' id' s₂).own w = (rowOf name' id' s).own w :=
    fun s₂ hf name' id' hname => ((hf.business name' id').own).trans (hp.others name' id' hname)
  cases found with
  | some row =>
    obtain rfl := hp.inserted row rfl
    have hread : (tableOf zones name).modelValidate ((tableOf zones name).values
        (createDefault id now)) = .ok (createDefault id now) :=
      (lawful_tableOf zones name).readBack _
    show SafeStmt F I w Q (raise ((tableOf zones name).modelValidate
      ((tableOf zones name).values (createDefault id now)))) s₁
    rw [hread]
    exact fun s₂ hf₂ _ => hok _ s₂ (hstays s₂ hf₂) (hf₂.inTransaction.trans ht₁) (hothers₂ s₂ hf₂)
  | none =>
    refine (safe_getById hI ht₁ (hp.unwritten rfl)).bind (fun found s₂ hgot _ => ?_)
      fun e s' hgot => herror e s' (hfault e (hgot.error e rfl))
    cases found with
    | some existing =>
      exact fun s₃ hf₃ _ => hok _ s₃ (hstays s₃ (hgot.kept.trans hf₃))
        ((hgot.kept.trans hf₃).inTransaction.trans ht₁) (hothers₂ s₃ (hgot.kept.trans hf₃))
    | none =>
      have habsent := hgot.absent rfl
      rw [hthere] at habsent
      cases habsent

end Repositories

/-! ### The updating handlers -/

theorem raiseDomain_eq {r : Except DomainError α} :
    (raiseDomain r : Code (stmtSig (database W zones fault)) Exn α) =
      .ret (r.mapError Exn.domain) := by
  cases r <;> rfl

/-- What the four updating handlers do with what they load: they refuse its version, hand the
clock and the aggregate to the domain, and write back what that changed. -/
theorem safe_changeVersioned
    {repository : RepositoryProtocol (Code (stmtSig (database W zones fault)) Exn)
      (FieldsOf zones name)}
    {expectedVersion : Nat} {notFound : DomainError} {mismatch : Nat → DomainError}
    {change : Instant → VersionedMutableEntity (FieldsOf zones name) →
      Except DomainError (Bool × VersionedMutableEntity (FieldsOf zones name))}
    {Q : Except Exn (VersionedMutableEntity (FieldsOf zones name)) →
      World W H (database W zones fault) → Prop}
    (hget : SafeStmt F I w (Got I name w id s) (repository.getById id) s)
    (hclock : ∀ s : World W H (database W zones fault), I s → I (s.readClock w))
    (ht : s.inTransaction w = true)
    (herror : ∀ e s', fault e → Q (.error e) s')
    (hnone : ∀ s', ((rowOf name id s).visible w).isSome = false → Q (.error (.domain notFound)) s')
    (hmismatch : ∀ a s', a.id = id → Once I (Stands name id a) s s' →
      a.version ≠ expectedVersion → Q (.error (.domain (mismatch a.version))) s')
    (hrefused : ∀ a s' d, a.id = id → Loaded name a s' → Once I (Stands name id a) s s' →
      a.version = expectedVersion → change (s'.clockRead w) a = .error d → Q (.error (.domain d)) s')
    (hsame : ∀ a a' s', a.id = id → Loaded name a s' → a.version = expectedVersion →
      change (s'.clockRead w) a = .ok (false, a') →
      (∀ name id, (rowOf name id s').own w = (rowOf name id s).own w) → Q (.ok a') s')
    (hchanged : ∀ a a' s', a.id = id → Loaded name a s' → a.version = expectedVersion →
      change (s'.clockRead w) a = .ok (true, a') → s'.inTransaction w = true →
      (∀ name id, (rowOf name id s').own w = (rowOf name id s).own w) → s.log <:+ s'.log →
      SafeStmt F I w Q (repository.update a' (some expectedVersion)) s') :
    SafeStmt F I w Q (changeVersioned handlerClock repository id expectedVersion notFound mismatch
      change) s := by
  refine hget.bind (fun found s₁ hp _ => ?_) fun e s' hp => herror e s' (hp.error e rfl)
  cases found with
  | none => exact fun s₂ _ _ => hnone s₂ (hp.absent rfl)
  | some a =>
    obtain ⟨hid, hloaded⟩ := hp.loaded a rfl
    have hstood := hp.stood a rfl
    by_cases hversion : a.version = expectedVersion
    · show SafeStmt F I w Q (if a.version ≠ expectedVersion then throw (.domain (mismatch a.version))
        else _) s₁
      rw [if_neg (not_not.2 hversion)]
      have hread : SafeStmt F I w (fun r s' => r = .ok (s'.clockRead w) ∧ Loaded name a s' ∧
          Once I (Stands name id a) s s' ∧ s'.inTransaction w = true ∧
          ∀ name id, (rowOf name id s').own w = (rowOf name id s).own w) handlerClock s₁ := by
        intro s₂ hf₂ hi r s₃ he
        obtain ⟨rfl, rfl⟩ : r = .ok s₂.now ∧ s₃ = s₂.readClock w := he
        have hloaded₂ : Loaded name a s₂ := hloaded.frame hf₂
        have hloaded₃ : Loaded name a (s₂.readClock w) := hloaded₂
        have hstood₂ : Once I (Stands name id a) s s₂ := hstood.frame hf₂
        have hstood₃ : Once I (Stands name id a) s (s₂.readClock w) := hstood₂
        refine ⟨hclock s₂ hi, fun s₄ hf₄ _ =>
          ⟨?_, hloaded₃.frame hf₄, hstood₃.frame hf₄, ?_, fun name id => ?_⟩⟩
        · have hnow : s₄.clockRead w = s₂.now :=
            (Frame.clockRead hf₄).trans (by simp [World.readClock])
          exact congrArg Except.ok hnow.symm
        · exact hf₄.inTransaction.trans
            (hf₂.inTransaction.trans (hp.kept.inTransaction.trans ht))
        · have hown₄ : (rowOf name id s₄).own w = (rowOf name id s₂).own w :=
            (hf₄.business name id).own
          exact hown₄.trans ((hp.kept.trans hf₂).business name id).own
      refine hread.bind (fun now s₂ hq _ => ?_) fun e s' hq => by cases hq.1
      obtain ⟨hnow, hloaded₂, hstood₂, ht₂, hown₂⟩ := hq
      cases hnow
      rw [raiseDomain_eq]
      cases hchange : change (s₂.clockRead w) a with
      | error d =>
        refine fun s₃ hf₃ _ =>
          hrefused a s₃ d hid (hloaded₂.frame hf₃) (hstood₂.frame hf₃) hversion ?_
        rw [hf₃.clockRead, hchange]
      | ok result =>
        obtain ⟨changed, a'⟩ := result
        cases changed with
        | false =>
          refine fun s₃ hf₃ _ => hsame a a' s₃ hid (hloaded₂.frame hf₃) hversion ?_
            fun name id => ((hf₃.business name id).own).trans (hown₂ name id)
          rw [hf₃.clockRead, hchange]
        | true =>
          obtain ⟨s₃, hsince, hpast, -⟩ := hstood₂
          exact hchanged a a' s₂ hid hloaded₂ hversion hchange ht₂ hown₂ (hsince.trans hpast)
    · show SafeStmt F I w Q (if a.version ≠ expectedVersion then throw (.domain (mismatch a.version))
        else _) s₁
      rw [if_pos hversion]
      exact fun s₂ hf₂ _ => hmismatch a s₂ hid (hstood.frame hf₂) hversion

end ProfileService.Infrastructure
