import ProfileService.Idempotency.World
import ProfileService.Infrastructure.Repositories

/-!
# The two tables under concurrent sessions

`profiles` and `user_settings`, each with one `Row` for every user; the statements of the
repositories as calls that any number of sessions interleave under READ COMMITTED, and the
`Business` they make.
-/

namespace ProfileService.Infrastructure
open Domain Library Application Idempotency

/-! ### The statements on one table -/

section Table
variable {F : Type} [ModelFields F]

inductive TableOp (table : Table F) where
  | select (userId : UserId)
  | exists_ (userId : UserId)
  | update (userId : UserId) (expectedVersion : Option Nat) (values : table.Row)
  | insertOrNothing (row : table.Row)

def TableOp.Reply {table : Table F} : TableOp table → Type
  | .select _ => Option table.Row
  | .exists_ _ => Bool
  | .update .. => Option table.Row
  | .insertOrNothing _ => Option table.Row

def TableOp.writes {table : Table F} : TableOp table → Bool
  | .update .. => true
  | .insertOrNothing _ => true
  | _ => false

abbrev Rows (W : Type) (table : Table F) := UserId → Row W table.Row

variable {W : Type} [DecidableEq W] {table : Table F}

/-- The types and the checks accept a row, and no unique index needs to wait for or refuse it. -/
def Accepted (rows : Rows W table) (userId : UserId) (row : table.Row) : Prop :=
  table.violation [] row = none ∧ ∀ other, other ≠ userId → ∀ content,
    (rows other).Content content → table.violation [content] row = none

/-- A row is refused as it is, or next to a row that no open transaction is changing. -/
def Refused (w : W) (rows : Rows W table) (userId : UserId) (row : table.Row) (e : SqlError) :
    Prop :=
  table.violation [] row = some e ∨ ∃ other content, other ≠ userId ∧ (rows other).Free w ∧
    (rows other).visible w = some content ∧ table.violation [content] row = some e

/-- A new version of a row, once no other transaction holds it and no unique index has to wait:
one step, in which an `UPDATE` that waits holds nothing. `LockStep` lets it hold its row. -/
def writeRow (fault : Exn → Prop) (w : W) (userId : UserId) (row : table.Row)
    (rows : Rows W table) (r : Except Exn (Option table.Row)) (rows' : Rows W table) : Prop :=
  ((rows userId).Free w ∧ Accepted rows userId row ∧ r = .ok (some row) ∧
      rows' = Function.update rows userId ((rows userId).write w row)) ∨
    ((∃ e, (fault e ∨ ∃ q, Refused w rows userId row q ∧ e = .sql q) ∧ r = .error e) ∧
      rows' = rows)

/-- One statement of `w`. The `WHERE` of an `UPDATE` holds of the row it writes, not of the
one its snapshot had, and its values are sent even if it matches none; an `INSERT` meets its
checks before the conflict on the key. -/
def tableExec (fault : Exn → Prop) (w : W) :
    (o : TableOp table) → Rows W table → Except Exn o.Reply → Rows W table → Prop
  | .select userId, rows, r, rows' =>
    (r = .ok ((rows userId).visible w) ∨ ∃ e, fault e ∧ r = .error e) ∧ rows' = rows
  | .exists_ userId, rows, r, rows' =>
    (r = .ok ((rows userId).visible w).isSome ∨ ∃ e, fault e ∧ r = .error e) ∧ rows' = rows
  | .update userId expectedVersion values, rows, r, rows' =>
    match ((rows userId).visible w).filter fun row =>
        expectedVersion.all (· = table.version row) with
    | none =>
      ((table.sendable values = true ∧ r = .ok none) ∨
        ∃ e, (fault e ∨ (table.sendable values = false ∧ e = .sql .other)) ∧ r = .error e) ∧
      rows' = rows
    | some stored => writeRow fault w userId (table.assign stored values) rows r rows'
  | .insertOrNothing row, rows, r, rows' =>
    match (rows (table.userId row)).visible w with
    | none => writeRow fault w (table.userId row) row rows r rows'
    | some _ =>
      ((table.violation [] row = none ∧ r = .ok none) ∨
        ∃ e, (fault e ∨ ∃ q, table.violation [] row = some q ∧ e = .sql q) ∧ r = .error e) ∧
      rows' = rows

/-- What one statement can do to the rows: nothing, or a new version of one of them. -/
inductive TableStep (w : W) (rows : Rows W table) : TableOp table → Rows W table → Prop where
  | same (o : TableOp table) : TableStep w rows o rows
  | update (userId : UserId) (expectedVersion : Option Nat) (stored values : table.Row)
      (hfree : (rows userId).Free w) (hvisible : (rows userId).visible w = some stored)
      (hversion : expectedVersion.all (· = table.version stored) = true)
      (haccepted : Accepted rows userId (table.assign stored values)) :
      TableStep w rows (.update userId expectedVersion values)
        (Function.update rows userId ((rows userId).write w (table.assign stored values)))
  | insert (row : table.Row) (hfree : (rows (table.userId row)).Free w)
      (hvisible : (rows (table.userId row)).visible w = none)
      (haccepted : Accepted rows (table.userId row) row) :
      TableStep w rows (.insertOrNothing row)
        (Function.update rows (table.userId row) ((rows (table.userId row)).write w row))

theorem tableExec_step {fault : Exn → Prop} {w : W} {o : TableOp table} {rows rows' : Rows W table}
    {r : Except Exn o.Reply} (h : tableExec fault w o rows r rows') : TableStep w rows o rows' := by
  cases o with
  | select userId =>
    obtain ⟨-, rfl⟩ := h
    exact .same _
  | exists_ userId =>
    obtain ⟨-, rfl⟩ := h
    exact .same _
  | update userId expectedVersion values =>
    cases hv : ((rows userId).visible w).filter fun row =>
        expectedVersion.all (· = table.version row) with
    | none =>
      simp only [tableExec, hv] at h
      obtain ⟨-, rfl⟩ := h
      exact .same _
    | some stored =>
      simp only [tableExec, hv] at h
      obtain ⟨hvisible, hversion⟩ := Option.filter_eq_some_iff.1 hv
      rcases h with ⟨hfree, haccepted, -, rfl⟩ | ⟨-, rfl⟩
      · exact .update userId expectedVersion stored values hfree hvisible hversion haccepted
      · exact .same _
  | insertOrNothing row =>
    cases hv : (rows (table.userId row)).visible w with
    | none =>
      simp only [tableExec, hv] at h
      rcases h with ⟨hfree, haccepted, -, rfl⟩ | ⟨-, rfl⟩
      · exact .insert row hfree hv haccepted
      · exact .same _
    | some stored =>
      simp only [tableExec, hv] at h
      obtain ⟨-, rfl⟩ := h
      exact .same _

theorem tableExec_error {fault : Exn → Prop} {w : W} {o : TableOp table} {rows rows' : Rows W table}
    {e : Exn} (h : tableExec fault w o rows (.error e) rows') : rows' = rows := by
  cases o with
  | select userId => exact h.2
  | exists_ userId => exact h.2
  | update userId expectedVersion values =>
    simp only [tableExec] at h
    split at h
    · exact h.2
    · rcases h with ⟨-, -, hok, -⟩ | ⟨-, hsame⟩
      · cases hok
      · exact hsame
  | insertOrNothing row =>
    simp only [tableExec] at h
    split at h
    · rcases h with ⟨-, -, hok, -⟩ | ⟨-, hsame⟩
      · cases hok
      · exact hsame
    · exact h.2

theorem TableStep.frame {w u : W} {o : TableOp table} {rows rows' : Rows W table}
    (h : TableStep u rows o rows') (hw : w ≠ u) (userId : UserId) :
    Row.Frame w (rows userId) (rows' userId) := by
  have hwritten : ∀ (id : UserId) (row : table.Row), (rows id).Free u →
      Row.Frame w (rows userId) (Function.update rows id ((rows id).write u row) userId) := by
    intro id row hfree
    by_cases hid : userId = id
    · subst hid
      rw [Function.update_self]
      exact Row.frame_write hw hfree
    · rw [Function.update_of_ne hid]
      exact Row.Frame.refl w _
  cases h with
  | same => exact Row.Frame.refl w _
  | update id expectedVersion stored values hfree _ _ _ => exact hwritten id _ hfree
  | insert row hfree _ _ => exact hwritten _ _ hfree

end Table

/-! ### The database -/

inductive TableName where
  | profiles
  | settings
  deriving DecidableEq

def FieldsOf (zones : ZoneInfo) : TableName → Type
  | .profiles => ProfileFields
  | .settings => SettingsFields zones

instance (zones : ZoneInfo) : (name : TableName) → ModelFields (FieldsOf zones name)
  | .profiles => inferInstanceAs (ModelFields ProfileFields)
  | .settings => inferInstanceAs (ModelFields (SettingsFields zones))

def tableOf (zones : ZoneInfo) : (name : TableName) → Table (FieldsOf zones name)
  | .profiles => profilesTable
  | .settings => settingsTable zones

abbrev Uncommitted (zones : ZoneInfo) :=
  (name : TableName) → UserId → Option (tableOf zones name).Row

/-- The rows of both tables, and what the commits made durable, newest first. -/
structure Tables (W : Type) (zones : ZoneInfo) where
  rows : (name : TableName) → Rows W (tableOf zones name)
  log : List (W × Uncommitted zones)

namespace Tables
variable {W : Type} [DecidableEq W] {zones : ZoneInfo}

def own (w : W) (b : Tables W zones) : Uncommitted zones := fun name id => (b.rows name id).own w

def commit (w : W) (b : Tables W zones) : Tables W zones where
  rows name id := (b.rows name id).commit w
  log := (w, b.own w) :: b.log

def rollback (w : W) (b : Tables W zones) : Tables W zones :=
  { b with rows := fun name id => (b.rows name id).rollback w }

def setRows (name : TableName) (rows : Rows W (tableOf zones name)) (b : Tables W zones) :
    Tables W zones :=
  { b with rows := Function.update b.rows name rows }

def stored (rows : (name : TableName) → UserId → Option (tableOf zones name).Row) :
    Tables W zones where
  rows name id := (rows name id).elim Row.absent Row.stored
  log := []

end Tables

/-- The tables as what operations write; `fault` is what a statement may raise unasked. -/
def database (W : Type) [DecidableEq W] (zones : ZoneInfo) (fault : Exn → Prop) : Business W where
  State := Tables W zones
  Op := (name : TableName) × TableOp (tableOf zones name)
  Reply o := o.2.Reply
  Staged := Uncommitted zones
  exec w o b r b' := ∃ rows, tableExec fault w o.2 (b.rows o.1) r rows ∧ b' = b.setRows o.1 rows
  commit := Tables.commit
  rollback := Tables.rollback
  staged := Tables.own
  nothing := fun _ _ => none
  committed := Tables.log
  frame w b b' := ∀ name id, Row.Frame w (b.rows name id) (b'.rows name id)
  committed_exec := by
    rintro w o b r b' ⟨rows, -, rfl⟩
    rfl
  committed_commit _ _ := rfl
  committed_rollback _ _ := rfl
  staged_commit w b := by
    funext name id
    exact Row.own_commit_self
  staged_rollback w b := by
    funext name id
    exact Row.own_rollback_self
  staged_frame h := by
    funext name id
    exact (h name id).own
  frame_refl w b name id := Row.Frame.refl w _
  frame_trans h h' name id := (h name id).trans (h' name id)
  frame_exec := by
    rintro w v ⟨name, o⟩ b r b' ⟨rows, h, rfl⟩ hw name' id
    by_cases hname : name' = name
    · subst hname
      simpa [Tables.setRows] using (tableExec_step h).frame hw id
    · simpa [Tables.setRows, hname] using Row.Frame.refl w (b.rows name' id)
  frame_commit b hw name id := Row.frame_commit hw
  frame_rollback b hw name id := Row.frame_rollback hw

/-! ### The repositories of a session -/

section Session
variable {W : Type} [DecidableEq W] {zones : ZoneInfo} {fault : Exn → Prop}

def statements (name : TableName) :
    Statements (Code (stmtSig (database W zones fault)) Exn) (tableOf zones name) where
  select userId := .call (.stmt ⟨name, .select userId⟩) .ret
  exists_ userId := .call (.stmt ⟨name, .exists_ userId⟩) .ret
  update userId expectedVersion values :=
    .call (.stmt ⟨name, .update userId expectedVersion values⟩) .ret
  insertOrNothing row := .call (.stmt ⟨name, .insertOrNothing row⟩) .ret

def profiles : RepositoryProtocol (Code (stmtSig (database W zones fault)) Exn) ProfileFields :=
  postgresProfileRepository (statements .profiles)

def settings :
    RepositoryProtocol (Code (stmtSig (database W zones fault)) Exn) (SettingsFields zones) :=
  postgresSettingsRepository (statements .settings)

def handlerClock : Code (stmtSig (database W zones fault)) Exn Instant := .call .clock .ret

end Session
end ProfileService.Infrastructure
