import ProfileService.Infrastructure.Repositories

/-!
# One session at a time

The statements of the repositories on the rows of a table that nobody else changes, and
what the repositories and the updating handlers do there.
-/

namespace ProfileService.Infrastructure
open Domain Library Application

/-- A session over a list of rows; an exception leaves the rows as they are then. -/
abbrev SessionM (Row : Type) := ExceptT Exn (StateM (List Row))

def runSession {Row α : Type} (x : SessionM Row α) (rows : List Row) : Except Exn α × List Row :=
  x rows

section Statements
variable {F : Type} [ModelFields F] (table : Table F)

/-- The row a `WHERE` on the primary key, and perhaps the version, matches. -/
def matching (userId : UserId) (expectedVersion : Option Nat) (rows : List table.Row) :
    Option table.Row :=
  rows.find? fun row => table.userId row = userId && expectedVersion.all (· = table.version row)

def replaceRow (row : table.Row) (rows : List table.Row) : List table.Row :=
  rows.map fun r => if table.userId r = table.userId row then row else r

def others (row : table.Row) (rows : List table.Row) : List table.Row :=
  rows.filter fun r => table.userId r ≠ table.userId row

def sequential : Statements (SessionM table.Row) table where
  select userId := fun rows => (.ok (matching table userId none rows), rows)
  exists_ userId := fun rows => (.ok (matching table userId none rows).isSome, rows)
  update userId expectedVersion values := fun rows =>
    match matching table userId expectedVersion rows with
    | none => (if table.sendable values then .ok none else .error (.sql .other), rows)
    | some stored =>
      let row := table.assign stored values
      match table.violation (others table row rows) row with
      | some e => (.error (.sql e), rows)
      | none => (.ok (some row), replaceRow table row rows)
  insertOrNothing row := fun rows =>
    match matching table (table.userId row) none rows with
    | some _ => (.ok none, rows)
    | none =>
      match table.violation rows row with
      | some e => (.error (.sql e), rows)
      | none => (.ok (some row), row :: rows)

end Statements

/-! ### Blocks -/

section Blocks
variable {Row α β : Type} {rows : List Row}

@[simp] theorem runSession_pure (a : α) :
    runSession (pure a : SessionM Row α) rows = (.ok a, rows) := rfl

@[simp] theorem runSession_throw (e : Exn) :
    runSession (throw e : SessionM Row α) rows = (.error e, rows) := rfl

theorem runSession_bind (x : SessionM Row α) (f : α → SessionM Row β) :
    runSession (x >>= f) rows =
      match runSession x rows with
      | (.ok a, rows') => runSession (f a) rows'
      | (.error e, rows') => (.error e, rows') := by
  show (ExceptT.bind x f : StateM (List Row) (Except Exn β)) rows = _
  unfold runSession ExceptT.bind ExceptT.mk
  show (match (x rows : Except Exn α × List Row) with | (r, rows') => ExceptT.bindCont f r rows') = _
  rcases (x rows : Except Exn α × List Row) with ⟨r, rows'⟩
  cases r <;> rfl

theorem runSession_tryCatch (x : SessionM Row α) (h : Exn → SessionM Row α) :
    runSession (tryCatch x h) rows =
      match runSession x rows with
      | (.ok a, rows') => (.ok a, rows')
      | (.error e, rows') => runSession (h e) rows' := by
  have hrun : runSession (tryCatch x h) rows =
      (ExceptT.tryCatch x h : ExceptT Exn (StateM (List Row)) α) rows := rfl
  rw [hrun]
  unfold ExceptT.tryCatch ExceptT.mk runSession
  simp only [bind, StateT.bind]
  rcases (x rows : Except Exn α × List Row) with ⟨r, rows'⟩
  cases r <;> rfl

@[simp] theorem runSession_raise (r : Except Exn α) :
    runSession (raise r : SessionM Row α) rows = (r, rows) := by
  cases r <;> rfl

@[simp] theorem runSession_raiseDomain (r : Except DomainError α) :
    runSession (raiseDomain r : SessionM Row α) rows = (r.mapError .domain, rows) := by
  cases r <;> rfl

end Blocks

/-! ### A stored aggregate -/

section Stored
variable {F : Type} [ModelFields F] {table : Table F} {rows : List table.Row}
  {a a' : VersionedMutableEntity F}

structure Lawful (table : Table F) : Prop where
  userId : ∀ a, table.userId (table.values a) = a.id
  version : ∀ a, table.version (table.values a) = a.version
  readBack : ∀ a, table.modelValidate (table.values a) = .ok a
  assign : ∀ {a a'}, a'.id = a.id → a'.createdAt = a.createdAt →
    table.assign (table.values a) (table.values a') = table.values a'

structure StoredAt (table : Table F) (rows : List table.Row) (a : VersionedMutableEntity F) : Prop where
  mem : table.values a ∈ rows
  pkey : ∀ row ∈ rows, table.userId row = a.id → row = table.values a

theorem StoredAt.matching (hl : Lawful table) (h : StoredAt table rows a) {v : Option Nat}
    (hv : v.all (· = a.version) = true) :
    matching table a.id v rows = some (table.values a) := by
  unfold Infrastructure.matching
  cases hfind : rows.find? fun row => table.userId row = a.id && v.all (· = table.version row) with
  | none =>
    have hnone := List.find?_eq_none.1 hfind _ h.mem
    simp [hl.userId, hl.version, hv] at hnone
  | some row =>
    have hmatch := List.find?_some hfind
    simp only [Bool.and_eq_true, decide_eq_true_eq] at hmatch
    rw [h.pkey row (List.mem_of_find?_eq_some hfind) hmatch.1]

theorem run_getById (hl : Lawful table) (h : StoredAt table rows a) :
    runSession (getById (sequential table) a.id) rows = (.ok (some a), rows) := by
  have hselect : runSession ((sequential table).select a.id) rows =
      (.ok (some (table.values a)), rows) := congrArg (fun r => (Except.ok r, rows)) (h.matching hl rfl)
  unfold getById
  rw [runSession_bind, hselect]
  simp only
  rw [runSession_bind, runSession_raise, hl.readBack]
  rfl

theorem run_update (hl : Lawful table) (h : StoredAt table rows a) (hid : a'.id = a.id)
    (hcreated : a'.createdAt = a.createdAt) (missingError conflictError : Exn) :
    runSession (update (sequential table) missingError conflictError a' (some a.version)) rows =
      match table.violation (others table (table.values a') rows) (table.values a') with
      | some e => (.error (.sql e), rows)
      | none => (.ok a', replaceRow table (table.values a') rows) := by
  have hupdate : runSession ((sequential table).update a'.id (some a.version) (table.values a')) rows =
      match table.violation (others table (table.values a') rows) (table.values a') with
      | some e => (.error (.sql e), rows)
      | none => (.ok (some (table.values a')), replaceRow table (table.values a') rows) := by
    show (match matching table a'.id (some a.version) rows with | none => _ | some stored => _) = _
    rw [hid, h.matching hl (by simp)]
    simp only [hl.assign hid hcreated]
    split <;> rfl
  unfold update
  rw [runSession_bind, hupdate]
  cases table.violation (others table (table.values a') rows) (table.values a') with
  | some e => rfl
  | none =>
    simp only
    rw [runSession_raise, hl.readBack]

theorem replaceRow_self (hl : Lawful table) (h : StoredAt table rows a) :
    replaceRow table (table.values a) rows = rows := by
  unfold replaceRow
  conv_rhs => rw [← List.map_id rows]
  apply List.map_congr_left
  intro row hrow
  by_cases hid : table.userId row = table.userId (table.values a)
  · rw [if_pos hid]
    exact (h.pkey row hrow (hid.trans (hl.userId a))).symm
  · rw [if_neg hid]
    rfl

/-- The four updating handlers on a stored aggregate. -/
theorem run_changeVersioned (hl : Lawful table) (h : StoredAt table rows a)
    {repository : RepositoryProtocol (SessionM table.Row) F}
    (hget : repository.getById = getById (sequential table)) (now : Instant) (n : Nat)
    (notFound : DomainError) (mismatch : Nat → DomainError)
    (change : Instant → VersionedMutableEntity F →
      Except DomainError (Bool × VersionedMutableEntity F)) :
    runSession (changeVersioned (pure now) repository a.id n notFound mismatch change) rows =
      if a.version ≠ n then (.error (.domain (mismatch a.version)), rows)
      else
        match change now a with
        | .error e => (.error (.domain e), rows)
        | .ok (changed, a') =>
          if changed then runSession (repository.update a' (some n)) rows else (.ok a', rows) := by
  unfold changeVersioned
  rw [runSession_bind, hget, run_getById hl h]
  simp only
  by_cases hn : a.version = n
  · rw [if_neg (not_not.2 hn), if_neg (not_not.2 hn), runSession_bind, runSession_pure]
    simp only
    rw [runSession_bind, runSession_raiseDomain]
    cases change now a with
    | error e => rfl
    | ok result =>
      obtain ⟨changed, a'⟩ := result
      cases changed <;> rfl
  · rw [if_pos hn, if_pos hn]
    rfl

end Stored

theorem lawful_profiles : Lawful profilesTable where
  userId _ := rfl
  version _ := rfl
  readBack := ProfileORM.modelValidate_values
  assign := ProfileORM.assign_values

theorem lawful_settings (zones : ZoneInfo) : Lawful (settingsTable zones) where
  userId _ := rfl
  version _ := rfl
  readBack := SettingsORM.modelValidate_values
  assign := SettingsORM.assign_values

end ProfileService.Infrastructure
