import Mathlib.Data.List.Infix

/-!
# One row under READ COMMITTED

A row keeps its committed versions, newest first, each with the transaction
that wrote it, and at most one uncommitted version, held by the transaction that
owns the row lock. Reads see the reader's own version or the newest committed
one; a write waits until no other transaction holds the row. Nothing deletes.
-/

namespace ProfileService.Library

/-- A committed version of a row; `writer` is `none` for a row that was there
before the run. -/
structure Version (T R : Type) where
  writer : Option T
  row : R
  deriving DecidableEq, Repr

structure Row (T R : Type) where
  versions : List (Version T R)
  pending : Option (T × R)
  deriving DecidableEq, Repr

namespace Row
variable {T R : Type} [DecidableEq T]

def absent : Row T R := ⟨[], none⟩

def stored (r : R) : Row T R := ⟨[⟨none, r⟩], none⟩

def committed (c : Row T R) : Option R := c.versions.head?.map Version.row

def own (t : T) (c : Row T R) : Option R :=
  c.pending.bind fun p => if p.1 = t then some p.2 else none

/-- What a statement of `t` sees. -/
def visible (t : T) (c : Row T R) : Option R := (c.own t).or c.committed

/-- No other transaction holds the row lock: a write of `t` need not wait. -/
def Free (t : T) (c : Row T R) : Prop := ∀ u r, c.pending = some (u, r) → u = t

def write (t : T) (r : R) (c : Row T R) : Row T R := { c with pending := some (t, r) }

def commit (t : T) (c : Row T R) : Row T R :=
  match c.own t with
  | some r => ⟨⟨some t, r⟩ :: c.versions, none⟩
  | none => c

def rollback (t : T) (c : Row T R) : Row T R :=
  match c.own t with
  | some _ => { c with pending := none }
  | none => c

/-- What every step of the other transactions leaves to `t`: versions are only
added, `t`'s uncommitted version stays, and so do the versions under its lock. -/
structure Frame (t : T) (c c' : Row T R) : Prop where
  grows : c.versions <:+ c'.versions
  own : c'.own t = c.own t
  locked : (c.own t).isSome → c'.versions = c.versions

variable {t u : T} {c c' c'' : Row T R} {r : R}

theorem own_eq_some : c.own t = some r ↔ c.pending = some (t, r) := by
  unfold own
  cases hp : c.pending with
  | none => simp
  | some p =>
    obtain ⟨u, s⟩ := p
    by_cases hu : u = t <;> simp [hu]

omit [DecidableEq T] in
theorem exists_pending (h : ¬ c.Free t) : ∃ u s, c.pending = some (u, s) := by
  cases hp : c.pending with
  | none =>
    refine absurd (fun u s hs => ?_) h
    rw [hp] at hs
    cases hs
  | some p => exact ⟨p.1, p.2, rfl⟩

theorem free_of_own (h : c.own t = some r) : c.Free t := by
  intro u s hp
  rw [own_eq_some.1 h] at hp
  cases hp
  rfl

theorem own_none_of_free (hf : c.Free u) (h : t ≠ u) : c.own t = none := by
  cases ho : c.own t with
  | none => rfl
  | some s => exact absurd (hf t s (own_eq_some.1 ho)) h

omit [DecidableEq T] in
@[simp] theorem write_versions : (c.write t r).versions = c.versions := rfl

omit [DecidableEq T] in
@[simp] theorem write_committed : (c.write t r).committed = c.committed := rfl

@[simp] theorem own_write_self : (c.write t r).own t = some r := by simp [own, write]

theorem own_write_ne (h : t ≠ u) : (c.write u r).own t = none := by
  simp [own, write, Ne.symm h]

theorem visible_of_own (h : c.own t = some r) : c.visible t = some r := by
  simp [visible, h]

theorem visible_of_not_own (h : c.own t = none) : c.visible t = c.committed := by
  simp [visible, h]

@[simp] theorem visible_write_self : (c.write t r).visible t = some r := by
  simp [visible]

theorem commit_of_own (h : c.own t = some r) : c.commit t = ⟨⟨some t, r⟩ :: c.versions, none⟩ := by
  simp [commit, h]

theorem commit_of_not_own (h : c.own t = none) : c.commit t = c := by simp [commit, h]

theorem rollback_of_own (h : c.own t = some r) : c.rollback t = ⟨c.versions, none⟩ := by
  simp [rollback, h]

theorem rollback_of_not_own (h : c.own t = none) : c.rollback t = c := by simp [rollback, h]

@[simp] theorem rollback_versions : (c.rollback t).versions = c.versions := by
  unfold rollback
  split <;> rfl

@[simp] theorem own_commit_self : (c.commit t).own t = none := by
  cases h : c.own t with
  | none => rw [commit_of_not_own h, h]
  | some r => rw [commit_of_own h]; rfl

@[simp] theorem own_rollback_self : (c.rollback t).own t = none := by
  cases h : c.own t with
  | none => rw [rollback_of_not_own h, h]
  | some r => rw [rollback_of_own h]; rfl

theorem own_commit_ne (h : t ≠ u) : (c.commit u).own t = c.own t := by
  cases hu : c.own u with
  | none => rw [commit_of_not_own hu]
  | some r =>
    rw [commit_of_own hu, own_none_of_free (free_of_own hu) h]
    rfl

theorem own_rollback_ne (h : t ≠ u) : (c.rollback u).own t = c.own t := by
  cases hu : c.own u with
  | none => rw [rollback_of_not_own hu]
  | some r =>
    rw [rollback_of_own hu, own_none_of_free (free_of_own hu) h]
    rfl

theorem versions_commit_ne (h : t ≠ u) (ho : (c.own t).isSome) :
    (c.commit u).versions = c.versions := by
  obtain ⟨r, hr⟩ := Option.isSome_iff_exists.1 ho
  rw [commit_of_not_own (own_none_of_free (free_of_own hr) (Ne.symm h))]

theorem Free.commit (h : c.Free u) : (c.commit t).Free u := by
  unfold Row.commit
  split
  · exact fun v s hv => by cases hv
  · exact h

theorem Free.rollback (h : c.Free u) : (c.rollback t).Free u := by
  unfold Row.rollback
  split
  · exact fun v s hv => by cases hv
  · exact h

theorem versions_suffix_commit : c.versions <:+ (c.commit t).versions := by
  cases h : c.own t with
  | none => rw [commit_of_not_own h]
  | some r => rw [commit_of_own h]; exact List.suffix_cons _ _

/-- A content that is committed, or will be if its transaction commits. -/
def Content (c : Row T R) (r : R) : Prop := c.committed = some r ∨ ∃ u, c.pending = some (u, r)

omit [DecidableEq T] in
theorem Content.of_write {s : R} (h : (c.write t r).Content s) : c.Content s ∨ s = r := by
  rcases h with h | ⟨u, h⟩
  · exact .inl (.inl h)
  · obtain ⟨-, rfl⟩ := Prod.mk.inj (Option.some.inj h)
    exact .inr rfl

theorem Content.of_commit (h : (c.commit t).Content r) : c.Content r := by
  cases ho : c.own t with
  | none => rwa [commit_of_not_own ho] at h
  | some s =>
    rw [commit_of_own ho] at h
    rcases h with h | ⟨u, h⟩
    · obtain rfl := Option.some.inj h
      exact .inr ⟨t, own_eq_some.1 ho⟩
    · cases h

theorem Content.of_rollback (h : (c.rollback t).Content r) : c.Content r := by
  cases ho : c.own t with
  | none => rwa [rollback_of_not_own ho] at h
  | some s =>
    rw [rollback_of_own ho] at h
    rcases h with h | ⟨u, h⟩
    · exact .inl h
    · cases h

structure All (p : R → Prop) (c : Row T R) : Prop where
  versions : ∀ v ∈ c.versions, p v.row
  pending : ∀ u r, c.pending = some (u, r) → p r

omit [DecidableEq T] in
theorem mem_of_committed (h : c.committed = some r) : ∃ v ∈ c.versions, v.row = r := by
  obtain ⟨v, hv, rfl⟩ := Option.map_eq_some_iff.1 h
  exact ⟨v, List.mem_of_mem_head? hv, rfl⟩

theorem visible_isSome {v : Version T R} (h : v ∈ c.versions) : (c.visible t).isSome = true := by
  cases hvs : c.versions with
  | nil =>
    rw [hvs] at h
    cases h
  | cons u vs => simp [visible, committed, hvs]

omit [DecidableEq T] in
theorem All.committed {p : R → Prop} (h : All p c) (hr : c.committed = some r) : p r := by
  obtain ⟨v, hv, rfl⟩ := mem_of_committed hr
  exact h.versions v hv

theorem All.visible {p : R → Prop} (h : All p c) (hr : c.visible t = some r) : p r := by
  rcases Option.or_eq_some_iff.1 hr with ho | ⟨-, hc⟩
  · exact h.pending t r (own_eq_some.1 ho)
  · exact h.committed hc

theorem All.of_not_visible {p : R → Prop} (hf : c.Free t) (hv : c.visible t = none) : All p c := by
  obtain ⟨ho, hc⟩ := Option.or_eq_none_iff.1 hv
  constructor
  · intro v hmem
    have hsome : (c.visible t).isSome = true := visible_isSome hmem
    rw [hv] at hsome
    cases hsome
  · intro u r hp
    obtain rfl := hf u r hp
    rw [own_eq_some.2 hp] at ho
    cases ho

omit [DecidableEq T] in
theorem All.write {p : R → Prop} (h : All p c) (hr : p r) : All p (c.write t r) := by
  refine ⟨h.versions, fun u s hs => ?_⟩
  cases hs
  exact hr

theorem All.commit {p : R → Prop} (h : All p c) : All p (c.commit t) := by
  cases ho : c.own t with
  | none => rw [commit_of_not_own ho]; exact h
  | some r =>
    rw [commit_of_own ho]
    refine ⟨fun v hv => ?_, fun _ _ hs => by cases hs⟩
    rcases List.mem_cons.1 hv with rfl | hv
    · exact h.pending t r (own_eq_some.1 ho)
    · exact h.versions v hv

theorem All.rollback {p : R → Prop} (h : All p c) : All p (c.rollback t) := by
  cases ho : c.own t with
  | none => rw [rollback_of_not_own ho]; exact h
  | some r =>
    rw [rollback_of_own ho]
    exact ⟨h.versions, fun _ _ hs => by cases hs⟩

theorem Frame.refl (t : T) (c : Row T R) : Frame t c c := ⟨List.suffix_refl _, rfl, fun _ => rfl⟩

theorem Frame.trans (h : Frame t c c') (h' : Frame t c' c'') : Frame t c c'' := by
  refine ⟨h.grows.trans h'.grows, h'.own.trans h.own, fun ho => ?_⟩
  have ho' : (c'.own t).isSome := by rw [h.own]; exact ho
  exact (h'.locked ho').trans (h.locked ho)

theorem Frame.visible_isSome (h : Frame t c c') (hv : (c.visible t).isSome = true) :
    (c'.visible t).isSome = true := by
  cases ho : c.own t with
  | some r => simp [visible, h.own, ho]
  | none =>
    rw [visible_of_not_own ho] at hv
    obtain ⟨r, hr⟩ := Option.isSome_iff_exists.1 hv
    obtain ⟨v, hmem, -⟩ := mem_of_committed hr
    exact Row.visible_isSome (h.grows.subset hmem)

theorem frame_write (h : t ≠ u) (hf : c.Free u) : Frame t c (c.write u r) := by
  refine ⟨List.suffix_refl _, ?_, fun _ => rfl⟩
  rw [own_write_ne h, own_none_of_free hf h]

theorem frame_commit (h : t ≠ u) : Frame t c (c.commit u) :=
  ⟨versions_suffix_commit, own_commit_ne h, versions_commit_ne h⟩

theorem frame_rollback (h : t ≠ u) : Frame t c (c.rollback u) := by
  refine ⟨?_, own_rollback_ne h, fun _ => rollback_versions⟩
  rw [rollback_versions]

/-- Every committed version follows from the one below it. -/
def History (next : Option R → R → Prop) : List (Version T R) → Prop
  | [] => True
  | v :: vs => next (vs.head?.map Version.row) v.row ∧ History next vs

/-- The committed versions follow from one another, and the uncommitted one from
the newest of them. -/
structure Lawful (next : Option R → R → Prop) (c : Row T R) : Prop where
  history : History next c.versions
  pending : ∀ u r, c.pending = some (u, r) → next c.committed r

variable {next : Option R → R → Prop}

omit [DecidableEq T] in
theorem lawful_absent : Lawful next (absent : Row T R) :=
  ⟨trivial, fun _ _ h => by cases h⟩

omit [DecidableEq T] in
theorem lawful_stored (h : next none r) : Lawful next (stored r : Row T R) :=
  ⟨⟨h, trivial⟩, fun _ _ h => by cases h⟩

omit [DecidableEq T] in
theorem Lawful.write (h : Lawful next c) (hr : next c.committed r) : Lawful next (c.write t r) := by
  refine ⟨h.history, fun u s hp => ?_⟩
  cases hp
  exact hr

theorem Lawful.commit (h : Lawful next c) : Lawful next (c.commit t) := by
  cases ho : c.own t with
  | none => rw [commit_of_not_own ho]; exact h
  | some r =>
    rw [commit_of_own ho]
    exact ⟨⟨h.pending t r (own_eq_some.1 ho), h.history⟩, fun _ _ hp => by cases hp⟩

theorem Lawful.rollback (h : Lawful next c) : Lawful next (c.rollback t) := by
  cases ho : c.own t with
  | none => rw [rollback_of_not_own ho]; exact h
  | some r =>
    rw [rollback_of_own ho]
    exact ⟨h.history, fun _ _ hp => by cases hp⟩

omit [DecidableEq T] in
/-- When following is transitive, every version follows from all older ones. -/
theorem History.pairwise {r : R → R → Prop} (hr : ∀ a b, next (some a) b → r a b)
    (htrans : ∀ a b c, r a b → r b c → r a c) {vs : List (Version T R)}
    (h : History next vs) : vs.Pairwise fun newer older => r older.row newer.row := by
  induction vs with
  | nil => exact .nil
  | cons v vs ih =>
    have hvs := ih h.2
    refine List.pairwise_cons.2 ⟨fun u hu => ?_, hvs⟩
    cases vs with
    | nil => cases hu
    | cons x xs =>
      have hx : r x.row v.row := hr _ _ h.1
      rcases List.mem_cons.1 hu with rfl | hu
      · exact hx
      · exact htrans _ _ _ ((List.pairwise_cons.1 hvs).1 u hu) hx

end Row
end ProfileService.Library
