import ProfileService.Idempotency.Decimals

/-!
# Payload trees

A payload whose scalar leaves are replaced by their canonical JSON scalars, and
its canonical JSON. `canonicalize` answers exactly for the payloads that have one.
-/

namespace ProfileService.Idempotency
open Library Application

inductive Leaf where
  | null
  | bool (b : Bool)
  | int (n : Int)
  | float (x : FloatText)
  | str (s : Str)

def Leaf.json : Leaf → Json
  | .null => .null
  | .bool b => .bool b
  | .int n => .int n
  | .float x => .float x
  | .str s => .str s

inductive ArrayKind where
  | sequence
  | set
  deriving DecidableEq

/-- What a path says of the members of an array. -/
def ArrayKind.segment : ArrayKind → Str
  | .sequence => "[]".toList
  | .set => "\x7b\x7d".toList

inductive Tree where
  | leaf (scalar : Leaf)
  | mapping (entries : List (Str × Tree))
  | array (kind : ArrayKind) (items : List Tree)

mutual
/-- The tree of a payload; none where a leaf or a key is not supported. -/
def treeOf : Value → Option Tree
  | .mapping entries => (treeEntries entries).map .mapping
  | .sequence items => (treeItems items).map (.array .sequence)
  | .set items => (treeItems items).map (.array .set)
  | .decimal (.finite negative coefficient exponent) =>
    some (.leaf (.str (decimalText negative coefficient exponent)))
  | .uuid u => some (.leaf (.str (uuidText u)))
  | .datetime d =>
    if d.utcoffset.isSome ∧ Representable d.instant then
      some (.leaf (.str (isoText "+00:00".toList d.instant)))
    else none
  | .date ordinal => some (.leaf (.str (isoDate ordinal)))
  | .enum value => treeOf value
  | .float (.finite x) => some (.leaf (.float (if x.isZero then .zero else x)))
  | .none => some (.leaf .null)
  | .bool b => some (.leaf (.bool b))
  | .int n => some (.leaf (.int n))
  | .str s => some (.leaf (.str s))
  | .decimal _ | .float _ | .other _ => none
def treeItems : List Value → Option (List Tree)
  | [] => some []
  | v :: items => (treeOf v).bind fun t => (treeItems items).map (t :: ·)
def treeEntries : List (Option Str × Value) → Option (List (Str × Tree))
  | [] => some []
  | (some key, v) :: entries =>
    (treeOf v).bind fun t => (treeEntries entries).map ((key, t) :: ·)
  | (none, _) :: _ => none
end

/-- The paths at which the members of an array stand in no order. -/
def Sorts (unordered : List JsonPath) (path : JsonPath) (kind : ArrayKind) : Prop :=
  kind = .set ∨ path ∈ unordered

instance (unordered : List JsonPath) (path : JsonPath) (kind : ArrayKind) :
    Decidable (Sorts unordered path kind) := inferInstanceAs (Decidable (_ ∨ _))

mutual
def Tree.canon (unordered : List JsonPath) (path : JsonPath) : Tree → Json
  | .leaf scalar => scalar.json
  | .mapping entries => .obj (sortEntries (canonEntries unordered path entries))
  | .array kind items =>
    let members := canonItems unordered (path ++ [kind.segment]) items
    .arr (if Sorts unordered path kind then sortItems members else members)
def canonItems (unordered : List JsonPath) (path : JsonPath) : List Tree → List Json
  | [] => []
  | t :: items => t.canon unordered path :: canonItems unordered path items
def canonEntries (unordered : List JsonPath) (path : JsonPath) :
    List (Str × Tree) → List (Str × Json)
  | [] => []
  | (key, t) :: entries =>
    (key, t.canon unordered (path ++ [key])) :: canonEntries unordered path entries
end

theorem canonItems_eq (unordered : List JsonPath) (path : JsonPath) (items : List Tree) :
    canonItems unordered path items = items.map (Tree.canon unordered path) := by
  induction items with
  | nil => rfl
  | cons t items ih => rw [canonItems, ih, List.map_cons]

theorem canonEntries_eq (unordered : List JsonPath) (path : JsonPath)
    (entries : List (Str × Tree)) : canonEntries unordered path entries =
      entries.map fun e => (e.1, e.2.canon unordered (path ++ [e.1])) := by
  induction entries with
  | nil => rfl
  | cons e entries ih => rw [canonEntries, ih, List.map_cons]

/-- Structural induction with the members of an array or mapping as a whole. -/
theorem Tree.members_induction {P : Tree → Prop} (leaf : ∀ scalar, P (.leaf scalar))
    (mapping : ∀ entries : List (Str × Tree), (∀ e ∈ entries, P e.2) → P (.mapping entries))
    (array : ∀ kind items, (∀ t ∈ items, P t) → P (.array kind items)) (t : Tree) : P t := by
  refine Tree.rec (motive_1 := P) (motive_2 := fun entries => ∀ e ∈ entries, P e.2)
    (motive_3 := fun items => ∀ t ∈ items, P t) (motive_4 := fun e => P e.2)
    leaf mapping array ?_ ?_ ?_ ?_ ?_ t
  · exact fun _ h => by cases h
  · intro e entries he hentries x hx
    rcases List.mem_cons.1 hx with rfl | hx
    · exact he
    · exact hentries x hx
  · exact fun _ h => by cases h
  · intro t items ht hitems x hx
    rcases List.mem_cons.1 hx with rfl | hx
    · exact ht
    · exact hitems x hx
  · exact fun _ _ h => h

theorem treeEntries_none (entries : List (Option Str × Value))
    (h : (entries.any fun e => e.1.isNone) = true) : treeEntries entries = none := by
  induction entries with
  | nil => cases h
  | cons e entries ih =>
    obtain ⟨key, v⟩ := e
    cases key with
    | none => rw [treeEntries]
    | some key =>
      have hrest : (entries.any fun e => e.1.isNone) = true := by simpa using h
      rw [treeEntries, ih hrest]
      cases treeOf v <;> rfl

theorem toOption_map {ε α β : Type} (f : α → β) (r : Except ε α) :
    (r.map f).toOption = r.toOption.map f := by
  cases r <;> rfl

/-- An exception among the entries does not depend on their order. -/
theorem collectEntries_eq_ok {ε α : Type} {l : List (Str × Except ε α)} {m : List (Str × α)} :
    collectEntries l = .ok m ↔ l = m.map fun e => (e.1, .ok e.2) := by
  constructor
  · intro h
    induction l generalizing m with
    | nil =>
      cases h
      rfl
    | cons e l ih =>
      obtain ⟨key, r⟩ := e
      cases r with
      | error e => cases h
      | ok a =>
        rw [collectEntries] at h
        cases hl : collectEntries l with
        | error e =>
          rw [hl] at h
          cases h
        | ok rest =>
          rw [hl] at h
          cases h
          rw [ih hl, List.map_cons]
  · intro h
    rw [h]
    exact collectEntries_ok m

theorem exists_collectEntries {ε α : Type} {l : List (Str × Except ε α)}
    (h : ∀ e ∈ l, ∃ a, e.2 = .ok a) : ∃ m, collectEntries l = .ok m := by
  induction l with
  | nil => exact ⟨[], rfl⟩
  | cons e l ih =>
    obtain ⟨key, r⟩ := e
    obtain ⟨a, rfl⟩ : ∃ a, r = .ok a := h (key, r) List.mem_cons_self
    obtain ⟨m, hm⟩ := ih fun e he => h e (List.mem_cons_of_mem _ he)
    exact ⟨(key, a) :: m, by rw [collectEntries, hm]; rfl⟩

theorem collectEntries_sortEntries {ε α : Type} (l : List (Str × Except ε α)) :
    (collectEntries (sortEntries l)).toOption = (collectEntries l).toOption.map sortEntries := by
  cases hl : collectEntries l with
  | ok m =>
    rw [collectEntries_eq_ok.1 hl, sortEntries_map, collectEntries_ok]
    rfl
  | error e =>
    cases hs : collectEntries (sortEntries l) with
    | error e' => rfl
    | ok m =>
      have hall : ∀ e ∈ l, ∃ a, e.2 = .ok a := by
        intro e he
        have hmem := (sortEntries_perm l).symm.subset he
        rw [collectEntries_eq_ok.1 hs] at hmem
        obtain ⟨x, -, hx⟩ := List.mem_map.1 hmem
        exact ⟨x.2, by rw [← hx]⟩
      obtain ⟨m', hm'⟩ := exists_collectEntries hall
      rw [hm'] at hl
      cases hl

theorem toOption_datetime (d : DateTime) :
    ((astimezone d).map fun t => Json.str (isoText "+00:00".toList t)).toOption =
      if d.utcoffset.isSome ∧ Representable d.instant then
        some (.str (isoText "+00:00".toList d.instant))
      else none := by
  cases hoffset : d.utcoffset with
  | none =>
    simp only [astimezone, hoffset, Option.isSome_none, Bool.false_eq_true, false_and, if_false]
    rfl
  | some offset =>
    have hinstant : d.instant = d.wall - offset := by simp [DateTime.instant, hoffset]
    by_cases hrange : Representable (d.wall - offset)
    · have hyes : (some offset).isSome = true ∧ Representable d.instant := by
        rw [hinstant]
        exact ⟨rfl, hrange⟩
      rw [if_pos hyes, hinstant]
      simp only [astimezone, hoffset, dif_pos hrange]
      rfl
    · have hno : ¬((some offset).isSome = true ∧ Representable d.instant) := by
        rw [hinstant]
        exact fun h => hrange h.2
      rw [if_neg hno]
      simp only [astimezone, hoffset, dif_neg hrange]
      rfl

theorem toOption_decimal (d : Decimal) (unordered : List JsonPath) (path : JsonPath) :
    (canonicalizeDecimal d).toOption = (treeOf (.decimal d)).map (Tree.canon unordered path) := by
  cases d with
  | finite negative coefficient exponent =>
    have hcanonical := (Scalar.decimal negative coefficient exponent).canonical unordered path
    rw [canonicalize] at hcanonical
    rw [hcanonical]
    rfl
  | infinity negative => rfl
  | nan => rfl

mutual
/-- `canonicalize` answers exactly for the payloads that have a tree, with its canonical JSON. -/
theorem canonicalize_toOption (unordered : List JsonPath) : ∀ (path : JsonPath) (v : Value),
    (canonicalize unordered path v).toOption = (treeOf v).map (Tree.canon unordered path)
  | path, .mapping entries => by
    rw [canonicalize, treeOf]
    split
    · rename_i hkey
      rw [treeEntries_none entries hkey]
      rfl
    · rename_i hkey
      rw [toOption_map, collectEntries_sortEntries,
        canonicalizeEntries_toOption unordered path entries (Bool.eq_false_iff.2 hkey)]
      cases treeEntries entries <;> rfl
  | path, .sequence items => by
    rw [canonicalize, treeOf, toOption_map, canonicalizeItems_toOption unordered _ items]
    cases treeItems items with
    | none => rfl
    | some ts =>
      simp only [Option.map_some, Tree.canon, ArrayKind.segment, Sorts, reduceCtorEq, false_or]
  | path, .set items => by
    rw [canonicalize, treeOf, toOption_map, canonicalizeItems_toOption unordered _ items]
    cases treeItems items with
    | none => rfl
    | some ts => simp only [Option.map_some, Tree.canon, ArrayKind.segment, Sorts, true_or, if_true]
  | path, .decimal d => by rw [canonicalize, toOption_decimal d unordered path]
  | path, .uuid u => by rw [canonicalize]; rfl
  | path, .datetime d => by
    rw [canonicalize, toOption_datetime, treeOf]
    split <;> rfl
  | path, .date ordinal => by rw [canonicalize]; rfl
  | path, .enum v => by
    rw [canonicalize, treeOf]
    exact canonicalize_toOption unordered path v
  | path, .float x => by
    rw [canonicalize]
    cases x <;> rfl
  | path, .none => by rw [canonicalize]; rfl
  | path, .bool b => by rw [canonicalize]; rfl
  | path, .int n => by rw [canonicalize]; rfl
  | path, .str s => by rw [canonicalize]; rfl
  | path, .other typeName => by rw [canonicalize]; rfl
theorem canonicalizeItems_toOption (unordered : List JsonPath) :
    ∀ (path : JsonPath) (items : List Value),
      (collect (canonicalizeItems unordered path items)).toOption =
        (treeItems items).map (canonItems unordered path)
  | path, [] => rfl
  | path, v :: items => by
    have hv := canonicalize_toOption unordered path v
    have hitems := canonicalizeItems_toOption unordered path items
    rw [canonicalizeItems, treeItems]
    cases hr : canonicalize unordered path v with
    | error e =>
      rw [hr] at hv
      rw [Option.map_eq_none_iff.1 hv.symm]
      rfl
    | ok j =>
      rw [hr] at hv
      obtain ⟨t, ht, hj⟩ := Option.map_eq_some_iff.1 hv.symm
      rw [ht, collect, toOption_map, hitems]
      cases treeItems items with
      | none => rfl
      | some ts => rw [← hj]; rfl
theorem canonicalizeEntries_toOption (unordered : List JsonPath) :
    ∀ (path : JsonPath) (entries : List (Option Str × Value)),
      (entries.any fun e => e.1.isNone) = false →
      (collectEntries (canonicalizeEntries unordered path entries)).toOption =
        (treeEntries entries).map (canonEntries unordered path)
  | path, [], _ => rfl
  | path, (none, _) :: _, hkey => by cases hkey
  | path, (some key, v) :: entries, hkey => by
    have hv := canonicalize_toOption unordered (path ++ [key]) v
    have hentries := canonicalizeEntries_toOption unordered path entries hkey
    rw [canonicalizeEntries, treeEntries]
    cases hr : canonicalize unordered (path ++ [key]) v with
    | error e =>
      rw [hr] at hv
      rw [Option.map_eq_none_iff.1 hv.symm]
      rfl
    | ok j =>
      rw [hr] at hv
      obtain ⟨t, ht, hj⟩ := Option.map_eq_some_iff.1 hv.symm
      rw [ht, collectEntries, toOption_map, hentries]
      cases treeEntries entries with
      | none => rfl
      | some ts => rw [← hj]; rfl
end

end ProfileService.Idempotency
