import Mathlib.Data.List.Perm.Basic
import ProfileService.Idempotency.PayloadTree

/-!
# The order that fingerprints ignore

Two payloads have one text exactly when they differ by the order of mapping entries, of set
iteration and of the sequences at unordered paths, and by what is a set and what a sequence.
-/

namespace ProfileService.Idempotency
open Library Application

mutual
/-- `a` and `b`, both at `path`, are equal up to the order that is ignored, at any depth. -/
inductive Reorders (unordered : List JsonPath) : JsonPath → Tree → Tree → Prop
  | leaf (path : JsonPath) (scalar : Leaf) : Reorders unordered path (.leaf scalar) (.leaf scalar)
  | mapping {path : JsonPath} {xs ys zs : List (Str × Tree)}
      (members : ReordersEntries unordered path xs ys) (perm : ys.Perm zs) :
      Reorders unordered path (.mapping xs) (.mapping zs)
  | ordered {path : JsonPath} {kind : ArrayKind} {xs ys : List Tree}
      (members : ReordersItems unordered (path ++ [kind.segment]) xs ys) :
      Reorders unordered path (.array kind xs) (.array kind ys)
  | sorted {path : JsonPath} {kind : ArrayKind} {xs ys zs : List Tree}
      (sorts : Sorts unordered path kind)
      (members : ReordersItems unordered (path ++ [kind.segment]) xs ys) (perm : ys.Perm zs) :
      Reorders unordered path (.array kind xs) (.array kind zs)
inductive ReordersItems (unordered : List JsonPath) : JsonPath → List Tree → List Tree → Prop
  | nil (path : JsonPath) : ReordersItems unordered path [] []
  | cons {path : JsonPath} {x y : Tree} {xs ys : List Tree} (head : Reorders unordered path x y)
      (tail : ReordersItems unordered path xs ys) :
      ReordersItems unordered path (x :: xs) (y :: ys)
inductive ReordersEntries (unordered : List JsonPath) :
    JsonPath → List (Str × Tree) → List (Str × Tree) → Prop
  | nil (path : JsonPath) : ReordersEntries unordered path [] []
  | cons {path : JsonPath} {key : Str} {x y : Tree} {xs ys : List (Str × Tree)}
      (head : Reorders unordered (path ++ [key]) x y)
      (tail : ReordersEntries unordered path xs ys) :
      ReordersEntries unordered path ((key, x) :: xs) ((key, y) :: ys)
end

/-- The JSON whose text is hashed: canonical, its keys sorted once more. -/
def Tree.norm (unordered : List JsonPath) (path : JsonPath) (t : Tree) : Json :=
  (t.canon unordered path).sortKeys

def InTextOrder (unordered : List JsonPath) (path : JsonPath) (items : List Tree) : Prop :=
  (items.map (Tree.norm unordered path)).Pairwise textLe

/-- The order of two arrays with the members `xs` and `zs`, `ys` those of `xs` one by one: one
that is sorted against one that is not, as a set against a sequence, has it in text order. -/
def SameOrder (unordered : List JsonPath) (p q : JsonPath) (k l : ArrayKind)
    (xs ys zs : List Tree) : Prop :=
  if Sorts unordered p k then
    ys.Perm zs ∧ (¬ Sorts unordered q l → InTextOrder unordered (q ++ [l.segment]) zs)
  else if Sorts unordered q l then ys.Perm zs ∧ InTextOrder unordered (p ++ [k.segment]) xs
  else ys = zs

mutual
/-- `a` at `p` and `b` at `q` are equal up to the order that is ignored and the kinds of
arrays, which the JSON does not show. -/
inductive Alike (unordered : List JsonPath) : JsonPath → JsonPath → Tree → Tree → Prop
  | leaf (p q : JsonPath) (scalar : Leaf) : Alike unordered p q (.leaf scalar) (.leaf scalar)
  | mapping {p q : JsonPath} {xs ys zs : List (Str × Tree)}
      (members : AlikeEntries unordered p q xs ys) (perm : ys.Perm zs) :
      Alike unordered p q (.mapping xs) (.mapping zs)
  | array {p q : JsonPath} {k l : ArrayKind} {xs ys zs : List Tree}
      (members : AlikeItems unordered (p ++ [k.segment]) (q ++ [l.segment]) xs ys)
      (order : SameOrder unordered p q k l xs ys zs) :
      Alike unordered p q (.array k xs) (.array l zs)
inductive AlikeItems (unordered : List JsonPath) :
    JsonPath → JsonPath → List Tree → List Tree → Prop
  | nil (p q : JsonPath) : AlikeItems unordered p q [] []
  | cons {p q : JsonPath} {x y : Tree} {xs ys : List Tree} (head : Alike unordered p q x y)
      (tail : AlikeItems unordered p q xs ys) : AlikeItems unordered p q (x :: xs) (y :: ys)
inductive AlikeEntries (unordered : List JsonPath) :
    JsonPath → JsonPath → List (Str × Tree) → List (Str × Tree) → Prop
  | nil (p q : JsonPath) : AlikeEntries unordered p q [] []
  | cons {p q : JsonPath} {key : Str} {x y : Tree} {xs ys : List (Str × Tree)}
      (head : Alike unordered (p ++ [key]) (q ++ [key]) x y)
      (tail : AlikeEntries unordered p q xs ys) :
      AlikeEntries unordered p q ((key, x) :: xs) ((key, y) :: ys)
end

mutual
def Tree.DistinctKeys : Tree → Prop
  | .leaf _ => True
  | .mapping entries => (entries.map Prod.fst).Nodup ∧ DistinctEntries entries
  | .array _ items => DistinctItems items
def DistinctItems : List Tree → Prop
  | [] => True
  | t :: items => t.DistinctKeys ∧ DistinctItems items
def DistinctEntries : List (Str × Tree) → Prop
  | [] => True
  | (_, t) :: entries => t.DistinctKeys ∧ DistinctEntries entries
end

mutual
def Tree.paths (kind : ArrayKind) (path : JsonPath) : Tree → List JsonPath
  | .leaf _ => []
  | .mapping entries => pathsEntries kind path entries
  | .array k items =>
    (if k = kind then [path] else []) ++ pathsItems kind (path ++ [k.segment]) items
def pathsItems (kind : ArrayKind) (path : JsonPath) : List Tree → List JsonPath
  | [] => []
  | t :: items => t.paths kind path ++ pathsItems kind path items
def pathsEntries (kind : ArrayKind) (path : JsonPath) : List (Str × Tree) → List JsonPath
  | [] => []
  | (key, t) :: entries => t.paths kind (path ++ [key]) ++ pathsEntries kind path entries
end

/-- No path has an array of one kind in `a` and of the other kind in `b`. -/
def SameKinds (path : JsonPath) (a b : Tree) : Prop :=
  ∀ kind other, kind ≠ other → (a.paths kind path).Disjoint (b.paths other path)

theorem reordersItems_iff {unordered : List JsonPath} {path : JsonPath} {xs ys : List Tree} :
    ReordersItems unordered path xs ys ↔ List.Forall₂ (Reorders unordered path) xs ys := by
  constructor
  · intro h
    induction xs generalizing ys with
    | nil =>
      cases h
      exact .nil
    | cons x xs ih =>
      cases h with
      | cons head tail => exact .cons head (ih tail)
  · intro h
    induction h with
    | nil => exact .nil path
    | cons head _ ih => exact .cons head ih

theorem reordersEntries_iff {unordered : List JsonPath} {path : JsonPath}
    {xs ys : List (Str × Tree)} : ReordersEntries unordered path xs ys ↔
      List.Forall₂ (fun x y => x.1 = y.1 ∧ Reorders unordered (path ++ [x.1]) x.2 y.2) xs ys := by
  constructor
  · intro h
    induction xs generalizing ys with
    | nil =>
      cases h
      exact .nil
    | cons x xs ih =>
      cases h with
      | cons head tail => exact .cons ⟨rfl, head⟩ (ih tail)
  · intro h
    induction h with
    | nil => exact .nil path
    | @cons x y xs ys head _ ih =>
      obtain ⟨key, x⟩ := x
      obtain ⟨key', y⟩ := y
      obtain ⟨rfl, hxy⟩ := head
      exact .cons hxy ih

theorem alikeItems_iff {unordered : List JsonPath} {p q : JsonPath} {xs ys : List Tree} :
    AlikeItems unordered p q xs ys ↔ List.Forall₂ (Alike unordered p q) xs ys := by
  constructor
  · intro h
    induction xs generalizing ys with
    | nil =>
      cases h
      exact .nil
    | cons x xs ih =>
      cases h with
      | cons head tail => exact .cons head (ih tail)
  · intro h
    induction h with
    | nil => exact .nil p q
    | cons head _ ih => exact .cons head ih

theorem alikeEntries_iff {unordered : List JsonPath} {p q : JsonPath} {xs ys : List (Str × Tree)} :
    AlikeEntries unordered p q xs ys ↔ List.Forall₂ (fun x y => x.1 = y.1 ∧
      Alike unordered (p ++ [x.1]) (q ++ [x.1]) x.2 y.2) xs ys := by
  constructor
  · intro h
    induction xs generalizing ys with
    | nil =>
      cases h
      exact .nil
    | cons x xs ih =>
      cases h with
      | cons head tail => exact .cons ⟨rfl, head⟩ (ih tail)
  · intro h
    induction h with
    | nil => exact .nil p q
    | @cons x y xs ys head _ ih =>
      obtain ⟨key, x⟩ := x
      obtain ⟨key', y⟩ := y
      obtain ⟨rfl, hxy⟩ := head
      exact .cons hxy ih

theorem distinctItems_iff {items : List Tree} :
    DistinctItems items ↔ ∀ t ∈ items, t.DistinctKeys := by
  induction items with
  | nil => simp [DistinctItems]
  | cons t items ih => simp [DistinctItems, ih]

theorem distinctEntries_iff {entries : List (Str × Tree)} :
    DistinctEntries entries ↔ ∀ e ∈ entries, e.2.DistinctKeys := by
  induction entries with
  | nil => simp [DistinctEntries]
  | cons e entries ih => simp [DistinctEntries, ih]

theorem mem_pathsItems {kind : ArrayKind} {path p : JsonPath} {items : List Tree} :
    p ∈ pathsItems kind path items ↔ ∃ t ∈ items, p ∈ t.paths kind path := by
  induction items with
  | nil => simp [pathsItems]
  | cons t items ih => simp [pathsItems, ih]

theorem mem_pathsEntries {kind : ArrayKind} {path p : JsonPath} {entries : List (Str × Tree)} :
    p ∈ pathsEntries kind path entries ↔
      ∃ e ∈ entries, p ∈ e.2.paths kind (path ++ [e.1]) := by
  induction entries with
  | nil => simp [pathsEntries]
  | cons e entries ih => simp [pathsEntries, ih]

theorem SameKinds.entry {path : JsonPath} {xs ys : List (Str × Tree)} {x y : Str × Tree}
    (h : SameKinds path (.mapping xs) (.mapping ys)) (hx : x ∈ xs) (hy : y ∈ ys)
    (hkey : x.1 = y.1) : SameKinds (path ++ [x.1]) x.2 y.2 := by
  intro kind other hne p hp hp'
  apply h kind other hne (a := p)
  · rw [Tree.paths]
    exact mem_pathsEntries.2 ⟨x, hx, hp⟩
  · rw [Tree.paths]
    rw [hkey] at hp'
    exact mem_pathsEntries.2 ⟨y, hy, hp'⟩

theorem SameKinds.kind_eq {path : JsonPath} {k l : ArrayKind} {xs ys : List Tree}
    (h : SameKinds path (.array k xs) (.array l ys)) : k = l := by
  by_contra hne
  apply h k l hne (a := path)
  · simp [Tree.paths]
  · simp [Tree.paths]

theorem SameKinds.item {path : JsonPath} {k : ArrayKind} {xs ys : List Tree} {x y : Tree}
    (h : SameKinds path (.array k xs) (.array k ys)) (hx : x ∈ xs) (hy : y ∈ ys) :
    SameKinds (path ++ [k.segment]) x y := by
  intro kind other hne p hp hp'
  apply h kind other hne (a := p)
  · rw [Tree.paths]
    exact List.mem_append_right _ (mem_pathsItems.2 ⟨x, hx, hp⟩)
  · rw [Tree.paths]
    exact List.mem_append_right _ (mem_pathsItems.2 ⟨y, hy, hp'⟩)

theorem forall₂_of_mem {α β : Type} {R S : α → β → Prop} {xs : List α} {ys : List β}
    (h : List.Forall₂ R xs ys) (himp : ∀ x ∈ xs, ∀ y ∈ ys, R x y → S x y) :
    List.Forall₂ S xs ys := by
  induction h with
  | nil => exact .nil
  | cons head _ ih =>
    refine .cons (himp _ List.mem_cons_self _ List.mem_cons_self head) (ih fun x hx y hy => ?_)
    exact himp x (List.mem_cons_of_mem _ hx) y (List.mem_cons_of_mem _ hy)

theorem forall₂_iff_of_mem {α β : Type} {R S : α → β → Prop} {xs : List α} {ys : List β}
    (himp : ∀ x ∈ xs, ∀ y, R x y ↔ S x y) : List.Forall₂ R xs ys ↔ List.Forall₂ S xs ys :=
  ⟨fun h => forall₂_of_mem h fun x hx y _ => (himp x hx y).1,
    fun h => forall₂_of_mem h fun x hx y _ => (himp x hx y).2⟩

theorem map_eq_map_iff {α β γ : Type} {f : α → γ} {g : β → γ} {xs : List α} {ys : List β} :
    xs.map f = ys.map g ↔ List.Forall₂ (fun x y => f x = g y) xs ys := by
  rw [← List.forall₂_eq_eq_eq, List.forall₂_map_left_iff, List.forall₂_map_right_iff]

theorem map_perm_iff {α β γ : Type} {f : α → γ} {g : β → γ} {xs : List α} {ys : List β} :
    (xs.map f).Perm (ys.map g) ↔ ∃ zs, List.Forall₂ (fun x z => f x = g z) xs zs ∧ zs.Perm ys := by
  constructor
  · intro h
    have himage : List.Forall₂ (fun c y => c = g y) (ys.map g) ys :=
      List.forall₂_map_left_iff.2 (List.forall₂_same.2 fun _ _ => rfl)
    obtain ⟨zs, hzs, hperm⟩ := List.perm_comp_forall₂ h himage
    exact ⟨zs, List.forall₂_map_left_iff.1 hzs, hperm⟩
  · rintro ⟨zs, hzs, hperm⟩
    rw [map_eq_map_iff.2 hzs]
    exact hperm.map g

theorem sortEntries_eq_iff {α : Type} {xs ys : List (Str × α)} (hnodup : (xs.map Prod.fst).Nodup) :
    sortEntries xs = sortEntries ys ↔ xs.Perm ys := by
  constructor
  · intro h
    exact (sortEntries_perm xs).symm.trans (h ▸ sortEntries_perm ys)
  · intro h
    have hperm := ((sortEntries_perm xs).trans h).trans (sortEntries_perm ys).symm
    apply hperm.eq_of_pairwise ?_ (List.pairwise_insertionSort keyLe xs)
      (List.pairwise_insertionSort keyLe ys)
    intro x y hx hy hxy hyx
    have hkey : x.1 = y.1 := le_antisymm hxy hyx
    have hx' := (sortEntries_perm xs).subset hx
    have hy' := h.symm.subset ((sortEntries_perm ys).subset hy)
    exact List.inj_on_of_nodup_map hnodup hx' hy' hkey

instance : Std.Total textLe := ⟨fun a b => le_total (dumps a) (dumps b)⟩

instance : IsTrans Json textLe := ⟨fun _ _ _ h h' => le_trans h h'⟩

theorem sortItems_pairwise (items : List Json) : (sortItems items).Pairwise textLe :=
  List.pairwise_insertionSort textLe items

theorem sortItems_perm (items : List Json) : (sortItems items).Perm items :=
  List.perm_insertionSort textLe items

/-- Values whose keys are sorted have a text of their own each, so there is one order by text. -/
theorem eq_of_text_order {xs ys : List Json} (hxs : ∀ j ∈ xs, j.sortKeys = j)
    (hys : ∀ j ∈ ys, j.sortKeys = j) (hperm : xs.Perm ys) (hx : xs.Pairwise textLe)
    (hy : ys.Pairwise textLe) : xs = ys := by
  refine hperm.eq_of_pairwise (fun x y hmx hmy hxy hyx => ?_) hx hy
  have htext : dumps x = dumps y := le_antisymm hxy hyx
  rw [← hxs x hmx, ← hys y hmy]
  exact dumps_injective.1 htext

/-- A list is the sorted one of another if it is in text order and has its members, equal
members counted. -/
theorem sortItems_eq_iff {xs ys : List Json} (hxs : ∀ j ∈ xs, j.sortKeys = j)
    (hys : ∀ j ∈ ys, j.sortKeys = j) : sortItems xs = ys ↔ xs.Perm ys ∧ ys.Pairwise textLe := by
  constructor
  · rintro rfl
    exact ⟨(sortItems_perm xs).symm, sortItems_pairwise xs⟩
  · rintro ⟨hperm, hsorted⟩
    exact eq_of_text_order (fun j hj => hxs j ((sortItems_perm xs).subset hj)) hys
      ((sortItems_perm xs).trans hperm) (sortItems_pairwise xs) hsorted

theorem sortKeysItems_sortItems (items : List Json) :
    sortKeysItems (sortItems items) = sortItems (items.map Json.sortKeys) := by
  rw [sortKeysItems_eq, sortItems, sortItems]
  apply List.map_insertionSort
  intro a _ b _
  simp only [textLe, dumps, Json.sortKeys_sortKeys]

theorem sortKeysEntries_sortEntries (entries : List (Str × Json)) :
    sortEntries (sortKeysEntries (sortEntries entries)) =
      sortEntries (entries.map fun e => (e.1, e.2.sortKeys)) := by
  rw [sortKeysEntries_eq, ← sortEntries_map, sortEntries_sortEntries]

theorem Tree.norm_leaf (unordered : List JsonPath) (path : JsonPath) (scalar : Leaf) :
    (Tree.leaf scalar).norm unordered path = scalar.json := by
  cases scalar <;> rfl

theorem Tree.norm_mapping (unordered : List JsonPath) (path : JsonPath)
    (entries : List (Str × Tree)) : (Tree.mapping entries).norm unordered path =
      .obj (sortEntries (entries.map fun e => (e.1, e.2.norm unordered (path ++ [e.1])))) := by
  rw [Tree.norm, Tree.canon, Json.sortKeys, sortKeysEntries_sortEntries, canonEntries_eq,
    List.map_map]
  rfl

theorem Tree.norm_array (unordered : List JsonPath) (path : JsonPath) (kind : ArrayKind)
    (items : List Tree) : (Tree.array kind items).norm unordered path =
      .arr (if Sorts unordered path kind then
        sortItems (items.map (Tree.norm unordered (path ++ [kind.segment])))
      else items.map (Tree.norm unordered (path ++ [kind.segment]))) := by
  rw [Tree.norm, Tree.canon, Json.sortKeys, canonItems_eq]
  split
  · rw [sortKeysItems_sortItems, List.map_map]
    rfl
  · rw [sortKeysItems_eq, List.map_map]
    rfl

theorem Tree.sortKeys_norm {unordered : List JsonPath} {path : JsonPath} {items : List Tree} :
    ∀ j ∈ items.map (Tree.norm unordered path), j.sortKeys = j := by
  intro j hj
  obtain ⟨t, -, rfl⟩ := List.mem_map.1 hj
  exact Json.sortKeys_sortKeys _

theorem Leaf.json_inj {a b : Leaf} (h : a.json = b.json) : a = b := by
  cases a <;> cases b <;> cases h <;> rfl

theorem Leaf.json_ne (scalar : Leaf) :
    (∀ entries, scalar.json ≠ .obj entries) ∧ ∀ items, scalar.json ≠ .arr items := by
  cases scalar <;> exact ⟨nofun, nofun⟩

theorem arrays_eq_iff {unordered : List JsonPath} {p q : JsonPath} {k l : ArrayKind}
    {xs zs : List Tree} :
    (Tree.array k xs).norm unordered p = (Tree.array l zs).norm unordered q ↔
      ∃ ys, List.Forall₂ (fun x y => x.norm unordered (p ++ [k.segment]) =
        y.norm unordered (q ++ [l.segment])) xs ys ∧ SameOrder unordered p q k l xs ys zs := by
  rw [Tree.norm_array, Tree.norm_array, Json.arr.injEq]
  unfold SameOrder InTextOrder
  by_cases hleft : Sorts unordered p k
  · rw [if_pos hleft, sortItems_eq_iff Tree.sortKeys_norm]
    by_cases hright : Sorts unordered q l
    · have hperm : (xs.map (Tree.norm unordered (p ++ [k.segment]))).Perm
            (sortItems (zs.map (Tree.norm unordered (q ++ [l.segment])))) ↔
          (xs.map (Tree.norm unordered (p ++ [k.segment]))).Perm
            (zs.map (Tree.norm unordered (q ++ [l.segment]))) :=
        ⟨fun h => h.trans (sortItems_perm _), fun h => h.trans (sortItems_perm _).symm⟩
      simp only [if_pos hleft, if_pos hright, sortItems_pairwise, and_true]
      rw [hperm, map_perm_iff]
      exact ⟨fun ⟨ys, hys, hp⟩ => ⟨ys, hys, hp, fun hno => absurd hright hno⟩,
        fun ⟨ys, hys, hp, _⟩ => ⟨ys, hys, hp⟩⟩
    · simp only [if_pos hleft, if_neg hright]
      rw [map_perm_iff]
      exact ⟨fun ⟨⟨ys, hys, hp⟩, hsorted⟩ => ⟨ys, hys, hp, fun _ => hsorted⟩,
        fun ⟨ys, hys, hp, hsorted⟩ => ⟨⟨ys, hys, hp⟩, hsorted hright⟩⟩
    · split
      · exact fun j hj => Tree.sortKeys_norm j ((sortItems_perm _).subset hj)
      · exact Tree.sortKeys_norm
  · simp only [if_neg hleft]
    by_cases hright : Sorts unordered q l
    · simp only [if_pos hright]
      rw [eq_comm, sortItems_eq_iff Tree.sortKeys_norm Tree.sortKeys_norm, List.perm_comm,
        map_perm_iff]
      exact ⟨fun ⟨⟨ys, hys, hperm⟩, hsorted⟩ => ⟨ys, hys, hperm, hsorted⟩,
        fun ⟨ys, hys, hperm, hsorted⟩ => ⟨⟨ys, hys, hperm⟩, hsorted⟩⟩
    · simp only [if_neg hright, map_eq_map_iff]
      exact ⟨fun h => ⟨zs, h, rfl⟩, fun ⟨ys, h, heq⟩ => heq ▸ h⟩

/-- Two payloads have one JSON exactly when they are alike; by induction on the first. -/
theorem norm_eq_iff {unordered : List JsonPath} {a : Tree} : ∀ {p q : JsonPath} {b : Tree},
    a.DistinctKeys → (a.norm unordered p = b.norm unordered q ↔ Alike unordered p q a b) := by
  induction a using Tree.members_induction with
  | leaf scalar =>
    intro p q b _
    rw [Tree.norm_leaf]
    cases b with
    | leaf other =>
      rw [Tree.norm_leaf]
      refine ⟨fun h => ?_, fun h => ?_⟩
      · rw [Leaf.json_inj h]
        exact .leaf p q other
      · cases h
        rfl
    | mapping entries =>
      rw [Tree.norm_mapping]
      exact ⟨fun h => absurd h (scalar.json_ne.1 _), fun h => by cases h⟩
    | array kind items =>
      rw [Tree.norm_array]
      exact ⟨fun h => absurd h (scalar.json_ne.2 _), fun h => by cases h⟩
  | mapping entries ih =>
    intro p q b hdistinct
    rw [Tree.DistinctKeys, distinctEntries_iff] at hdistinct
    obtain ⟨hnodup, hdistinct⟩ := hdistinct
    rw [Tree.norm_mapping]
    cases b with
    | leaf scalar =>
      rw [Tree.norm_leaf]
      exact ⟨fun h => absurd h.symm (scalar.json_ne.1 _), fun h => by cases h⟩
    | mapping others =>
      have hkeys : ((entries.map fun e => (e.1, e.2.norm unordered (p ++ [e.1]))).map
          Prod.fst).Nodup := by
        rw [List.map_map]
        exact hnodup
      have hentry : ∀ x ∈ entries, ∀ y : Str × Tree,
          (x.1, x.2.norm unordered (p ++ [x.1])) = (y.1, y.2.norm unordered (q ++ [y.1])) ↔
            x.1 = y.1 ∧ Alike unordered (p ++ [x.1]) (q ++ [x.1]) x.2 y.2 := by
        intro x hx y
        rw [Prod.mk.injEq]
        refine and_congr_right fun hkey => ?_
        rw [← hkey]
        exact ih x hx (hdistinct x hx)
      rw [Tree.norm_mapping, Json.obj.injEq, sortEntries_eq_iff hkeys, map_perm_iff]
      simp only [forall₂_iff_of_mem hentry, ← alikeEntries_iff]
      exact ⟨fun ⟨_, members, perm⟩ => .mapping members perm,
        fun h => by cases h with | mapping members perm => exact ⟨_, members, perm⟩⟩
    | array kind items =>
      rw [Tree.norm_array]
      exact ⟨fun h => (by cases h), fun h => by cases h⟩
  | array kind items ih =>
    intro p q b hdistinct
    rw [Tree.DistinctKeys, distinctItems_iff] at hdistinct
    cases b with
    | leaf scalar =>
      rw [Tree.norm_array, Tree.norm_leaf]
      exact ⟨fun h => absurd h.symm (scalar.json_ne.2 _), fun h => by cases h⟩
    | mapping entries =>
      rw [Tree.norm_array, Tree.norm_mapping]
      exact ⟨fun h => (by cases h), fun h => by cases h⟩
    | array other others =>
      have hmember : ∀ x ∈ items, ∀ y : Tree, x.norm unordered (p ++ [kind.segment]) =
          y.norm unordered (q ++ [other.segment]) ↔
            Alike unordered (p ++ [kind.segment]) (q ++ [other.segment]) x y :=
        fun x hx y => ih x hx (hdistinct x hx)
      rw [arrays_eq_iff]
      simp only [forall₂_iff_of_mem hmember, ← alikeItems_iff]
      exact ⟨fun ⟨_, members, order⟩ => .array members order,
        fun h => by cases h with | array members order => exact ⟨_, members, order⟩⟩

theorem Reorders.alike {unordered : List JsonPath} {a : Tree} : ∀ {path : JsonPath} {b : Tree},
    Reorders unordered path a b → Alike unordered path path a b := by
  induction a using Tree.members_induction with
  | leaf scalar =>
    intro path b h
    cases h
    exact .leaf path path scalar
  | mapping entries ih =>
    intro path b h
    cases h with
    | mapping members perm =>
      refine .mapping (alikeEntries_iff.2 (forall₂_of_mem (reordersEntries_iff.1 members) ?_)) perm
      exact fun x hx y _ hxy => ⟨hxy.1, ih x hx hxy.2⟩
  | array kind items ih =>
    intro path b h
    have halike : ∀ ys, ReordersItems unordered (path ++ [kind.segment]) items ys →
        AlikeItems unordered (path ++ [kind.segment]) (path ++ [kind.segment]) items ys :=
      fun ys members => alikeItems_iff.2
        (forall₂_of_mem (reordersItems_iff.1 members) fun x hx y _ => ih x hx)
    cases h with
    | @ordered _ _ _ ys members =>
      refine .array (halike _ members) ?_
      unfold SameOrder
      by_cases hsorts : Sorts unordered path kind
      · rw [if_pos hsorts]
        exact ⟨.refl ys, fun hno => absurd hsorts hno⟩
      · rw [if_neg hsorts, if_neg hsorts]
    | sorted sorts members perm =>
      refine .array (halike _ members) ?_
      unfold SameOrder
      rw [if_pos sorts]
      exact ⟨perm, fun hno => absurd sorts hno⟩

/-- Alike payloads whose arrays have the same kinds differ by nothing else. -/
theorem Alike.reorders {unordered : List JsonPath} {a : Tree} : ∀ {path : JsonPath} {b : Tree},
    Alike unordered path path a b → SameKinds path a b → Reorders unordered path a b := by
  induction a using Tree.members_induction with
  | leaf scalar =>
    intro path b h _
    cases h
    exact .leaf path scalar
  | mapping entries ih =>
    intro path b h hkinds
    cases h with
    | mapping members perm =>
      refine .mapping (reordersEntries_iff.2 (forall₂_of_mem (alikeEntries_iff.1 members) ?_)) perm
      intro x hx y hy hxy
      exact ⟨hxy.1, ih x hx hxy.2 (hkinds.entry hx (perm.subset hy) hxy.1)⟩
  | array kind items ih =>
    intro path b h hkinds
    cases h with
    | @array _ _ _ l _ ys zs members order =>
      obtain rfl := hkinds.kind_eq
      have hreorders : ys.Perm zs → ReordersItems unordered (path ++ [kind.segment]) items ys :=
        fun perm => reordersItems_iff.2 (forall₂_of_mem (alikeItems_iff.1 members)
          fun x hx y hy hxy => ih x hx hxy (hkinds.item hx (perm.subset hy)))
      unfold SameOrder at order
      by_cases hsorts : Sorts unordered path kind
      · rw [if_pos hsorts] at order
        exact .sorted hsorts (hreorders order.1) order.1
      · rw [if_neg hsorts, if_neg hsorts] at order
        subst order
        exact .ordered (hreorders (.refl _))

/-- A payload that has a text: string keys, supported leaves, the keys of each `dict` distinct. -/
structure Payload where
  value : Value
  tree : Tree
  treeOf_value : treeOf value = some tree
  distinctKeys : tree.DistinctKeys

theorem Payload.requestText_eq (unordered : List JsonPath) (p : Payload) :
    requestText unordered p.value = .ok (p.tree.norm unordered []).render := by
  have htree := canonicalize_toOption unordered [] p.value
  rw [p.treeOf_value] at htree
  rw [requestText]
  cases hcanon : canonicalize unordered [] p.value with
  | error e =>
    rw [hcanon] at htree
    cases htree
  | ok j =>
    rw [hcanon] at htree
    cases htree
    rfl

/-- Payloads have one text exactly when they are alike: when they differ by the order that is
ignored and, where no path has a set in one and a sequence in the other, only then. -/
theorem texts_eq_iff_alike (sha256 : List UInt8 → Digest) (unordered : List JsonPath)
    (a b : Payload) : ∃ s t,
      requestText unordered a.value = .ok s ∧ requestText unordered b.value = .ok t ∧
      computeRequestFingerprint sha256 unordered a.value = .ok (sha256 (utf8 s)) ∧
      computeRequestFingerprint sha256 unordered b.value = .ok (sha256 (utf8 t)) ∧
      (s = t ↔ Alike unordered [] [] a.tree b.tree) ∧
      (Reorders unordered [] a.tree b.tree → s = t) ∧
      (SameKinds [] a.tree b.tree → s = t → Reorders unordered [] a.tree b.tree) := by
  have ha := Payload.requestText_eq unordered a
  have hb := Payload.requestText_eq unordered b
  have halike : (a.tree.norm unordered []).render = (b.tree.norm unordered []).render ↔
      Alike unordered [] [] a.tree b.tree :=
    ⟨fun h => (norm_eq_iff a.distinctKeys).1 (render_injective h),
      fun h => congrArg Json.render ((norm_eq_iff a.distinctKeys).2 h)⟩
  refine ⟨_, _, ha, hb, ?_, ?_, halike, fun h => halike.2 h.alike,
    fun hkinds h => (halike.1 h).reorders hkinds⟩
  · rw [computeRequestFingerprint, ha]
    rfl
  · rw [computeRequestFingerprint, hb]
    rfl

/-- `{"a": [[2, 1], [1], [2, 1]], "b": {3}}`. -/
def samplePayload : Payload where
  value := .mapping [(some "a".toList, .sequence [.sequence [.int 2, .int 1], .sequence [.int 1],
    .sequence [.int 2, .int 1]]), (some "b".toList, .set [.int 3])]
  tree := .mapping [("a".toList, .array .sequence [.array .sequence [.leaf (.int 2), .leaf (.int 1)],
    .array .sequence [.leaf (.int 1)], .array .sequence [.leaf (.int 2), .leaf (.int 1)]]),
    ("b".toList, .array .set [.leaf (.int 3)])]
  treeOf_value := rfl
  distinctKeys := by simp [Tree.DistinctKeys, DistinctEntries, DistinctItems]

/-- `{"b": {3}, "a": [[1], [1, 2], [2, 1]]}`. -/
def shuffledPayload : Payload where
  value := .mapping [(some "b".toList, .set [.int 3]), (some "a".toList,
    .sequence [.sequence [.int 1], .sequence [.int 1, .int 2], .sequence [.int 2, .int 1]])]
  tree := .mapping [("b".toList, .array .set [.leaf (.int 3)]), ("a".toList,
    .array .sequence [.array .sequence [.leaf (.int 1)],
      .array .sequence [.leaf (.int 1), .leaf (.int 2)],
      .array .sequence [.leaf (.int 2), .leaf (.int 1)]])]
  treeOf_value := rfl
  distinctKeys := by simp [Tree.DistinctKeys, DistinctEntries, DistinctItems]

def samplePaths : List JsonPath := [["a".toList], ["a".toList, "[]".toList]]

theorem texts_eq_iff_alike_sample : ∃ s,
    requestText samplePaths samplePayload.value = .ok s ∧
      requestText samplePaths shuffledPayload.value = .ok s ∧
      Reorders samplePaths [] samplePayload.tree shuffledPayload.tree := by
  obtain ⟨s, t, hs, ht, -, -, -, hforward, hback⟩ := texts_eq_iff_alike
    (fun _ => sampleFingerprint) samplePaths samplePayload shuffledPayload
  have hone : ∀ path : JsonPath, ReordersItems samplePaths path [.leaf (.int 1)] [.leaf (.int 1)] :=
    fun path => .cons (.leaf _ _) (.nil _)
  have hthree : ∀ path : JsonPath, ReordersItems samplePaths path [.leaf (.int 3)] [.leaf (.int 3)] :=
    fun path => .cons (.leaf _ _) (.nil _)
  have htwo : ∀ path : JsonPath, ReordersItems samplePaths path [.leaf (.int 2), .leaf (.int 1)]
      [.leaf (.int 2), .leaf (.int 1)] :=
    fun path => .cons (.leaf _ _) (.cons (.leaf _ _) (.nil _))
  have hinner : Sorts samplePaths ([] ++ ["a".toList] ++ [ArrayKind.sequence.segment]) .sequence :=
    .inr (by decide)
  have houter : Sorts samplePaths ([] ++ ["a".toList]) .sequence := .inr (by decide)
  have hreorders : Reorders samplePaths [] samplePayload.tree shuffledPayload.tree := by
    refine .mapping (.cons (.sorted houter (.cons (.sorted hinner (htwo _) (.swap _ _ _))
      (.cons (.ordered (hone _)) (.cons (.ordered (htwo _)) (.nil _)))) (.swap _ _ _))
      (.cons (.ordered (hthree _)) (.nil _))) (.swap _ _ _)
  have hkinds : SameKinds [] samplePayload.tree shuffledPayload.tree := by
    intro kind other hne
    cases kind <;> cases other
    · exact absurd rfl hne
    · simp [Tree.paths, pathsEntries, pathsItems, samplePayload, shuffledPayload]
    · simp [Tree.paths, pathsEntries, pathsItems, samplePayload, shuffledPayload]
    · exact absurd rfl hne
  have hst := hforward hreorders
  exact ⟨s, hs, by rw [hst]; exact ht, hback hkinds hst⟩

/-- `{"k": [{1}, [1]]}`. -/
def setFirstPayload : Payload where
  value := .mapping [(some "k".toList, .sequence [.set [.int 1], .sequence [.int 1]])]
  tree := .mapping [("k".toList, .array .sequence
    [.array .set [.leaf (.int 1)], .array .sequence [.leaf (.int 1)]])]
  treeOf_value := rfl
  distinctKeys := by simp [Tree.DistinctKeys, DistinctEntries, DistinctItems]

/-- `{"k": [[1], {1}]}`. -/
def sequenceFirstPayload : Payload where
  value := .mapping [(some "k".toList, .sequence [.sequence [.int 1], .set [.int 1]])]
  tree := .mapping [("k".toList, .array .sequence
    [.array .sequence [.leaf (.int 1)], .array .set [.leaf (.int 1)]])]
  treeOf_value := rfl
  distinctKeys := by simp [Tree.DistinctKeys, DistinctEntries, DistinctItems]

/-- Both use sets and sequences at the same paths, and are no reordering of each other. -/
theorem texts_eq_of_mixed :
    (∀ kind path, path ∈ setFirstPayload.tree.paths kind [] ↔
      path ∈ sequenceFirstPayload.tree.paths kind []) ∧
    requestText [] setFirstPayload.value = requestText [] sequenceFirstPayload.value ∧
    ¬ Reorders [] [] setFirstPayload.tree sequenceFirstPayload.tree := by
  refine ⟨fun kind path => ?_, rfl, fun h => ?_⟩
  · cases kind <;>
      simp [setFirstPayload, sequenceFirstPayload, Tree.paths, pathsEntries, pathsItems, or_comm]
  · cases h with
    | mapping members perm =>
      cases members with
      | cons head tail =>
        cases tail
        have hsame := List.perm_singleton.1 perm.symm
        cases hsame
        cases head with
        | ordered members =>
          cases members with
          | cons head _ => cases head
        | sorted sorts members perm =>
          rcases sorts with hset | hmem
          · cases hset
          · cases hmem

end ProfileService.Idempotency
