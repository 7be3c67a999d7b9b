import ProfileService.Library.JsonKeys

/-!
# Limits on JSON

The longest integer a writer or a reader of JSON converts, and the deepest nesting a reader
follows. Neither depends on the order of the keys.
-/

namespace ProfileService.Library

/-- The digits of an integer are at most `limit` many (`sys.get_int_max_str_digits()`; none
where the limit is lifted). -/
def withinDigits (limit : Option Nat) (n : Int) : Bool :=
  match limit with
  | none => true
  | some digits => (Nat.toDigits 10 n.natAbs).length ≤ digits

mutual
def jsonWithin (limit : Option Nat) : Json → Bool
  | .int n => withinDigits limit n
  | .arr items => itemsWithin limit items
  | .obj entries => entriesWithin limit entries
  | _ => true
def itemsWithin (limit : Option Nat) : List Json → Bool
  | [] => true
  | j :: items => jsonWithin limit j && itemsWithin limit items
def entriesWithin (limit : Option Nat) : List (Str × Json) → Bool
  | [] => true
  | (_, j) :: entries => jsonWithin limit j && entriesWithin limit entries
end

mutual
/-- The number of steps down to the innermost member; an empty array or object has none. -/
def Json.height : Json → Nat
  | .arr items => heightItems items
  | .obj entries => heightEntries entries
  | _ => 0
def heightItems : List Json → Nat
  | [] => 0
  | j :: items => max (j.height + 1) (heightItems items)
def heightEntries : List (Str × Json) → Nat
  | [] => 0
  | (_, j) :: entries => max (j.height + 1) (heightEntries entries)
end

/-- The limits of a reader; none where there is no limit. -/
structure JsonLimits where
  digits : Option Nat
  nesting : Option Nat

def JsonLimits.unlimited : JsonLimits := ⟨none, none⟩

def JsonLimits.admits (limits : JsonLimits) (j : Json) : Bool :=
  jsonWithin limits.digits j && limits.nesting.all fun n => j.height ≤ n

theorem withinDigits_some_iff {digits : Nat} (h : 0 < digits) {n : Int} :
    withinDigits (some digits) n = true ↔ n.natAbs < 10 ^ digits := by
  rw [withinDigits, decide_eq_true_iff, Nat.length_toDigits_le_iff (by decide) h]

theorem itemsWithin_eq (limit : Option Nat) (items : List Json) :
    itemsWithin limit items = items.all (jsonWithin limit) := by
  induction items with
  | nil => rfl
  | cons j items ih => rw [itemsWithin, ih, List.all_cons]

theorem entriesWithin_eq (limit : Option Nat) (entries : List (Str × Json)) :
    entriesWithin limit entries = entries.all fun e => jsonWithin limit e.2 := by
  induction entries with
  | nil => rfl
  | cons e entries ih => rw [entriesWithin, ih, List.all_cons]

theorem entriesWithin_sortEntries (limit : Option Nat) (entries : List (Str × Json)) :
    entriesWithin limit (sortEntries entries) = entriesWithin limit entries := by
  rw [entriesWithin_eq, entriesWithin_eq]
  exact (sortEntries_perm entries).all_eq

theorem jsonWithin_none (j : Json) : jsonWithin none j = true := by
  induction j using Json.members_induction with
  | arr items ih =>
    rw [jsonWithin, itemsWithin_eq]
    exact List.all_eq_true.2 ih
  | obj entries ih =>
    rw [jsonWithin, entriesWithin_eq]
    exact List.all_eq_true.2 ih
  | _ => rfl

theorem heightItems_le_iff {items : List Json} {n : Nat} :
    heightItems items ≤ n ↔ ∀ j ∈ items, j.height + 1 ≤ n := by
  induction items with
  | nil => simp [heightItems]
  | cons j items ih => rw [heightItems, Nat.max_le, ih, List.forall_mem_cons]

theorem heightEntries_le_iff {entries : List (Str × Json)} {n : Nat} :
    heightEntries entries ≤ n ↔ ∀ e ∈ entries, e.2.height + 1 ≤ n := by
  induction entries with
  | nil => simp [heightEntries]
  | cons e entries ih => rw [heightEntries, Nat.max_le, ih, List.forall_mem_cons]

theorem jsonWithin_sortKeys (limit : Option Nat) (j : Json) :
    jsonWithin limit j.sortKeys = jsonWithin limit j := by
  induction j using Json.members_induction with
  | arr items ih =>
    rw [Json.sortKeys, jsonWithin, jsonWithin, itemsWithin_eq, itemsWithin_eq, sortKeysItems_eq,
      List.all_map, Bool.eq_iff_iff, List.all_eq_true, List.all_eq_true]
    exact forall₂_congr fun j hj => by rw [Function.comp_apply, ih j hj]
  | obj entries ih =>
    rw [Json.sortKeys, jsonWithin, jsonWithin, entriesWithin_sortEntries, entriesWithin_eq,
      entriesWithin_eq, sortKeysEntries_eq, List.all_map, Bool.eq_iff_iff, List.all_eq_true,
      List.all_eq_true]
    exact forall₂_congr fun e he => by rw [Function.comp_apply, ih e he]
  | _ => rfl

theorem height_sortKeys (j : Json) : j.sortKeys.height = j.height := by
  induction j using Json.members_induction with
  | arr items ih =>
    have hbound : ∀ n, heightItems (items.map Json.sortKeys) ≤ n ↔ heightItems items ≤ n := by
      intro n
      rw [heightItems_le_iff, heightItems_le_iff, List.forall_mem_map]
      exact forall₂_congr fun j hj => by rw [ih j hj]
    rw [Json.sortKeys, Json.height, Json.height, sortKeysItems_eq]
    exact Nat.le_antisymm ((hbound _).2 (Nat.le_refl _)) ((hbound _).1 (Nat.le_refl _))
  | obj entries ih =>
    have hbound : ∀ n, heightEntries (sortEntries (sortKeysEntries entries)) ≤ n ↔
        heightEntries entries ≤ n := by
      intro n
      rw [heightEntries_le_iff, heightEntries_le_iff, sortKeysEntries_eq]
      have hperm := sortEntries_perm (entries.map fun e => (e.1, e.2.sortKeys))
      constructor
      · intro h e he
        rw [← ih e he]
        exact h _ (hperm.symm.subset (List.mem_map_of_mem he))
      · intro h x hx
        obtain ⟨e, he, rfl⟩ := List.mem_map.1 (hperm.subset hx)
        rw [ih e he]
        exact h e he
    rw [Json.sortKeys, Json.height, Json.height]
    exact Nat.le_antisymm ((hbound _).2 (Nat.le_refl _)) ((hbound _).1 (Nat.le_refl _))
  | _ => rfl

theorem JsonLimits.admits_sortKeys (limits : JsonLimits) (j : Json) :
    limits.admits j.sortKeys = limits.admits j := by
  rw [admits, admits, jsonWithin_sortKeys, height_sortKeys]

theorem JsonLimits.admits_unlimited (j : Json) : unlimited.admits j = true := by
  rw [admits, unlimited, jsonWithin_none]
  rfl

end ProfileService.Library
