import Mathlib.Data.List.Sort
import Mathlib.Data.List.Lex
import Mathlib.Data.Char
import ProfileService.Library.JsonText

/-!
# JSON text with sorted keys

`json.dumps(…, sort_keys=True)` and its UTF-8 bytes. Two values have equal
bytes exactly when they are equal up to the order of the keys of each object.
-/

namespace ProfileService.Library

/-- Code points, then length: the order of Python's `str`. -/
def keyLe {α : Type} (a b : Str × α) : Prop := a.1 ≤ b.1

instance {α : Type} : DecidableRel (@keyLe α) := fun a b =>
  inferInstanceAs (Decidable (a.1 ≤ b.1))

instance {α : Type} : Std.Total (@keyLe α) := ⟨fun a b => le_total a.1 b.1⟩

instance {α : Type} : IsTrans (Str × α) keyLe := ⟨fun _ _ _ h h' => le_trans h h'⟩

/-- `sorted(mapping.items())`: the keys are distinct, so they decide. -/
def sortEntries {α : Type} (entries : List (Str × α)) : List (Str × α) :=
  entries.insertionSort keyLe

mutual
def Json.sortKeys : Json → Json
  | .arr items => .arr (sortKeysItems items)
  | .obj entries => .obj (sortEntries (sortKeysEntries entries))
  | .null => .null
  | .bool b => .bool b
  | .int n => .int n
  | .float x => .float x
  | .str s => .str s
def sortKeysItems : List Json → List Json
  | [] => []
  | j :: items => j.sortKeys :: sortKeysItems items
def sortKeysEntries : List (Str × Json) → List (Str × Json)
  | [] => []
  | (key, j) :: entries => (key, j.sortKeys) :: sortKeysEntries entries
end

theorem sortKeysItems_eq (items : List Json) : sortKeysItems items = items.map Json.sortKeys := by
  induction items with
  | nil => rfl
  | cons j items ih => rw [sortKeysItems, ih, List.map_cons]

theorem sortKeysEntries_eq (entries : List (Str × Json)) :
    sortKeysEntries entries = entries.map fun e => (e.1, e.2.sortKeys) := by
  induction entries with
  | nil => rfl
  | cons e entries ih => rw [sortKeysEntries, ih, List.map_cons]

/-- `json.dumps(j, ensure_ascii=False, separators=(",", ":"), sort_keys=True)`. -/
def dumps (j : Json) : Str := j.sortKeys.render

theorem dumps_injective {a b : Json} : dumps a = dumps b ↔ a.sortKeys = b.sortKeys :=
  ⟨render_injective, congrArg Json.render⟩

theorem sortEntries_perm {α : Type} (entries : List (Str × α)) :
    (sortEntries entries).Perm entries := List.perm_insertionSort keyLe entries

theorem sortEntries_sortEntries {α : Type} (entries : List (Str × α)) :
    sortEntries (sortEntries entries) = sortEntries entries :=
  (List.pairwise_insertionSort keyLe entries).insertionSort_eq

mutual
theorem Json.sortKeys_sortKeys : ∀ j : Json, j.sortKeys.sortKeys = j.sortKeys
  | .arr items => congrArg Json.arr (sortKeysItems_sortKeysItems items)
  | .obj entries => by
    have hsorted : sortKeysEntries (sortEntries (sortKeysEntries entries)) =
        sortEntries (sortKeysEntries entries) := by
      rw [sortKeysEntries_eq (sortEntries _)]
      refine (List.map_congr_left fun e he => ?_).trans (List.map_id _)
      have hmem := (sortEntries_perm (sortKeysEntries entries)).subset he
      exact Prod.ext rfl (sortKeysEntries_sorted entries e hmem)
    show Json.obj (sortEntries (sortKeysEntries (sortEntries (sortKeysEntries entries)))) = _
    rw [hsorted, sortEntries_sortEntries]
    rfl
  | .null => rfl
  | .bool _ => rfl
  | .int _ => rfl
  | .float _ => rfl
  | .str _ => rfl
theorem sortKeysItems_sortKeysItems :
    ∀ items : List Json, sortKeysItems (sortKeysItems items) = sortKeysItems items
  | [] => rfl
  | j :: items =>
    congrArg₂ List.cons (Json.sortKeys_sortKeys j) (sortKeysItems_sortKeysItems items)
theorem sortKeysEntries_sorted :
    ∀ entries : List (Str × Json), ∀ e ∈ sortKeysEntries entries, e.2.sortKeys = e.2
  | [], _, he => absurd he List.not_mem_nil
  | (_, j) :: entries, e, he => by
    rcases List.mem_cons.1 he with rfl | he
    · exact Json.sortKeys_sortKeys j
    · exact sortKeysEntries_sorted entries e he
end

/-- Entries under the same distinct keys are equal once a sort has made them equal. -/
theorem entries_eq_of_perm {α : Type} {xs ys : List (Str × α)} (hkeys : xs.map Prod.fst = ys.map Prod.fst)
    (hnodup : (xs.map Prod.fst).Nodup) (h : xs.Perm ys) : xs = ys := by
  have hfst : xs.length = ys.length := h.length_eq
  refine List.ext_getElem hfst fun i hx hy => ?_
  have hkey : xs[i].1 = ys[i].1 := by
    have hget := congrArg (fun l => l[i]?) hkeys
    simpa [hx, hy] using hget
  obtain ⟨j, hj, hji⟩ := List.getElem_of_mem (h.symm.subset (List.getElem_mem hy))
  have hj' : j < (xs.map Prod.fst).length := by simpa using hj
  have hx' : i < (xs.map Prod.fst).length := by simpa using hx
  have hsame : (xs.map Prod.fst)[j] = (xs.map Prod.fst)[i] := by
    simp [hji, hkey]
  have hindex : j = i := (List.Nodup.getElem_inj_iff hnodup).1 hsame
  subst hindex
  exact hji

theorem sortEntries_inj {α : Type} {xs ys : List (Str × α)}
    (hkeys : xs.map Prod.fst = ys.map Prod.fst) (hnodup : (xs.map Prod.fst).Nodup)
    (h : sortEntries xs = sortEntries ys) : xs = ys := by
  have hperm : xs.Perm ys := (sortEntries_perm xs).symm.trans (h ▸ sortEntries_perm ys)
  exact entries_eq_of_perm hkeys hnodup hperm

def utf8 (s : Str) : List UInt8 := s.flatMap String.utf8EncodeChar

theorem utf8_injective {s t : Str} (h : utf8 s = utf8 t) : s = t := by
  have henc : s.utf8Encode = t.utf8Encode := congrArg List.toByteArray h
  have hdec : some s.toArray = some t.toArray := by
    rw [← List.utf8Decode?_utf8Encode, ← List.utf8Decode?_utf8Encode, henc]
  exact List.toArray_inj (Option.some.inj hdec)

end ProfileService.Library
