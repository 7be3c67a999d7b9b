import ProfileService.Library.JsonKeys

/-!
# Dictionaries of JSON values

A Python `dict` that came from JSON: no key stands twice, at any depth, and the order
of its entries does not count, so they are kept in the order of their keys.
-/

namespace ProfileService.Library

mutual
def Json.distinctKeys : Json → Bool
  | .arr items => distinctKeysItems items
  | .obj entries => (entries.map Prod.fst).Nodup && distinctKeysEntries entries
  | _ => true
def distinctKeysItems : List Json → Bool
  | [] => true
  | j :: items => j.distinctKeys && distinctKeysItems items
def distinctKeysEntries : List (Str × Json) → Bool
  | [] => true
  | (_, j) :: entries => j.distinctKeys && distinctKeysEntries entries
end

theorem distinctKeysItems_eq (items : List Json) :
    distinctKeysItems items = items.all Json.distinctKeys := by
  induction items with
  | nil => rfl
  | cons j items ih => rw [distinctKeysItems, ih, List.all_cons]

theorem distinctKeysEntries_eq (entries : List (Str × Json)) :
    distinctKeysEntries entries = entries.all fun e => e.2.distinctKeys := by
  induction entries with
  | nil => rfl
  | cons e entries ih => rw [distinctKeysEntries, ih, List.all_cons]

theorem Json.distinctKeys_sortKeys (j : Json) : j.sortKeys.distinctKeys = j.distinctKeys := by
  induction j using Json.members_induction with
  | arr items ih =>
    rw [Json.sortKeys, Json.distinctKeys, Json.distinctKeys, sortKeysItems_eq,
      distinctKeysItems_eq, distinctKeysItems_eq, List.all_map]
    rw [Bool.eq_iff_iff, List.all_eq_true, List.all_eq_true]
    constructor
    · intro h j hj
      rw [← ih j hj]
      exact h j hj
    · intro h j hj
      rw [Function.comp_apply, ih j hj]
      exact h j hj
  | obj entries ih =>
    have hperm := sortEntries_perm (sortKeysEntries entries)
    have hkeys : (sortKeysEntries entries).map Prod.fst = entries.map Prod.fst := by
      rw [sortKeysEntries_eq, List.map_map]
      rfl
    have hnodup : ((sortEntries (sortKeysEntries entries)).map Prod.fst).Nodup ↔
        (entries.map Prod.fst).Nodup := by
      rw [(hperm.map Prod.fst).nodup_iff, hkeys]
    have hmembers : (distinctKeysEntries (sortEntries (sortKeysEntries entries))) =
        distinctKeysEntries entries := by
      rw [distinctKeysEntries_eq, hperm.all_eq, sortKeysEntries_eq, List.all_map,
        distinctKeysEntries_eq, Bool.eq_iff_iff, List.all_eq_true, List.all_eq_true]
      constructor
      · intro h e he
        rw [← ih e he]
        exact h e he
      · intro h e he
        rw [Function.comp_apply, ih e he]
        exact h e he
    rw [Json.sortKeys, Json.distinctKeys, Json.distinctKeys, hmembers, decide_eq_decide.2 hnodup]
  | _ => rfl

/-- A `dict`: distinct keys at every level, entries in the order of their keys. -/
@[ext] structure Dict where
  entries : List (Str × Json)
  sorted : (Json.obj entries).sortKeys = .obj entries
  distinct : (Json.obj entries).distinctKeys = true

def Dict.ofEntries (entries : List (Str × Json)) (h : (Json.obj entries).distinctKeys = true) :
    Dict where
  entries := sortEntries (sortKeysEntries entries)
  sorted := Json.sortKeys_sortKeys (.obj entries)
  distinct := (Json.distinctKeys_sortKeys (.obj entries)).trans h

def Dict.get? (d : Dict) (key : Str) : Option Json := (Json.obj d.entries).get? key

def Dict.keys (d : Dict) : List Str := d.entries.map Prod.fst

theorem Dict.keys_nodup (d : Dict) : d.keys.Nodup := by
  have h := d.distinct
  rw [Json.distinctKeys, Bool.and_eq_true] at h
  exact of_decide_eq_true h.1

theorem Dict.get?_of_mem {d : Dict} {key : Str} {j : Json} (h : (key, j) ∈ d.entries) :
    d.get? key = some j := by
  rw [Dict.get?, Json.get?]
  cases hfind : d.entries.reverse.find? fun e => e.1 = key with
  | none =>
    have hno := List.find?_eq_none.1 hfind (key, j) (List.mem_reverse.2 h)
    simp at hno
  | some e =>
    have hkey : e.1 = key := by simpa using List.find?_some hfind
    have hmem : e ∈ d.entries := List.mem_reverse.1 (List.mem_of_find?_eq_some hfind)
    have he : e = (key, j) := List.inj_on_of_nodup_map d.keys_nodup hmem h hkey
    rw [he]
    rfl

/-- The `dict` a value is; only one in canonical form is taken. -/
def Dict.ofJson : Json → Option Dict
  | .obj entries =>
    if h : (Json.obj entries).sortKeys.render = (Json.obj entries).render ∧
        (Json.obj entries).distinctKeys = true then
      some ⟨entries, render_injective h.1, h.2⟩
    else none
  | _ => none

theorem Dict.ofJson_obj (d : Dict) : Dict.ofJson (.obj d.entries) = some d := by
  have hcanonical : (Json.obj d.entries).sortKeys.render = (Json.obj d.entries).render := by
    rw [d.sorted]
  rw [Dict.ofJson, dif_pos ⟨hcanonical, d.distinct⟩]

def readDict (text : Str) : Option Dict :=
  match readJson text.length text with
  | some (j, []) => Dict.ofJson j
  | _ => none

theorem readDict_render (d : Dict) : readDict (Json.obj d.entries).render = some d := by
  have hread := reads_length (.obj d.entries) _ (Nat.le_refl _) [] fun c hc => by cases hc
  rw [List.append_nil] at hread
  simp only [readDict, hread, Dict.ofJson_obj]

def utf8Decode (bytes : List UInt8) : Option Str :=
  bytes.toByteArray.utf8Decode?.map Array.toList

theorem utf8Decode_utf8 (s : Str) : utf8Decode (utf8 s) = some s := by
  have hencode : (utf8 s).toByteArray = s.utf8Encode := rfl
  rw [utf8Decode, hencode, List.utf8Decode?_utf8Encode]
  rfl

end ProfileService.Library
