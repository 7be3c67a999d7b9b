import ProfileService.Application.Exceptions
import ProfileService.Idempotency.Models
import ProfileService.Library.PyValue

/-!
# Request fingerprints

`application/idempotency/fingerprint.py`: a payload tree becomes canonical JSON,
the JSON a text with sorted keys, and the text a SHA-256 digest.
-/

namespace ProfileService.Idempotency
open Library Application

abbrev JsonPath := List Str

def collect {ε α : Type} : List (Except ε α) → Except ε (List α)
  | [] => .ok []
  | .error e :: _ => .error e
  | .ok a :: rest => (collect rest).map (a :: ·)

def collectEntries {ε α : Type} : List (Str × Except ε α) → Except ε (List (Str × α))
  | [] => .ok []
  | (_, .error e) :: _ => .error e
  | (key, .ok a) :: rest => (collectEntries rest).map ((key, a) :: ·)

def textLe (a b : Json) : Prop := dumps a ≤ dumps b

instance : DecidableRel textLe := fun a b => inferInstanceAs (Decidable (dumps a ≤ dumps b))

/-- `sorted(items, key=json.dumps)`. -/
def sortItems (items : List Json) : List Json := items.insertionSort textLe

def canonicalizeDecimal : Decimal → Except Exn Json
  | .finite negative coefficient exponent =>
    if coefficient = 0 then .ok (.str ['0'])
    else
      let text := formatFixed negative coefficient exponent
      .ok (.str (if '.' ∈ text then rstrip '.' (rstrip '0' text) else text))
  | _ => .error (.other "ValueError" "Значения Decimal для слепка должны быть конечными числами")

/-- `value.astimezone(UTC)`. -/
def astimezone (d : DateTime) : Except Exn Deadline :=
  match d.utcoffset with
  | none => .error (.other "ValueError"
      "Значения datetime для слепка должны содержать часовой пояс (timezone-aware)")
  | some offset =>
    if h : Representable (d.wall - offset) then .ok ⟨_, h⟩
    else .error (.other "OverflowError" "date value out of range")

def canonicalizeFloat : PyFloat → Except Exn Json
  | .finite x => .ok (.float (if x.isZero then .zero else x))
  | _ => .error (.other "ValueError" "Значения float для слепка должны быть конечными числами")

mutual
/-- `_canonicalize` (`fingerprint.py:51-149`). The members of a mapping are visited in
the order of their keys, so theirs is the order of the exceptions. -/
def canonicalize (unordered : List JsonPath) (path : JsonPath) : Value → Except Exn Json
  | .mapping entries =>
    if entries.any fun e => e.1.isNone then
      .error (.other "TypeError" "Словари для формирования слепка должны содержать строковые ключи")
    else
      (collectEntries (sortEntries (canonicalizeEntries unordered path entries))).map .obj
  | .sequence items =>
    (collect (canonicalizeItems unordered (path ++ ["[]".toList]) items)).map fun items =>
      .arr (if path ∈ unordered then sortItems items else items)
  | .set items =>
    (collect (canonicalizeItems unordered (path ++ ["\x7b\x7d".toList]) items)).map fun items =>
      .arr (sortItems items)
  | .decimal d => canonicalizeDecimal d
  | .uuid u => .ok (.str (uuidText u))
  | .datetime d => (astimezone d).map fun t => .str (isoText "+00:00".toList t)
  | .date ordinal => .ok (.str (isoDate ordinal))
  | .enum value => canonicalize unordered path value
  | .float x => canonicalizeFloat x
  | .none => .ok .null
  | .bool b => .ok (.bool b)
  | .int n => .ok (.int n)
  | .str s => .ok (.str s)
  | .other typeName =>
    .error (.other "TypeError" ("Неподдерживаемый тип значения для слепка: " ++ typeName))
def canonicalizeItems (unordered : List JsonPath) (path : JsonPath) :
    List Value → List (Except Exn Json)
  | [] => []
  | v :: items => canonicalize unordered path v :: canonicalizeItems unordered path items
def canonicalizeEntries (unordered : List JsonPath) (path : JsonPath) :
    List (Option Str × Value) → List (Str × Except Exn Json)
  | [] => []
  | (some key, v) :: entries =>
    (key, canonicalize unordered (path ++ [key]) v) :: canonicalizeEntries unordered path entries
  | (none, _) :: entries => canonicalizeEntries unordered path entries
end

def requestText (unordered : List JsonPath) (payload : Value) : Except Exn Str :=
  (canonicalize unordered [] payload).map dumps

/-- `compute_request_fingerprint` (`fingerprint.py:25-48`) for a given SHA-256. -/
def computeRequestFingerprint (sha256 : List UInt8 → Digest) (unordered : List JsonPath)
    (payload : Value) : Except Exn Digest :=
  (requestText unordered payload).map fun text => sha256 (utf8 text)

theorem collectEntries_ok {ε α : Type} (entries : List (Str × α)) :
    collectEntries (entries.map fun e => (e.1, (.ok e.2 : Except ε α))) = .ok entries := by
  induction entries with
  | nil => rfl
  | cons e entries ih => rw [List.map_cons, collectEntries, ih]; rfl

theorem sortEntries_map {α β : Type} (f : α → β) (entries : List (Str × α)) :
    sortEntries (entries.map fun e => (e.1, f e.2)) =
      (sortEntries entries).map fun e => (e.1, f e.2) :=
  (List.map_insertionSort keyLe keyLe (fun e : Str × α => (e.1, f e.2)) entries
    fun _ _ _ _ => Iff.rfl).symm

/-- A value that canonicalizes to `j` anywhere, with nothing inside to sort. -/
structure Scalar (v : Value) (j : Json) : Prop where
  canonical : ∀ unordered path, canonicalize unordered path v = .ok j
  sorted : j.sortKeys = j

def ScalarFields : List (Str × Value) → List (Str × Json) → Prop :=
  List.Forall₂ fun field entry => field.1 = entry.1 ∧ Scalar field.2 entry.2

theorem ScalarFields.canonicalizeEntries {fields : List (Str × Value)} {entries : List (Str × Json)}
    (h : ScalarFields fields entries) (unordered : List JsonPath) (path : JsonPath) :
    canonicalizeEntries unordered path (fields.map fun e => (some e.1, e.2)) =
      entries.map fun e => (e.1, .ok e.2) := by
  induction h with
  | nil => rfl
  | @cons field entry fields entries hfield _ ih =>
    obtain ⟨hkey, hscalar⟩ := hfield
    rw [List.map_cons, List.map_cons, Idempotency.canonicalizeEntries, ih, hscalar.canonical, hkey]

theorem ScalarFields.sortKeysEntries {fields : List (Str × Value)} {entries : List (Str × Json)}
    (h : ScalarFields fields entries) : ∀ e ∈ entries, e.2.sortKeys = e.2 := by
  induction h with
  | nil => exact fun e he => by cases he
  | cons hfield _ ih =>
    intro e he
    rcases List.mem_cons.1 he with rfl | he
    · exact hfield.2.sorted
    · exact ih e he

theorem requestText_record {fields : List (Str × Value)} {entries : List (Str × Json)}
    (h : ScalarFields fields entries) (unordered : List JsonPath) :
    requestText unordered (.record fields) = .ok (Json.obj (sortEntries entries)).render := by
  have hkeys : (fields.map fun e => ((some e.1 : Option Str), e.2)).any (fun e => e.1.isNone) =
      false := by
    simp
  have hsorted : sortKeysEntries (sortEntries entries) = sortEntries entries := by
    rw [sortKeysEntries_eq]
    conv_rhs => rw [← List.map_id (sortEntries entries)]
    refine List.map_congr_left fun e he => ?_
    rw [h.sortKeysEntries e ((sortEntries_perm entries).subset he)]
    rfl
  rw [requestText, Value.record, canonicalize, hkeys, h.canonicalizeEntries, sortEntries_map,
    collectEntries_ok]
  simp only [Bool.false_eq_true, if_false, Except.map]
  rw [dumps, Json.sortKeys, hsorted, sortEntries_sortEntries]

/-- Texts of models are equal exactly when their entries are, up to their order. -/
theorem render_sortEntries_inj {xs ys : List (Str × Json)}
    (h : (Json.obj (sortEntries xs)).render = (Json.obj (sortEntries ys)).render) :
    sortEntries xs = sortEntries ys := Json.obj.inj (render_injective h)

theorem Scalar.null : Scalar .none .null := ⟨fun _ _ => by rw [canonicalize], rfl⟩

theorem Scalar.int (n : Int) : Scalar (.int n) (.int n) := ⟨fun _ _ => by rw [canonicalize], rfl⟩

theorem Scalar.str (s : Str) : Scalar (.str s) (.str s) := ⟨fun _ _ => by rw [canonicalize], rfl⟩

theorem Scalar.uuid (u : BitVec 128) : Scalar (.uuid u) (.str (uuidText u)) :=
  ⟨fun _ _ => by rw [canonicalize], rfl⟩

theorem Scalar.enum {v : Value} {j : Json} (h : Scalar v j) : Scalar (.enum v) j :=
  ⟨fun unordered path => by rw [canonicalize, h.canonical], h.sorted⟩

theorem Scalar.datetime {d : DateTime} (haware : d.utcoffset.isSome) (h : Representable d.instant) :
    Scalar (.datetime d) (.str (isoText "+00:00".toList d.instant)) := by
  obtain ⟨offset, hoffset⟩ := Option.isSome_iff_exists.1 haware
  have hinstant : d.instant = d.wall - offset := by simp [DateTime.instant, hoffset]
  have hzone : astimezone d = .ok ⟨d.instant, h⟩ := by
    rw [hinstant] at h
    simp only [astimezone, hoffset, dif_pos h, hinstant]
  exact ⟨fun _ _ => by rw [canonicalize, hzone]; rfl, rfl⟩

end ProfileService.Idempotency
