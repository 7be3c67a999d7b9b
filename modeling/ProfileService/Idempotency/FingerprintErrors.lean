import ProfileService.Application.Commands
import ProfileService.Idempotency.PayloadTree
import ProfileService.Library.JsonLimits

/-!
# When a request fingerprint raises

`compute_request_fingerprint` raises on a payload that holds an unsupported key or leaf. It
also raises on a datetime whose UTC wall clock is outside the calendar, and on an integer
longer than the interpreter converts to text. Enumeration members that are a `Decimal` or a
`datetime` themselves, and payloads deeper than the recursion limit, are left out.
-/

namespace ProfileService.Idempotency
open Library Application

/-- `json.dumps(j, …)`; a long integer is the only thing it raises on. -/
def dumpsWithin (limit : Option Nat) (j : Json) : Except Exn Str :=
  if jsonWithin limit j then .ok (dumps j)
  else .error (.other "ValueError" "Exceeds the limit for integer string conversion")

/-- `compute_request_fingerprint` under the interpreter's limit. A `json.dumps` that is the key
of a sort meets no integer that the last one does not. -/
def fingerprintWithin (limit : Option Nat) (sha256 : List UInt8 → Digest)
    (unordered : List JsonPath) (payload : Value) : Except Exn Digest :=
  (canonicalize unordered [] payload).bind fun j =>
    (dumpsWithin limit j).map fun text => sha256 (utf8 text)

mutual
/-- String keys, leaves of the supported types, finite numbers and aware datetimes. -/
def Supported : Value → Prop
  | .mapping entries => SupportedEntries entries
  | .sequence items => SupportedItems items
  | .set items => SupportedItems items
  | .decimal (.finite _ _ _) => True
  | .float (.finite _) => True
  | .datetime d => d.utcoffset.isSome = true
  | .enum value => Supported value
  | .none | .bool _ | .int _ | .str _ | .uuid _ | .date _ => True
  | .decimal _ | .float _ | .other _ => False
def SupportedItems : List Value → Prop
  | [] => True
  | v :: items => Supported v ∧ SupportedItems items
def SupportedEntries : List (Option Str × Value) → Prop
  | [] => True
  | (key, v) :: entries => key.isSome = true ∧ Supported v ∧ SupportedEntries entries
end

mutual
/-- In UTC every aware datetime stays in the years 1 to 9999, and every integer has at most
`limit` digits. -/
def Convertible (limit : Option Nat) : Value → Prop
  | .mapping entries => ConvertibleEntries limit entries
  | .sequence items => ConvertibleItems limit items
  | .set items => ConvertibleItems limit items
  | .datetime d => d.utcoffset = none ∨ Representable d.instant
  | .int n => withinDigits limit n = true
  | .enum value => Convertible limit value
  | _ => True
def ConvertibleItems (limit : Option Nat) : List Value → Prop
  | [] => True
  | v :: items => Convertible limit v ∧ ConvertibleItems limit items
def ConvertibleEntries (limit : Option Nat) : List (Option Str × Value) → Prop
  | [] => True
  | (_, v) :: entries => Convertible limit v ∧ ConvertibleEntries limit entries
end

theorem itemsWithin_sortItems (limit : Option Nat) (items : List Json) :
    itemsWithin limit (sortItems items) = itemsWithin limit items := by
  rw [itemsWithin_eq, itemsWithin_eq]
  exact (List.perm_insertionSort textLe items).all_eq

theorem jsonWithin_array (limit : Option Nat) (unordered : List JsonPath) (path : JsonPath)
    (kind : ArrayKind) (items : List Tree) :
    jsonWithin limit ((Tree.array kind items).canon unordered path) =
      itemsWithin limit (canonItems unordered (path ++ [kind.segment]) items) := by
  rw [Tree.canon]
  simp only [jsonWithin]
  split
  · exact itemsWithin_sortItems limit _
  · rfl

theorem treeItems_cons {v : Value} {items : List Value} {ts : List Tree} :
    treeItems (v :: items) = some ts ↔
      ∃ t rest, treeOf v = some t ∧ treeItems items = some rest ∧ ts = t :: rest := by
  rw [treeItems, Option.bind_eq_some_iff]
  constructor
  · rintro ⟨t, ht, h⟩
    obtain ⟨rest, hrest, rfl⟩ := Option.map_eq_some_iff.1 h
    exact ⟨t, rest, ht, hrest, rfl⟩
  · rintro ⟨t, rest, ht, hrest, rfl⟩
    exact ⟨t, ht, Option.map_eq_some_iff.2 ⟨rest, hrest, rfl⟩⟩

theorem treeEntries_cons {key : Option Str} {v : Value} {entries : List (Option Str × Value)}
    {es : List (Str × Tree)} : treeEntries ((key, v) :: entries) = some es ↔
      ∃ k t rest, key = some k ∧ treeOf v = some t ∧ treeEntries entries = some rest ∧
        es = (k, t) :: rest := by
  cases key with
  | none =>
    rw [treeEntries]
    constructor
    · intro h
      cases h
    · rintro ⟨k, t, rest, hk, -⟩
      cases hk
  | some key =>
    rw [treeEntries, Option.bind_eq_some_iff]
    constructor
    · rintro ⟨t, ht, h⟩
      obtain ⟨rest, hrest, rfl⟩ := Option.map_eq_some_iff.1 h
      exact ⟨key, t, rest, rfl, ht, hrest, rfl⟩
    · rintro ⟨k, t, rest, hk, ht, hrest, rfl⟩
      cases hk
      exact ⟨t, ht, Option.map_eq_some_iff.2 ⟨rest, hrest, rfl⟩⟩

def HasText (limit : Option Nat) (unordered : List JsonPath) (path : JsonPath) (v : Value) : Prop :=
  ∃ t, treeOf v = some t ∧ jsonWithin limit (t.canon unordered path) = true

theorem hasText_leaf {limit : Option Nat} {unordered : List JsonPath} {path : JsonPath} {v : Value}
    {scalar : Leaf} (htree : treeOf v = some (.leaf scalar)) (hsupported : Supported v)
    (hconvertible : Convertible limit v ↔ jsonWithin limit scalar.json = true) :
    HasText limit unordered path v ↔ Supported v ∧ Convertible limit v := by
  constructor
  · rintro ⟨t, ht, h⟩
    rw [htree] at ht
    cases ht
    exact ⟨hsupported, hconvertible.2 h⟩
  · exact fun h => ⟨_, htree, hconvertible.1 h.2⟩

theorem hasText_none {limit : Option Nat} {unordered : List JsonPath} {path : JsonPath} {v : Value}
    (htree : treeOf v = none) (hsupported : ¬(Supported v ∧ Convertible limit v)) :
    HasText limit unordered path v ↔ Supported v ∧ Convertible limit v := by
  constructor
  · rintro ⟨t, ht, -⟩
    rw [htree] at ht
    cases ht
  · exact fun h => absurd h hsupported

theorem hasText_array {limit : Option Nat} {unordered : List JsonPath} {path : JsonPath}
    {kind : ArrayKind} {v : Value} {items : List Value}
    (htree : treeOf v = (treeItems items).map (.array kind)) :
    HasText limit unordered path v ↔ ∃ ts, treeItems items = some ts ∧
      itemsWithin limit (canonItems unordered (path ++ [kind.segment]) ts) = true := by
  constructor
  · rintro ⟨t, ht, h⟩
    rw [htree] at ht
    obtain ⟨ts, hts, rfl⟩ := Option.map_eq_some_iff.1 ht
    rw [jsonWithin_array] at h
    exact ⟨ts, hts, h⟩
  · rintro ⟨ts, hts, h⟩
    refine ⟨.array kind ts, ?_, ?_⟩
    · rw [htree, hts]
      rfl
    · rw [jsonWithin_array]
      exact h

theorem hasText_mapping {limit : Option Nat} {unordered : List JsonPath} {path : JsonPath}
    {entries : List (Option Str × Value)} : HasText limit unordered path (.mapping entries) ↔
      ∃ es, treeEntries entries = some es ∧
        entriesWithin limit (canonEntries unordered path es) = true := by
  constructor
  · rintro ⟨t, ht, h⟩
    rw [treeOf] at ht
    obtain ⟨es, hes, rfl⟩ := Option.map_eq_some_iff.1 ht
    rw [Tree.canon, jsonWithin, entriesWithin_sortEntries] at h
    exact ⟨es, hes, h⟩
  · rintro ⟨es, hes, h⟩
    refine ⟨.mapping es, ?_, ?_⟩
    · rw [treeOf, hes]
      rfl
    · rw [Tree.canon, jsonWithin, entriesWithin_sortEntries]
      exact h

theorem hasText_datetime {limit : Option Nat} {unordered : List JsonPath} {path : JsonPath}
    {d : DateTime} : HasText limit unordered path (.datetime d) ↔
      Supported (.datetime d) ∧ Convertible limit (.datetime d) := by
  by_cases h : d.utcoffset.isSome = true ∧ Representable d.instant
  · have htree : treeOf (.datetime d) =
        some (.leaf (.str (isoText "+00:00".toList d.instant))) := by
      rw [treeOf, if_pos h]
    exact hasText_leaf htree h.1 (iff_of_true (.inr h.2) rfl)
  · have htree : treeOf (.datetime d) = none := by
      rw [treeOf, if_neg h]
    apply hasText_none htree
    rintro ⟨haware, hnaive | hrange⟩
    · rw [Supported, hnaive] at haware
      cases haware
    · exact h ⟨haware, hrange⟩

mutual
/-- One case for each type of value: what the tree of a value asks of it. -/
theorem hasText_iff (limit : Option Nat) (unordered : List JsonPath) :
    ∀ (path : JsonPath) (v : Value),
      HasText limit unordered path v ↔ Supported v ∧ Convertible limit v
  | path, .mapping entries => by
    rw [hasText_mapping, Supported, Convertible]
    exact hasText_entries limit unordered path entries
  | path, .sequence items => by
    have htree : treeOf (.sequence items) = (treeItems items).map (.array .sequence) := by
      rw [treeOf]
    rw [hasText_array htree, Supported, Convertible]
    exact hasText_items limit unordered _ items
  | path, .set items => by
    have htree : treeOf (.set items) = (treeItems items).map (.array .set) := by
      rw [treeOf]
    rw [hasText_array htree, Supported, Convertible]
    exact hasText_items limit unordered _ items
  | path, .decimal (.finite negative coefficient exponent) =>
    hasText_leaf rfl trivial (iff_of_true trivial rfl)
  | path, .decimal (.infinity negative) => hasText_none rfl fun h => h.1
  | path, .decimal .nan => hasText_none rfl fun h => h.1
  | path, .uuid u => hasText_leaf rfl trivial (iff_of_true trivial rfl)
  | path, .datetime d => hasText_datetime
  | path, .date ordinal => hasText_leaf rfl trivial (iff_of_true trivial rfl)
  | path, .enum v => by
    rw [Supported, Convertible]
    exact hasText_iff limit unordered path v
  | path, .float (.finite x) => hasText_leaf rfl trivial (iff_of_true trivial rfl)
  | path, .float (.infinity negative) => hasText_none rfl fun h => h.1
  | path, .float .nan => hasText_none rfl fun h => h.1
  | path, .none => hasText_leaf rfl trivial (iff_of_true trivial rfl)
  | path, .bool b => hasText_leaf rfl trivial (iff_of_true trivial rfl)
  | path, .int n => hasText_leaf rfl trivial Iff.rfl
  | path, .str s => hasText_leaf rfl trivial (iff_of_true trivial rfl)
  | path, .other typeName => hasText_none rfl fun h => h.1
theorem hasText_items (limit : Option Nat) (unordered : List JsonPath) :
    ∀ (path : JsonPath) (items : List Value),
      (∃ ts, treeItems items = some ts ∧
        itemsWithin limit (canonItems unordered path ts) = true) ↔
        SupportedItems items ∧ ConvertibleItems limit items
  | path, [] => by
    constructor
    · exact fun _ => ⟨trivial, trivial⟩
    · exact fun _ => ⟨[], rfl, rfl⟩
  | path, v :: items => by
    have hv := hasText_iff limit unordered path v
    have hitems := hasText_items limit unordered path items
    rw [SupportedItems, ConvertibleItems, and_and_and_comm, ← hv, ← hitems]
    constructor
    · rintro ⟨ts, hts, h⟩
      obtain ⟨t, rest, ht, hrest, rfl⟩ := treeItems_cons.1 hts
      rw [canonItems, itemsWithin, Bool.and_eq_true] at h
      exact ⟨⟨t, ht, h.1⟩, rest, hrest, h.2⟩
    · rintro ⟨⟨t, ht, h⟩, rest, hrest, h'⟩
      refine ⟨t :: rest, treeItems_cons.2 ⟨t, rest, ht, hrest, rfl⟩, ?_⟩
      rw [canonItems, itemsWithin, h, h']
      rfl
theorem hasText_entries (limit : Option Nat) (unordered : List JsonPath) :
    ∀ (path : JsonPath) (entries : List (Option Str × Value)),
      (∃ es, treeEntries entries = some es ∧
        entriesWithin limit (canonEntries unordered path es) = true) ↔
        SupportedEntries entries ∧ ConvertibleEntries limit entries
  | path, [] => by
    constructor
    · exact fun _ => ⟨trivial, trivial⟩
    · exact fun _ => ⟨[], rfl, rfl⟩
  | path, (none, v) :: entries => by
    rw [treeEntries, SupportedEntries]
    simp
  | path, (some key, v) :: entries => by
    have hv := hasText_iff limit unordered (path ++ [key]) v
    have hentries := hasText_entries limit unordered path entries
    rw [SupportedEntries, ConvertibleEntries, Option.isSome_some, eq_self, true_and,
      and_and_and_comm, ← hv, ← hentries]
    constructor
    · rintro ⟨es, hes, h⟩
      obtain ⟨k, t, rest, hk, ht, hrest, rfl⟩ := treeEntries_cons.1 hes
      cases hk
      rw [canonEntries, entriesWithin, Bool.and_eq_true] at h
      exact ⟨⟨t, ht, h.1⟩, rest, hrest, h.2⟩
    · rintro ⟨⟨t, ht, h⟩, rest, hrest, h'⟩
      refine ⟨(key, t) :: rest, treeEntries_cons.2 ⟨key, t, rest, rfl, ht, hrest, rfl⟩, ?_⟩
      rw [canonEntries, entriesWithin, h, h']
      rfl
end

theorem fingerprintWithin_ok {limit : Option Nat} {sha256 : List UInt8 → Digest}
    {unordered : List JsonPath} {payload : Value} :
    (∃ digest, fingerprintWithin limit sha256 unordered payload = .ok digest) ↔
      HasText limit unordered [] payload := by
  have htree := canonicalize_toOption unordered [] payload
  rw [fingerprintWithin, HasText]
  cases hcanon : canonicalize unordered [] payload with
  | error e =>
    rw [hcanon] at htree
    rw [Option.map_eq_none_iff.1 htree.symm]
    constructor
    · rintro ⟨digest, h⟩
      cases h
    · rintro ⟨t, ht, -⟩
      cases ht
  | ok j =>
    rw [hcanon] at htree
    obtain ⟨t, ht, hj⟩ := Option.map_eq_some_iff.1 htree.symm
    simp only [Except.bind, dumpsWithin, ht, Option.some.injEq, exists_eq_left', hj]
    cases jsonWithin limit j with
    | true => exact ⟨fun _ => rfl, fun _ => ⟨_, rfl⟩⟩
    | false =>
      constructor
      · rintro ⟨digest, h⟩
        cases h
      · intro h
        cases h

/-- A digest for every supported payload, and an exception for the others only. -/
structure FailsOnlyOnUnsupported (limit : Option Nat) (sha256 : List UInt8 → Digest)
    (unordered : List JsonPath) (payload : Value) : Prop where
  returns : Supported payload →
    ∃ digest, fingerprintWithin limit sha256 unordered payload = .ok digest
  raises : (∃ e, fingerprintWithin limit sha256 unordered payload = .error e) ↔ ¬Supported payload

theorem supported_record (fields : List (Str × Value)) :
    Supported (.record fields) ↔ ∀ e ∈ fields, Supported e.2 := by
  rw [Value.record, Supported]
  induction fields with
  | nil => simp [SupportedEntries]
  | cons e fields ih => simp [SupportedEntries, ih]

theorem supported_optional {α : Type} {f : α → Value} (h : ∀ a, Supported (f a)) (x : Option α) :
    Supported (.optional f x) := by
  cases x with
  | none => trivial
  | some a => exact h a

theorem Command.supported (c : Command) : Supported c.modelDump := by
  rw [Command.modelDump, supported_record]
  have hstr : ∀ x : Option Str, Supported (.optional .str x) :=
    supported_optional fun _ => trivial
  have henum : ∀ {α : Type} (value : α → Str) (x : Option α),
      Supported (.optional (fun a => .enum (.str (value a))) x) :=
    fun _ => supported_optional fun _ => trivial
  cases c with
  | createDefaultProfile c =>
    simp only [Command.fields, CreateDefaultProfileCommand.fields, List.forall_mem_cons,
      List.not_mem_nil, IsEmpty.forall_iff, implies_true, and_true]
    exact ⟨trivial, c.registeredAt_aware⟩
  | updateProfile c =>
    simp only [Command.fields, UpdateProfileCommand.fields, List.forall_mem_cons, List.not_mem_nil,
      IsEmpty.forall_iff, implies_true, and_true]
    exact ⟨trivial, trivial, hstr _, hstr _, hstr _⟩
  | updateAvatar c =>
    simp only [Command.fields, UpdateAvatarCommand.fields, List.forall_mem_cons, List.not_mem_nil,
      IsEmpty.forall_iff, implies_true, and_true]
    exact ⟨trivial, trivial, hstr _⟩
  | updateSettings c =>
    simp only [Command.fields, UpdateSettingsCommand.fields, List.forall_mem_cons, List.not_mem_nil,
      IsEmpty.forall_iff, implies_true, and_true]
    exact ⟨trivial, trivial, henum _ _, henum _ _, hstr _, henum _ _, henum _ _, henum _ _⟩
  | resetSettings c =>
    simp only [Command.fields, ResetSettingsCommand.fields, List.forall_mem_cons, List.not_mem_nil,
      IsEmpty.forall_iff, implies_true, and_true]
    exact ⟨trivial, trivial⟩

/-- Only the conversions of datetimes and of long integers make a supported payload raise. -/
theorem fails_only_on_unsupported_iff (limit : Option Nat) (sha256 : List UInt8 → Digest)
    (unordered : List JsonPath) :
    (∀ payload, FailsOnlyOnUnsupported limit sha256 unordered payload ↔
      ¬Supported payload ∨ Convertible limit payload) ∧
    ∀ c : Command, Supported c.modelDump ∧
      ((∃ digest, fingerprintWithin limit sha256 unordered c.modelDump = .ok digest) ↔
        Convertible limit c.modelDump) := by
  have hok : ∀ payload,
      (∃ digest, fingerprintWithin limit sha256 unordered payload = .ok digest) ↔
        Supported payload ∧ Convertible limit payload :=
    fun payload => fingerprintWithin_ok.trans (hasText_iff limit unordered [] payload)
  refine ⟨fun payload => ?_, fun c => ⟨Command.supported c, ?_⟩⟩
  · constructor
    · intro h
      by_cases hsupported : Supported payload
      · exact .inr ((hok payload).1 (h.returns hsupported)).2
      · exact .inl hsupported
    · intro h
      constructor
      · intro hsupported
        exact (hok payload).2 ⟨hsupported, h.resolve_left (not_not.2 hsupported)⟩
      · cases hresult : fingerprintWithin limit sha256 unordered payload with
        | error e =>
          refine ⟨fun _ hsupported => ?_, fun _ => ⟨e, rfl⟩⟩
          obtain ⟨digest, hdigest⟩ :=
            (hok payload).2 ⟨hsupported, h.resolve_left (not_not.2 hsupported)⟩
          rw [hresult] at hdigest
          cases hdigest
        | ok digest =>
          have hsupported := ((hok payload).1 ⟨digest, hresult⟩).1
          refine ⟨?_, fun hno => absurd hsupported hno⟩
          rintro ⟨e, he⟩
          cases he
  · rw [hok]
    exact ⟨fun h => h.2, fun h => ⟨Command.supported c, h⟩⟩

/-- A registration at `0001-01-01T00:00+14:00`, fourteen hours before `datetime.min` in UTC. -/
def earliestRegistration : CreateDefaultProfileCommand where
  userId := 0
  registeredAt :=
    { wall := -62135596800000000
      utcoffset := some 50400000000
      wall_representable := by decide
      utcoffset_lt := by
        intro o ho
        cases ho
        decide }
  registeredAt_aware := rfl

theorem registration_raises : ¬∀ limit sha256 unordered payload,
    FailsOnlyOnUnsupported limit sha256 unordered payload := by
  intro h
  obtain ⟨digest, hdigest⟩ := (h (some 4300) (fun _ => sampleFingerprint) []
    (Command.modelDump (.createDefaultProfile earliestRegistration))).returns (Command.supported _)
  have hrange : ¬Representable earliestRegistration.registeredAt.instant := by decide
  have hconvertible := ((hasText_iff _ _ _ _).1 (fingerprintWithin_ok.1 ⟨digest, hdigest⟩)).2
  rcases hconvertible.2.1 with hnaive | hrepresentable
  · cases hnaive
  · exact hrange hrepresentable

end ProfileService.Idempotency
