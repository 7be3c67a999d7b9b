import ProfileService.Idempotency.FingerprintErrors
import ProfileService.Idempotency.RedisHotStore
import ProfileService.Library.JsonDict
import ProfileService.Library.OffsetTime

/-!
# Hot snapshots

`_encode_completed` and `_decode_completed` (`infrastructure/idempotency/redis/hot_store.py`):
sorted-key JSON with the fingerprint as hex, and a validating reader of it. pydantic's readers
are a parameter.
-/

namespace ProfileService.Idempotency
open Library Application

/-- `CompletedIdempotencyResult` with its deadline in the zone it was given in. -/
@[ext] structure ZonedResult extends StoredResult where
  expiresAt : OffsetTime
  requestFingerprint : Digest

/-- `model_dump(mode="json")`, with the fingerprint as hex. -/
def ZonedResult.entries (r : ZonedResult) : List (Str × Json) :=
  [("result_type".toList, .str r.resultType),
   ("result_payload".toList, jsonOr .obj r.resultPayload),
   ("result_version".toList, .int r.resultVersion),
   ("resource_type".toList, jsonOr .str r.resourceType),
   ("resource_id".toList, jsonOr .str r.resourceId),
   ("resource_version".toList, jsonOr jsonNat r.resourceVersion),
   ("expires_at".toList, .str r.expiresAt.text),
   ("request_fingerprint".toList, .str r.requestFingerprint.text)]

/-- `_encode_completed` (`hot_store.py:280-292`), where `limit` is the interpreter's. -/
def ZonedResult.encode (limit : Option Nat) (r : ZonedResult) : Except Exn Str :=
  dumpsWithin limit (.obj r.entries)

def isAsciiSpace (c : Char) : Bool :=
  c = ' ' ∨ c = '\t' ∨ c = '\n' ∨ c = '\r' ∨ c = '\x0b' ∨ c = '\x0c'

def hexDigit (c : Char) : Option Nat :=
  if c.isDigit then some (c.toNat - 48)
  else if 97 ≤ c.toNat ∧ c.toNat ≤ 102 then some (c.toNat - 87)
  else if 65 ≤ c.toNat ∧ c.toNat ≤ 70 then some (c.toNat - 55)
  else none

def fromHex : Str → Option (List UInt8)
  | [] => some []
  | [c] => if isAsciiSpace c then some [] else none
  | c :: d :: text =>
    if isAsciiSpace c then fromHex (d :: text)
    else (hexDigit c).bind fun high => (hexDigit d).bind fun low =>
      (fromHex text).map (UInt8.ofNat (16 * high + low) :: ·)

/-- What the adapter takes from pydantic: `validate_json` of `dict[str, Any]`, and the reading
of the fields of a model. A text within the limits of the reader, and every value that a dump can
contain, is read as itself; of an offset no more than hours and minutes are read. -/
structure Pydantic where
  limits : JsonLimits
  validateJson : Str → Option Dict
  str : Json → Option Str
  int : Json → Option Int
  dict : Json → Option Dict
  datetime : Json → Option OffsetTime
  validateJson_render : ∀ d : Dict, limits.admits (.obj d.entries) = true →
    validateJson (Json.obj d.entries).render = some d
  validateJson_refused : ∀ d : Dict, limits.admits (.obj d.entries) = false →
    validateJson (Json.obj d.entries).render = none
  str_str : ∀ s, str (.str s) = some s
  int_int : ∀ n, int (.int n) = some n
  dict_obj : ∀ d : Dict, dict (.obj d.entries) = some d
  datetime_text : ∀ d : OffsetTime, d.WholeMinutes → datetime (.str d.text) = some d
  datetime_wholeMinutes : ∀ j d, datetime j = some d → d.WholeMinutes

def required {α : Type} (read : Json → Option α) (value : Option Json) : Option α := value.bind read

/-- A field of type `… | None` with default `None`. -/
def optional {α : Type} (read : Json → Option α) : Option Json → Option (Option α)
  | none => some none
  | some .null => some none
  | some j => (read j).map some

def withDefault {α : Type} (default : α) (read : Json → Option α) : Option Json → Option α
  | none => some default
  | some j => read j

instance (resultType : Str) (resultPayload : Option (List (Str × Json)))
    (resourceType resourceId : Option Str) (resourceVersion : Option Nat) :
    Decidable (Replayable resultType resultPayload resourceType resourceId resourceVersion) :=
  inferInstanceAs (Decidable (if resultType = completionType then
    resultPayload = none ∧ resourceType = none ∧ resourceId = none ∧ resourceVersion = none
  else resourceType.isSome = resourceId.isSome ∧ (resultPayload = none → resourceId.isSome) ∧
    (resourceVersion.isSome → resourceId.isSome)))

/-- The constraints of the fields and `validate_replayability` (`models.py:53-126`). -/
def ZonedResult.ofFields (resultType : Str) (resultPayload : Option Dict) (resultVersion : Int)
    (resourceType resourceId : Option Str) (resourceVersion : Option Int) (expiresAt : OffsetTime)
    (requestFingerprint : List UInt8) : Option ZonedResult :=
  if h : (1 ≤ resultType.length ∧ resultType.length ≤ 100) ∧ 0 < resultVersion ∧
      (∀ t, resourceType = some t → 1 ≤ t.length ∧ t.length ≤ 100) ∧
      (∀ v, resourceVersion = some v → 0 < v) ∧ requestFingerprint.length = 32 ∧
      Replayable resultType (resultPayload.map Dict.entries) resourceType resourceId
        (resourceVersion.map Int.toNat) then
    some
      { resultType := resultType
        resultPayload := resultPayload.map Dict.entries
        resultVersion := resultVersion.toNat
        resourceType := resourceType
        resourceId := resourceId
        resourceVersion := resourceVersion.map Int.toNat
        resultType_length := h.1
        resultPayload_sorted := fun p hp => by
          obtain ⟨d, -, rfl⟩ := Option.map_eq_some_iff.1 hp
          exact d.sorted
        resultVersion_pos := by
          have hpos := h.2.1
          omega
        resourceType_length := h.2.2.1
        resourceVersion_pos := fun v hv => by
          obtain ⟨n, hn, rfl⟩ := Option.map_eq_some_iff.1 hv
          have hpos := h.2.2.2.1 n hn
          omega
        replayable := h.2.2.2.2.2
        expiresAt := expiresAt
        requestFingerprint := ⟨requestFingerprint, h.2.2.2.2.1⟩
        resultPayload_distinct := fun p hp => by
          obtain ⟨d, -, rfl⟩ := Option.map_eq_some_iff.1 hp
          exact d.distinct }
  else none

/-- The fields of the model; `extra="forbid"`. -/
def resultKeys : List Str :=
  ["result_type".toList, "result_payload".toList, "result_version".toList, "resource_type".toList,
    "resource_id".toList, "resource_version".toList, "expires_at".toList,
    "request_fingerprint".toList]

/-- `CompletedIdempotencyResult.model_validate(payload)`, the fingerprint being bytes already. -/
def modelValidate (P : Pydantic) (payload : Dict) (requestFingerprint : List UInt8) :
    Option ZonedResult :=
  if payload.keys.all resultKeys.contains then do
    let resultType ← required P.str (payload.get? "result_type".toList)
    let resultPayload ← optional P.dict (payload.get? "result_payload".toList)
    let resultVersion ← withDefault 1 P.int (payload.get? "result_version".toList)
    let resourceType ← optional P.str (payload.get? "resource_type".toList)
    let resourceId ← optional P.str (payload.get? "resource_id".toList)
    let resourceVersion ← optional P.int (payload.get? "resource_version".toList)
    let expiresAt ← required P.datetime (payload.get? "expires_at".toList)
    ZonedResult.ofFields resultType resultPayload resultVersion resourceType resourceId
      resourceVersion expiresAt requestFingerprint
  else none

inductive RedisReply where
  | str (text : Str)
  | bytes (raw : List UInt8)
  | other

def RedisReply.text : RedisReply → Option Str
  | .str text => some text
  | .bytes raw => utf8Decode raw
  | .other => none

def payloadFingerprint (payload : Dict) : Option (List UInt8) :=
  match payload.get? "request_fingerprint".toList with
  | some (.str text) => fromHex text
  | _ => none

/-- `_decode_completed` (`hot_store.py:295-308`). -/
def decodeCompleted (P : Pydantic) (raw : RedisReply) : Except Exn ZonedResult :=
  let decoded := do
    let text ← raw.text
    let payload ← P.validateJson text
    let requestFingerprint ← payloadFingerprint payload
    modelValidate P payload requestFingerprint
  match decoded with
  | some r => .ok r
  | none => .error (.other "RuntimeError" "Redis completed result is malformed")

theorem fromHex_hex (bytes : List UInt8) : fromHex (hex bytes) = some bytes := by
  have hdigit : ∀ n : Fin 16, isAsciiSpace (Nat.digitChar n) = false ∧
      hexDigit (Nat.digitChar n) = some n.1 := by decide
  induction bytes with
  | nil => rfl
  | cons b bytes ih =>
    have hhigh := hdigit ⟨b.toNat / 16 % 16, Nat.mod_lt _ (by decide)⟩
    have hlow := hdigit ⟨b.toNat % 16, Nat.mod_lt _ (by decide)⟩
    have hbyte : UInt8.ofNat (16 * (b.toNat / 16 % 16) + b.toNat % 16) = b := by
      have hlt : b.toNat < 256 := b.toNat_lt
      have hvalue : 16 * (b.toNat / 16 % 16) + b.toNat % 16 = b.toNat := by omega
      rw [hvalue, UInt8.ofNat_toNat]
    have htext : hex (b :: bytes) = Nat.digitChar (b.toNat / 16 % 16) ::
        Nat.digitChar (b.toNat % 16) :: hex bytes := rfl
    rw [htext, fromHex, hhigh.1, hhigh.2, hlow.2, ih]
    simp only [Bool.false_eq_true, if_false, Option.bind_some, Option.map_some, hbyte]

theorem ZonedResult.sortKeysEntries_entries (r : ZonedResult) :
    sortKeysEntries r.entries = r.entries := by
  have hstr : ∀ x : Option Str, (jsonOr Json.str x).sortKeys = jsonOr Json.str x := fun x => by
    cases x <;> rfl
  have hint : ∀ x : Option Nat, (jsonOr jsonNat x).sortKeys = jsonOr jsonNat x := fun x => by
    cases x <;> rfl
  have hobj : (jsonOr Json.obj r.resultPayload).sortKeys = jsonOr Json.obj r.resultPayload := by
    cases h : r.resultPayload with
    | none => rfl
    | some p => exact r.resultPayload_sorted p h
  simp only [ZonedResult.entries, sortKeysEntries, hstr, hint, hobj]
  rfl

theorem ZonedResult.distinctKeys_entries (r : ZonedResult) :
    (Json.obj r.entries).distinctKeys = true := by
  have hstr : ∀ x : Option Str, (jsonOr Json.str x).distinctKeys = true := fun x => by
    cases x <;> rfl
  have hint : ∀ x : Option Nat, (jsonOr jsonNat x).distinctKeys = true := fun x => by
    cases x <;> rfl
  have hobj : (jsonOr Json.obj r.resultPayload).distinctKeys = true := by
    cases h : r.resultPayload with
    | none => rfl
    | some p => exact r.resultPayload_distinct p h
  have hkeys : (r.entries.map Prod.fst).Nodup := by
    show resultKeys.Nodup
    decide
  rw [Json.distinctKeys, decide_eq_true hkeys]
  simp only [ZonedResult.entries, distinctKeysEntries, hstr, hint, hobj, Bool.and_true, Bool.true_and]
  rfl

def ZonedResult.dict (r : ZonedResult) : Dict := .ofEntries r.entries r.distinctKeys_entries

theorem ZonedResult.dumps_entries (r : ZonedResult) :
    dumps (.obj r.entries) = (Json.obj r.dict.entries).render := rfl

theorem ZonedResult.admits_dict (limits : JsonLimits) (r : ZonedResult) :
    limits.admits (.obj r.dict.entries) = limits.admits (.obj r.entries) :=
  limits.admits_sortKeys (.obj r.entries)

theorem ZonedResult.dict_perm (r : ZonedResult) : r.dict.entries.Perm r.entries := by
  have hperm := sortEntries_perm (sortKeysEntries r.entries)
  rw [r.sortKeysEntries_entries] at hperm
  show (sortEntries (sortKeysEntries r.entries)).Perm r.entries
  rw [r.sortKeysEntries_entries]
  exact hperm

theorem ZonedResult.get?_dict {r : ZonedResult} {key : Str} {j : Json}
    (h : (key, j) ∈ r.entries) : r.dict.get? key = some j :=
  Dict.get?_of_mem (r.dict_perm.symm.subset h)

theorem ZonedResult.keys_dict (r : ZonedResult) : r.dict.keys.all resultKeys.contains = true := by
  have hperm : r.dict.keys.Perm resultKeys := r.dict_perm.map Prod.fst
  rw [List.all_eq_true]
  intro key hkey
  exact List.contains_iff_mem.2 (hperm.subset hkey)

theorem optional_jsonOr {α β : Type} {read : Json → Option β} {write : α → Json} {value : α → β}
    (hread : ∀ a, read (write a) = some (value a)) (hnull : ∀ a, write a ≠ .null) (x : Option α) :
    optional read (some (jsonOr write x)) = some (x.map value) := by
  cases x with
  | none => rfl
  | some a =>
    have hvalue : optional read (some (write a)) = (read (write a)).map some := by
      unfold optional
      split
      · rename_i h
        cases h
      · rename_i h
        exact absurd (Option.some.inj h) (hnull a)
      · rename_i h
        rw [Option.some.inj h]
    rw [jsonOr, hvalue, hread]
    rfl

theorem ZonedResult.exists_payload (P : Pydantic) (r : ZonedResult) :
    ∃ d : Option Dict, d.map Dict.entries = r.resultPayload ∧
      optional P.dict (some (jsonOr .obj r.resultPayload)) = some d := by
  cases h : r.resultPayload with
  | none => exact ⟨none, rfl, rfl⟩
  | some p =>
    have hread := P.dict_obj ⟨p, r.resultPayload_sorted p h, r.resultPayload_distinct p h⟩
    refine ⟨some ⟨p, r.resultPayload_sorted p h, r.resultPayload_distinct p h⟩, rfl, ?_⟩
    rw [jsonOr, optional, hread]
    · rfl
    · exact nofun

theorem ZonedResult.ofFields_eq (r : ZonedResult) {d : Option Dict}
    (hd : d.map Dict.entries = r.resultPayload) :
    ZonedResult.ofFields r.resultType d r.resultVersion r.resourceType r.resourceId
      (r.resourceVersion.map Int.ofNat) r.expiresAt r.requestFingerprint.toList = some r := by
  have hversion : (0 : Int) < r.resultVersion := by
    have hpos := r.resultVersion_pos
    omega
  have hround : (r.resourceVersion.map Int.ofNat).map Int.toNat = r.resourceVersion := by
    cases r.resourceVersion <;> rfl
  have hresource : ∀ v, r.resourceVersion.map Int.ofNat = some v → 0 < v := by
    intro v hv
    obtain ⟨n, hn, rfl⟩ := Option.map_eq_some_iff.1 hv
    exact Int.ofNat_lt.2 (r.resourceVersion_pos n hn)
  have hreplayable : Replayable r.resultType (d.map Dict.entries) r.resourceType r.resourceId
      ((r.resourceVersion.map Int.ofNat).map Int.toNat) := by
    rw [hd, hround]
    exact r.replayable
  rw [ofFields, dif_pos ⟨r.resultType_length, hversion, r.resourceType_length, hresource,
    r.requestFingerprint.toList_length, hreplayable⟩]
  exact congrArg some (ZonedResult.ext rfl hd rfl rfl rfl hround rfl rfl)

theorem modelValidate_dict (P : Pydantic) {r : ZonedResult} (h : r.expiresAt.WholeMinutes) :
    modelValidate P r.dict r.requestFingerprint.toList = some r := by
  obtain ⟨d, hd, hpayload⟩ := r.exists_payload P
  have hstr : ∀ x : Option Str, optional P.str (some (jsonOr .str x)) = some x := by
    intro x
    have hread := @optional_jsonOr Str Str P.str .str id P.str_str (fun _ => nofun) x
    rwa [Option.map_id] at hread
  have hint : ∀ x : Option Nat,
      optional P.int (some (jsonOr jsonNat x)) = some (x.map Int.ofNat) :=
    @optional_jsonOr Nat Int P.int jsonNat Int.ofNat (fun n => P.int_int n) fun _ => nofun
  have htype : r.dict.get? "result_type".toList = some (.str r.resultType) :=
    ZonedResult.get?_dict (by simp [ZonedResult.entries])
  have hpay : r.dict.get? "result_payload".toList = some (jsonOr .obj r.resultPayload) :=
    ZonedResult.get?_dict (by simp [ZonedResult.entries])
  have hversion : r.dict.get? "result_version".toList = some (.int r.resultVersion) :=
    ZonedResult.get?_dict (by simp [ZonedResult.entries])
  have hresource : r.dict.get? "resource_type".toList = some (jsonOr .str r.resourceType) :=
    ZonedResult.get?_dict (by simp [ZonedResult.entries])
  have hid : r.dict.get? "resource_id".toList = some (jsonOr .str r.resourceId) :=
    ZonedResult.get?_dict (by simp [ZonedResult.entries])
  have hrversion : r.dict.get? "resource_version".toList =
      some (jsonOr jsonNat r.resourceVersion) :=
    ZonedResult.get?_dict (by simp [ZonedResult.entries])
  have hexpires : r.dict.get? "expires_at".toList = some (.str r.expiresAt.text) :=
    ZonedResult.get?_dict (by simp [ZonedResult.entries])
  rw [modelValidate, if_pos r.keys_dict, htype, hpay, hversion, hresource, hid, hrversion, hexpires,
    hpayload, hstr, hstr, hint]
  simp only [required, withDefault, Option.bind_some, P.str_str, P.int_int,
    P.datetime_text r.expiresAt h, Option.bind_eq_bind]
  exact r.ofFields_eq hd

theorem payloadFingerprint_dict (r : ZonedResult) :
    payloadFingerprint r.dict = some r.requestFingerprint.toList := by
  have hfingerprint : r.dict.get? "request_fingerprint".toList =
      some (.str r.requestFingerprint.text) :=
    ZonedResult.get?_dict (by simp [ZonedResult.entries])
  rw [payloadFingerprint, hfingerprint]
  exact fromHex_hex _

/-- The text decides on the result, whatever it arrived as. -/
theorem decodeCompleted_dumps (P : Pydantic) {r : ZonedResult}
    (hdeadline : r.expiresAt.WholeMinutes) (hread : P.limits.admits (.obj r.entries) = true)
    {raw : RedisReply} (hraw : raw.text = some (dumps (.obj r.entries))) :
    decodeCompleted P raw = .ok r := by
  have htext := P.validateJson_render r.dict (by rw [r.admits_dict, hread])
  rw [← r.dumps_entries] at htext
  simp only [decodeCompleted, hraw, htext, payloadFingerprint_dict, modelValidate_dict P hdeadline,
    Option.bind_eq_bind, Option.bind_some]

theorem wholeMinutes_of_modelValidate {P : Pydantic} {payload : Dict} {fp : List UInt8}
    {r : ZonedResult} (h : modelValidate P payload fp = some r) : r.expiresAt.WholeMinutes := by
  unfold modelValidate at h
  split at h
  · simp only [Option.bind_eq_bind, Option.bind_eq_some_iff] at h
    obtain ⟨_, -, _, -, _, -, _, -, _, -, _, -, expiresAt, hexpires, h⟩ := h
    obtain ⟨j, -, hread⟩ := Option.bind_eq_some_iff.1 hexpires
    have hwhole := P.datetime_wholeMinutes j expiresAt hread
    unfold ZonedResult.ofFields at h
    split at h
    · cases h
      exact hwhole
    · cases h
  · cases h

theorem kept_of_decodeCompleted {P : Pydantic} {r result : ZonedResult}
    (h : decodeCompleted P (.str (dumps (.obj r.entries))) = .ok result) :
    P.limits.admits (.obj r.entries) = true ∧ result.expiresAt.WholeMinutes := by
  have hrefused : P.limits.admits (.obj r.entries) = false →
      P.validateJson (dumps (.obj r.entries)) = none := fun hlimits => by
    rw [r.dumps_entries]
    exact P.validateJson_refused r.dict (by rw [r.admits_dict, hlimits])
  simp only [decodeCompleted, RedisReply.text, Option.bind_eq_bind, Option.bind_some] at h
  cases hjson : P.validateJson (dumps (.obj r.entries)) with
  | none =>
    rw [hjson] at h
    cases h
  | some payload =>
    refine ⟨?_, ?_⟩
    · cases hlimits : P.limits.admits (.obj r.entries) with
      | true => rfl
      | false => rw [hrefused hlimits] at hjson; cases hjson
    · rw [hjson, Option.bind_some] at h
      cases hfp : payloadFingerprint payload with
      | none =>
        rw [hfp] at h
        cases h
      | some fp =>
        rw [hfp, Option.bind_some] at h
        cases hmodel : modelValidate P payload fp with
        | none =>
          rw [hmodel] at h
          cases h
        | some read =>
          rw [hmodel] at h
          cases h
          exact wholeMinutes_of_modelValidate hmodel

/-- A result whose deadline is in UTC, as the service itself makes them. -/
def CompletedIdempotencyResult.zoned (r : CompletedIdempotencyResult) : ZonedResult :=
  { r.toStoredResult with
    expiresAt := ⟨r.expiresAt, 0, r.expiresAt_representable, by decide⟩
    requestFingerprint := r.requestFingerprint }

def ZonedResult.atInstant (r : ZonedResult) : Option CompletedIdempotencyResult :=
  if h : Representable r.expiresAt.instant then
    some
      { r.toStoredResult with
        expiresAt := r.expiresAt.instant
        requestFingerprint := r.requestFingerprint
        expiresAt_representable := h }
  else none

theorem entries_zoned (r : CompletedIdempotencyResult) : r.zoned.entries = r.entries := by
  rw [ZonedResult.entries, OffsetTime.text_utc rfl]
  rfl

theorem atInstant_zoned (r : CompletedIdempotencyResult) : r.zoned.atInstant = some r := by
  have hinstant : r.zoned.expiresAt.instant = r.expiresAt := Int.sub_zero r.expiresAt
  have hrange : Representable r.zoned.expiresAt.instant := by
    rw [hinstant]
    exact r.expiresAt_representable
  rw [ZonedResult.atInstant, dif_pos hrange]
  exact congrArg some (CompletedIdempotencyResult.ext rfl rfl rfl rfl rfl rfl hinstant rfl)

/-- What the store writes of a result of the service is read back. -/
theorem decodeCompleted_encodeCompleted (P : Pydantic) {r : CompletedIdempotencyResult}
    (h : P.limits.admits (.obj r.entries) = true) :
    (decodeCompleted P (.str (encodeCompleted r))).toOption.bind ZonedResult.atInstant =
      some r := by
  have hdeadline : r.zoned.expiresAt.WholeMinutes := dvd_zero _
  rw [← entries_zoned r] at h
  have htext : (RedisReply.str (encodeCompleted r)).text = some (dumps (.obj r.zoned.entries)) := by
    rw [entries_zoned]
    rfl
  rw [decodeCompleted_dumps P hdeadline h htext]
  exact atInstant_zoned r

/-- The adapter with pydantic's readers, where these have no limits. -/
def Pydantic.client (P : Pydantic) (hlimits : ∀ j, P.limits.admits j = true)
    (sha256 : List UInt8 → Digest) (evicts : Bool) : RedisClient where
  keyNamespace := "andruha-user-profile-service:idempotency:v2".toList
  sha256 := sha256
  decodeCompleted text :=
    (Idempotency.decodeCompleted P (.str text)).toOption.bind ZonedResult.atInstant
  evicts := evicts
  keyNamespace_nonempty := defaultNamespace_nonempty
  decode_encode _ := decodeCompleted_encodeCompleted P (hlimits _)

def strictPydantic (limits : JsonLimits) : Pydantic where
  limits := limits
  validateJson text := (readDict text).filter fun d => limits.admits (.obj d.entries)
  str
    | .str s => some s
    | _ => none
  int
    | .int n => some n
    | _ => none
  dict := Dict.ofJson
  datetime
    | .str s => readOffsetTime s
    | _ => none
  validateJson_render d h := by
    rw [readDict_render, Option.filter_some, if_pos h]
  validateJson_refused d h := by
    rw [readDict_render, Option.filter_some, h]
    rfl
  str_str _ := rfl
  int_int _ := rfl
  dict_obj := Dict.ofJson_obj
  datetime_text _ := readOffsetTime_text
  datetime_wholeMinutes
    | .str _, _, h => wholeMinutes_of_readOffsetTime h
    | .null, _, h => by cases h
    | .bool _, _, h => by cases h
    | .int _, _, h => by cases h
    | .float _, _, h => by cases h
    | .arr _, _, h => by cases h
    | .obj _, _, h => by cases h

/-! ### The round trip -/

/-- `_decode_completed(_encode_completed(r)) == r`, from the text and from its bytes. -/
def RoundTrips (P : Pydantic) (limit : Option Nat) (r : ZonedResult) : Prop :=
  ∃ text, r.encode limit = .ok text ∧ decodeCompleted P (.str text) = .ok r ∧
    decodeCompleted P (.bytes (utf8 text)) = .ok r

/-- A deadline whose offset is a number of minutes, integers that are not too long and objects
that are not nested too deep. -/
structure ZonedResult.Kept (limit : Option Nat) (limits : JsonLimits) (r : ZonedResult) : Prop where
  deadline : r.expiresAt.WholeMinutes
  written : jsonWithin limit (.obj r.entries) = true
  read : limits.admits (.obj r.entries) = true

theorem encode_eq_ok_iff {limit : Option Nat} {r : ZonedResult} {text : Str} :
    r.encode limit = .ok text ↔
      jsonWithin limit (.obj r.entries) = true ∧ text = dumps (.obj r.entries) := by
  rw [ZonedResult.encode, dumpsWithin]
  split
  · rename_i h
    rw [Except.ok.injEq, eq_comm]
    exact ⟨fun heq => ⟨h, heq⟩, And.right⟩
  · rename_i h
    refine ⟨fun hok => ?_, fun hwritten => absurd hwritten.1 h⟩
    cases hok

theorem roundTrips_iff_kept (P : Pydantic) (limit : Option Nat) (r : ZonedResult) :
    RoundTrips P limit r ↔ r.Kept limit P.limits := by
  constructor
  · rintro ⟨text, htext, hstr, -⟩
    obtain ⟨hwritten, rfl⟩ := encode_eq_ok_iff.1 htext
    obtain ⟨hread, hdeadline⟩ := kept_of_decodeCompleted hstr
    exact ⟨hdeadline, hwritten, hread⟩
  · rintro ⟨hdeadline, hwritten, hread⟩
    exact ⟨_, encode_eq_ok_iff.2 ⟨hwritten, rfl⟩, decodeCompleted_dumps P hdeadline hread rfl,
      decodeCompleted_dumps P hdeadline hread (utf8Decode_utf8 _)⟩

theorem eq_of_dumps_eq {r other : ZonedResult} (hr : r.expiresAt.WholeMinutes)
    (hother : other.expiresAt.WholeMinutes)
    (h : dumps (.obj r.entries) = dumps (.obj other.entries)) : r = other := by
  have hread : decodeCompleted (strictPydantic .unlimited) (.str (dumps (.obj r.entries))) = .ok r :=
    decodeCompleted_dumps _ hr (JsonLimits.admits_unlimited _) rfl
  have hread' : decodeCompleted (strictPydantic .unlimited) (.str (dumps (.obj r.entries))) =
      .ok other := decodeCompleted_dumps _ hother (JsonLimits.admits_unlimited _) (congrArg some h)
  rw [hread] at hread'
  exact Except.ok.inj hread'

/-- Hot snapshots come back as they were where they are kept whole, and nowhere else; of those
with a deadline of whole minutes no two share a text. -/
theorem snapshot_roundTrips_iff (P : Pydantic) (limit : Option Nat) (r : ZonedResult) :
    (RoundTrips P limit r ↔ r.Kept limit P.limits) ∧
      (r.expiresAt.WholeMinutes → ∀ other : ZonedResult, other.expiresAt.WholeMinutes →
        other ≠ r → ∀ text, r.encode limit = .ok text → other.encode limit ≠ .ok text) := by
  refine ⟨roundTrips_iff_kept P limit r, fun hr other hother hne text htext hsame => ?_⟩
  have hr' := (encode_eq_ok_iff.1 htext).2
  have hother' := (encode_eq_ok_iff.1 hsame).2
  exact hne (eq_of_dumps_eq hother hr (hother'.symm.trans hr'))

/-- The marker `{"value": null}`, kept until 03:00 in a zone three hours ahead. -/
def sampleSnapshot : ZonedResult where
  resultType := snapshotType
  resultPayload := some [("value".toList, .null)]
  resultVersion := 1
  resourceType := none
  resourceId := none
  resourceVersion := none
  resultType_length := by decide
  resultPayload_sorted := fun p hp => by
    cases hp
    rfl
  resultPayload_distinct := fun p hp => by
    cases hp
    rfl
  resultVersion_pos := Nat.zero_lt_one
  resourceType_length := StoredResult.completion.resourceType_length
  resourceVersion_pos := StoredResult.completion.resourceVersion_pos
  replayable := by
    have hne : snapshotType ≠ completionType := by decide
    rw [Replayable, if_neg hne]
    simp
  expiresAt := ⟨10800000000, 10800000000, by decide, by decide⟩
  requestFingerprint := sampleFingerprint

def defaultLimits : JsonLimits := ⟨some 4300, some 200⟩

theorem snapshot_roundTrips_iff_sample :
    RoundTrips (strictPydantic defaultLimits) (some 4300) sampleSnapshot ∧
      ∀ text, sampleSnapshot.encode (some 4300) = .ok text →
        sampleCompleted.zoned.encode (some 4300) ≠ .ok text := by
  obtain ⟨hround, hother⟩ :=
    snapshot_roundTrips_iff (strictPydantic defaultLimits) (some 4300) sampleSnapshot
  have hdeadline : sampleSnapshot.expiresAt.WholeMinutes := by decide
  refine ⟨hround.2 ⟨hdeadline, by decide, by decide⟩,
    hother hdeadline sampleCompleted.zoned (dvd_zero _) fun h => ?_⟩
  have hpayload := congrArg (fun r => r.resultPayload.isSome) h
  cases hpayload

/-! ### Snapshots that do not come back -/

/-- Half a minute earlier: the zone is three hours and thirty seconds ahead. -/
def shiftedSnapshot : ZonedResult :=
  { sampleSnapshot with expiresAt := ⟨10800000000, 10830000000, by decide, by decide⟩ }

def longSnapshot (digits : Nat) : ZonedResult :=
  { sampleSnapshot with
    resultVersion := 10 ^ digits
    resultVersion_pos := Nat.pow_pos (by decide) }

def nested : Nat → Json
  | 0 => .null
  | n + 1 => .arr [nested n]

theorem sortKeys_nested (n : Nat) : (nested n).sortKeys = nested n := by
  induction n with
  | zero => rfl
  | succ n ih => rw [nested, Json.sortKeys, sortKeysItems, ih, sortKeysItems]

theorem distinctKeys_nested (n : Nat) : (nested n).distinctKeys = true := by
  induction n with
  | zero => rfl
  | succ n ih => rw [nested, Json.distinctKeys, distinctKeysItems, ih, distinctKeysItems]; rfl

theorem height_nested (n : Nat) : (nested n).height = n := by
  induction n with
  | zero => rfl
  | succ n ih => rw [nested, Json.height, heightItems, ih, heightItems, Nat.max_zero]

def nestedSnapshot (n : Nat) : ZonedResult :=
  { sampleSnapshot with
    resultPayload := some [("value".toList, nested n)]
    resultPayload_sorted := fun p hp => by
      cases hp
      rw [Json.sortKeys, sortKeysEntries, sortKeys_nested]
      rfl
    resultPayload_distinct := fun p hp => by
      cases hp
      rw [Json.distinctKeys, distinctKeysEntries, distinctKeys_nested]
      rfl
    replayable := by
      have hne : snapshotType ≠ completionType := by decide
      rw [Replayable]
      simp [sampleSnapshot, hne] }

/-- Two levels of the text are around the payload's value. -/
theorem not_roundTrips_nested {P : Pydantic} {limit : Option Nat} {n nesting : Nat}
    (hnesting : P.limits.nesting = some nesting) (h : nesting < n + 2) :
    ¬RoundTrips P limit (nestedSnapshot n) := by
  intro hround
  have hread := ((roundTrips_iff_kept _ _ _).1 hround).read
  rw [JsonLimits.admits, hnesting, Option.all_some, Bool.and_eq_true, decide_eq_true_iff,
    Json.height, heightEntries_le_iff] at hread
  have hpayload := hread.2 ("result_payload".toList, .obj [("value".toList, nested n)])
    (by simp [ZonedResult.entries, nestedSnapshot, jsonOr])
  rw [Json.height, heightEntries, heightEntries, height_nested, Nat.max_zero] at hpayload
  omega

theorem not_roundTrips_long {P : Pydantic} {digits : Nat} (h : 0 < digits) :
    ¬RoundTrips P (some digits) (longSnapshot digits) := by
  intro hround
  have hwritten := ((roundTrips_iff_kept _ _ _).1 hround).written
  rw [jsonWithin, entriesWithin_eq, List.all_eq_true] at hwritten
  have hversion := hwritten ("result_version".toList, .int (10 ^ digits : Nat))
    (by simp [ZonedResult.entries, longSnapshot])
  rw [jsonWithin, withinDigits_some_iff h, Int.natAbs_natCast] at hversion
  exact Nat.lt_irrefl _ hversion

/-- Two deadlines half a minute apart have one text, objects nested deeper than the reader goes are
not read, and a longer integer is not written. -/
theorem snapshot_not_roundTrips :
    (shiftedSnapshot ≠ sampleSnapshot ∧
      shiftedSnapshot.encode (some 4300) = sampleSnapshot.encode (some 4300)) ∧
    ¬RoundTrips (strictPydantic defaultLimits) (some 4300) shiftedSnapshot ∧
    ¬RoundTrips (strictPydantic defaultLimits) (some 4300) (nestedSnapshot 199) ∧
    ¬RoundTrips (strictPydantic defaultLimits) (some 4300) (longSnapshot 4300) := by
  refine ⟨⟨fun h => ?_, ?_⟩, fun h => ?_, not_roundTrips_nested rfl (by decide),
    not_roundTrips_long (by decide)⟩
  · have hoffset := congrArg (fun r => r.expiresAt.offset) h
    simp [shiftedSnapshot, sampleSnapshot] at hoffset
  · have htext : shiftedSnapshot.expiresAt.text = sampleSnapshot.expiresAt.text := by
      have hoffset : offsetText 10830000000 = offsetText 10800000000 := by decide
      exact congrArg (fun suffix => isoText suffix 10800000000) hoffset
    have hentries : shiftedSnapshot.entries = sampleSnapshot.entries := by
      rw [ZonedResult.entries, ZonedResult.entries, htext]
      rfl
    rw [ZonedResult.encode, ZonedResult.encode, hentries]
  · have hdeadline := ((roundTrips_iff_kept _ _ _).1 h).deadline
    have hnot : ¬(60000000 : Int) ∣ 10830000000 := by decide
    exact hnot hdeadline

end ProfileService.Idempotency
