import ProfileService.Application.Dispatching
import ProfileService.Idempotency.Snapshots
import ProfileService.Infrastructure.Tables

/-!
# The results that are kept (`application/dto/`)

`ProfileDTO` and `SettingsDTO` as `dump_python(mode="json")` writes them and `validate_python`
reads them back. The readers of single values are pydantic's.
-/

namespace ProfileService.Infrastructure
open Domain Library Application Idempotency

/-- The readers of the fields of a result. Every value that a dump can contain is read as
itself; the objects of a kept result are within four levels, and a version is short. -/
structure ResultReaders extends Pydantic where
  bool : Json → Option Bool
  uuid : Json → Option UserId
  bool_bool : ∀ b, bool (.bool b) = some b
  uuid_text : ∀ userId, uuid (.str (uuidText userId)) = some userId
  digits_unlimited : limits.digits = none
  nesting_enough : ∀ n, limits.nesting = some n → 4 ≤ n

/-- An instant in UTC. The clock and the rows have no instant outside the calendar; the number
only keeps the dump total. -/
def utcJson (t : Instant) : Json :=
  if Representable t then .str (isoText ['Z'] t) else .int t

namespace ResultReaders
variable (P : ResultReaders)

def utc : Json → Option Instant
  | .int t => some t
  | j => (P.datetime j).map OffsetTime.instant

def member {α : Type} (ofStr : Str → Except DomainError α) (j : Json) : Option α :=
  (P.str j).bind fun s => (ofStr s).toOption

def version (j : Json) : Option Nat := (P.int j).map Int.toNat

theorem utc_utcJson (t : Instant) : P.utc (utcJson t) = some t := by
  unfold utcJson
  split
  · rename_i ht
    have hread := P.datetime_text ⟨t, 0, ht, by decide⟩ (dvd_zero _)
    rw [OffsetTime.text_utc rfl] at hread
    show (P.datetime (.str (isoText ['Z'] t))).map OffsetTime.instant = some t
    rw [hread]
    exact congrArg some (Int.sub_zero t)
  · rfl

theorem member_value {α : Type} {ofStr : Str → Except DomainError α} {s : Str} {a : α}
    (h : ofStr s = .ok a) : P.member ofStr (.str s) = some a := by
  simp [member, P.str_str, h, Except.toOption]

theorem version_int (n : Nat) : P.version (.int n) = some n := by
  simp [version, P.int_int]

end ResultReaders

/-! ### Reading an object that was dumped -/

theorem sortKeys_utcJson (t : Instant) : (utcJson t).sortKeys = utcJson t := by
  unfold utcJson
  split <;> rfl

theorem sortKeys_jsonOr {α : Type} {f : α → Json} (hf : ∀ a, (f a).sortKeys = f a)
    (x : Option α) : (jsonOr f x).sortKeys = jsonOr f x := by
  cases x with
  | none => rfl
  | some a => exact hf a

theorem distinctKeys_utcJson (t : Instant) : (utcJson t).distinctKeys = true := by
  unfold utcJson
  split <;> rfl

theorem distinctKeys_jsonOr {α : Type} {f : α → Json} (hf : ∀ a, (f a).distinctKeys = true)
    (x : Option α) : (jsonOr f x).distinctKeys = true := by
  cases x with
  | none => rfl
  | some a => exact hf a

theorem utcJson_ne_null (t : Instant) : utcJson t ≠ .null := by
  unfold utcJson
  split <;> exact Json.noConfusion

theorem get?_ofEntries {entries : List (Str × Json)} (h : (Json.obj entries).distinctKeys = true)
    {key : Str} {j : Json} (hj : (key, j) ∈ entries) :
    (Dict.ofEntries entries h).get? key = some j.sortKeys := by
  refine Dict.get?_of_mem ((sortEntries_perm (sortKeysEntries entries)).symm.subset ?_)
  rw [sortKeysEntries_eq]
  exact List.mem_map.2 ⟨(key, j), hj, rfl⟩

theorem dict_sorted (P : ResultReaders) {entries : List (Str × Json)}
    (h : (Json.obj entries).distinctKeys = true) :
    P.dict (Json.obj entries).sortKeys = some (.ofEntries entries h) :=
  P.dict_obj (.ofEntries entries h)

/-! ### `ProfileDTO` -/

def profileEntries (dto : ProfileDTO) : List (Str × Json) :=
  [("user_id".toList, .str (uuidText dto.userId)),
   ("username".toList, jsonOr .str dto.username),
   ("display_name".toList, .str dto.displayName),
   ("bio".toList, jsonOr .str dto.bio),
   ("avatar_key".toList, jsonOr .str dto.avatarKey),
   ("status".toList, .str dto.status.value),
   ("is_verified".toList, .bool dto.isVerified),
   ("version".toList, .int dto.version),
   ("created_at".toList, utcJson dto.createdAt),
   ("updated_at".toList, jsonOr utcJson dto.updatedAt)]

/-- `ProfileDTO.model_validate` of a mapping; a key that is no field is ignored. -/
def profileOfDict (P : ResultReaders) (fields : Dict) : Option ProfileDTO := do
  let userId ← required P.uuid (fields.get? "user_id".toList)
  let username ← optional P.str (fields.get? "username".toList)
  let displayName ← required P.str (fields.get? "display_name".toList)
  let bio ← optional P.str (fields.get? "bio".toList)
  let avatarKey ← optional P.str (fields.get? "avatar_key".toList)
  let status ← required (P.member UserProfileStatus.ofStr) (fields.get? "status".toList)
  let isVerified ← required P.bool (fields.get? "is_verified".toList)
  let version ← required P.version (fields.get? "version".toList)
  let createdAt ← required P.utc (fields.get? "created_at".toList)
  let updatedAt ← optional P.utc (fields.get? "updated_at".toList)
  return ⟨userId, username, displayName, bio, avatarKey, status, isVerified, version, createdAt,
    updatedAt⟩

theorem profileEntries_distinct (dto : ProfileDTO) :
    (Json.obj (profileEntries dto)).distinctKeys = true := by
  have hstr : ∀ x : Option Str, (jsonOr Json.str x).distinctKeys = true :=
    distinctKeys_jsonOr fun _ => rfl
  have hutc : ∀ x : Option Instant, (jsonOr utcJson x).distinctKeys = true :=
    distinctKeys_jsonOr distinctKeys_utcJson
  have hkeys : ((profileEntries dto).map Prod.fst).Nodup := by
    show ["user_id".toList, "username".toList, "display_name".toList, "bio".toList,
      "avatar_key".toList, "status".toList, "is_verified".toList, "version".toList,
      "created_at".toList, "updated_at".toList].Nodup
    decide
  rw [Json.distinctKeys, decide_eq_true hkeys]
  simp only [profileEntries, distinctKeysEntries, hstr, hutc, distinctKeys_utcJson,
    Json.distinctKeys, Bool.and_true]

def profileAdapter (P : ResultReaders) : TypeAdapter ProfileDTO where
  dumpPython dto := .obj (profileEntries dto)
  validatePython j := (P.dict j).bind (profileOfDict P)
  dumpPython_distinct := profileEntries_distinct

theorem height_utcJson (t : Instant) : (utcJson t).height = 0 := by
  unfold utcJson
  split <;> rfl

theorem height_jsonOr {α : Type} {f : α → Json} (hf : ∀ a, (f a).height = 0) (x : Option α) :
    (jsonOr f x).height = 0 := by
  cases x with
  | none => rfl
  | some a => exact hf a

theorem profileEntries_height (dto : ProfileDTO) : (Json.obj (profileEntries dto)).height ≤ 2 := by
  have hstr : ∀ x : Option Str, (jsonOr Json.str x).height = 0 := height_jsonOr fun _ => rfl
  rw [Json.height, heightEntries_le_iff]
  simp [profileEntries, Json.height, height_utcJson, hstr, height_jsonOr height_utcJson]

theorem optional_str (P : ResultReaders) (x : Option Str) :
    optional P.str (some (jsonOr .str x)) = some x := by
  have hread : optional P.str (some (jsonOr .str x)) = some (x.map id) :=
    optional_jsonOr P.str_str (fun _ => Json.noConfusion) x
  rwa [Option.map_id] at hread

theorem optional_utc (P : ResultReaders) (x : Option Instant) :
    optional P.utc (some (jsonOr utcJson x)) = some x := by
  have hread : optional P.utc (some (jsonOr utcJson x)) = some (x.map id) :=
    optional_jsonOr P.utc_utcJson utcJson_ne_null x
  rwa [Option.map_id] at hread

theorem profileAdapter_roundTrips (P : ResultReaders) (dto : ProfileDTO) :
    (profileAdapter P).validatePython ((profileAdapter P).dumpPython dto).sortKeys = some dto := by
  have hget : ∀ {key : Str} {j : Json}, (key, j) ∈ profileEntries dto → j.sortKeys = j →
      (Dict.ofEntries _ (profileEntries_distinct dto)).get? key = some j :=
    fun hj hsorted => (get?_ofEntries _ hj).trans (congrArg some hsorted)
  have hstr : ∀ x : Option Str, (jsonOr Json.str x).sortKeys = jsonOr Json.str x :=
    sortKeys_jsonOr fun _ => rfl
  have huser := hget (show ("user_id".toList, .str (uuidText dto.userId)) ∈ profileEntries dto by
    simp [profileEntries]) rfl
  have husername := hget (show ("username".toList, jsonOr .str dto.username) ∈ profileEntries dto by
    simp [profileEntries]) (hstr _)
  have hname := hget (show ("display_name".toList, .str dto.displayName) ∈ profileEntries dto by
    simp [profileEntries]) rfl
  have hbio := hget (show ("bio".toList, jsonOr .str dto.bio) ∈ profileEntries dto by
    simp [profileEntries]) (hstr _)
  have havatar := hget (show ("avatar_key".toList, jsonOr .str dto.avatarKey) ∈ profileEntries dto by
    simp [profileEntries]) (hstr _)
  have hstatus := hget (show ("status".toList, .str dto.status.value) ∈ profileEntries dto by
    simp [profileEntries]) rfl
  have hverified := hget (show ("is_verified".toList, .bool dto.isVerified) ∈ profileEntries dto by
    simp [profileEntries]) rfl
  have hversion := hget (show ("version".toList, .int dto.version) ∈ profileEntries dto by
    simp [profileEntries]) rfl
  have hcreated := hget (show ("created_at".toList, utcJson dto.createdAt) ∈ profileEntries dto by
    simp [profileEntries]) (sortKeys_utcJson _)
  have hupdated := hget (show ("updated_at".toList, jsonOr utcJson dto.updatedAt) ∈
    profileEntries dto by simp [profileEntries]) (sortKeys_jsonOr sortKeys_utcJson _)
  show (P.dict (Json.obj (profileEntries dto)).sortKeys).bind (profileOfDict P) = some dto
  rw [dict_sorted P (profileEntries_distinct dto), Option.bind_some, profileOfDict, huser,
    husername, hname, hbio, havatar, hstatus, hverified, hversion, hcreated, hupdated]
  simp only [optional_str, optional_utc, required, Option.bind_some, Option.bind_eq_bind,
    P.str_str, P.uuid_text, P.bool_bool, P.version_int, P.utc_utcJson,
    P.member_value (UserProfileStatus.ofStr_value _)]
  rfl

/-! ### `SettingsDTO` -/

def settingsEntries (dto : SettingsDTO) : List (Str × Json) :=
  [("user_id".toList, .str (uuidText dto.userId)),
   ("theme".toList, .str dto.theme.value),
   ("locale".toList, .str dto.locale.value),
   ("timezone".toList, .str dto.timezone),
   ("privacy".toList, privacyJson dto.privacy),
   ("version".toList, .int dto.version),
   ("created_at".toList, utcJson dto.createdAt),
   ("updated_at".toList, jsonOr utcJson dto.updatedAt)]

/-- `PrivacySettings.model_validate` of a mapping; `extra="forbid"`. -/
def privacyOfDict (P : ResultReaders) (fields : Dict) : Option PrivacySettings :=
  if fields.keys.all (privacyKeys.map String.toList).contains then do
    let whoCanSeeAvatar ← withDefault .all (P.member PrivacyScope.ofStr)
      (fields.get? "who_can_see_avatar".toList)
    let whoCanFindByUsername ← withDefault .all (P.member PrivacyScope.ofStr)
      (fields.get? "who_can_find_by_username".toList)
    let whoCanSeeBio ← withDefault .all (P.member PrivacyScope.ofStr)
      (fields.get? "who_can_see_bio".toList)
    return ⟨whoCanSeeAvatar, whoCanFindByUsername, whoCanSeeBio⟩
  else none

def settingsOfDict (P : ResultReaders) (fields : Dict) : Option SettingsDTO := do
  let userId ← required P.uuid (fields.get? "user_id".toList)
  let theme ← required (P.member Theme.ofStr) (fields.get? "theme".toList)
  let locale ← required (P.member Locale.ofStr) (fields.get? "locale".toList)
  let timezone ← required P.str (fields.get? "timezone".toList)
  let privacy ← required (fun j => (P.dict j).bind (privacyOfDict P))
    (fields.get? "privacy".toList)
  let version ← required P.version (fields.get? "version".toList)
  let createdAt ← required P.utc (fields.get? "created_at".toList)
  let updatedAt ← optional P.utc (fields.get? "updated_at".toList)
  return ⟨userId, theme, locale, timezone, privacy, version, createdAt, updatedAt⟩

theorem privacyJson_distinct (p : PrivacySettings) : (privacyJson p).distinctKeys = true := by
  have hkeys : (privacyKeys.map String.toList).Nodup := by decide
  show (decide (privacyKeys.map String.toList).Nodup && _) = true
  rw [decide_eq_true hkeys]
  rfl

theorem privacyOfDict_roundTrips (P : ResultReaders) (p : PrivacySettings) :
    (P.dict (privacyJson p).sortKeys).bind (privacyOfDict P) = some p := by
  have hget : ∀ {key : Str} {s : Str}, (key, Json.str s) ∈
      [("who_can_see_avatar".toList, Json.str p.whoCanSeeAvatar.value),
        ("who_can_find_by_username".toList, .str p.whoCanFindByUsername.value),
        ("who_can_see_bio".toList, .str p.whoCanSeeBio.value)] →
      (Dict.ofEntries _ (privacyJson_distinct p)).get? key = some (.str s) :=
    fun hj => get?_ofEntries _ hj
  have havatar := hget List.mem_cons_self
  have hfind := hget (List.mem_cons_of_mem _ List.mem_cons_self)
  have hbio := hget (List.mem_cons_of_mem _ (List.mem_cons_of_mem _ List.mem_cons_self))
  have hkeys : (Dict.ofEntries _ (privacyJson_distinct p)).keys.all
      (privacyKeys.map String.toList).contains = true := by
    have hperm : (Dict.ofEntries _ (privacyJson_distinct p)).keys.Perm
        (privacyKeys.map String.toList) := (sortEntries_perm _).map Prod.fst
    rw [List.all_eq_true]
    intro key hkey
    exact List.contains_iff_mem.2 (hperm.subset hkey)
  have hdict : P.dict (privacyJson p).sortKeys = some (.ofEntries _ (privacyJson_distinct p)) :=
    dict_sorted P (privacyJson_distinct p)
  rw [hdict, Option.bind_some, privacyOfDict, if_pos hkeys, havatar, hfind, hbio]
  simp only [withDefault, P.member_value (PrivacyScope.ofStr_value _), Option.bind_some,
    Option.bind_eq_bind]
  rfl

theorem settingsEntries_distinct (dto : SettingsDTO) :
    (Json.obj (settingsEntries dto)).distinctKeys = true := by
  have hutc : ∀ x : Option Instant, (jsonOr utcJson x).distinctKeys = true :=
    distinctKeys_jsonOr distinctKeys_utcJson
  have hkeys : ((settingsEntries dto).map Prod.fst).Nodup := by
    show ["user_id".toList, "theme".toList, "locale".toList, "timezone".toList,
      "privacy".toList, "version".toList, "created_at".toList, "updated_at".toList].Nodup
    decide
  rw [Json.distinctKeys, decide_eq_true hkeys]
  simp only [settingsEntries, distinctKeysEntries, hutc, distinctKeys_utcJson,
    privacyJson_distinct, Bool.true_and, Bool.and_true]
  rfl

def settingsAdapter (P : ResultReaders) : TypeAdapter SettingsDTO where
  dumpPython dto := .obj (settingsEntries dto)
  validatePython j := (P.dict j).bind (settingsOfDict P)
  dumpPython_distinct := settingsEntries_distinct

theorem settingsEntries_height (dto : SettingsDTO) :
    (Json.obj (settingsEntries dto)).height ≤ 2 := by
  rw [Json.height, heightEntries_le_iff]
  simp [settingsEntries, privacyJson, Json.height, heightEntries, height_utcJson,
    height_jsonOr height_utcJson]

theorem settingsAdapter_roundTrips (P : ResultReaders) (dto : SettingsDTO) :
    (settingsAdapter P).validatePython ((settingsAdapter P).dumpPython dto).sortKeys =
      some dto := by
  have hget : ∀ {key : Str} {j : Json}, (key, j) ∈ settingsEntries dto →
      (Dict.ofEntries _ (settingsEntries_distinct dto)).get? key = some j.sortKeys :=
    fun hj => get?_ofEntries _ hj
  have huser := hget (show ("user_id".toList, .str (uuidText dto.userId)) ∈ settingsEntries dto by
    simp [settingsEntries])
  have htheme := hget (show ("theme".toList, .str dto.theme.value) ∈ settingsEntries dto by
    simp [settingsEntries])
  have hlocale := hget (show ("locale".toList, .str dto.locale.value) ∈ settingsEntries dto by
    simp [settingsEntries])
  have hzone := hget (show ("timezone".toList, .str dto.timezone) ∈ settingsEntries dto by
    simp [settingsEntries])
  have hprivacy := hget (show ("privacy".toList, privacyJson dto.privacy) ∈ settingsEntries dto by
    simp [settingsEntries])
  have hversion := hget (show ("version".toList, .int dto.version) ∈ settingsEntries dto by
    simp [settingsEntries])
  have hcreated := hget (show ("created_at".toList, utcJson dto.createdAt) ∈ settingsEntries dto by
    simp [settingsEntries])
  have hupdated := hget (show ("updated_at".toList, jsonOr utcJson dto.updatedAt) ∈
    settingsEntries dto by simp [settingsEntries])
  show (P.dict (Json.obj (settingsEntries dto)).sortKeys).bind (settingsOfDict P) = some dto
  rw [dict_sorted P (settingsEntries_distinct dto), Option.bind_some, settingsOfDict, huser,
    htheme, hlocale, hzone, hprivacy, hversion, hcreated, hupdated]
  simp only [Json.sortKeys, sortKeys_utcJson, sortKeys_jsonOr sortKeys_utcJson, optional_utc,
    required, Option.bind_some, Option.bind_eq_bind, privacyOfDict_roundTrips, P.str_str,
    P.uuid_text, P.version_int, P.utc_utcJson, P.member_value (Theme.ofStr_value _),
    P.member_value (Locale.ofStr_value _)]
  rfl

/-! ### Replays -/

theorem nothing_distinctKeys (_ : Unit) : Json.null.distinctKeys = true := rfl

/-- The result schemas of the registry (`infrastructure/di/commands.py`). -/
def resultAdapters (P : ResultReaders) : ResultAdapters where
  nothing :=
    { dumpPython := fun _ => .null
      validatePython := fun j => match j with
        | .null => some ()
        | _ => none
      dumpPython_distinct := nothing_distinctKeys }
  profile := profileAdapter P
  settings := settingsAdapter P

/-- A result that a codec has encoded is decoded to itself, from the record and from the text
that the hot store keeps of the record. -/
structure Replays {ResultT : Type} (P : ResultReaders) (codec : PydanticResultCodec ResultT) :
    Prop where
  durable : ∀ result, codec.decode (codec.encode result) = .ok result
  hot : ∀ result requestFingerprint expiresAt, ∃ completed,
    (decodeCompleted P.toPydantic (.str (encodeCompleted
      ((codec.encode result).completed requestFingerprint expiresAt)))).toOption.bind
        ZonedResult.atInstant = some completed ∧
    codec.decode completed.toStoredResult = .ok result

theorem height_entries_le {r : CompletedIdempotencyResult} {n : Nat}
    (h : ∀ p, r.resultPayload = some p → (Json.obj p).height ≤ n) :
    (Json.obj r.entries).height ≤ n + 1 := by
  have hpayload : (jsonOr .obj r.resultPayload).height ≤ n := by
    cases hp : r.resultPayload with
    | none => exact Nat.zero_le n
    | some p => exact h p hp
  have hstr : ∀ x : Option Str, (jsonOr Json.str x).height = 0 := fun x => by cases x <;> rfl
  have hint : ∀ x : Option Nat, (jsonOr jsonNat x).height = 0 := fun x => by cases x <;> rfl
  simp only [CompletedIdempotencyResult.entries, Json.height, heightEntries_le_iff,
    List.forall_mem_cons, hstr, hint, Nat.add_le_add_iff_right, Nat.zero_le, true_and]
  exact ⟨hpayload, fun x hx => by cases hx⟩

theorem replays_of {ResultT : Type} (P : ResultReaders) {codec : PydanticResultCodec ResultT}
    (hread : ∀ result, codec.adapter.validatePython (codec.adapter.dumpPython result).sortKeys =
      some result)
    (hheight : ∀ result, (codec.adapter.dumpPython result).height ≤ 2) :
    Replays P codec where
  durable result := codec.decode_encode (hread result)
  hot result requestFingerprint expiresAt := by
    refine ⟨(codec.encode result).completed requestFingerprint expiresAt, ?_,
      codec.decode_encode (hread result)⟩
    refine decodeCompleted_encodeCompleted P.toPydantic ?_
    have hpayload : (Json.obj (codec.payload result)).height ≤ 3 := by
      rw [PydanticResultCodec.payload, Json.height, heightEntries_le_iff]
      intro e he
      obtain rfl := List.mem_singleton.1 he
      rw [height_sortKeys]
      exact Nat.succ_le_succ (hheight result)
    have htext : (Json.obj ((codec.encode result).completed requestFingerprint
        expiresAt).entries).height ≤ 4 := height_entries_le fun p hp => by
      obtain rfl := Option.some.inj hp
      exact hpayload
    rw [JsonLimits.admits, P.digits_unlimited, jsonWithin_none, Bool.true_and]
    cases hnesting : P.limits.nesting with
    | none => rfl
    | some n =>
      rw [Option.all_some, decide_eq_true_iff]
      exact Nat.le_trans htext (P.nesting_enough n hnesting)

/-- Whatever a registered command returns is what every replay of it returns. -/
theorem results_replayed (P : ResultReaders) :
    Replays P (codecOf (resultAdapters P).nothing) ∧
      Replays P (codecOf (resultAdapters P).profile) ∧
      Replays P (codecOf (resultAdapters P).settings) :=
  ⟨replays_of P (fun _ => rfl) fun _ => Nat.zero_le _,
    replays_of P (profileAdapter_roundTrips P) profileEntries_height,
    replays_of P (settingsAdapter_roundTrips P) settingsEntries_height⟩

def readUuid (text : Str) : UserId :=
  BitVec.ofNat 128 ((text.filter fun c => c ≠ '-').foldl
    (fun n c => 16 * n + (hexDigit c).getD 0) 0)

theorem foldl_fixedHex {width n : Nat} (h : n < 16 ^ width) :
    (fixedHex width n).foldl (fun n c => 16 * n + (hexDigit c).getD 0) 0 = n := by
  have hdigit : ∀ d : Fin 16, hexDigit (Nat.digitChar d) = some d.1 := by decide
  induction width generalizing n with
  | zero =>
    have hzero : n = 0 := by simpa using h
    rw [hzero]
    rfl
  | succ width ih =>
    have hdiv : n / 16 < 16 ^ width := by
      rw [Nat.div_lt_iff_lt_mul (by decide), ← Nat.pow_succ]
      exact h
    have hlow := hdigit ⟨n % 16, Nat.mod_lt n (by decide)⟩
    rw [fixedHex, fixedDigits, List.foldl_append, ih hdiv, List.foldl_cons, List.foldl_nil, hlow]
    exact Nat.div_add_mod n 16

theorem readUuid_uuidText (userId : UserId) : readUuid (uuidText userId) = userId := by
  have hlt : userId.toNat < 16 ^ 32 := userId.isLt
  rw [readUuid, uuidText_filter, foldl_fixedHex hlt, BitVec.ofNat_toNat, BitVec.setWidth_eq]

def strictUuid : Json → Option UserId
  | .str s => if uuidText (readUuid s) = s then some (readUuid s) else none
  | _ => none

theorem strictUuid_text (userId : UserId) : strictUuid (.str (uuidText userId)) = some userId := by
  rw [strictUuid, readUuid_uuidText, if_pos rfl]

def strictBool : Json → Option Bool
  | .bool b => some b
  | _ => none

/-- Readers that take the canonical texts and refuse every other. -/
def strictReaders : ResultReaders :=
  { strictPydantic ⟨none, some 200⟩ with
    bool := strictBool
    uuid := strictUuid
    bool_bool := fun _ => rfl
    uuid_text := strictUuid_text
    digits_unlimited := rfl
    nesting_enough := fun n h => by
      obtain rfl := Option.some.inj h
      decide }

def sampleProfileDTO : ProfileDTO := .fromDomain (UserProfile.createDefault 7 20)

theorem results_replayed_sample :
    (codecOf (resultAdapters strictReaders).profile).decode
        ((codecOf (resultAdapters strictReaders).profile).encode sampleProfileDTO) =
      .ok sampleProfileDTO ∧
    ∃ completed,
      (decodeCompleted strictReaders.toPydantic (.str (encodeCompleted
        (((codecOf (resultAdapters strictReaders).profile).encode sampleProfileDTO).completed
          sampleFingerprint ⟨86400000000, by decide⟩)))).toOption.bind
          ZonedResult.atInstant = some completed ∧
      (codecOf (resultAdapters strictReaders).profile).decode completed.toStoredResult =
        .ok sampleProfileDTO := by
  obtain ⟨-, hprofile, -⟩ := results_replayed strictReaders
  exact ⟨hprofile.durable sampleProfileDTO, hprofile.hot sampleProfileDTO _ _⟩

end ProfileService.Infrastructure
