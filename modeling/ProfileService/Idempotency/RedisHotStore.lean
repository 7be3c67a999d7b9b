import ProfileService.Library.Double
import ProfileService.Idempotency.World

/-!
# `RedisHotIdempotencyStore`

The four Lua scripts on one hash, the adapter around them, and the store all
workers share (`infrastructure/idempotency/redis/hot_store.py`). A key is visible
through the millisecond of its expiry and gone afterwards.
-/

namespace ProfileService.Idempotency
open Library Application

/-- `TIME` in milliseconds. -/
def ms (t : Instant) : Int := t / 1000

/-- The hash at one key: the fields the scripts read and write, and its expiry. -/
structure Entry where
  formatVersion : Option Str
  state : Option Str
  requestFingerprint : Option Str
  leaseToken : Option Str
  result : Option Str
  expireAt : Option Int
  deriving DecidableEq

def version2 : Str := "2".toList
def processing : Str := "processing".toList
def completed : Str := "completed".toList

/-- What `redis.call` sees at a key. -/
def visible (now : Instant) (e : Option Entry) : Option Entry :=
  e.filter fun e => e.expireAt.all fun t => ms now ≤ t

def Entry.leased (now : Instant) (fingerprint token : Str) (leaseSeconds : Nat) : Entry where
  formatVersion := some version2
  state := some processing
  requestFingerprint := some fingerprint
  leaseToken := some token
  result := none
  expireAt := some (ms now + leaseSeconds * 1000)

def Entry.published (e : Entry) (encoded : Str) (expireAt : Int) : Entry :=
  { e with
    state := some completed
    result := some encoded
    leaseToken := none
    expireAt := some expireAt }

structure ClaimAnswer where
  code : Nat
  result : Option Str

/-- What `_CLAIM_SCRIPT` answers when the key exists (`hot_store.py:34-36`, `48-70`). -/
def claimAnswer (fingerprint : Str) (e : Entry) : ClaimAnswer :=
  match e.state with
  | none => ⟨5, none⟩
  | some state =>
    if e.formatVersion ≠ some version2 ∨ e.requestFingerprint = none then ⟨5, none⟩
    else if state = processing ∧ (e.leaseToken = none ∨ e.result ≠ none) then ⟨5, none⟩
    else if state = completed ∧ (e.result = none ∨ e.leaseToken ≠ none) then ⟨5, none⟩
    else if e.requestFingerprint ≠ some fingerprint then ⟨3, none⟩
    else if state = completed then ⟨2, e.result⟩
    else if state = processing then ⟨4, none⟩
    else ⟨5, none⟩

/-- `_CLAIM_SCRIPT` (`hot_store.py:31-71`). -/
def claimScript (now : Instant) (fingerprint token : Str) (leaseSeconds : Nat) :
    Option Entry → ClaimAnswer × Option Entry
  | none => (⟨1, none⟩, some (.leased now fingerprint token leaseSeconds))
  | some e => (claimAnswer fingerprint e, some e)

/-- The owner check the other three scripts begin with. -/
def Entry.OwnedBy (e : Entry) (token : Str) : Prop :=
  e.formatVersion = some version2 ∧ e.state = some processing ∧ e.leaseToken = some token

instance (e : Entry) (token : Str) : Decidable (e.OwnedBy token) :=
  inferInstanceAs (Decidable (_ ∧ _ ∧ _))

/-- `_RENEW_SCRIPT` (`hot_store.py:73-84`). -/
def renewScript (now : Instant) (token : Str) (leaseSeconds : Nat) :
    Option Entry → Bool × Option Entry
  | none => (false, none)
  | some e =>
    if e.OwnedBy token ∧ e.requestFingerprint ≠ none then
      (true, some { e with expireAt := some (ms now + leaseSeconds * 1000) })
    else (false, some e)

/-- `_COMPLETE_SCRIPT` (`hot_store.py:86-111`). -/
def completeScript (now : Instant) (token encoded : Str) (cacheTtlMs : Int) (fingerprint : Str)
    (deadlineMs : Int) : Option Entry → Bool × Option Entry
  | none => (false, none)
  | some e =>
    if e.OwnedBy token ∧ e.requestFingerprint = some fingerprint then
      let ttlMs := min cacheTtlMs (deadlineMs - ms now)
      if ttlMs ≤ 0 then (false, none)
      else (true, some (e.published encoded (ms now + ttlMs)))
    else (false, some e)

/-- `_RELEASE_SCRIPT` (`hot_store.py:113-121`). -/
def releaseScript (token : Str) : Option Entry → Bool × Option Entry
  | none => (false, none)
  | some e => if e.OwnedBy token then (true, none) else (false, some e)

def Digest.text (d : Digest) : Str := hex d.toList

/-- The bytes `_storage_key` hashes (`hot_store.py:254-263`). -/
def storageMaterial (k : IdempotencyKey) : List UInt8 :=
  utf8 k.subjectId ++ 0 :: (utf8 k.operation ++ 0 :: k.keyDigest.toList)

def jsonOr {α : Type} (f : α → Json) : Option α → Json
  | none => .null
  | some a => f a

def jsonNat (n : Nat) : Json := .int n

/-- `model_dump(mode="json")` of a completed result, with its fingerprint as hex. -/
def CompletedIdempotencyResult.entries (r : CompletedIdempotencyResult) : List (Str × Json) :=
  [("result_type".toList, .str r.resultType),
   ("result_payload".toList, jsonOr .obj r.resultPayload),
   ("result_version".toList, .int r.resultVersion),
   ("resource_type".toList, jsonOr .str r.resourceType),
   ("resource_id".toList, jsonOr .str r.resourceId),
   ("resource_version".toList, jsonOr jsonNat r.resourceVersion),
   ("expires_at".toList, .str (isoText ['Z'] r.expiresAt)),
   ("request_fingerprint".toList, .str r.requestFingerprint.text)]

/-- `_encode_completed` (`hot_store.py:282-294`). -/
def encodeCompleted (r : CompletedIdempotencyResult) : Str := dumps (.obj r.entries)

/-- The surroundings of the adapter: SHA-256, the JSON reader of `_decode_completed`,
which reads back what `_encode_completed` writes, and whether the server may drop
keys by itself. -/
structure RedisClient where
  keyNamespace : Str
  sha256 : List UInt8 → Digest
  decodeCompleted : Str → Option CompletedIdempotencyResult
  evicts : Bool
  keyNamespace_nonempty : keyNamespace ≠ []
  decode_encode : ∀ r, decodeCompleted (encodeCompleted r) = some r

def RedisClient.storageKey (R : RedisClient) (k : IdempotencyKey) : Str :=
  R.keyNamespace ++ ':' :: (R.sha256 (storageMaterial k)).text

theorem text_inj {a b : Digest} (h : a.text = b.text) : a = b :=
  List.Vector.eq _ _ (hex_inj h)

theorem jsonOr_inj {α : Type} {f : α → Json} (hf : ∀ a b, f a = f b → a = b)
    (hnull : ∀ a, f a ≠ .null) {x y : Option α} (h : jsonOr f x = jsonOr f y) : x = y := by
  cases x with
  | none =>
    cases y with
    | none => rfl
    | some b => exact absurd h.symm (hnull b)
  | some a =>
    cases y with
    | none => exact absurd h (hnull a)
    | some b => rw [hf a b h]

theorem sortKeysEntries_entries (r : CompletedIdempotencyResult) :
    sortKeysEntries r.entries = r.entries := by
  have hstr : ∀ x : Option Str, (jsonOr Json.str x).sortKeys = jsonOr Json.str x := fun x => by
    cases x <;> rfl
  have hint : ∀ x : Option Nat, (jsonOr jsonNat x).sortKeys = jsonOr jsonNat x := fun x => by
    cases x <;> rfl
  have hobj : (jsonOr Json.obj r.resultPayload).sortKeys = jsonOr Json.obj r.resultPayload := by
    cases h : r.resultPayload with
    | none => rfl
    | some p => exact r.resultPayload_sorted p h
  simp only [CompletedIdempotencyResult.entries, sortKeysEntries, hstr, hint, hobj]
  rfl

theorem encodeCompleted_injective {a b : CompletedIdempotencyResult}
    (h : encodeCompleted a = encodeCompleted b) : a = b := by
  have hsorted := dumps_injective.1 h
  simp only [Json.sortKeys, sortKeysEntries_entries, Json.obj.injEq] at hsorted
  have hentries : a.entries = b.entries := sortEntries_inj rfl (by
    show (["result_type".toList, "result_payload".toList, "result_version".toList,
      "resource_type".toList, "resource_id".toList, "resource_version".toList,
      "expires_at".toList, "request_fingerprint".toList] : List Str).Nodup
    decide) hsorted
  simp only [CompletedIdempotencyResult.entries, List.cons.injEq, Prod.mk.injEq, true_and,
    Json.str.injEq, Json.int.injEq, and_true] at hentries
  obtain ⟨htype, hpayload, hversion, hresource, hid, hrversion, hexpires, hfp⟩ := hentries
  have hstr : ∀ x y : Str, Json.str x = Json.str y → x = y := fun _ _ => Json.str.inj
  have hint : ∀ x y : Nat, jsonNat x = jsonNat y → x = y :=
    fun _ _ h => Int.ofNat.inj (Json.int.inj h)
  have hexp := isoText_inj a.expiresAt_representable b.expiresAt_representable hexpires
  have hpay := jsonOr_inj (fun _ _ => Json.obj.inj) (fun _ h => by cases h) hpayload
  have hres := jsonOr_inj hstr (fun _ h => by cases h) hresource
  have hrid := jsonOr_inj hstr (fun _ h => by cases h) hid
  have hver := jsonOr_inj hint (fun _ h => by cases h) hrversion
  exact CompletedIdempotencyResult.ext htype hpay (Int.ofNat.inj hversion) hres hrid hver hexp
    (text_inj hfp)

theorem defaultNamespace_nonempty :
    "andruha-user-profile-service:idempotency:v2".toList ≠ [] := by decide

open Classical in
noncomputable def RedisClient.exact (sha256 : List UInt8 → Digest) (evicts : Bool) : RedisClient where
  keyNamespace := "andruha-user-profile-service:idempotency:v2".toList
  sha256 := sha256
  decodeCompleted text := if h : ∃ r, encodeCompleted r = text then some h.choose else none
  evicts := evicts
  keyNamespace_nonempty := defaultNamespace_nonempty
  decode_encode r := by
    have h : ∃ r', encodeCompleted r' = encodeCompleted r := ⟨r, rfl⟩
    rw [dif_pos h, encodeCompleted_injective h.choose_spec]

noncomputable def sampleClient (evicts : Bool) : RedisClient :=
  .exact (fun _ => sampleFingerprint) evicts

/-- `_raise_unavailable` and `_raise_corrupted`: an error without a message. -/
def unavailable : Exn := .idempotencyUnavailable ""

/-- How `claim` reads the script's table (`hot_store.py:163-190`). -/
def readClaim (R : RedisClient) (requestFingerprint : Digest) (answer : ClaimAnswer) :
    Except Exn ClaimResult :=
  match answer.code with
  | 1 => .ok .acquired
  | 2 =>
    match answer.result.bind R.decodeCompleted with
    | none => .error unavailable
    | some completed =>
      if completed.requestFingerprint ≠ requestFingerprint then .error unavailable
      else .ok (.replay completed)
  | 3 => .ok .conflict
  | 4 => .ok .inProgress
  | _ => .error unavailable

def HotCall.identity : HotCall → IdempotencyKey
  | .claim k _ _ _ => k
  | .renew k _ _ => k
  | .complete k _ _ _ => k
  | .release k _ => k

/-- The `ValueError` guards of the adapter: seconds are positive. -/
def HotCall.Valid : HotCall → Prop
  | .claim _ _ _ lease => 0 < lease
  | .renew _ _ lease => 0 < lease
  | .complete _ _ _ ttl => 0 < ttl
  | .release _ _ => True

instance : (c : HotCall) → Decidable c.Valid
  | .claim _ _ _ lease => inferInstanceAs (Decidable (0 < lease))
  | .renew _ _ lease => inferInstanceAs (Decidable (0 < lease))
  | .complete _ _ _ ttl => inferInstanceAs (Decidable (0 < ttl))
  | .release _ _ => inferInstanceAs (Decidable True)

def HotCall.invalid : HotCall → Exn
  | .complete .. => .other "ValueError" "cache_ttl_seconds must be positive"
  | _ => .other "ValueError" "lease_seconds must be positive"

/-- One call on the entry that is visible at its key. -/
def RedisClient.script (R : RedisClient) (now : Instant) :
    (c : HotCall) → Option Entry → Except Exn c.Reply × Option Entry
  | .claim _ requestFingerprint token lease, e =>
    let answer := claimScript now requestFingerprint.text (uuidText token) lease e
    (readClaim R requestFingerprint answer.1, answer.2)
  | .renew _ token lease, e =>
    let answer := renewScript now (uuidText token) lease e
    (.ok answer.1, answer.2)
  | .complete _ token result ttl, e =>
    let answer := completeScript now (uuidText token) (encodeCompleted result) (ttl * 1000)
      result.requestFingerprint.text (timestampMs result.expiresAt) e
    (.ok answer.1, answer.2)
  | .release _ token, e =>
    let answer := releaseScript (uuidText token) e
    (.ok answer.1, answer.2)

/-- An executed script, and whether its client was still waiting for the answer. -/
structure Served (W : Type) where
  client : W
  awaited : Bool
  instant : Instant
  call : HotCall
  reply : Except Exn call.Reply

/-- The server: the keys, the messages whose sender no longer waits, and the scripts
it executed, newest first. -/
structure Redis (W : Type) where
  entries : Str → Option Entry
  inflight : List (W × HotCall)
  served : List (Served W)

namespace Redis
variable {W : Type}

def empty : Redis W := ⟨fun _ => none, [], []⟩

def answer (R : RedisClient) (now : Instant) (c : HotCall) (h : Redis W) :
    Except Exn c.Reply × Option Entry :=
  R.script now c (visible now (h.entries (R.storageKey c.identity)))

def serve (R : RedisClient) (w : W) (awaited : Bool) (now : Instant) (c : HotCall) (h : Redis W) :
    Redis W :=
  { h with
    entries := Function.update h.entries (R.storageKey c.identity) (h.answer R now c).2
    served := ⟨w, awaited, now, c, (h.answer R now c).1⟩ :: h.served }

def evict (key : Str) (h : Redis W) : Redis W :=
  { h with entries := Function.update h.entries key none }

end Redis

def HotCall.isClaim : HotCall → Bool
  | .claim .. => true
  | _ => false

/-- How many claims of `w` were executed or may still be. -/
def Redis.claimsOf {W : Type} [DecidableEq W] (w : W) (h : Redis W) : Nat :=
  (h.served.countP fun s => s.client = w ∧ s.call.isClaim) +
    h.inflight.countP fun m => m.1 = w ∧ m.2.isClaim

def HotFault (e : Exn) : Prop := e = .cancelled ∨ ∃ message, e = .idempotencyUnavailable message

section
variable {W : Type} [DecidableEq W] (R : RedisClient)

/-- A call is executed and answered, or it fails and its message may still arrive. -/
def redisExec (w : W) (now : Instant) (c : HotCall) (h : Redis W) (r : Except Exn c.Reply)
    (h' : Redis W) : Prop :=
  if c.Valid then
    (r = (h.answer R now c).1 ∧ h' = h.serve R w true now c) ∨
      ∃ e, HotFault e ∧ r = .error e ∧ h' = { h with inflight := (w, c) :: h.inflight }
  else r = .error c.invalid ∧ h' = h

/-- A late message arrives, or the server drops a key. -/
inductive RedisEnv (now : Instant) : Redis W → Redis W → Prop where
  | deliver (h : Redis W) (w : W) (c : HotCall) (l₁ l₂ : List (W × HotCall))
      (hm : h.inflight = l₁ ++ (w, c) :: l₂) :
      RedisEnv now h (({ h with inflight := l₁ ++ l₂ } : Redis W).serve R w false now c)
  | evict (h : Redis W) (key : Str) (he : R.evicts = true) : RedisEnv now h (h.evict key)

/-- What everybody else leaves to `w`: the executed scripts, its own claims, and which of
them it waited for. -/
structure RedisFrame (w : W) (h h' : Redis W) : Prop where
  served : h.served <:+ h'.served
  claims : h'.claimsOf w = h.claimsOf w
  awaited : ∀ s ∈ h'.served, s.client = w → s.call.isClaim = true → s.awaited = true →
    s ∈ h.served

variable {R} {w v : W} {now : Instant} {c : HotCall} {h h' : Redis W} {r : Except Exn c.Reply}

theorem RedisFrame.refl (w : W) (h : Redis W) : RedisFrame w h h where
  served := List.suffix_refl _
  claims := rfl
  awaited _ hs _ _ _ := hs

theorem RedisFrame.trans {h'' : Redis W} (hf : RedisFrame w h h') (hf' : RedisFrame w h' h'') :
    RedisFrame w h h'' where
  served := hf.served.trans hf'.served
  claims := hf'.claims.trans hf.claims
  awaited s hs hw hc ha := hf.awaited s (hf'.awaited s hs hw hc ha) hw hc ha

/-- A call that is no claim of `w` leaves the claims of `w` alone. -/
theorem redisExec_frame (h₀ : redisExec R v now c h r h') (hc : w ≠ v ∨ c.isClaim = false) :
    RedisFrame w h h' := by
  have hno : (v = w ∧ c.isClaim = true) = False := by
    refine eq_false fun hcon => ?_
    rcases hc with hc | hc
    · exact hc hcon.1.symm
    · rw [hc] at hcon
      exact Bool.noConfusion hcon.2
  unfold redisExec at h₀
  split at h₀
  · rcases h₀ with ⟨-, rfl⟩ | ⟨e, -, -, rfl⟩
    · refine ⟨List.suffix_cons _ _, by simp [Redis.claimsOf, Redis.serve, hno], ?_⟩
      intro s hs hw hclaim _
      rcases List.mem_cons.1 hs with rfl | hs
      · exact (hno ▸ And.intro hw hclaim).elim
      · exact hs
    · exact ⟨List.suffix_refl _, by simp [Redis.claimsOf, hno], fun _ hs _ _ _ => hs⟩
  · obtain ⟨-, rfl⟩ := h₀
    exact .refl w _

theorem RedisEnv.frame (h₀ : RedisEnv R now h h') : RedisFrame w h h' := by
  cases h₀ with
  | deliver v c l₁ l₂ hm =>
    refine ⟨List.suffix_cons _ _, ?_, fun s hs _ _ ha => ?_⟩
    · simp only [Redis.claimsOf, Redis.serve, hm, List.countP_cons, List.countP_append]
      omega
    · rcases List.mem_cons.1 hs with rfl | hs
      · cases ha
      · exact hs
  | evict key _ => exact ⟨List.suffix_refl _, rfl, fun _ hs _ _ _ => hs⟩

variable (R) (W)

def redisHotStore : HotStore W where
  State := Redis W
  exec := redisExec R
  env := RedisEnv R
  frame := RedisFrame
  frame_refl := RedisFrame.refl
  frame_trans := RedisFrame.trans
  frame_exec h hw := redisExec_frame h (.inl hw)
  frame_renew h := redisExec_frame h (.inr rfl)
  frame_env := RedisEnv.frame

end
end ProfileService.Idempotency
