import ProfileService.Idempotency.RedisHotStore
import Mathlib.Logic.Relation

/-!
# Ownership of a hot entry

What each call can do to the entry at its key, and what holds of every entry in
every run of calls with fresh lease tokens.
-/

namespace ProfileService.Idempotency
open Library Application

/-- The entry at a key before and after one call, with the answer. -/
inductive Effect (R : RedisClient) (now : Instant) :
    (c : HotCall) → Option Entry → Except Exn c.Reply → Option Entry → Prop where
  | acquire (k fp token lease) :
      Effect R now (.claim k fp token lease) none (.ok .acquired)
        (some (.leased now fp.text (uuidText token) lease))
  | look (k fp token lease e) :
      Effect R now (.claim k fp token lease) (some e)
        (readClaim R fp (claimAnswer fp.text e)) (some e)
  | renew (k token lease) (e : Entry) (h : e.OwnedBy (uuidText token)) :
      Effect R now (.renew k token lease) (some e) (.ok true)
        (some { e with expireAt := some (ms now + lease * 1000) })
  | publish (k token result) (ttl : Nat) (e : Entry) (h : e.OwnedBy (uuidText token))
      (hfp : e.requestFingerprint = some result.requestFingerprint.text)
      (httl : 0 < min ((ttl : Int) * 1000) (timestampMs result.expiresAt - ms now)) :
      Effect R now (.complete k token result ttl) (some e) (.ok true)
        (some (e.published (encodeCompleted result)
          (ms now + min ((ttl : Int) * 1000) (timestampMs result.expiresAt - ms now))))
  | expire (k token result ttl) (e : Entry) (h : e.OwnedBy (uuidText token)) :
      Effect R now (.complete k token result ttl) (some e) (.ok false) none
  | release (k token) (e : Entry) (h : e.OwnedBy (uuidText token)) :
      Effect R now (.release k token) (some e) (.ok true) none
  | notRenewed (k token lease e) : Effect R now (.renew k token lease) e (.ok false) e
  | notCompleted (k token result ttl e) :
      Effect R now (.complete k token result ttl) e (.ok false) e
  | notReleased (k token e) : Effect R now (.release k token) e (.ok false) e

theorem script_effect (R : RedisClient) (now : Instant) (c : HotCall) (e : Option Entry) :
    Effect R now c e (R.script now c e).1 (R.script now c e).2 := by
  cases c with
  | claim k fp token lease =>
    cases e with
    | none => exact .acquire k fp token lease
    | some e => exact .look k fp token lease e
  | renew k token lease =>
    cases e with
    | none => exact .notRenewed k token lease none
    | some e =>
      simp only [RedisClient.script, renewScript]
      split
      · rename_i h
        exact .renew k token lease e h.1
      · exact .notRenewed k token lease (some e)
  | complete k token result ttl =>
    cases e with
    | none => exact .notCompleted k token result ttl none
    | some e =>
      simp only [RedisClient.script, completeScript]
      split
      · rename_i h
        split
        · exact .expire k token result ttl e h.1
        · rename_i httl
          exact .publish k token result ttl e h.1 h.2 (not_le.1 httl)
      · exact .notCompleted k token result ttl (some e)
  | release k token =>
    cases e with
    | none => exact .notReleased k token none
    | some e =>
      simp only [RedisClient.script, releaseScript]
      split
      · rename_i h
        exact .release k token e h
      · exact .notReleased k token (some e)

def HotCall.token : HotCall → Token
  | .claim _ _ token _ => token
  | .renew _ token _ => token
  | .complete _ token _ _ => token
  | .release _ token => token

inductive Success : (c : HotCall) → Except Exn c.Reply → Prop where
  | renew (k token lease) : Success (.renew k token lease) (.ok true)
  | complete (k token result ttl) : Success (.complete k token result ttl) (.ok true)
  | release (k token) : Success (.release k token) (.ok true)

structure WellFormed (e : Entry) : Prop where
  formatVersion : e.formatVersion = some version2
  expireAt : ∃ t, e.expireAt = some t
  content : ∃ fp : Digest, e.requestFingerprint = some fp.text ∧
    ((e.state = some processing ∧ e.result = none ∧ ∃ token, e.leaseToken = some (uuidText token)) ∨
      (e.state = some completed ∧ e.leaseToken = none ∧
        ∃ result, e.result = some (encodeCompleted result) ∧ result.requestFingerprint = fp))

theorem completed_ne_processing : completed ≠ processing := by decide

theorem visible_eq_some {now : Instant} {e : Option Entry} {x : Entry} :
    visible now e = some x ↔ e = some x ∧ ∀ t, x.expireAt = some t → ms now ≤ t := by
  simp only [visible, Option.filter_eq_some_iff]
  refine and_congr_right fun _ => ?_
  cases x.expireAt with
  | none => simp
  | some t => simp

theorem visible_of_le {now : Instant} {e : Entry} {t : Int} (ht : e.expireAt = some t)
    (hle : ms now ≤ t) : visible now (some e) = some e := by
  refine visible_eq_some.2 ⟨rfl, fun t' ht' => ?_⟩
  rw [ht] at ht'
  cases ht'
  exact hle

theorem visible_mono {now now' : Instant} {e : Option Entry} {x : Entry} (hle : now ≤ now')
    (h : visible now' e = some x) : visible now e = some x := by
  obtain ⟨he, ht⟩ := visible_eq_some.1 h
  have hms : ms now ≤ ms now' := Int.ediv_le_ediv (by decide) hle
  exact visible_eq_some.2 ⟨he, fun t hx => le_trans hms (ht t hx)⟩

theorem visible_visible (now : Instant) (e : Option Entry) :
    visible now (visible now e) = visible now e := by
  cases h : visible now e with
  | none => rfl
  | some x => exact visible_eq_some.2 ⟨rfl, (visible_eq_some.1 h).2⟩

theorem WellFormed.claimAnswer_code {e : Entry} (h : WellFormed e)
    (fingerprint : Str) : (claimAnswer fingerprint e).code ≠ 5 := by
  obtain ⟨fp, hfp, ⟨hstate, hresult, token, htoken⟩ | ⟨hstate, htoken, result, hresult, -⟩⟩ :=
    h.content
  · by_cases hmatch : fp.text = fingerprint
    · simp [claimAnswer, hstate, h.formatVersion, hfp, hresult, htoken, hmatch,
        completed_ne_processing.symm]
    · simp [claimAnswer, hstate, h.formatVersion, hfp, hresult, htoken, hmatch,
        completed_ne_processing.symm]
  · by_cases hmatch : fp.text = fingerprint
    · simp [claimAnswer, hstate, h.formatVersion, hfp, hresult, htoken, hmatch,
        completed_ne_processing]
    · simp [claimAnswer, hstate, h.formatVersion, hfp, hresult, htoken, hmatch,
        completed_ne_processing]

/-- What the adapter makes of a completed entry: the stored result for its own
fingerprint, a conflict for any other. -/
theorem readClaim_completed {R : RedisClient} {e : Entry} {result : CompletedIdempotencyResult}
    (hv : e.formatVersion = some version2) (hs : e.state = some completed) (hl : e.leaseToken = none)
    (hfp : e.requestFingerprint = some result.requestFingerprint.text)
    (hr : e.result = some (encodeCompleted result)) (fp : Digest) :
    readClaim R fp (claimAnswer fp.text e) =
      if result.requestFingerprint = fp then .ok (.replay result) else .ok .conflict := by
  by_cases hmatch : result.requestFingerprint = fp
  · subst hmatch
    simp [claimAnswer, hs, hv, hfp, hr, hl, completed_ne_processing, readClaim, R.decode_encode]
  · have htext : result.requestFingerprint.text ≠ fp.text := fun h => hmatch (text_inj h)
    simp [claimAnswer, hs, hv, hfp, hr, hl, completed_ne_processing, readClaim, htext, hmatch]

theorem readClaim_processing {R : RedisClient} {e : Entry} {fp' : Digest}
    (hv : e.formatVersion = some version2) (hs : e.state = some processing)
    (hr : e.result = none) (hl : e.leaseToken ≠ none)
    (hfp : e.requestFingerprint = some fp'.text) (fp : Digest) :
    readClaim R fp (claimAnswer fp.text e) =
      if fp' = fp then .ok .inProgress else .ok .conflict := by
  by_cases hmatch : fp' = fp
  · subst hmatch
    simp [claimAnswer, hs, hv, hfp, hr, hl, completed_ne_processing.symm, readClaim]
  · have htext : fp'.text ≠ fp.text := fun h => hmatch (text_inj h)
    simp [claimAnswer, hs, hv, hfp, hr, hl, completed_ne_processing.symm, readClaim, htext, hmatch]

theorem WellFormed.readClaim {R : RedisClient} {e : Entry} (h : WellFormed e) (fp : Digest) :
    ∃ result, readClaim R fp (claimAnswer fp.text e) = .ok result := by
  obtain ⟨fp', hfp, ⟨hstate, hresult, token, htoken⟩ | ⟨hstate, htoken, result, hresult, hrfp⟩⟩ :=
    h.content
  · rw [readClaim_processing h.formatVersion hstate hresult (by simp [htoken]) hfp]
    split
    · exact ⟨_, rfl⟩
    · exact ⟨_, rfl⟩
  · subst hrfp
    rw [readClaim_completed h.formatVersion hstate htoken hfp hresult]
    split
    · exact ⟨_, rfl⟩
    · exact ⟨_, rfl⟩

/-- What one call makes of a well-formed entry is well-formed and in time. -/
theorem Effect.wellFormed {R : RedisClient} {now : Instant} {c : HotCall} {e e' : Option Entry}
    {r : Except Exn c.Reply} (h : Effect R now c e r e') (he : ∀ x, e = some x → WellFormed x) :
    ∀ x, e' = some x → WellFormed x := by
  cases h with
  | acquire k fp token lease =>
    intro x hx
    cases hx
    exact ⟨rfl, ⟨_, rfl⟩, fp, rfl, .inl ⟨rfl, rfl, token, rfl⟩⟩
  | look k fp token lease e => exact he
  | renew k token lease e hown =>
    intro x hx
    cases hx
    exact { he e rfl with expireAt := ⟨_, rfl⟩ }
  | publish k token result ttl e hown hfp httl =>
    intro x hx
    cases hx
    exact ⟨hown.1, ⟨_, rfl⟩, result.requestFingerprint, hfp, .inr ⟨rfl, rfl, result, rfl, rfl⟩⟩
  | expire k token result ttl e hown =>
    intro x hx
    cases hx
  | release k token e hown =>
    intro x hx
    cases hx
  | notRenewed k token lease e => exact he
  | notCompleted k token result ttl e => exact he
  | notReleased k token e => exact he

/-- Only the owner of a lease changes an entry that exists. -/
theorem Effect.changed {R : RedisClient} {now : Instant} {c : HotCall} {x : Entry}
    {e' : Option Entry} {r : Except Exn c.Reply} (h : Effect R now c (some x) r e')
    (hne : e' ≠ some x) : x.OwnedBy (uuidText c.token) := by
  cases h with
  | look k fp token lease e => exact absurd rfl hne
  | renew k token lease e hown => exact hown
  | publish k token result ttl e hown hfp httl => exact hown
  | expire k token result ttl e hown => exact hown
  | release k token e hown => exact hown
  | notRenewed k token lease e => exact absurd rfl hne
  | notCompleted k token result ttl e => exact absurd rfl hne
  | notReleased k token e => exact absurd rfl hne

theorem Effect.created {R : RedisClient} {now : Instant} {c : HotCall} {e' : Option Entry}
    {r : Except Exn c.Reply} (h : Effect R now c none r e') (hc : c.isClaim = false) :
    e' = none := by
  cases h with
  | acquire k fp token lease => cases hc
  | notRenewed k token lease e => rfl
  | notCompleted k token result ttl e => rfl
  | notReleased k token e => rfl

theorem Effect.success {R : RedisClient} {now : Instant} {c : HotCall} {e e' : Option Entry}
    {r : Except Exn c.Reply} (h : Effect R now c e r e') (hs : Success c r) :
    ∃ x, e = some x ∧ x.OwnedBy (uuidText c.token) := by
  cases hs with
  | renew k token lease =>
    cases h with
    | renew _ _ _ e hown => exact ⟨e, rfl, hown⟩
  | complete k token result ttl =>
    cases h with
    | publish _ _ _ _ e hown hfp httl => exact ⟨e, rfl, hown⟩
  | release k token =>
    cases h with
    | release _ _ e hown => exact ⟨e, rfl, hown⟩

def HotCall.ends : HotCall → Bool
  | .complete .. | .release .. => true
  | _ => false

theorem Effect.ended {R : RedisClient} {now : Instant} {c : HotCall} {e e' : Option Entry}
    {r : Except Exn c.Reply} (h : Effect R now c e r e') (hc : c.ends = true) (hs : Success c r)
    {token : Str} : ∀ x, e' = some x → ¬ x.OwnedBy token := by
  intro x hx hown
  cases hs with
  | renew k token lease => cases hc
  | complete k token result ttl =>
    cases h with
    | publish _ _ _ _ e _ _ _ =>
      cases hx
      exact completed_ne_processing (Option.some.inj hown.2.1)
  | release k token =>
    cases h with
    | release _ _ e _ => cases hx

inductive Granted : (c : HotCall) → Except Exn c.Reply → Prop where
  | claim (k fp token lease) : Granted (.claim k fp token lease) (.ok .acquired)

theorem Granted.isClaim {c : HotCall} {r : Except Exn c.Reply} (h : Granted c r) :
    c.isClaim = true := by
  cases h
  rfl

/-- After a call the entry is owned only by a token that owned it before, or by the
token of the claim that has just been granted. -/
theorem Effect.owner {R : RedisClient} {now : Instant} {c : HotCall} {e : Option Entry} {x : Entry}
    {token : Str} {r : Except Exn c.Reply} (h : Effect R now c e r (some x))
    (hx : x.OwnedBy token) :
    (∃ y, e = some y ∧ y.OwnedBy token) ∨ (Granted c r ∧ token = uuidText c.token) := by
  cases h with
  | acquire k fp t lease => exact .inr ⟨.claim k fp t lease, (Option.some.inj hx.2.2).symm⟩
  | look k fp t lease e => exact .inl ⟨_, rfl, hx⟩
  | renew k t lease e hown => exact .inl ⟨e, rfl, hx⟩
  | publish k t result ttl e hown hfp httl =>
    exact absurd (Option.some.inj hx.2.1) completed_ne_processing
  | notRenewed k t lease e => exact .inl ⟨x, rfl, hx⟩
  | notCompleted k t result ttl e => exact .inl ⟨x, rfl, hx⟩
  | notReleased k t e => exact .inl ⟨x, rfl, hx⟩

section Runs
variable {W : Type} {R : RedisClient} {awaited : Bool}

/-- A lease token a claim was executed with. -/
def Claimed (token : Token) (h : Redis W) : Prop :=
  ∃ s ∈ h.served, s.call.isClaim = true ∧ s.call.token = token

/-- The server by itself: time passes, and any client executes any valid call, each
claim with a lease token no executed claim had. -/
inductive RedisStep (R : RedisClient) : Instant × Redis W → Instant × Redis W → Prop where
  | tick (now now' : Instant) (h : Redis W) (hle : now ≤ now') : RedisStep R (now, h) (now', h)
  | serve (now : Instant) (h : Redis W) (w : W) (awaited : Bool) (c : HotCall) (hvalid : c.Valid)
      (hfresh : c.isClaim = true → ¬ Claimed c.token h) :
      RedisStep R (now, h) (now, h.serve R w awaited now c)

abbrev RedisReachable (R : RedisClient) : Instant × Redis W → Instant × Redis W → Prop :=
  Relation.ReflTransGen (RedisStep R)

/-- Nobody sees an entry leased to `token` any more. -/
def Lost (token : Token) (p : Instant × Redis W) : Prop :=
  Claimed token p.2 ∧
    ∀ key x, visible p.1 (p.2.entries key) = some x → ¬ x.OwnedBy (uuidText token)

def KeptOrExpired (key : Str) (x : Entry) (p : Instant × Redis W) : Prop :=
  p.2.entries key = some x ∨ ∃ t, x.expireAt = some t ∧ t < ms p.1

variable {p q : Instant × Redis W}

theorem answer_effect (R : RedisClient) (now : Instant) (c : HotCall) (h : Redis W) :
    Effect R now c (visible now (h.entries (R.storageKey c.identity))) (h.answer R now c).1
      (h.answer R now c).2 := script_effect R now c _

theorem serve_entries (R : RedisClient) (w : W) (awaited : Bool) (now : Instant) (c : HotCall) (h : Redis W)
    (key : Str) : (h.serve R w awaited now c).entries key =
      if key = R.storageKey c.identity then (h.answer R now c).2 else h.entries key := by
  simp only [Redis.serve, Function.update_apply]

theorem reachable_wellFormed {now₀ : Instant} (hr : RedisReachable R (now₀, Redis.empty) p) :
    ∀ key x, p.2.entries key = some x → WellFormed x := by
  induction hr with
  | refl => exact fun key x hx => by cases hx
  | tail _ hs ih =>
    cases hs with
    | tick now now' h hle => exact ih
    | serve now h w awaited c hvalid hfresh =>
      intro key x hx
      rw [serve_entries] at hx
      split at hx
      · exact (answer_effect R now c h).wellFormed
          (fun y hy => ih _ y (visible_eq_some.1 hy).1) x hx
      · exact ih key x hx

theorem Claimed.step {token : Token} (h : Claimed token p.2) (hs : RedisStep R p q) :
    Claimed token q.2 := by
  obtain ⟨s, hmem, hs'⟩ := h
  cases hs with
  | tick now now' h hle => exact ⟨s, hmem, hs'⟩
  | serve now h w awaited c hvalid hfresh => exact ⟨s, List.mem_cons_of_mem _ hmem, hs'⟩

/-- A lost lease is lost for good: no call revives it. -/
theorem Lost.step {token : Token} (h : Lost token p) (hs : RedisStep R p q) : Lost token q := by
  refine ⟨h.1.step hs, ?_⟩
  cases hs with
  | tick now now' h' hle => exact fun key x hx => h.2 key x (visible_mono hle hx)
  | serve now h' w awaited c hvalid hfresh =>
    intro key x hx hown
    have hx' := hx
    rw [serve_entries] at hx'
    split at hx'
    · obtain ⟨hx', -⟩ := visible_eq_some.1 hx'
      have heff := answer_effect R now c h'
      rw [hx'] at heff
      rcases heff.owner hown with ⟨y, hy, hyown⟩ | ⟨hgranted, htoken⟩
      · exact h.2 _ y hy hyown
      · exact hfresh hgranted.isClaim (uuidText_inj htoken ▸ h.1)
    · exact h.2 key x hx' hown

theorem Lost.reachable {token : Token} (h : Lost token p) (hr : RedisReachable R p q) :
    Lost token q := by
  induction hr with
  | refl => exact h
  | tail _ hs ih => exact ih.step hs

theorem Lost.noop {now : Instant} {h : Redis W} {c : HotCall} (hl : Lost c.token (now, h))
    (hc : c.isClaim = false) (w : W) :
    (∀ key, visible now ((h.serve R w awaited now c).entries key) = visible now (h.entries key)) ∧
      ¬ Success c (h.answer R now c).1 := by
  have heff := answer_effect R now c h
  refine ⟨fun key => ?_, fun hs => ?_⟩
  · rw [serve_entries]
    split
    · rename_i hkey
      subst hkey
      cases hv : visible now (h.entries (R.storageKey c.identity)) with
      | none =>
        rw [hv] at heff
        rw [heff.created hc]
        rfl
      | some x =>
        rw [hv] at heff
        have hsame : (h.answer R now c).2 = some x := by
          by_contra hne
          exact hl.2 _ x hv (heff.changed hne)
        rw [hsame, ← hv, visible_visible]
    · rfl
  · obtain ⟨x, hx, hown⟩ := heff.success hs
    exact hl.2 _ x hx hown

theorem KeptOrExpired.step {key : Str} {x : Entry} (hx : x.state = some completed)
    (h : KeptOrExpired key x p) (hs : RedisStep R p q) : KeptOrExpired key x q := by
  cases hs with
  | tick now now' h' hle =>
    rcases h with h | ⟨t, ht, hlt⟩
    · exact .inl h
    · exact .inr ⟨t, ht, lt_of_lt_of_le hlt (Int.ediv_le_ediv (by decide) hle)⟩
  | serve now h' w awaited c hvalid hfresh =>
    rcases h with h | h
    · by_cases hkey : key = R.storageKey c.identity
      · by_cases hlive : ∀ t, x.expireAt = some t → ms now ≤ t
        · refine .inl ?_
          have hv : visible now (h'.entries (R.storageKey c.identity)) = some x := by
            rw [← hkey]
            exact visible_eq_some.2 ⟨h, hlive⟩
          have heff := answer_effect R now c h'
          rw [hv] at heff
          show (h'.serve R w awaited now c).entries key = some x
          rw [serve_entries, if_pos hkey]
          by_contra hne
          have hstate := (heff.changed hne).2.1
          rw [hx] at hstate
          exact completed_ne_processing (Option.some.inj hstate)
        · push Not at hlive
          obtain ⟨t, ht, hlt⟩ := hlive
          exact .inr ⟨t, ht, hlt⟩
      · refine .inl ?_
        show (h'.serve R w awaited now c).entries key = some x
        rw [serve_entries, if_neg hkey]
        exact h
    · exact .inr h

theorem KeptOrExpired.reachable {key : Str} {x : Entry} (hx : x.state = some completed)
    (h : KeptOrExpired key x p) (hr : RedisReachable R p q) : KeptOrExpired key x q := by
  induction hr with
  | refl => exact h
  | tail _ hs ih => exact ih.step hx hs

/-- Every owner is a claimed token, and a token owns one key at most. -/
structure SoleOwners (R : RedisClient) (h : Redis W) : Prop where
  claimed : ∀ key x owner, h.entries key = some x → x.OwnedBy owner →
    ∃ token, owner = uuidText token ∧ Claimed token h
  sole : ∀ key key' x x' owner, h.entries key = some x → x.OwnedBy owner →
    h.entries key' = some x' → x'.OwnedBy owner → key = key'

/-- An owner after a call owned the same key before it, or has just claimed it. -/
theorem serve_owner {now : Instant} {h : Redis W} {w : W} {c : HotCall} {key owner : Str} {x : Entry}
    (hx : (h.serve R w awaited now c).entries key = some x) (hown : x.OwnedBy owner) :
    (∃ y, h.entries key = some y ∧ y.OwnedBy owner) ∨
      (key = R.storageKey c.identity ∧ c.isClaim = true ∧ owner = uuidText c.token) := by
  rw [serve_entries] at hx
  split at hx
  · rename_i hkey
    have heff := answer_effect R now c h
    rw [hx] at heff
    rcases heff.owner hown with ⟨y, hy, hyown⟩ | ⟨hgranted, htoken⟩
    · exact .inl ⟨y, by rw [hkey]; exact (visible_eq_some.1 hy).1, hyown⟩
    · exact .inr ⟨hkey, hgranted.isClaim, htoken⟩
  · exact .inl ⟨x, hx, hown⟩

theorem SoleOwners.serve {now : Instant} {h : Redis W} {w : W} {c : HotCall}
    (hs : SoleOwners R h) (hfresh : c.isClaim = true → ¬ Claimed c.token h) :
    SoleOwners R (h.serve R w awaited now c) where
  claimed key x owner hx hown := by
    rcases serve_owner hx hown with ⟨y, hy, hyown⟩ | ⟨-, hclaim, howner⟩
    · obtain ⟨token, htoken, s, hmem, hcl⟩ := hs.claimed key y owner hy hyown
      exact ⟨token, htoken, s, List.mem_cons_of_mem _ hmem, hcl⟩
    · exact ⟨c.token, howner, ⟨w, awaited, now, c, (h.answer R now c).1⟩, List.mem_cons_self, hclaim, rfl⟩
  sole key key' x x' owner hx hown hx' hown' := by
    have hnew : ∀ key y, h.entries key = some y → y.OwnedBy owner → c.isClaim = true →
        owner ≠ uuidText c.token := by
      intro key y hy hyown hclaim howner
      obtain ⟨token, htoken, hcl⟩ := hs.claimed key y owner hy hyown
      have hsame : c.token = token := uuidText_inj (howner.symm.trans htoken)
      exact hfresh hclaim (hsame ▸ hcl)
    rcases serve_owner hx hown with ⟨y, hy, hyown⟩ | ⟨hkey, hclaim, howner⟩
    · rcases serve_owner hx' hown' with ⟨y', hy', hyown'⟩ | ⟨-, hclaim', howner'⟩
      · exact hs.sole key key' y y' owner hy hyown hy' hyown'
      · exact absurd howner' (hnew key y hy hyown hclaim')
    · rcases serve_owner hx' hown' with ⟨y', hy', hyown'⟩ | ⟨hkey', -, -⟩
      · exact absurd howner (hnew key' y' hy' hyown' hclaim)
      · rw [hkey, hkey']

theorem reachable_soleOwners {now₀ : Instant} (hr : RedisReachable R (now₀, Redis.empty) p) :
    SoleOwners R p.2 := by
  induction hr with
  | refl =>
    exact {
      claimed := fun _ _ _ hx => nomatch hx
      sole := fun _ _ _ _ _ hx => nomatch hx }
  | tail _ hs ih =>
    cases hs with
    | tick now now' h hle => exact ih
    | serve now h w awaited c hvalid hfresh => exact ih.serve hfresh

theorem SoleOwners.expired (hs : SoleOwners R p.2) {key : Str} {x : Entry} {token : Token}
    (hx : p.2.entries key = some x) (hown : x.OwnedBy (uuidText token))
    (hgone : visible p.1 (p.2.entries key) = none) : Lost token p := by
  obtain ⟨token', htoken, hcl⟩ := hs.claimed key x _ hx hown
  refine ⟨uuidText_inj htoken ▸ hcl, fun key' x' hx' hown' => ?_⟩
  have hkey := hs.sole key key' x x' _ hx hown (visible_eq_some.1 hx').1 hown'
  rw [hkey, hx'] at hgone
  cases hgone

theorem SoleOwners.ended {now : Instant} {h : Redis W} {c : HotCall} (hs : SoleOwners R h)
    (hc : c.ends = true) (hsucc : Success c (h.answer R now c).1) (w : W) :
    Lost c.token (now, h.serve R w awaited now c) := by
  have heff := answer_effect R now c h
  obtain ⟨x, hx, hown⟩ := heff.success hsucc
  obtain ⟨hx, -⟩ := visible_eq_some.1 hx
  have hclaim : c.isClaim = false := by
    cases c with
    | claim _ _ _ _ => cases hc
    | _ => rfl
  obtain ⟨token, htoken, s, hmem, hcl⟩ := hs.claimed _ x _ hx hown
  refine ⟨⟨s, List.mem_cons_of_mem _ hmem, uuidText_inj htoken ▸ hcl⟩, fun key y hy hyown => ?_⟩
  obtain ⟨hy, -⟩ := visible_eq_some.1 hy
  by_cases hkey : key = R.storageKey c.identity
  · change (h.serve R w awaited now c).entries key = some y at hy
    rw [serve_entries, if_pos hkey] at hy
    exact heff.ended hc hsucc y hy hyown
  · rcases serve_owner hy hyown with ⟨z, hz, hzown⟩ | ⟨_, hcl', -⟩
    · exact hkey (hs.sole key _ z x _ hz hzown hx hown)
    · rw [hclaim] at hcl'
      cases hcl'

/-- What holds of the server after any run. -/
structure HotOwnership (R : RedisClient) (p : Instant × Redis W) : Prop where
  wellFormed : ∀ key x, visible p.1 (p.2.entries key) = some x → WellFormed x
  claim_code : ∀ key x fingerprint, visible p.1 (p.2.entries key) = some x →
    (claimAnswer fingerprint x).code ≠ 5
  claim_answered : ∀ k fp token lease, ∃ result,
    (p.2.answer R p.1 (.claim k fp token lease)).1 = .ok result
  changed : ∀ c x, visible p.1 (p.2.entries (R.storageKey c.identity)) = some x →
    (p.2.answer R p.1 c).2 ≠ some x → x.OwnedBy (uuidText c.token)
  created : ∀ c, c.isClaim = false → visible p.1 (p.2.entries (R.storageKey c.identity)) = none →
    (p.2.answer R p.1 c).2 = none
  success : ∀ c, Success c (p.2.answer R p.1 c).1 → ∃ x,
    visible p.1 (p.2.entries (R.storageKey c.identity)) = some x ∧ x.OwnedBy (uuidText c.token)
  elsewhere : ∀ c w awaited key, key ≠ R.storageKey c.identity →
    (p.2.serve R w awaited p.1 c).entries key = p.2.entries key
  expired : ∀ key x token, p.2.entries key = some x → x.OwnedBy (uuidText token) →
    visible p.1 (p.2.entries key) = none → Lost token p
  ended : ∀ c, c.ends = true → Success c (p.2.answer R p.1 c).1 → ∀ w awaited,
    Lost c.token (p.1, p.2.serve R w awaited p.1 c)
  lost : ∀ token, Lost token p → ∀ q, RedisReachable R p q → ∀ c, c.isClaim = false →
    c.token = token → ∀ w awaited,
      (∀ key, visible q.1 ((q.2.serve R w awaited q.1 c).entries key) = visible q.1 (q.2.entries key)) ∧
        ¬ Success c (q.2.answer R q.1 c).1
  kept : ∀ key x, visible p.1 (p.2.entries key) = some x → x.state = some completed →
    ∀ q, RedisReachable R p q → visible q.1 (q.2.entries key) = some x ∨
      ∃ t, x.expireAt = some t ∧ t < ms q.1

/-- Every run of the four scripts, by any clients at any times, keeps ownership. -/
theorem redis_ownership {now₀ : Instant} (hr : RedisReachable R (now₀, Redis.empty) p) :
    HotOwnership R p where
  wellFormed key x hx := reachable_wellFormed hr key x (visible_eq_some.1 hx).1
  claim_code key x fingerprint hx :=
    (reachable_wellFormed hr key x (visible_eq_some.1 hx).1).claimAnswer_code fingerprint
  claim_answered k fp token lease := by
    show ∃ result, readClaim R fp (claimScript p.1 fp.text (uuidText token) lease
      (visible p.1 (p.2.entries (R.storageKey k)))).1 = .ok result
    cases hv : visible p.1 (p.2.entries (R.storageKey k)) with
    | none => exact ⟨.acquired, rfl⟩
    | some x => exact (reachable_wellFormed hr _ x (visible_eq_some.1 hv).1).readClaim fp
  changed c x hx hne := by
    have heff := answer_effect R p.1 c p.2
    rw [hx] at heff
    exact heff.changed hne
  created c hc hv := by
    have heff := answer_effect R p.1 c p.2
    rw [hv] at heff
    exact heff.created hc
  success c hs := (answer_effect R p.1 c p.2).success hs
  elsewhere c w awaited key hkey := by rw [serve_entries, if_neg hkey]
  expired key x token hx hown hgone := (reachable_soleOwners hr).expired hx hown hgone
  ended c hc hs w awaited := (reachable_soleOwners hr).ended hc hs w
  lost token hl q hq c hc htoken w awaited := by
    subst htoken
    exact (hl.reachable hq).noop hc w
  kept key x hx hstate q hq := by
    have hkept : KeptOrExpired key x p := .inl (visible_eq_some.1 hx).1
    rcases hkept.reachable hstate hq with h | h
    · by_cases hlive : ∀ t, x.expireAt = some t → ms q.1 ≤ t
      · exact .inl (visible_eq_some.2 ⟨h, hlive⟩)
      · push Not at hlive
        obtain ⟨t, ht, hlt⟩ := hlive
        exact .inr ⟨t, ht, hlt⟩
    · exact .inr h

/-- Two clients in turn: one claims, the other finds it busy, the first publishes. -/
theorem redis_ownership_sample : HotOwnership (sampleClient false)
    (1, (((Redis.empty : Redis Bool).serve (sampleClient false) true true 0
      (.claim sampleKey sampleFingerprint 7 30)).serve (sampleClient false) false true 0
        (.claim sampleKey sampleFingerprint 8 30)).serve (sampleClient false) true true 1
          (.complete sampleKey 7 sampleCompleted 300)) := by
  have hclaim : RedisStep (sampleClient false) ((0 : Instant), (Redis.empty : Redis Bool)) _ :=
    .serve 0 Redis.empty true true (.claim sampleKey sampleFingerprint 7 30) (by decide)
      (fun _ h => by obtain ⟨s, hs, -⟩ := h; cases hs)
  refine redis_ownership (.head hclaim ?_)
  refine .head (.serve 0 _ false true (.claim sampleKey sampleFingerprint 8 30) (by decide) ?_) ?_
  · rintro - ⟨s, hs, -, htoken⟩
    rcases List.mem_cons.1 hs with rfl | hs
    · exact absurd htoken (by decide)
    · cases hs
  · refine .head (.tick 0 1 _ (by decide)) ?_
    exact .single (.serve 1 _ true true (.complete sampleKey 7 sampleCompleted 300) (by decide) nofun)

end Runs
end ProfileService.Idempotency
