import ProfileService.Idempotency.Ownership

/-!
# Redelivered hot-store commands

A client that lost the reply sends the same `EVAL` again. Which commands answer and
leave the same as if they had arrived once, and which do not.
-/

namespace ProfileService.Idempotency
open Library Application

def Entry.untimed (e : Entry) : Entry :=
  { e with expireAt := none }

namespace Redis
variable {W : Type}

/-- `c` arrives at `t` and again at every instant of `ts`; only the last reply is read. -/
def redeliver (R : RedisClient) (w : W) (c : HotCall) :
    Instant → List Instant → Redis W → Except Exn c.Reply × Redis W
  | t, [], h => ((h.answer R t c).1, h.serve R w true t c)
  | t, t' :: ts, h => redeliver R w c t' ts (h.serve R w false t c)

/-- No delivery finds that the entry left by the one before it has expired. -/
def Unexpired (R : RedisClient) (w : W) (c : HotCall) : Instant → List Instant → Redis W → Prop
  | _, [], _ => True
  | t, t' :: ts, h =>
    visible t' ((h.serve R w false t c).entries (R.storageKey c.identity)) =
        (h.serve R w false t c).entries (R.storageKey c.identity) ∧
      Unexpired R w c t' ts (h.serve R w false t c)

/-- The last reply and the entry at the end are those of one delivery. -/
structure SameAsOnce (R : RedisClient) (w : W) (c : HotCall) (t : Instant) (ts : List Instant)
    (h : Redis W) : Prop where
  answer : (h.redeliver R w c t ts).1 = (h.redeliver R w c t []).1
  entry : ((h.redeliver R w c t ts).2.entries (R.storageKey c.identity)).map Entry.untimed =
    ((h.redeliver R w c t []).2.entries (R.storageKey c.identity)).map Entry.untimed

end Redis

/-- The entry does not change hands: a claim meets a key that exists, a release and a
completion meet somebody else's entry or, for the completion, an outlived result. -/
def HotCall.Repeatable (now : Instant) : HotCall → Option Entry → Prop
  | .claim _ _ _ _, e => e ≠ none
  | .renew _ _ _, _ => True
  | .complete _ token result ttl, e =>
    ∀ x, e = some x → x.OwnedBy (uuidText token) →
      x.requestFingerprint = some result.requestFingerprint.text →
      ttl = 0 ∨ timestampMs result.expiresAt ≤ ms now
  | .release _ token, e => ∀ x, e = some x → ¬ x.OwnedBy (uuidText token)

section
variable {R : RedisClient} {t u : Instant} {c : HotCall} {e : Option Entry}

theorem claimAnswer_leased (now : Instant) (fingerprint token : Str) (lease : Nat) :
    claimAnswer fingerprint (.leased now fingerprint token lease) = ⟨4, none⟩ := by
  simp [claimAnswer, Entry.leased, completed_ne_processing.symm]

theorem published_not_owned (x : Entry) (encoded token : Str) (until_ : Int) :
    ¬ (x.published encoded until_).OwnedBy token := by
  intro hown
  exact completed_ne_processing (Option.some.inj hown.2.1)

theorem accepted_ttl {ttl : Nat} {deadline now : Int} :
    min ((ttl : Int) * 1000) (deadline - now) ≤ 0 ↔ ttl = 0 ∨ deadline ≤ now := by
  omega

theorem repeatable_again (hr : c.Repeatable t e) :
    c.Repeatable u (R.script t c e).2 ∧
      (R.script u c (R.script t c e).2).1 = (R.script t c e).1 ∧
      (R.script u c (R.script t c e).2).2.map Entry.untimed =
        (R.script t c e).2.map Entry.untimed := by
  cases c with
  | claim k fp token lease =>
    cases e with
    | none => exact absurd rfl hr
    | some x => exact ⟨hr, rfl, rfl⟩
  | renew k token lease =>
    refine ⟨trivial, ?_⟩
    cases e with
    | none => exact ⟨rfl, rfl⟩
    | some x =>
      by_cases hown : x.OwnedBy (uuidText token) ∧ x.requestFingerprint ≠ none
      · have hagain : ∀ until_, ({ x with expireAt := until_ } : Entry).OwnedBy (uuidText token) ∧
            x.requestFingerprint ≠ none := fun _ => hown
        simp only [RedisClient.script, renewScript, if_pos hown, if_pos (hagain _)]
        exact ⟨trivial, rfl⟩
      · simp only [RedisClient.script, renewScript, if_neg hown]
        exact ⟨trivial, trivial⟩
  | complete k token result ttl =>
    cases e with
    | none => exact ⟨fun _ h => (Option.some_ne_none _ h.symm).elim, rfl, rfl⟩
    | some x =>
      by_cases hown : x.OwnedBy (uuidText token) ∧
          x.requestFingerprint = some result.requestFingerprint.text
      · have hlate := accepted_ttl.2 (hr x rfl hown.1 hown.2)
        simp only [RedisClient.script, completeScript, if_pos hown, if_pos hlate]
        exact ⟨fun _ h => (Option.some_ne_none _ h.symm).elim, trivial, trivial⟩
      · simp only [RedisClient.script, completeScript, if_neg hown]
        refine ⟨fun y hy h₁ h₂ => ?_, trivial, trivial⟩
        cases hy
        exact absurd ⟨h₁, h₂⟩ hown
  | release k token =>
    cases e with
    | none => exact ⟨hr, rfl, rfl⟩
    | some x =>
      have hown : ¬ x.OwnedBy (uuidText token) := hr x rfl
      simp only [RedisClient.script, releaseScript, if_neg hown]
      exact ⟨hr, trivial, trivial⟩

/-- After a command that is not repeatable, a second delivery is, and answers otherwise. -/
theorem not_repeatable_again (hr : ¬ c.Repeatable t e) :
    c.Repeatable u (R.script t c e).2 ∧
      (R.script u c (R.script t c e).2).1 ≠ (R.script t c e).1 := by
  cases c with
  | claim k fp token lease =>
    cases e with
    | some x => exact absurd (Option.some_ne_none x) hr
    | none =>
      simp only [RedisClient.script, claimScript, claimAnswer_leased, readClaim]
      exact ⟨Option.some_ne_none _, fun h => by cases h⟩
  | renew k token lease => exact absurd trivial hr
  | complete k token result ttl =>
    simp only [HotCall.Repeatable, not_forall] at hr
    obtain ⟨x, rfl, hown, hfp, hlive⟩ := hr
    have hown' : x.OwnedBy (uuidText token) ∧
        x.requestFingerprint = some result.requestFingerprint.text := ⟨hown, hfp⟩
    simp only [RedisClient.script, completeScript, if_pos hown', if_neg (mt accepted_ttl.1 hlive),
      published_not_owned, false_and, if_false]
    refine ⟨fun y hy h₁ => ?_, fun h => by cases h⟩
    cases hy
    exact absurd h₁ (published_not_owned _ _ _ _)
  | release k token =>
    simp only [HotCall.Repeatable, not_forall, not_not] at hr
    obtain ⟨x, rfl, hown⟩ := hr
    simp only [RedisClient.script, releaseScript, if_pos hown]
    exact ⟨fun _ h => (Option.some_ne_none _ h.symm).elim, fun h => by cases h⟩

end

section
variable {W : Type} {R : RedisClient} {w : W} {c : HotCall}

@[simp]
theorem serve_entries_self (h : Redis W) (awaited : Bool) (t : Instant) :
    (h.serve R w awaited t c).entries (R.storageKey c.identity) = (h.answer R t c).2 := by
  rw [serve_entries, if_pos rfl]

/-- A repeatable command, delivered any number of times: by induction on the redeliveries,
each of which meets an entry on which the command is still repeatable. -/
theorem repeatable_redeliver (ts : List Instant) (t : Instant) (h : Redis W)
    (hu : h.Unexpired R w c t ts)
    (hr : c.Repeatable t (visible t (h.entries (R.storageKey c.identity)))) :
    h.SameAsOnce R w c t ts := by
  induction ts generalizing t h with
  | nil => exact ⟨rfl, rfl⟩
  | cons t' ts ih =>
    obtain ⟨hvisible, hrest⟩ := hu
    have hmeets : visible t' ((h.serve R w false t c).entries (R.storageKey c.identity)) =
        (h.answer R t c).2 := by
      rw [hvisible, serve_entries_self]
    obtain ⟨hagain, hanswer, hentry⟩ := repeatable_again (R := R) (u := t') hr
    have hlast := ih t' (h.serve R w false t c) hrest (hmeets ▸ hagain)
    constructor
    · calc (h.redeliver R w c t (t' :: ts)).1
          = ((h.serve R w false t c).answer R t' c).1 := hlast.answer
        _ = (h.answer R t c).1 := by
            rw [Redis.answer, hmeets]
            exact hanswer
    · calc ((h.redeliver R w c t (t' :: ts)).2.entries (R.storageKey c.identity)).map Entry.untimed
          = ((h.serve R w false t c).answer R t' c).2.map Entry.untimed := by
            rw [← serve_entries_self (w := w) _ true t']
            exact hlast.entry
        _ = (h.answer R t c).2.map Entry.untimed := by
            rw [Redis.answer, hmeets]
            exact hentry
        _ = _ := by
            rw [← serve_entries_self (w := w) h true t]
            rfl

/-- In every state, and however often a command is delivered before the key expires,
the redeliveries go unnoticed exactly when there are none or the command leaves the
entry with whom it was. -/
theorem redelivery_unnoticed_iff (h : Redis W) (t : Instant) (ts : List Instant)
    (hu : h.Unexpired R w c t ts) :
    h.SameAsOnce R w c t ts ↔
      ts = [] ∨ c.Repeatable t (visible t (h.entries (R.storageKey c.identity))) := by
  constructor
  · intro hsame
    cases ts with
    | nil => exact .inl rfl
    | cons t' ts =>
      right
      by_contra hr
      obtain ⟨hvisible, hrest⟩ := hu
      have hmeets : visible t' ((h.serve R w false t c).entries (R.storageKey c.identity)) =
          (h.answer R t c).2 := by
        rw [hvisible, serve_entries_self]
      obtain ⟨hagain, hdiffers⟩ := not_repeatable_again (R := R) (u := t') hr
      have hlast := repeatable_redeliver ts t' (h.serve R w false t c) hrest (hmeets ▸ hagain)
      apply hdiffers
      calc (R.script t' c (h.answer R t c).2).1
          = ((h.serve R w false t c).answer R t' c).1 := by
            rw [← hmeets]
            rfl
        _ = (h.redeliver R w c t (t' :: ts)).1 := hlast.answer.symm
        _ = (h.answer R t c).1 := hsame.answer
  · rintro (rfl | hr)
    · exact ⟨rfl, rfl⟩
    · exact repeatable_redeliver ts t h hu hr

def sampleClaim : HotCall := .claim sampleKey sampleFingerprint 0 30

def sampleLease : Entry := .leased 0 sampleFingerprint.text (uuidText 0) 30

theorem sampleClaim_leaves :
    ((Redis.empty : Redis Unit).serve (sampleClient false) () false 0 sampleClaim).entries
      ((sampleClient false).storageKey sampleClaim.identity) = some sampleLease := by
  rw [serve_entries_self]
  rfl

theorem sampleLease_visible : visible 1000000 (some sampleLease) = some sampleLease :=
  visible_of_le rfl (by decide)

/-- Sent again a second later, it is answered as if somebody else held the key. -/
theorem claim_redelivered :
    RedisReachable (sampleClient false) ((0 : Instant), (Redis.empty : Redis Unit))
        (0, Redis.empty) ∧
      (Redis.empty : Redis Unit).Unexpired (sampleClient false) () sampleClaim 0 [1000000] ∧
      ((Redis.empty : Redis Unit).redeliver (sampleClient false) () sampleClaim 0 []).1 =
        .ok .acquired ∧
      ((Redis.empty : Redis Unit).redeliver (sampleClient false) () sampleClaim 0 [1000000]).1 =
        .ok .inProgress := by
  refine ⟨.refl, ⟨?_, trivial⟩, rfl, ?_⟩
  · rw [sampleClaim_leaves, sampleLease_visible]
  · show (Redis.answer (sampleClient false) 1000000 sampleClaim
      ((Redis.empty : Redis Unit).serve (sampleClient false) () false 0 sampleClaim)).1 = _
    rw [Redis.answer, sampleClaim_leaves, sampleLease_visible]
    show readClaim (sampleClient false) sampleFingerprint (claimAnswer sampleFingerprint.text sampleLease) = _
    rw [sampleLease, claimAnswer_leased]
    rfl

theorem redelivery_unnoticed_iff_sample :
    ¬ (Redis.empty : Redis Unit).SameAsOnce (sampleClient false) () sampleClaim 0 [1000000] := by
  intro hsame
  have hu : (Redis.empty : Redis Unit).Unexpired (sampleClient false) () sampleClaim 0 [1000000] :=
    ⟨by rw [sampleClaim_leaves, sampleLease_visible], trivial⟩
  rcases (redelivery_unnoticed_iff Redis.empty 0 [1000000] hu).1 hsame with hts | hr
  · cases hts
  · exact hr rfl

end
end ProfileService.Idempotency
