import ProfileService.Idempotency.Answers
import ProfileService.Idempotency.HotHistory

/-!
# Warming the hot cache

Completions of one durable record, at any times and with any cache lifetimes, never
let the cached copy outlive the record's deadline.
-/

namespace ProfileService.Idempotency
open Library Library.Machine Application

section HotRuns
variable {W : Type} {R : RedisClient} {now : Instant} {c : HotCall} {e : Option Entry}
  {r : Except Exn c.Reply}

/-- Time passes, the server executes a call of anybody, or it drops a key. -/
inductive HotStep (R : RedisClient) : Instant × Redis W → Instant × Redis W → Prop where
  | tick (now now' : Instant) (h : Redis W) (hle : now ≤ now') : HotStep R (now, h) (now', h)
  | serve (now : Instant) (h : Redis W) (w : W) (awaited : Bool) (c : HotCall) (hvalid : c.Valid) :
      HotStep R (now, h) (now, h.serve R w awaited now c)
  | evict (now : Instant) (h : Redis W) (key : Str) : HotStep R (now, h) (now, h.evict key)

inductive Replayed (result : CompletedIdempotencyResult) :
    (c : HotCall) → Except Exn c.Reply → Prop where
  | claim (k fp token lease) : Replayed result (.claim k fp token lease) (.ok (.replay result))

/-- `s` is the last accepted completion of `key`; it published `result`. -/
structure LastPublication (R : RedisClient) (key : Str) (result : CompletedIdempotencyResult)
    (ttl : Nat) (s : Served W) (served : List (Served W)) : Prop where
  keyed : s.key R = key
  accepted : Published result ttl s.call s.reply
  last : ∃ after before, served = after ++ s :: before ∧
    ∀ a ∈ after, a.key R = key → ∀ result' ttl', ¬ Published result' ttl' a.call a.reply

/-- Where the completed entries of a server come from, and what its claims replayed. -/
structure Warm (R : RedisClient) (p : Instant × Redis W) : Prop where
  entry : ∀ key x, p.2.entries key = some x → x.state = some completed →
    ∃ result ttl s, LastPublication R key result ttl s p.2.served ∧
      x.Caches result (publishedUntil s.instant result ttl)
  replayed : ∀ s ∈ p.2.served, ∀ result, Replayed result s.call s.reply →
    ms s.instant ≤ timestampMs result.expiresAt

theorem publishedUntil_le (now : Instant) (result : CompletedIdempotencyResult) (ttl : Nat) :
    publishedUntil now result ttl ≤ timestampMs result.expiresAt ∧
      publishedUntil now result ttl ≤ ms now + 1000 * ttl := by
  unfold publishedUntil
  omega

theorem Effect.completedEntry {x : Entry} (h : Effect R now c e r (some x))
    (hx : x.state = some completed) :
    (e = some x ∧ ∀ result ttl, ¬ Published result ttl c r) ∨
      ∃ result ttl, Published result ttl c r ∧
        x.Caches result (publishedUntil now result ttl) := by
  cases h with
  | acquire k fp token lease =>
    exact absurd (Option.some.inj hx).symm completed_ne_processing
  | look k fp token lease y => exact .inl ⟨rfl, fun _ _ hp => by cases hp⟩
  | renew k token lease y hown =>
    have hstate : some processing = some completed := hown.2.1.symm.trans hx
    exact absurd (Option.some.inj hstate).symm completed_ne_processing
  | publish k token result ttl y hown hfp httl =>
    exact .inr ⟨result, ttl, .complete k token, hown.1, rfl, rfl, hfp, rfl, rfl⟩
  | notRenewed k token lease y => exact .inl ⟨rfl, fun _ _ hp => by cases hp⟩
  | notCompleted k token result ttl y => exact .inl ⟨rfl, fun _ _ hp => by cases hp⟩
  | notReleased k token y => exact .inl ⟨rfl, fun _ _ hp => by cases hp⟩

/-- A claim is answered REPLAY from a completed entry only. -/
theorem claimAnswer_replays {fingerprint : Str} {x : Entry}
    (h : (claimAnswer fingerprint x).result ≠ none) :
    x.state = some completed ∧ (claimAnswer fingerprint x).result = x.result := by
  unfold claimAnswer at h ⊢
  cases hstate : x.state with
  | none => simp [hstate] at h
  | some state =>
    simp only [hstate] at h ⊢
    split_ifs at h ⊢ with h₁ h₂ h₃ h₄ h₅
    · exact absurd rfl h
    · exact absurd rfl h
    · exact absurd rfl h
    · exact absurd rfl h
    · exact ⟨by rw [h₅], rfl⟩
    · exact absurd rfl h
    · exact absurd rfl h

theorem Effect.replayed {result : CompletedIdempotencyResult} {e' : Option Entry}
    (h : Effect R now c e r e') (hr : Replayed result c r) :
    ∃ x, e = some x ∧ x.state = some completed ∧
      x.result.bind R.decodeCompleted = some result := by
  cases h with
  | acquire k fp token lease => cases hr
  | look k fp token lease x =>
    generalize hanswer : readClaim R fp (claimAnswer fp.text x) = answer at hr
    cases hr
    obtain ⟨hdecode, -⟩ := readClaim_holds hanswer
    have hfound : (claimAnswer fp.text x).result ≠ none := by
      intro hnone
      rw [hnone] at hdecode
      cases hdecode
    obtain ⟨hstate, hresult⟩ := claimAnswer_replays hfound
    exact ⟨x, rfl, hstate, hresult ▸ hdecode⟩
  | renew k token lease x hown => cases hr
  | publish k token result ttl x hown hfp httl => cases hr
  | expire k token result ttl x hown => cases hr
  | release k token x hown => cases hr
  | notRenewed k token lease x => cases hr
  | notCompleted k token result ttl x => cases hr
  | notReleased k token x => cases hr

theorem LastPublication.cons {key : Str} {result : CompletedIdempotencyResult} {ttl : Nat}
    {s a : Served W} {served : List (Served W)} (h : LastPublication R key result ttl s served)
    (ha : a.key R = key → ∀ result' ttl', ¬ Published result' ttl' a.call a.reply) :
    LastPublication R key result ttl s (a :: served) := by
  obtain ⟨after, before, rfl, hlast⟩ := h.last
  refine ⟨h.keyed, h.accepted, a :: after, before, rfl, fun a' ha' => ?_⟩
  rcases List.mem_cons.1 ha' with rfl | ha'
  · exact ha
  · exact hlast a' ha'

theorem Warm.live {p : Instant × Redis W} (hw : Warm R p) {key : Str} {x : Entry} {t : Instant}
    (hx : p.2.entries key = some x) (hstate : x.state = some completed)
    (hv : visible t (some x) = some x) :
    ∃ result ttl s, LastPublication R key result ttl s p.2.served ∧
      x.result = some (encodeCompleted result) ∧ ms t ≤ timestampMs result.expiresAt ∧
      ms t ≤ ms s.instant + 1000 * ttl := by
  obtain ⟨result, ttl, s, hlast, hcaches⟩ := hw.entry key x hx hstate
  have hlive : ms t ≤ publishedUntil s.instant result ttl :=
    (visible_eq_some.1 hv).2 _ hcaches.expireAt
  obtain ⟨hdeadline, hcache⟩ := publishedUntil_le s.instant result ttl
  exact ⟨result, ttl, s, hlast, hcaches.result, hlive.trans hdeadline, hlive.trans hcache⟩

theorem Warm.serve {h : Redis W} {w : W} {awaited : Bool} (hw : Warm R (now, h)) :
    Warm R (now, h.serve R w awaited now c) where
  entry key x hx hstate := by
    change (h.serve R w awaited now c).entries key = some x at hx
    rw [serve_entries] at hx
    have heff := answer_effect R now c h
    by_cases hkey : key = R.storageKey c.identity
    · rw [if_pos hkey] at hx
      rw [hx] at heff
      rcases heff.completedEntry hstate with ⟨hbefore, hno⟩ | ⟨result, ttl, hp, hcaches⟩
      · obtain ⟨result, ttl, s, hlast, hcaches⟩ :=
          hw.entry key x (by rw [hkey]; exact (visible_eq_some.1 hbefore).1) hstate
        exact ⟨result, ttl, s, hlast.cons fun _ => hno, hcaches⟩
      · exact ⟨result, ttl, ⟨w, awaited, now, c, (h.answer R now c).1⟩, ⟨hkey.symm, hp, [], h.served, rfl,
          fun _ ha => absurd ha List.not_mem_nil⟩, hcaches⟩
    · rw [if_neg hkey] at hx
      obtain ⟨result, ttl, s, hlast, hcaches⟩ := hw.entry key x hx hstate
      exact ⟨result, ttl, s, hlast.cons fun hkey' => absurd hkey'.symm hkey, hcaches⟩
  replayed s hs result hr := by
    rcases List.mem_cons.1 hs with rfl | hs
    · obtain ⟨x, hx, hstate, hdecode⟩ := (answer_effect R now c h).replayed hr
      have hentry := (visible_eq_some.1 hx).1
      obtain ⟨result', ttl, s, -, hencoded, hlive, -⟩ :=
        hw.live hentry hstate (hentry ▸ hx : visible now (some x) = some x)
      rw [hencoded, Option.bind_some, R.decode_encode] at hdecode
      cases hdecode
      exact hlive
    · exact hw.replayed s hs result hr

theorem Warm.step {p q : Instant × Redis W} (hw : Warm R p) (hs : HotStep R p q) : Warm R q := by
  cases hs with
  | tick now now' h hle => exact ⟨hw.entry, hw.replayed⟩
  | serve now h w awaited c hvalid => exact hw.serve
  | evict now h key =>
    refine ⟨fun key' x hx hstate => ?_, hw.replayed⟩
    change Function.update h.entries key none key' = some x at hx
    rw [Function.update_apply] at hx
    split at hx
    · cases hx
    · exact hw.entry key' x hx hstate

theorem reachable_warm {now₀ : Instant} {p : Instant × Redis W}
    (hr : Relation.ReflTransGen (HotStep R) (now₀, Redis.empty) p) : Warm R p := by
  induction hr with
  | refl => exact ⟨fun _ _ hx => (Option.some_ne_none _ hx.symm).elim,
      fun _ hs => absurd hs List.not_mem_nil⟩
  | tail _ hs ih => exact ih.step hs

/-- The life of the cached copies of `record` on a server. -/
structure CachedWithin (R : RedisClient) (record : CompletedIdempotencyResult)
    (p : Instant × Redis W) : Prop where
  entry : ∀ key x t, p.2.entries key = some x → x.state = some completed →
    x.result = some (encodeCompleted record) → visible t (some x) = some x →
    ms t ≤ ms record.expiresAt ∧
      ∃ ttl s, LastPublication R key record ttl s p.2.served ∧ ms t ≤ ms s.instant + 1000 * ttl
  late : ∀ k token ttl, ms record.expiresAt ≤ ms p.1 →
    (p.2.answer R p.1 (.complete k token record ttl)).1 = .ok false ∧
      ∀ x, (p.2.answer R p.1 (.complete k token record ttl)).2 = some x →
        visible p.1 (p.2.entries (R.storageKey k)) = some x ∧
          ¬ (x.OwnedBy (uuidText token) ∧
            x.requestFingerprint = some record.requestFingerprint.text)
  replayed : ∀ s ∈ p.2.served, Replayed record s.call s.reply →
    ms s.instant ≤ ms record.expiresAt
  accepted : ∀ k token ttl x, visible p.1 (p.2.entries (R.storageKey k)) = some x →
    x.OwnedBy (uuidText token) →
    x.requestFingerprint = some record.requestFingerprint.text → 0 < ttl →
    ms p.1 < ms record.expiresAt →
    ∃ y, p.2.answer R p.1 (.complete k token record ttl) = (.ok true, some y) ∧
      y.Caches record (min (ms p.1 + 1000 * ttl) (ms record.expiresAt)) ∧
      ∀ t, visible t (some y) = some y ↔ ms t ≤ min (ms p.1 + 1000 * ttl) (ms record.expiresAt)

theorem Warm.cachedWithin {p : Instant × Redis W} (hw : Warm R p)
    {record : CompletedIdempotencyResult}
    (hdeadline : timestampMs record.expiresAt = ms record.expiresAt) :
    CachedWithin R record p where
  entry key x t hx hstate hresult hv := by
    obtain ⟨result, ttl, s, hlast, hencoded, hlive, hcache⟩ := hw.live hx hstate hv
    obtain rfl : record = result :=
      encodeCompleted_injective (Option.some.inj (hresult.symm.trans hencoded))
    exact ⟨hdeadline ▸ hlive, ttl, s, hlast, hcache⟩
  late k token ttl hlate := by
    have hanswer : p.2.answer R p.1 (.complete k token record ttl) =
      (.ok (completeScript p.1 (uuidText token) (encodeCompleted record) (ttl * 1000)
        record.requestFingerprint.text (timestampMs record.expiresAt)
        (visible p.1 (p.2.entries (R.storageKey k)))).1,
       (completeScript p.1 (uuidText token) (encodeCompleted record) (ttl * 1000)
        record.requestFingerprint.text (timestampMs record.expiresAt)
        (visible p.1 (p.2.entries (R.storageKey k)))).2) := rfl
    rw [hanswer, hdeadline]
    cases hv : visible p.1 (p.2.entries (R.storageKey k)) with
    | none => exact ⟨rfl, fun x hx => by cases hx⟩
    | some x =>
      have httl : min ((ttl : Int) * 1000) (ms record.expiresAt - ms p.1) ≤ 0 := by omega
      by_cases hown : x.OwnedBy (uuidText token) ∧
          x.requestFingerprint = some record.requestFingerprint.text
      · simp only [completeScript, if_pos hown, if_pos httl]
        exact ⟨trivial, fun x hx => by cases hx⟩
      · simp only [completeScript, if_neg hown]
        refine ⟨trivial, fun y hy => ?_⟩
        cases hy
        exact ⟨rfl, hown⟩
  replayed s hs hr := hdeadline ▸ hw.replayed s hs record hr
  accepted k token ttl x hv hown hfp httl hlive := by
    have hleft : ¬ min ((ttl : Int) * 1000) (ms record.expiresAt - ms p.1) ≤ 0 := by omega
    have huntil : ms p.1 + min ((ttl : Int) * 1000) (ms record.expiresAt - ms p.1) =
        min (ms p.1 + 1000 * ttl) (ms record.expiresAt) := by omega
    have hcaches : (x.published (encodeCompleted record)
        (min (ms p.1 + 1000 * ttl) (ms record.expiresAt))).Caches record
        (min (ms p.1 + 1000 * ttl) (ms record.expiresAt)) :=
      ⟨hown.1, rfl, rfl, hfp, rfl, rfl⟩
    refine ⟨_, ?_, hcaches, fun t => ?_⟩
    · show ((.ok (completeScript p.1 (uuidText token) (encodeCompleted record) (ttl * 1000)
          record.requestFingerprint.text (timestampMs record.expiresAt)
          (visible p.1 (p.2.entries (R.storageKey k)))).1 : Except Exn Bool),
        (completeScript p.1 (uuidText token) (encodeCompleted record) (ttl * 1000)
          record.requestFingerprint.text (timestampMs record.expiresAt)
          (visible p.1 (p.2.entries (R.storageKey k)))).2) = _
      rw [hv, hdeadline]
      simp only [completeScript, if_pos (And.intro hown hfp), if_neg hleft, huntil]
      rfl
    · rw [visible_eq_some]
      simp [hcaches.expireAt]

end HotRuns

section Coordinator
variable {W : Type} [DecidableEq W] {H : HotStore W} {B : Business W} {F : Failures} {w : W}
  {s : World W H B} {α : Type}

/-- A returned result was alive at the last reading of the worker's clock. -/
def Alive (w : W) (r : Except Exn CompletedIdempotencyResult) (s : World W H B) : Prop :=
  ∀ result, r = .ok result → s.clockRead w < result.expiresAt

/-- `x` ends with `Q` whatever the others do; nothing is assumed of the world. -/
abbrev Ends (F : Failures) (w : W) (Q : Except Exn α → World W H B → Prop)
    (x : Code (sig B) Exn α) (s : World W H B) : Prop :=
  Safe (rely F) (fun _ => True) w Q x s

theorem ends_any (x : Code (sig B) Exn α) (s : World W H B) : Ends F w (fun _ _ => True) x s := by
  induction x generalizing s with
  | ret r => exact fun _ _ _ => trivial
  | call o k ih => exact fun _ _ _ r s₂ _ => ⟨trivial, ih r s₂⟩

theorem ends_throw (e : Exn) (s : World W H B) :
    Ends F w (Alive w) (throw e : Code (sig B) Exn CompletedIdempotencyResult) s :=
  fun _ _ _ _ hr => by cases hr

theorem ends_bind {x : Code (sig B) Exn α} {f : α → Code (sig B) Exn CompletedIdempotencyResult}
    (hf : ∀ a (s' : World W H B), Ends F w (Alive w) (f a) s') :
    Ends F w (Alive w) (x >>= f) s :=
  Safe.bind (ends_any x s) (fun a s' _ _ => hf a s') (fun _ _ _ _ hr => by cases hr)

theorem ends_evaluateResult (result : IdempotencyResult) (s : World W H B) :
    Ends F w (Alive w) (evaluateResult result) s := by
  have hlives : ∀ completed : CompletedIdempotencyResult, Ends F w (Alive w)
      (do
        let now ← clockNow (B := B)
        if completed.expiresAt ≤ now then
          throw (.idempotencyUnavailable "Replay lifetime expired before response")
        else return completed) s := by
    intro completed
    refine Safe.bind (P := fun r s' => r = .ok (s'.clockRead w)) (fun s₁ _ _ r s₂ he => ?_)
      (fun now s₁ hnow _ => ?_) (fun _ _ _ _ hr => by cases hr)
    · obtain ⟨rfl, rfl⟩ := he
      refine ⟨trivial, fun s₃ hf _ => ?_⟩
      show Except.ok s₁.now = Except.ok (s₃.clockRead w)
      rw [hf.clockRead]
      simp [World.readClock]
    · cases hnow
      split
      · exact ends_throw _ s₁
      · rename_i hlt
        intro s₂ hf _ c hc
        cases hc
        rw [hf.clockRead]
        exact not_le.1 hlt
  cases result with
  | executed completed => exact hlives completed
  | replay completed => exact hlives completed
  | conflict => exact ends_throw _ s
  | inProgress => exact ends_throw _ s

theorem ends_publish (identity : IdempotencyKey) (leaseToken : Token) (policy : IdempotencyPolicy)
    (result : IdempotencyResult) (s : World W H B) :
    Ends F w (Alive w) (publish identity leaseToken policy result) s := by
  refine ends_bind fun lost s₁ => ?_
  cases lost with
  | true =>
    by_cases hmode : policy.mode = .hotOnly
    · simp only [if_true, hmode]
      exact ends_throw _ s₁
    · simp only [if_true, if_neg hmode]
      exact ends_evaluateResult result s₁
  | false =>
    cases result with
    | executed completed => exact ends_bind fun _ => ends_evaluateResult _
    | replay completed => exact ends_bind fun _ => ends_evaluateResult _
    | conflict => exact ends_bind fun _ => ends_evaluateResult _
    | inProgress => exact ends_bind fun _ => ends_evaluateResult _

theorem ends_resolveBusy (identity : IdempotencyKey) (requestFingerprint : Digest)
    (busy : IdempotencyResult) (policy : IdempotencyPolicy) (s : World W H B) :
    Ends F w (Alive w) (resolveBusy identity requestFingerprint busy policy) s := by
  unfold resolveBusy
  split
  · refine ends_bind fun found s₁ => ?_
    cases found with
    | none => exact ends_evaluateResult busy s₁
    | some existing => exact ends_evaluateResult existing s₁
  · exact ends_evaluateResult busy s

/-- Every way through `execute` to a result is through `evaluateResult`. -/
theorem ends_execute (q : Request B) (s : World W H B) : Ends F w (Alive w) q.code s := by
  refine Safe.onOutcome (ends_any _ s) fun r s₁ _ => ?_
  cases r with
  | error e =>
    cases e with
    | idempotencyUnavailable message =>
      show Ends F w (Alive w) (if q.policy.mode = .hotOnly then _ else _) s₁
      split
      · exact ends_throw _ s₁
      · exact ends_bind ends_evaluateResult
    | _ => exact ends_throw _ s₁
  | ok claim =>
    cases claim with
    | acquired => exact ends_bind fun _ _ => ends_bind fun _ => ends_publish _ _ _ _
    | replay completed => exact ends_evaluateResult _ s₁
    | conflict => exact ends_resolveBusy _ _ _ _ s₁
    | inProgress => exact ends_resolveBusy _ _ _ _ s₁

/-- Dispatches of any requests over any hot store, in any interleaving: whatever one
returns was alive when its clock was last read. -/
theorem reachable_alive {job : W → Request B} {s₀ : World W H B}
    {c : Config (sig B) Exn W (World W H B) CompletedIdempotencyResult}
    (hr : (machine W H B F).Reachable ⟨s₀, fun w => some (job w).code⟩ c)
    {result : CompletedIdempotencyResult} (hw : c.task w = some (.ret (.ok result))) :
    c.state.clockRead w < result.expiresAt := by
  have hsafe : AllSafe (rely F) (fun _ => True) (fun w => Alive w) c :=
    reachable_safe (fun _ _ _ _ => trivial) (fun _ _ _ _ _ => trivial)
      ⟨trivial, fun u x hx => by
        cases hx
        exact ends_execute (job u) s₀⟩ hr
  exact hsafe.outcome hw result rfl

end Coordinator

/-- Warmed any number of times, a durable record is neither cached nor replayed past its
deadline, and the coordinator returns it only while its clock reads less; before the
deadline the lease owner may publish it. -/
theorem warming_bounded {W : Type} {R : RedisClient} {now₀ : Instant} {p : Instant × Redis W}
    {record : CompletedIdempotencyResult}
    (hdeadline : timestampMs record.expiresAt = ms record.expiresAt)
    (hr : Relation.ReflTransGen (HotStep R) (now₀, Redis.empty) p) :
    CachedWithin R record p ∧
      ∀ (V : Type) [DecidableEq V] (B : Business V) (F : Failures) (job : V → Request B)
        (s₀ : World V (redisHotStore V R) B)
        (c : Config (sig B) Exn V (World V (redisHotStore V R) B) CompletedIdempotencyResult) (v : V),
        (machine V (redisHotStore V R) B F).Reachable ⟨s₀, fun v => some (job v).code⟩ c →
        c.task v = some (.ret (.ok record)) → c.state.clockRead v < record.expiresAt :=
  ⟨(reachable_warm hr).cachedWithin hdeadline,
    fun _ _ _ _ _ _ _ _ hreach hv => reachable_alive hreach hv⟩

noncomputable def sampleWarmed : Redis Unit :=
  ((Redis.empty : Redis Unit).serve (sampleClient true) () true 0
    (.claim sampleKey sampleFingerprint 0 30)).serve (sampleClient true) () true 0
    (.complete sampleKey 0 sampleCompleted 300)

theorem warming_bounded_sample :
    CachedWithin (sampleClient true) sampleCompleted ((0 : Instant), sampleWarmed) := by
  have hclaimed : HotStep (sampleClient true) ((0 : Instant), (Redis.empty : Redis Unit)) _ :=
    .serve 0 _ () true (.claim sampleKey sampleFingerprint 0 30) (Nat.zero_lt_succ 29)
  have hpublished : HotStep (sampleClient true) _ ((0 : Instant), sampleWarmed) :=
    .serve 0 _ () true (.complete sampleKey 0 sampleCompleted 300) (Nat.zero_lt_succ 299)
  have hdeadline : timestampMs sampleCompleted.expiresAt = ms sampleCompleted.expiresAt :=
    timestampMs_seconds 86400 (by decide)
  exact (warming_bounded hdeadline ((Relation.ReflTransGen.single hclaimed).tail hpublished)).1

end ProfileService.Idempotency
