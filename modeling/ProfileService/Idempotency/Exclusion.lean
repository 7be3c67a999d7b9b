import ProfileService.Idempotency.ExactlyOnce
import ProfileService.Idempotency.HotOnly

/-!
# Windows of HOT_ONLY executions

From the claim of a dispatch that executed and returned to the deadline of its
result nobody else is granted a claim, and who asks after the publication gets
that result or a conflict.
-/

namespace ProfileService.Idempotency
open Library Library.Machine Application

theorem split_unique {α : Type} {p : α → Bool} {l₁ l₂ m₁ m₂ : List α} {x y : α}
    (h : l₁ ++ x :: l₂ = m₁ ++ y :: m₂) (hone : (l₁ ++ x :: l₂).countP p ≤ 1) (hx : p x = true)
    (hy : p y = true) : l₁ = m₁ ∧ x = y ∧ l₂ = m₂ := by
  have htwo : ∀ (z : α) (l : List α), p z = true → (z :: (l ++ y :: m₂)).countP p ≤ 1 → False := by
    intro z l hz hcount
    simp only [List.countP_cons, List.countP_append, hz, hy, if_true] at hcount
    omega
  induction l₁ generalizing m₁ with
  | nil =>
    cases m₁ with
    | nil =>
      obtain ⟨hxy, hl⟩ := List.cons_eq_cons.1 h
      exact ⟨rfl, hxy, hl⟩
    | cons z m₁ =>
      obtain ⟨rfl, rfl⟩ := List.cons_eq_cons.1 h
      exact (htwo x m₁ hx hone).elim
  | cons z l₁ ih =>
    cases m₁ with
    | nil =>
      obtain ⟨rfl, rfl⟩ := List.cons_eq_cons.1 h
      simp only [List.cons_append, List.countP_cons, List.countP_append, hx, hy, if_true] at hone
      omega
    | cons z' m₁ =>
      obtain ⟨rfl, hrest⟩ := List.cons_eq_cons.1 h
      have htail : (l₁ ++ x :: l₂).countP p ≤ 1 := by
        rw [List.cons_append, List.countP_cons] at hone
        omega
      obtain ⟨rfl, hxy, hl⟩ := ih hrest htail
      exact ⟨rfl, hxy, hl⟩

variable {W : Type} [DecidableEq W] {R : RedisClient} {B : Business W} {F : Failures}
  {job : W → Request B} {now₀ : Instant} {s : World W (redisHotStore W R) B}

def claimsBy (w : W) (a : Served W) : Bool := a.client = w ∧ a.call.isClaim

theorem Orderly.one_claim (h : Orderly job now₀ s) (w : W) :
    s.redis.served.countP (claimsBy w) ≤ 1 :=
  le_trans (Nat.le_add_right _ _) (h.once w)

theorem Orderly.same_claim (h : Orderly job now₀ s) {a b : Served W} (ha : a ∈ s.redis.served)
    (hb : b ∈ s.redis.served) (hclient : a.client = b.client) (hac : a.call.isClaim = true)
    (hbc : b.call.isClaim = true) : a = b := by
  obtain ⟨l₁, l₂, hl⟩ := List.append_of_mem ha
  obtain ⟨m₁, m₂, hm⟩ := List.append_of_mem hb
  have hone := h.one_claim b.client
  rw [hl] at hone
  exact (split_unique (hl.symm.trans hm) hone (by simp [claimsBy, hclient, hac])
    (by simp [claimsBy, hbc])).2.1

theorem FromCache.cases {c : CompletedIdempotencyResult} {k : IdempotencyKey} {fp : Digest}
    {token : Token} {lease : Nat} {r : Except Exn ClaimResult}
    (h : FromCache c (.claim k fp token lease) r) :
    (c.requestFingerprint = fp ∧ r = .ok (.replay c)) ∨
      (c.requestFingerprint ≠ fp ∧ r = .ok .conflict) := by
  cases h with
  | replay _ _ _ _ h => exact .inl ⟨h, rfl⟩
  | conflict _ _ _ _ h => exact .inr ⟨h, rfl⟩

theorem FromCache.not_granted {c : CompletedIdempotencyResult} {call : HotCall}
    {r : Except Exn call.Reply} (h : FromCache c call r) (hg : Granted call r) : False := by
  cases h with
  | replay _ _ _ _ _ => cases hg
  | conflict _ _ _ _ _ => cases hg

/-- The published entry outlives every millisecond before the deadline's. -/
theorem le_publishedUntil {c : CompletedIdempotencyResult} {set t : Int} {n : Nat}
    (hset : set ≤ t) (hexp : c.expiresAt = set + seconds n) :
    ms c.expiresAt - 1 ≤ publishedUntil t c n := by
  have hround : ms c.expiresAt - 1 ≤ timestampMs c.expiresAt :=
    le_timestampMs c.expiresAt_representable
  have hcache : ms c.expiresAt ≤ ms t + n * 1000 := by
    rw [hexp]
    unfold ms seconds
    omega
  unfold publishedUntil
  omega

/-- How a dispatch that is answered from the entry of `c` ends. -/
structure Outcome (q : Request B) (u : W) (c : CompletedIdempotencyResult)
    (r : Except Exn CompletedIdempotencyResult) (s : World W (redisHotStore W R) B) : Prop where
  same : c.requestFingerprint = q.requestFingerprint → Evaluated u c r s
  different : c.requestFingerprint ≠ q.requestFingerprint → r = .error (.idempotencyConflict
    "Ключ идемпотентности повторно использован с отличающимся телом запроса")

structure ExecutedBy (job : W → Request B) (w : W) (c : CompletedIdempotencyResult)
    (cfg : Config (sig B) Exn W (World W (redisHotStore W R) B) CompletedIdempotencyResult) :
    Prop where
  returned : cfg.task w = some (.ret (.ok c))
  granted : Acquired job w cfg.state

structure Exclusive (identity : IdempotencyKey) (job : W → Request B)
    (cfg : Config (sig B) Exn W (World W (redisHotStore W R) B) CompletedIdempotencyResult) :
    Prop where
  window : ∀ w c, ExecutedBy job w c cfg → ∃ later t earlier, cfg.state.redis.served =
      later ++ ⟨w, true, t, (job w).claim, (.ok .acquired : Except Exn ClaimResult)⟩ :: earlier ∧
    ∀ a ∈ later, a.Acquires R (R.storageKey identity) → ms c.expiresAt ≤ ms a.instant
  disjoint : ∀ w u c d, w ≠ u → ExecutedBy job w c cfg → ExecutedBy job u d cfg → ∀ t t',
    ⟨w, true, t, (job w).claim, (.ok .acquired : Except Exn ClaimResult)⟩ ∈
      cfg.state.redis.served →
    ⟨u, true, t', (job u).claim, (.ok .acquired : Except Exn ClaimResult)⟩ ∈
      cfg.state.redis.served →
    ms c.expiresAt ≤ ms t' ∨ ms d.expiresAt ≤ ms t
  answered : ∀ w c, ExecutedBy job w c cfg → ∃ after t before, cfg.state.redis.served =
      after ++ ⟨w, true, t, .complete (job w).identity (job w).leaseToken c
        (job w).policy.hotResultTtlSeconds, .ok true⟩ :: before ∧
    ∀ a ∈ after, a.call.isClaim = true → ms a.instant < ms c.expiresAt →
      FromCache c a.call a.reply ∧ (a.awaited = true → ∀ r, cfg.task a.client = some (.ret r) →
        Outcome (job a.client) a.client c r cfg.state)

variable {cfg : Config (sig B) Exn W (World W (redisHotStore W R) B) CompletedIdempotencyResult}
  {identity : IdempotencyKey}

/-- What a dispatch that executed and returned left on the server. -/
structure Left (identity : IdempotencyKey) (job : W → Request B) (w : W)
    (c : CompletedIdempotencyResult) (s : World W (redisHotStore W R) B)
    (after before : List (Served W)) (t tc : Instant) (middle earlier : List (Served W)) : Prop where
  published : s.redis.served = after ++ ⟨w, true, t, .complete (job w).identity (job w).leaseToken c
    (job w).policy.hotResultTtlSeconds, .ok true⟩ :: before
  claimed : before = middle ++
    ⟨w, true, tc, (job w).claim, (.ok .acquired : Except Exn ClaimResult)⟩ :: earlier
  held : ∀ a ∈ middle, ¬ a.Acquires R (R.storageKey identity)
  answered : ∀ a ∈ after, a.call.isClaim = true → ms a.instant < ms c.expiresAt →
    FromCache c a.call a.reply

section
variable (htoken : Function.Injective fun w => (job w).leaseToken)
  (hid : ∀ w, (job w).identity = identity)

include htoken hid

theorem Orderly.left (h : Orderly job now₀ s) {w : W} {c : CompletedIdempotencyResult}
    (hmode : (job w).policy.mode = .hotOnly) (hacq : Acquired job w s)
    (hpub : PublishedBy job w c s) :
    ∃ after before t tc middle earlier, Left identity job w c s after before t tc middle earlier := by
  obtain ⟨t, set, hmem, hset, hexp⟩ := hpub
  obtain ⟨after, before, hserved⟩ := List.append_of_mem hmem
  have hhistory := reachable_history h.reachable
  have hcert := hhistory.certified after _ before c (job w).policy.hotResultTtlSeconds hserved
    (.complete _ _)
  have hkey : ∀ a ∈ s.redis.served, a.call.isClaim = true → a.key R = R.storageKey identity := by
    intro a ha hclaim
    unfold Served.key
    rw [h.served a ha hclaim]
    exact congrArg R.storageKey (hid a.client)
  obtain ⟨middle, claim, earlier, hbefore, hacquires, hsame, hmiddle⟩ := hcert.held
  -- the claim that took the lease is the one claim of `w`
  have hin : claim ∈ s.redis.served := by
    rw [hserved, hbefore]
    simp
  have hclaim := hacquires.2.isClaim
  have hclient : claim.client = w := by
    refine htoken ?_
    have hcall := h.served claim hin hclaim
    rw [hcall] at hsame
    exact hsame
  obtain ⟨tc, htc⟩ := hacq
  have hequal := h.same_claim hin htc hclient hclaim rfl
  have hidentity : (job w).identity = identity := hid w
  refine ⟨after, before, t, tc, middle, earlier, hserved, by rw [hbefore, hequal], ?_, ?_⟩
  · intro a ha
    have hnot := hmiddle a ha
    unfold Served.key HotCall.identity at hnot
    rw [hidentity] at hnot
    exact hnot
  · intro a ha hac hlt
    have hkeyw : Served.key R (⟨w, true, t, .complete (job w).identity (job w).leaseToken c
        (job w).policy.hotResultTtlSeconds, .ok true⟩ : Served W) = R.storageKey identity :=
      congrArg R.storageKey hidentity
    have hain : a ∈ s.redis.served := by
      rw [hserved]
      exact List.mem_append_left _ ha
    refine hcert.answered a ha ((hkey a hain hac).trans hkeyw.symm) hac ?_
    have hbound := le_publishedUntil hset hexp
    have httl : (job w).policy.hotResultTtlSeconds = (job w).policy.retentionSeconds := by
      simp [IdempotencyPolicy.hotResultTtlSeconds, hmode]
    change ms a.instant ≤ publishedUntil t c (job w).policy.hotResultTtlSeconds
    rw [httl]
    omega

end

theorem Left.window {w : W} {c : CompletedIdempotencyResult} {after before : List (Served W)}
    {t tc : Instant} {middle earlier : List (Served W)}
    (h : Left identity job w c s after before t tc middle earlier) : ∃ later,
      s.redis.served = later ++
        ⟨w, true, tc, (job w).claim, (.ok .acquired : Except Exn ClaimResult)⟩ :: earlier ∧
      ∀ a ∈ later, a.Acquires R (R.storageKey identity) → ms c.expiresAt ≤ ms a.instant := by
  refine ⟨after ++ ⟨w, true, t, .complete (job w).identity (job w).leaseToken c
    (job w).policy.hotResultTtlSeconds, .ok true⟩ :: middle, ?_, fun a ha hacq => ?_⟩
  · rw [h.published, h.claimed]
    simp
  · rcases List.mem_append.1 ha with ha | ha
    · by_contra hlt
      exact (h.answered a ha hacq.2.isClaim (not_le.1 hlt)).not_granted hacq.2
    · rcases List.mem_cons.1 ha with rfl | ha
      · cases hacq.2
      · exact absurd hacq (h.held a ha)

theorem Orderly.outcome (h : Orderly job now₀ s) {u : W} {a : Served W}
    {c : CompletedIdempotencyResult} {r : Except Exn CompletedIdempotencyResult}
    (ha : a ∈ s.redis.served) (hclient : a.client = u) (hac : a.call.isClaim = true)
    (hawaited : a.awaited = true) (hfrom : FromCache c a.call a.reply) (hended : Ended job u r s) :
    Outcome (job u) u c r s := by
  have hanswer : ∀ x : Except Exn ClaimResult, Recorded u (job u).claim x s →
      (c.requestFingerprint = (job u).requestFingerprint ∧ x = .ok (.replay c)) ∨
        (c.requestFingerprint ≠ (job u).requestFingerprint ∧ x = .ok .conflict) := by
    rintro x ⟨t, ht⟩
    have hsame := h.same_claim ha ht hclient hac rfl
    subst hsame
    exact FromCache.cases hfrom
  have hcase : ∀ x : Except Exn ClaimResult, Recorded u (job u).claim x s →
      x ≠ .ok (.replay c) → x ≠ .ok .conflict → Outcome (job u) u c r s := by
    intro x hx hne hne'
    rcases hanswer x hx with ⟨-, hr⟩ | ⟨-, hr⟩
    · exact absurd hr hne
    · exact absurd hr hne'
  cases hended with
  | unheard e hun he hr =>
    have hfalse := hun a ha hclient hac
    rw [hawaited] at hfalse
    cases hfalse
  | refused e hx hr => exact hcase _ hx nofun nofun
  | replayed d hx hr =>
    rcases hanswer _ hx with ⟨hfp, hd⟩ | ⟨-, hd⟩
    · cases hd
      exact ⟨fun _ => hr, fun hne => absurd hfp hne⟩
    · cases hd
  | conflict hx hr =>
    rcases hanswer _ hx with ⟨-, hd⟩ | ⟨hfp, -⟩
    · cases hd
    · exact ⟨fun heq => absurd heq hfp, fun _ => hr⟩
  | inProgress hx hr => exact hcase _ hx nofun nofun
  | executed hx hr => exact hcase _ hx nofun nofun

/-- Any number of HOT_ONLY dispatches of one identity, in any interleaving with failing
calls, late messages, missed renewals and deaths. -/
theorem execute_exclusive {now : Instant} {business : B.State}
    {stored : IdempotencyKey → Option DurableRecord} (hevicts : R.evicts = false)
    (hid : ∀ w, (job w).identity = identity) (hmode : ∀ w, (job w).policy.mode = .hotOnly)
    (htoken : Function.Injective fun w => (job w).leaseToken)
    (hr : (machine W (redisHotStore W R) B Failures.any).Reachable
      ⟨World.initial now (Redis.empty : Redis W) business stored, fun w => some (job w).code⟩ cfg) :
    Exclusive identity job cfg := by
  have hstart : Orderly job now
      (World.initial now (Redis.empty : Redis W) business stored :
        World W (redisHotStore W R) B) :=
    { reachable := .refl
      served := fun _ ha => nomatch ha
      inflight := fun _ hm => nomatch hm
      once := fun _ => Nat.zero_le 1 }
  have hsafe : AllSafe (rely Failures.any) (Orderly job now) (Ended job) cfg := by
    refine reachable_safe (fun s s' hi he => hi.env htoken hevicts he) ?_
      ⟨hstart, fun w x hx => ?_⟩ hr
    · rintro w s s' hi ⟨-, rfl⟩
      exact hi.crash
    · cases hx
      exact keeping_execute htoken (hmode w) rfl
  have hi := hsafe.inv
  have hleft : ∀ w c, ExecutedBy job w c cfg → ∃ after before t tc middle earlier,
      Left identity job w c cfg.state after before t tc middle earlier := by
    intro w c hw
    refine hi.left htoken hid (hmode w) hw.granted ?_
    have hended := hsafe.outcome hw.returned
    have hone : ∀ x : Except Exn ClaimResult, Recorded w (job w).claim x cfg.state →
        x = .ok .acquired := by
      rintro x ⟨t, ht⟩
      obtain ⟨t', ht'⟩ := hw.granted
      have hsame := hi.same_claim ht ht' rfl rfl rfl
      cases hsame
      rfl
    cases hended with
    | unheard e hun he hr => cases hr
    | refused e hx hr => cases hr
    | replayed d hx hr => cases hone _ hx
    | conflict hx hr => cases hr
    | inProgress hx hr => cases hr
    | executed hx hr => exact hr c rfl
  have hwindow : ∀ w c, ExecutedBy job w c cfg → ∃ later t earlier, cfg.state.redis.served =
      later ++ ⟨w, true, t, (job w).claim, (.ok .acquired : Except Exn ClaimResult)⟩ :: earlier ∧
      ∀ a ∈ later, a.Acquires R (R.storageKey identity) → ms c.expiresAt ≤ ms a.instant := by
    intro w c hw
    obtain ⟨after, before, t, tc, middle, earlier, hl⟩ := hleft w c hw
    obtain ⟨later, hserved, hlater⟩ := hl.window
    exact ⟨later, tc, earlier, hserved, hlater⟩
  refine ⟨hwindow, fun w u c d hwu hw hu t t' ht ht' => ?_, fun w c hw => ?_⟩
  · have hacquires : ∀ v t, (⟨v, true, t, (job v).claim,
        (.ok .acquired : Except Exn ClaimResult)⟩ : Served W).Acquires R (R.storageKey identity) :=
      fun v t => ⟨congrArg R.storageKey (hid v), .claim _ _ _ _⟩
    obtain ⟨later, tw, earlier, hserved, hlater⟩ := hwindow w c hw
    have hself : (⟨w, true, tw, (job w).claim, (.ok .acquired : Except Exn ClaimResult)⟩ :
        Served W) ∈ cfg.state.redis.served := by
      rw [hserved]
      exact List.mem_append_right _ List.mem_cons_self
    obtain rfl : t = tw := congrArg Served.instant (hi.same_claim ht hself rfl rfl rfl)
    have hmem := ht'
    rw [hserved] at hmem
    rcases List.mem_append.1 hmem with hmem | hmem
    · exact .inl (hlater _ hmem (hacquires u t'))
    · rcases List.mem_cons.1 hmem with heq | hmem
      · exact absurd (congrArg Served.client heq).symm hwu
      · -- the claim of `u` came first, so that of `w` falls into its window
        obtain ⟨e₁, e₂, rfl⟩ := List.append_of_mem hmem
        obtain ⟨later', tu, earlier', hserved', hlater'⟩ := hwindow u d hu
        have hsplit := hserved
        rw [← List.cons_append, ← List.append_assoc] at hsplit
        have hone := hi.one_claim u
        rw [hsplit] at hone
        have hclaims : ∀ t, claimsBy u (⟨u, true, t, (job u).claim,
            (.ok .acquired : Except Exn ClaimResult)⟩ : Served W) = true := fun t => by
          simp [claimsBy, Request.claim, HotCall.isClaim]
        obtain ⟨hsame, -, -⟩ := split_unique (hsplit.symm.trans hserved') hone (hclaims t') (hclaims tu)
        refine .inr (hlater' _ ?_ (hacquires w t))
        rw [← hsame]
        exact List.mem_append_right _ List.mem_cons_self
  · obtain ⟨after, before, t, tc, middle, earlier, hl⟩ := hleft w c hw
    refine ⟨after, t, before, hl.published, fun a ha hac hlt => ?_⟩
    have hfrom := hl.answered a ha hac hlt
    refine ⟨hfrom, fun hawaited r hr => ?_⟩
    have hin : a ∈ cfg.state.redis.served := by
      rw [hl.published]
      exact List.mem_append_left _ ha
    exact hi.outcome hin rfl hac hawaited hfrom (hsafe.outcome hr)

section Sample

def exclusiveJob (w : Bool) : Request (effectLog Bool Bool) where
  identity := sampleKey
  requestFingerprint := sampleFingerprint
  operation := ⟨.ret (.ok StoredResult.completion), stageOnce w⟩
  policy := samplePolicy .hotOnly
  leaseToken := if w then 7 else 8

theorem sample_published (h : Redis Bool) (hfree : visible 0 (h.entries
    ((sampleClient false).storageKey sampleKey)) = none) :
    redisExec (sampleClient false) true 0 (.complete sampleKey 7 sampleCompleted 86400)
      (h.serve (sampleClient false) true true 0 (.claim sampleKey sampleFingerprint 7 30))
      (.ok true) ((h.serve (sampleClient false) true true 0
        (.claim sampleKey sampleFingerprint 7 30)).serve (sampleClient false) true true 0
          (.complete sampleKey 7 sampleCompleted 86400)) := by
  refine .inl ⟨?_, rfl⟩
  have hentry : (h.serve (sampleClient false) true true 0
      (.claim sampleKey sampleFingerprint 7 30)).entries ((sampleClient false).storageKey sampleKey) =
      some (.leased 0 sampleFingerprint.text (uuidText 7) 30) := by
    rw [serve_entries]
    refine (if_pos rfl).trans ?_
    show (claimScript _ _ _ _ (visible 0 (h.entries ((sampleClient false).storageKey sampleKey)))).2 = _
    rw [hfree]
    rfl
  show Except.ok true = Except.ok (completeScript _ _ _ _ _ _
    (visible 0 (Redis.entries _ ((sampleClient false).storageKey sampleKey)))).1
  rw [hentry, visible_of_le (t := 30000) rfl (by decide)]
  have hpos : 0 < timestampMs sampleCompleted.expiresAt :=
    lt_of_lt_of_le (by decide) (le_timestampMs sampleCompleted.expiresAt_representable)
  have httl : ¬ min ((86400 : Nat) * 1000 : Int) (timestampMs sampleCompleted.expiresAt - ms 0) ≤ 0 :=
    not_le.2 (lt_min (by decide) (by rw [show ms 0 = 0 from rfl, Int.sub_zero]; exact hpos))
  simp only [completeScript]
  rw [if_pos ⟨⟨rfl, rfl, rfl⟩, rfl⟩, if_neg httl]

theorem execute_exclusive_sample : ∃ cfg : Config (sig (effectLog Bool Bool)) Exn Bool
      (World Bool (redisHotStore Bool (sampleClient false)) (effectLog Bool Bool))
      CompletedIdempotencyResult,
    ExecutedBy exclusiveJob true sampleCompleted cfg ∧ Exclusive sampleKey exclusiveJob cfg := by
  have hrun : ∃ r s, Runs (machine Bool (redisHotStore Bool (sampleClient false))
      (effectLog Bool Bool) Failures.any) true (exclusiveJob true).code
      (World.initial 0 (Redis.empty : Redis Bool) ⟨[], fun _ => []⟩ fun _ => none) r s ∧
      r = .ok sampleCompleted ∧ Acquired exclusiveJob true s := by
    refine Runs.exists_call (.ok .acquired) ⟨_, .inl ⟨rfl, rfl⟩, rfl⟩ ?_
    refine Runs.exists_call (.ok ()) ⟨rfl, rfl⟩ ?_
    refine Runs.exists_call (.ok (0 : Int)) ⟨rfl, rfl⟩ ?_
    refine Runs.exists_call (.ok ()) ⟨rfl, rfl⟩ ?_
    refine Runs.exists_call (.ok false) ⟨rfl, rfl⟩ ?_
    refine Runs.exists_call (.ok true) ⟨_, sample_published Redis.empty rfl, rfl⟩ ?_
    refine Runs.exists_call (.ok (0 : Int)) ⟨rfl, rfl⟩ ?_
    refine ⟨_, _, .ret _ _, rfl, 0, ?_⟩
    exact List.mem_cons_of_mem _ List.mem_cons_self
  obtain ⟨r, s, hrun, rfl, hacq⟩ := hrun
  refine ⟨_, ⟨by simp, hacq⟩, execute_exclusive rfl (fun _ => rfl) (fun _ => rfl) ?_
    (hrun.reachable rfl)⟩
  intro a b hab
  cases a <;> cases b <;> first | rfl | exact absurd hab (by decide)

end Sample
end ProfileService.Idempotency
