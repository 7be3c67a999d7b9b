import ProfileService.Idempotency.Durability
import ProfileService.Idempotency.HotHistory

/-!
# HOT_ONLY exclusion

Every dispatch claims once with a token of its own. A dispatch that executed its
operation and returned has published its result under an unbroken lease, so nobody
else executes until the deadline of that result.
-/

namespace ProfileService.Idempotency
open Library Library.Machine Application

variable {W : Type} [DecidableEq W] {R : RedisClient} {B : Business W} {F : Failures}
  {job : W → Request B} {now₀ : Instant} {w : W} {α : Type}
  {s s' : World W (redisHotStore W R) B}

def World.redis (s : World W (redisHotStore W R) B) : Redis W := s.hot

def Request.claim (q : Request B) : HotCall :=
  .claim q.identity q.requestFingerprint q.leaseToken q.policy.leaseSeconds

def Redis.settled (h : Redis W) : Redis W := { h with inflight := [] }

/-- The server has only executed the four scripts, and the claims it has seen or will
see are those of the dispatches, one each. -/
structure Orderly (job : W → Request B) (now₀ : Instant)
    (s : World W (redisHotStore W R) B) : Prop where
  reachable : RedisReachable R (now₀, Redis.empty) (s.now, s.redis.settled)
  served : ∀ a ∈ s.redis.served, a.call.isClaim = true → a.call = (job a.client).claim
  inflight : ∀ m ∈ s.redis.inflight, m.2.Valid ∧ (m.2.isClaim = true → m.2 = (job m.1).claim)
  once : ∀ w, s.redis.claimsOf w ≤ 1

theorem Orderly.of_hot (h : Orderly job now₀ s) (hnow : s'.now = s.now) (hhot : s'.hot = s.hot) :
    Orderly job now₀ s' := by
  have hredis : s'.redis = s.redis := hhot
  refine ⟨?_, ?_, ?_, ?_⟩
  · rw [hnow, hredis]
    exact h.reachable
  · rw [hredis]
    exact h.served
  · rw [hredis]
    exact h.inflight
  · rw [hredis]
    exact h.once

theorem Orderly.setHeartbeat (h : Orderly job now₀ s) (hb : Option Heartbeat) :
    Orderly job now₀ (s.setHeartbeat w hb) := h.of_hot rfl rfl

/-- The discipline of a call: valid, and a claim only as the one claim of its client. -/
structure Disciplined (job : W → Request B) (w : W) (c : HotCall) (h : Redis W) : Prop where
  valid : c.Valid
  own : c.isClaim = true → c = (job w).claim
  first : c.isClaim = true → h.claimsOf w = 0

omit [DecidableEq W] in
theorem not_claimed {h : Redis W} (htoken : Function.Injective fun w => (job w).leaseToken)
    (hserved : ∀ a ∈ h.served, a.call.isClaim = true → a.call = (job a.client).claim)
    (hnone : ∀ a ∈ h.served, a.client = w → a.call.isClaim = true → False) :
    ¬ Claimed (job w).leaseToken h := by
  rintro ⟨a, ha, hclaim, hsame⟩
  have hown := hserved a ha hclaim
  have hclient : a.client = w := by
    refine htoken ?_
    show (job a.client).leaseToken = (job w).leaseToken
    rw [← hsame, hown]
    rfl
  exact hnone a ha hclient hclaim

theorem claimsOf_eq_zero {h : Redis W} (h₀ : h.claimsOf w = 0) :
    ∀ a ∈ h.served, a.client = w → a.call.isClaim = true → False := by
  intro a ha hclient hclaim
  unfold Redis.claimsOf at h₀
  have hcount : h.served.countP (fun a => a.client = w ∧ a.call.isClaim) = 0 := by omega
  exact (List.countP_eq_zero.1 hcount a ha) (by simp [hclient, hclaim])

theorem Orderly.call (htoken : Function.Injective fun w => (job w).leaseToken)
    (h : Orderly job now₀ s) {c : HotCall} {r : Except Exn c.Reply} {hot : Redis W}
    (hc : c.Valid → Disciplined job w c s.redis) (he : redisExec R w s.now c s.redis r hot) :
    Orderly job now₀ ({ s with hot := hot } : World W (redisHotStore W R) B) := by
  unfold redisExec at he
  split at he
  · rename_i hvalid
    have hd := hc hvalid
    have hcount : ∀ u, hot.claimsOf u ≤ 1 := by
      intro u
      by_cases hu : u = w ∧ c.isClaim = true
      · obtain ⟨rfl, hclaim⟩ := hu
        have h₀ := hd.first hclaim
        rcases he with ⟨-, rfl⟩ | ⟨e, -, -, rfl⟩
        · simp only [Redis.claimsOf, Redis.serve, List.countP_cons, hclaim, and_self, decide_true,
            if_true] at h₀ ⊢
          omega
        · simp only [Redis.claimsOf, List.countP_cons, hclaim, and_self, decide_true,
            if_true] at h₀ ⊢
          omega
      · have hframe : RedisFrame u s.redis hot := by
          have hexec : redisExec R w s.now c s.redis r hot := by
            unfold redisExec
            rw [if_pos hvalid]
            exact he
          refine redisExec_frame hexec ?_
          by_cases huw : u = w
          · exact .inr (by simpa using fun hcl => hu ⟨huw, hcl⟩)
          · exact .inl huw
        rw [hframe.claims]
        exact h.once u
    rcases he with ⟨-, rfl⟩ | ⟨e, -, -, rfl⟩
    · refine ⟨?_, fun a ha hclaim => ?_, h.inflight, hcount⟩
      · refine h.reachable.tail (.serve s.now s.redis.settled w true c hvalid fun hclaim => ?_)
        rw [hd.own hclaim]
        exact not_claimed htoken h.served (claimsOf_eq_zero (h := s.redis) (hd.first hclaim))
      · rcases List.mem_cons.1 ha with rfl | ha
        · exact hd.own hclaim
        · exact h.served a ha hclaim
    · refine ⟨h.reachable, h.served, fun m hm => ?_, hcount⟩
      rcases List.mem_cons.1 hm with rfl | hm
      · exact ⟨hvalid, hd.own⟩
      · exact h.inflight m hm
  · obtain ⟨-, rfl⟩ := he
    exact h.of_hot rfl rfl

theorem Orderly.env (htoken : Function.Injective fun w => (job w).leaseToken)
    (hevicts : R.evicts = false) (h : Orderly job now₀ s) (he : WorldEnv s s') :
    Orderly job now₀ s' := by
  cases he with
  | tick now hle => exact { h with reachable := h.reachable.tail (.tick s.now now s.redis.settled hle) }
  | hot hot he =>
    cases he with
    | deliver v c l₁ l₂ hm =>
      have hmem : (v, c) ∈ s.redis.inflight := by
        show (v, c) ∈ (s.hot : Redis W).inflight
        rw [hm]
        exact List.mem_append_right _ List.mem_cons_self
      obtain ⟨hvalid, hown⟩ := h.inflight (v, c) hmem
      have hdeliver : RedisEnv R s.now s.redis _ := .deliver s.redis v c l₁ l₂ hm
      have hframe : ∀ u, RedisFrame u s.redis _ := fun u => hdeliver.frame
      refine ⟨?_, fun a ha hclaim => ?_, fun m hm' => ?_, fun u => ?_⟩
      · refine h.reachable.tail (.serve s.now s.redis.settled v false c hvalid fun hclaim => ?_)
        rw [show c = (job v).claim from hown hclaim]
        refine not_claimed htoken h.served fun a ha hclient hac => ?_
        -- the message under way is already the one claim of its client
        have hone := h.once v
        simp only [Redis.claimsOf] at hone
        have hpos : 0 < s.redis.served.countP (fun a => a.client = v ∧ a.call.isClaim) :=
          List.countP_pos_iff.2 ⟨a, ha, by simp [hclient, hac]⟩
        have hpos' : 0 < s.redis.inflight.countP (fun m => m.1 = v ∧ m.2.isClaim) :=
          List.countP_pos_iff.2 ⟨(v, c), hmem, by simp [hclaim]⟩
        omega
      · rcases List.mem_cons.1 ha with rfl | ha
        · exact hown hclaim
        · exact h.served a ha hclaim
      · refine h.inflight m ?_
        show m ∈ (s.hot : Redis W).inflight
        rw [hm]
        rcases List.mem_append.1 hm' with hm' | hm'
        · exact List.mem_append_left _ hm'
        · exact List.mem_append_right _ (List.mem_cons_of_mem _ hm')
      · have hsame := (hframe u).claims
        exact le_of_eq_of_le hsame (h.once u)
    | evict key hev =>
      rw [hevicts] at hev
      cases hev
  | beat u hb r hot hw hrun he =>
    refine (h.call (c := .renew hb.identity hb.token hb.leaseSeconds) htoken (fun hvalid => ?_)
      he).setHeartbeat _
    exact ⟨hvalid, fun hcl => absurd hcl Bool.false_ne_true, fun hcl => absurd hcl Bool.false_ne_true⟩

theorem Orderly.crash (h : Orderly job now₀ s) : Orderly job now₀ (s.crash w) := by
  unfold World.crash
  split
  · exact (h.of_hot rfl rfl : Orderly job now₀ (s.rollback w)).setHeartbeat none
  · exact h.setHeartbeat none

def Recorded (w : W) (c : HotCall) (r : Except Exn c.Reply)
    (s : World W (redisHotStore W R) B) : Prop :=
  ∃ t, (⟨w, true, t, c, r⟩ : Served W) ∈ s.redis.served

def Unheard (w : W) (s : World W (redisHotStore W R) B) : Prop :=
  ∀ a ∈ s.redis.served, a.client = w → a.call.isClaim = true → a.awaited = false

/-- A completed result on its way to the caller: delivered while it lives. -/
def Evaluated (w : W) (c : CompletedIdempotencyResult) (r : Except Exn CompletedIdempotencyResult)
    (s : World W (redisHotStore W R) B) : Prop :=
  (r = .ok c ∧ s.clockRead w < c.expiresAt) ∨
    (r = .error (.idempotencyUnavailable "Replay lifetime expired before response") ∧
      c.expiresAt ≤ s.clockRead w)

/-- `w` published `c` after it had set its deadline. -/
def PublishedBy (job : W → Request B) (w : W) (c : CompletedIdempotencyResult)
    (s : World W (redisHotStore W R) B) : Prop :=
  ∃ t set, (⟨w, true, t, .complete (job w).identity (job w).leaseToken c
      (job w).policy.hotResultTtlSeconds, .ok true⟩ : Served W) ∈ s.redis.served ∧ set ≤ t ∧
    c.expiresAt = set + seconds (job w).policy.retentionSeconds

/-- How a HOT_ONLY dispatch ends, by the answer to its claim. -/
inductive Ended (job : W → Request B) (w : W) (r : Except Exn CompletedIdempotencyResult)
    (s : World W (redisHotStore W R) B) : Prop where
  | unheard (e : Exn) (h : Unheard w s) (he : HotFault e) (hr : r = .error e)
  | refused (e : Exn) (h : Recorded w (job w).claim (.error e : Except Exn ClaimResult) s)
      (hr : r = .error e)
  | replayed (c : CompletedIdempotencyResult)
      (h : Recorded w (job w).claim (.ok (.replay c) : Except Exn ClaimResult) s)
      (hr : Evaluated w c r s)
  | conflict (h : Recorded w (job w).claim (.ok .conflict : Except Exn ClaimResult) s)
      (hr : r = .error (.idempotencyConflict
        "Ключ идемпотентности повторно использован с отличающимся телом запроса"))
  | inProgress (h : Recorded w (job w).claim (.ok .inProgress : Except Exn ClaimResult) s)
      (hr : r = .error (.idempotencyInProgress
        "Запрос с данным ключом идемпотентности уже находится в процессе обработки"))
  | executed (h : Recorded w (job w).claim (.ok .acquired : Except Exn ClaimResult) s)
      (hr : ∀ c, r = .ok c → PublishedBy job w c s)

/-- A fact about the scripts executed so far, which no later one takes back. -/
def Lasting (P : World W (redisHotStore W R) B → Prop) : Prop :=
  ∀ s s', P s → s.redis.served <:+ s'.redis.served → P s'

theorem Lasting.frame {P : World W (redisHotStore W R) B → Prop} (h : Lasting P) (hs : P s)
    (hf : Frame w s s') : P s' := h s s' hs (RedisFrame.served hf.hot)

theorem Lasting.of_hot {P : World W (redisHotStore W R) B → Prop} (h : Lasting P) (hs : P s)
    (hhot : s'.hot = s.hot) : P s' := by
  have hredis : s'.redis = s.redis := hhot
  exact h s s' hs (by rw [hredis])

theorem Recorded.lasting (w : W) (c : HotCall) (r : Except Exn c.Reply) :
    Lasting (R := R) (B := B) (Recorded w c r) := by
  rintro s s' ⟨t, ht⟩ hserved
  exact ⟨t, hserved.subset ht⟩

theorem PublishedBy.lasting (job : W → Request B) (w : W) (c : CompletedIdempotencyResult) :
    Lasting (R := R) (PublishedBy job w c) := by
  rintro s s' ⟨t, set, ht, hrest⟩ hserved
  exact ⟨t, set, hserved.subset ht, hrest⟩

theorem Unheard.frame (h : Unheard w s) (hf : Frame w s s') : Unheard w s' := by
  intro a ha hclient hclaim
  by_contra hne
  have hold := RedisFrame.awaited hf.hot a ha hclient hclaim (by simpa using hne)
  exact hne (h a hold hclient hclaim)

theorem Evaluated.frame {c : CompletedIdempotencyResult}
    {r : Except Exn CompletedIdempotencyResult} (h : Evaluated w c r s) (hf : Frame w s s') :
    Evaluated w c r s' := by
  unfold Evaluated
  rw [hf.clockRead]
  exact h

theorem Ended.frame {r : Except Exn CompletedIdempotencyResult} (h : Ended job w r s)
    (hf : Frame w s s') : Ended job w r s' := by
  cases h with
  | unheard e h he hr => exact .unheard e (h.frame hf) he hr
  | refused e h hr => exact .refused e ((Recorded.lasting w _ _).frame h hf) hr
  | replayed c h hr => exact .replayed c ((Recorded.lasting w _ _).frame h hf) (hr.frame hf)
  | conflict h hr => exact .conflict ((Recorded.lasting w _ _).frame h hf) hr
  | inProgress h hr => exact .inProgress ((Recorded.lasting w _ _).frame h hf) hr
  | executed h hr =>
    exact .executed ((Recorded.lasting w _ _).frame h hf) fun c hc =>
      (PublishedBy.lasting job w c).frame (hr c hc) hf

abbrev Keeping (F : Failures) (job : W → Request B) (now₀ : Instant) (w : W)
    (Q : Except Exn α → World W (redisHotStore W R) B → Prop) (x : Code (sig B) Exn α)
    (s : World W (redisHotStore W R) B) : Prop := Safe (rely F) (Orderly job now₀) w Q x s

theorem keeping_call (htoken : Function.Injective fun w => (job w).leaseToken) {c : HotCall}
    {Q : Except Exn c.Reply → World W (redisHotStore W R) B → Prop}
    (hc : ∀ s₁, Frame w s s₁ → c.Valid → Disciplined job w c s₁.redis)
    (h : ∀ s₁ r hot s₂, Frame w s s₁ → redisExec R w s₁.now c s₁.redis r hot →
      Frame w { s₁ with hot := hot } s₂ → Q r s₂) :
    Keeping F job now₀ w Q (.call (.hot c) .ret) s := by
  intro s₁ hf hi r s₂ he
  obtain ⟨hot, he, rfl⟩ := he
  exact ⟨hi.call htoken (hc s₁ hf) he, fun s₃ hf₃ _ => h s₁ r hot s₃ hf he hf₃⟩

theorem keeping_lift {P : World W (redisHotStore W R) B → Prop} {x : Code (dbSig B) Exn α}
    (hlasting : Lasting P) (hs : P s) :
    Keeping F job now₀ w (fun _ s' => P s') (x.lift (dbInSig B)) s := by
  induction x generalizing s with
  | ret r => exact fun s' hf _ => hlasting.frame hs hf
  | call o k ih =>
    intro s₁ hf hi r s₂ he
    have hdb := dbExec_step he
    exact ⟨hi.of_hot hdb.now hdb.hot, ih _ (hlasting.of_hot (hlasting.frame hs hf) hdb.hot)⟩

theorem keeping_clockNow {Q : Except Exn Instant → World W (redisHotStore W R) B → Prop}
    (h : ∀ s₁ s₂, Frame w s s₁ → Frame w (s₁.readClock w) s₂ → Q (.ok s₁.now) s₂) :
    Keeping F job now₀ w Q clockNow s := by
  intro s₁ hf hi r s₂ he
  obtain ⟨rfl, rfl⟩ := he
  exact ⟨hi.of_hot rfl rfl, fun s₃ hf₃ _ => h s₁ s₃ hf hf₃⟩

theorem keeping_leaseLost {Q : Except Exn Bool → World W (redisHotStore W R) B → Prop}
    (h : ∀ s₁ lost, Frame w s s₁ → Q (.ok lost) s₁) : Keeping F job now₀ w Q leaseLost s := by
  intro s₁ hf hi r s₂ he
  obtain ⟨rfl, rfl⟩ := he
  exact ⟨hi, fun s₃ hf₃ _ => h s₃ _ (hf.trans hf₃)⟩

theorem keeping_evaluateResult {P : World W (redisHotStore W R) B → Prop} {result : IdempotencyResult}
    {c : CompletedIdempotencyResult} (hresult : result = .executed c ∨ result = .replay c)
    (hlasting : Lasting P) (hs : P s) :
    Keeping F job now₀ w (fun r s' => Evaluated w c r s' ∧ P s') (evaluateResult result) s := by
  have hcode : evaluateResult result = (do
      let now ← clockNow (B := B)
      if c.expiresAt ≤ now then
        throw (.idempotencyUnavailable "Replay lifetime expired before response")
      else return c) := by
    rcases hresult with rfl | rfl <;> rfl
  rw [hcode]
  refine Safe.bind (P := fun r s' => r = .ok (s'.clockRead w) ∧ P s')
    (keeping_clockNow fun s₁ s₂ hf hf₂ => ⟨?_, ?_⟩) (fun now s₁ hp _ => ?_)
    (fun e s₁ hp => by cases hp.1)
  · rw [hf₂.clockRead]
    simp [World.readClock]
  · have hread : P (s₁.readClock w) := hlasting.of_hot (hlasting.frame hs hf) rfl
    exact hlasting.frame hread hf₂
  · obtain ⟨hnow, hp⟩ := hp
    cases hnow
    split
    · rename_i hle
      exact fun s₂ hf _ => ⟨Evaluated.frame (.inr ⟨rfl, hle⟩) hf, hlasting.frame hp hf⟩
    · rename_i hlt
      exact fun s₂ hf _ => ⟨Evaluated.frame (.inl ⟨rfl, not_le.1 hlt⟩) hf, hlasting.frame hp hf⟩

abbrev Acquired (job : W → Request B) (w : W) (s : World W (redisHotStore W R) B) : Prop :=
  Recorded w (job w).claim (.ok .acquired : Except Exn ClaimResult) s

theorem Acquired.lasting (job : W → Request B) (w : W) :
    Lasting (R := R) (Acquired job w) := Recorded.lasting w _ _

/-- Under its lease `w` has at most executed, and a result carries the deadline it set. -/
def Timed (job : W → Request B) (w : W) (r : Except Exn IdempotencyResult)
    (s : World W (redisHotStore W R) B) : Prop :=
  Acquired job w s ∧ ∀ result, r = .ok result → ∃ c set, result = .executed c ∧ set ≤ s.now ∧
    c.expiresAt = set + seconds (job w).policy.retentionSeconds

theorem Timed.error {e : Exn} (h : Acquired job w s) : Timed job w (.error e) s :=
  ⟨h, fun _ hr => nomatch hr⟩

theorem Timed.frame {r : Except Exn IdempotencyResult} (h : Timed job w r s) (hf : Frame w s s') :
    Timed job w r s' := by
  refine ⟨(Acquired.lasting job w).frame h.1 hf, fun result hr => ?_⟩
  obtain ⟨c, set, hc, hset, hexp⟩ := h.2 result hr
  exact ⟨c, set, hc, le_trans hset hf.now, hexp⟩

theorem keeping_executeOperation (hmode : (job w).policy.mode = .hotOnly) (hs : Acquired job w s) :
    Keeping F job now₀ w (Timed job w)
      (executeOperation (job w).identity (job w).requestFingerprint (job w).operation
        (job w).policy) s := by
  simp only [executeOperation, hmode, reduceCtorEq, if_false]
  refine Safe.bind (keeping_lift (Acquired.lasting job w) hs) (fun stored s₁ hp _ => ?_)
    (fun e s' hp => .error hp)
  refine Safe.bind (P := fun r s' => Acquired job w s' ∧ ∃ now, r = .ok now ∧ now ≤ s'.now)
    (keeping_clockNow fun s₂ s₃ hf hf₃ => ⟨?_, s₂.now, rfl, hf₃.now⟩) (fun now s₂ hq _ => ?_)
    (fun e s' hq => .error hq.1)
  · have hread : Acquired job w (s₂.readClock w) :=
      (Acquired.lasting job w).of_hot ((Acquired.lasting job w).frame hp hf) rfl
    exact (Acquired.lasting job w).frame hread hf₃
  · obtain ⟨hacq, _, hnow, hle⟩ := hq
    cases hnow
    show Keeping F job now₀ w _ (Code.onReturn _ (deadlineAfter now _)) s₂
    cases hd : deadlineAfter now (job w).policy.retentionSeconds with
    | error e => exact fun s₃ hf _ => .error ((Acquired.lasting job w).frame hacq hf)
    | ok expiresAt =>
      refine fun s₃ hf _ => ⟨(Acquired.lasting job w).frame hacq hf, fun result hr => ?_⟩
      cases hr
      exact ⟨_, now, rfl, le_trans hle hf.now, deadlineAfter_eq hd⟩

section
variable (htoken : Function.Injective fun w => (job w).leaseToken)

include htoken

omit htoken [DecidableEq W] in
theorem redisExec_recorded {now : Instant} {c : HotCall} {h h' : Redis W} {r : Except Exn c.Reply}
    (he : redisExec R w now c h r h') (hvalid : c.Valid) :
    (⟨w, true, now, c, r⟩ : Served W) ∈ h'.served ∨
      (∃ e, HotFault e ∧ r = .error e) ∧ h'.served = h.served := by
  unfold redisExec at he
  rw [if_pos hvalid] at he
  rcases he with ⟨rfl, rfl⟩ | ⟨e, hfault, hr, rfl⟩
  · exact .inl List.mem_cons_self
  · exact .inr ⟨⟨e, hfault, hr⟩, rfl⟩

/-- An own call of the hot store keeps what lasts. -/
theorem keeping_own {P : World W (redisHotStore W R) B → Prop} {c : HotCall}
    {Q : Except Exn c.Reply → World W (redisHotStore W R) B → Prop} (hlasting : Lasting P)
    (hs : P s) (hclaim : c.isClaim = false)
    (hQ : ∀ s₁ r hot s₂, Frame w s s₁ → redisExec R w s₁.now c s₁.redis r hot →
      Frame w { s₁ with hot := hot } s₂ → P s₂ → Q r s₂) :
    Keeping F job now₀ w Q (.call (.hot c) .ret) s := by
  refine keeping_call htoken (fun s₁ _ hvalid => ⟨hvalid, ?_, ?_⟩) fun s₁ r hot s₂ hf he hf₂ => ?_
  · rw [hclaim]
    exact nofun
  · rw [hclaim]
    exact nofun
  · refine hQ s₁ r hot s₂ hf he hf₂ (hlasting.frame ?_ hf₂)
    exact hlasting s₁ _ (hlasting.frame hs hf) (redisExec_frame he (w := w) (.inr hclaim)).served

theorem keeping_release_ {P : World W (redisHotStore W R) B → Prop} (hlasting : Lasting P)
    (hs : P s) : Keeping F job now₀ w (fun _ s' => P s')
      (release_ (job w).identity (job w).leaseToken) s := by
  refine Safe.onOutcome (P := fun _ s' => P s')
    (keeping_own htoken hlasting hs rfl fun _ _ _ _ _ _ _ hp => hp) fun r s₁ hp => ?_
  split
  all_goals exact fun s₂ hf hi => hp s₂ hf hi

theorem keeping_abandonClaim {e : Exn} (hs : Acquired job w s) :
    Keeping F job now₀ w (Timed job w) (abandonClaim (job w).identity (job w).leaseToken e) s := by
  refine Safe.bind (P := fun _ s' => Acquired job w s')
    (keeping_leaseLost fun s₁ _ hf => (Acquired.lasting job w).frame hs hf) (fun lost s₁ hp _ => ?_)
    (fun e s' hp => .error hp)
  cases lost with
  | true => exact fun s₂ hf _ => .error ((Acquired.lasting job w).frame hp hf)
  | false =>
    exact Safe.bind (keeping_release_ htoken (Acquired.lasting job w) hp)
      (fun _ s₂ hq _ s₃ hf _ => .error ((Acquired.lasting job w).frame hq hf))
      (fun e s' hq => .error hq)

theorem keeping_complete_ {c : CompletedIdempotencyResult} {set : Instant}
    (hmode : (job w).policy.mode = .hotOnly) (hs : Acquired job w s) (hset : set ≤ s.now)
    (hexp : c.expiresAt = set + seconds (job w).policy.retentionSeconds) :
    Keeping F job now₀ w (fun r s' => Acquired job w s' ∧ (r = .ok () → PublishedBy job w c s'))
      (complete_ (job w).identity (job w).leaseToken c (job w).policy) s := by
  refine Safe.onOutcome (P := fun r s' => Acquired job w s' ∧
      (r = .ok true → PublishedBy job w c s'))
    (keeping_own htoken (Acquired.lasting job w) hs rfl fun s₁ r hot s₂ hf he hf₂ hp => ⟨hp, ?_⟩)
    fun r s₁ hp => ?_
  · intro hr
    rcases redisExec_recorded he (job w).policy.hotResultTtlSeconds_pos with hmem | ⟨⟨e, -, hr'⟩, -⟩
    · subst hr
      exact ⟨s₁.now, set, (RedisFrame.served hf₂.hot).subset hmem, le_trans hset hf.now, hexp⟩
    · rw [hr'] at hr
      cases hr
  · refine Safe.of_rely fun s₂ hf hi => ?_
    obtain ⟨hacq, hpub⟩ := hp s₂ hf hi
    have hstop : ∀ e : Exn, Keeping F job now₀ w (fun r s' => Acquired job w s' ∧
        (r = .ok () → PublishedBy job w c s')) (.ret (.error e)) s₂ := fun e s₃ hf₃ _ =>
      ⟨(Acquired.lasting job w).frame hacq hf₃, nofun⟩
    split
    · simp only [hmode, if_true]
      exact hstop _
    · exact hstop _
    · rename_i published
      cases published with
      | true =>
        simp only [hmode, Bool.not_true, Bool.false_eq_true, false_and, if_false]
        exact fun s₃ hf₃ _ => ⟨(Acquired.lasting job w).frame hacq hf₃, fun _ =>
          (PublishedBy.lasting job w c).frame (hpub rfl) hf₃⟩
      | false =>
        simp only [hmode, Bool.not_false, and_self, if_true]
        exact hstop _

theorem keeping_publish {result : IdempotencyResult} (hmode : (job w).policy.mode = .hotOnly)
    (h : Timed job w (.ok result) s) : Keeping F job now₀ w (Ended job w)
      (publish (job w).identity (job w).leaseToken (job w).policy result) s := by
  obtain ⟨hacq, htimed⟩ := h
  obtain ⟨c, set, rfl, hset, hexp⟩ := htimed result rfl
  have herror : ∀ (e : Exn) (s' : World W (redisHotStore W R) B), Acquired job w s' →
      Ended job w (.error e) s' := fun e s' hp => .executed hp fun c hc => nomatch hc
  refine Safe.bind (P := fun _ s' => Acquired job w s' ∧ set ≤ s'.now)
    (keeping_leaseLost fun s₁ _ hf =>
      ⟨(Acquired.lasting job w).frame hacq hf, le_trans hset hf.now⟩)
    (fun lost s₁ hp _ => ?_) (fun e s' hp => herror e s' hp.1)
  cases lost with
  | true =>
    simp only [if_true, hmode]
    exact fun s₂ hf _ => herror _ s₂ ((Acquired.lasting job w).frame hp.1 hf)
  | false =>
    refine Safe.bind (keeping_complete_ htoken hmode hp.1 hp.2 hexp) (fun _ s₂ hq _ => ?_)
      (fun e s' hq => herror e s' hq.1)
    refine (keeping_evaluateResult (P := fun s' => Acquired job w s' ∧ PublishedBy job w c s')
      (.inl rfl) ?_ ⟨hq.1, hq.2 rfl⟩).mono fun r s₃ hr => ?_
    · exact fun s s' h hserved => ⟨Acquired.lasting job w s s' h.1 hserved,
        PublishedBy.lasting job w c s s' h.2 hserved⟩
    · obtain ⟨heval, hacq₃, hpub⟩ := hr
      refine .executed hacq₃ fun d hd => ?_
      rcases heval with ⟨hr, -⟩ | ⟨hr, -⟩
      · rw [hr] at hd
        cases hd
        exact hpub
      · rw [hr] at hd
        cases hd

theorem keeping_executeClaimed (hmode : (job w).policy.mode = .hotOnly) (hs : Acquired job w s) :
    Keeping F job now₀ w (Ended job w)
      (executeClaimed (job w).identity (job w).requestFingerprint (job w).leaseToken
        (job w).operation (job w).policy) s := by
  have hlasting := Acquired.lasting (R := R) job w
  have herror : ∀ (e : Exn) (s' : World W (redisHotStore W R) B), Acquired job w s' →
      Ended job w (.error e) s' := fun e s' hp => .executed hp fun c hc => nomatch hc
  refine Safe.bind (P := fun _ s' => Acquired job w s') (fun s₁ hf hi r s₂ he => ?_)
    (fun _ s₁ hs₁ _ => ?_) (fun e s' hp => herror e s' hp)
  · obtain ⟨rfl, rfl⟩ := he
    have hs₂ : Acquired job w (s₁.setHeartbeat w (some ⟨(job w).identity, (job w).leaseToken,
        (job w).policy.leaseSeconds, false, false⟩)) :=
      hlasting.of_hot (hlasting.frame hs hf) rfl
    exact ⟨hi.setHeartbeat _, fun s₃ hf₃ _ => hlasting.frame hs₂ hf₃⟩
  · refine Safe.bind (P := Timed job w) (Safe.onOutcome
      (Safe.tryCatch (keeping_executeOperation hmode hs₁) (fun _ _ h => h)
        (fun e s₂ hp _ => keeping_abandonClaim htoken hp.1)) fun r s₂ hp => ?_)
      (fun result s₂ hp _ => keeping_publish htoken hmode hp) (fun e s' hp => herror e s' hp.1)
    refine Safe.of_rely fun s₃ hf hi => ?_
    have hr := hp s₃ hf hi
    refine Safe.onOutcome (P := fun r' s' => r' = .ok () ∧ Timed job w r s')
      (fun s₄ hf₄ hi₄ r' s₅ he => ?_) (fun stopped s₄ hq => Safe.of_rely fun s₅ hf₅ hi₅ => ?_)
    · obtain ⟨rfl, rfl⟩ := he
      have hr₄ := hr.frame hf₄
      have hr₅ : Timed job w r (s₄.setHeartbeat w ((s₄.heartbeat w).map fun hb =>
          { hb with ended := true })) := ⟨hlasting.of_hot hr₄.1 rfl, hr₄.2⟩
      exact ⟨hi₄.setHeartbeat _, fun s₆ hf₆ _ => ⟨rfl, hr₅.frame hf₆⟩⟩
    · obtain ⟨hstopped, hq₅⟩ := hq s₅ hf₅ hi₅
      cases hstopped
      exact fun s₆ hf₆ _ => hq₅.frame hf₆

/-- One dispatch in HOT_ONLY mode. -/
theorem keeping_execute (hmode : (job w).policy.mode = .hotOnly)
    (hs : s.redis.claimsOf w = 0) : Keeping F job now₀ w (Ended job w) (job w).code s := by
  refine Safe.onOutcome (P := fun r s' => (Recorded w (job w).claim r s') ∨
      (Unheard w s' ∧ ∃ e, HotFault e ∧ r = .error e))
    (keeping_call htoken (fun s₁ hf hvalid => ⟨hvalid, fun _ => rfl, fun _ => ?_⟩)
      fun s₁ r hot s₂ hf he hf₂ => ?_)
    fun r s₁ hp => Safe.of_rely fun s₂ hf hi => ?_
  · exact (RedisFrame.claims hf.hot).trans hs
  · rcases redisExec_recorded he (job w).policy.leaseSeconds_pos with hmem | ⟨hfault, hserved⟩
    · exact .inl ⟨s₁.now, (RedisFrame.served hf₂.hot).subset hmem⟩
    · have hunheard : Unheard w ({ s₁ with hot := hot } : World W (redisHotStore W R) B) := by
        intro a ha hclient hclaim
        have ha' : a ∈ s₁.redis.served := hserved ▸ ha
        exact (claimsOf_eq_zero ((RedisFrame.claims hf.hot).trans hs) a ha' hclient hclaim).elim
      exact .inr ⟨hunheard.frame hf₂, hfault⟩
  · rcases hp s₂ hf hi with hrec | ⟨hunheard, e, hfault, rfl⟩
    · have hlasting := Recorded.lasting (R := R) (B := B) w (job w).claim r
      cases r with
      | error e =>
        have hstop : ∀ s₃, Frame w s₂ s₃ → Ended job w (.error e) s₃ := fun s₃ hf₃ =>
          .refused e (hlasting.frame hrec hf₃) rfl
        cases e with
        | idempotencyUnavailable message =>
          simp only [hmode, if_true]
          exact fun s₃ hf₃ _ => hstop s₃ hf₃
        | _ => exact fun s₃ hf₃ _ => hstop s₃ hf₃
      | ok claim =>
        cases claim with
        | acquired => exact keeping_executeClaimed htoken hmode hrec
        | replay completed =>
          exact (keeping_evaluateResult (.inr rfl) hlasting hrec).mono fun r s₃ hr =>
            .replayed completed hr.2 hr.1
        | conflict =>
          simp only [resolveBusy, hmode, reduceCtorEq, if_false]
          exact fun s₃ hf₃ _ => .conflict (hlasting.frame hrec hf₃) rfl
        | inProgress =>
          simp only [resolveBusy, hmode, reduceCtorEq, if_false]
          exact fun s₃ hf₃ _ => .inProgress (hlasting.frame hrec hf₃) rfl
    · have hstop : ∀ s₃, Frame w s₂ s₃ → Ended job w (.error e) s₃ := fun s₃ hf₃ =>
        .unheard e (hunheard.frame hf₃) hfault rfl
      cases e with
      | idempotencyUnavailable message =>
        simp only [hmode, if_true]
        exact fun s₃ hf₃ _ => hstop s₃ hf₃
      | _ => exact fun s₃ hf₃ _ => hstop s₃ hf₃

end

end ProfileService.Idempotency
