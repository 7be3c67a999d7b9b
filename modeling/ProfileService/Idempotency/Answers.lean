import Mathlib.Data.List.Pairwise
import ProfileService.Idempotency.ExactlyOnce
import ProfileService.Idempotency.Ownership

/-!
# Every answer is a committed record

Over the Redis hot store, evicting and failing as it likes, whatever a dispatch
returns is a record committed for its identity: a result reaches the hot store
only from a commit, so a replay from there is one from the durable store.
-/

namespace ProfileService.Idempotency
open Library Library.Machine Application

variable {W : Type} {R : RedisClient}

theorem Effect.result {now : Instant} {c : HotCall} {e : Option Entry} {x : Entry}
    {r : Except Exn c.Reply} {text : Str} (h : Effect R now c e r (some x))
    (hx : x.result = some text) : (∃ y, e = some y ∧ y.result = some text) ∨
      ∃ k token result ttl, c = .complete k token result ttl ∧ text = encodeCompleted result := by
  cases h with
  | acquire k fp token lease => cases hx
  | look k fp token lease e => exact .inl ⟨_, rfl, hx⟩
  | renew k token lease e hown => exact .inl ⟨e, rfl, hx⟩
  | publish k token result ttl e hown hfp httl =>
    exact .inr ⟨k, token, result, ttl, rfl, (Option.some.inj hx).symm⟩
  | notRenewed k token lease e => exact .inl ⟨x, rfl, hx⟩
  | notCompleted k token result ttl e => exact .inl ⟨x, rfl, hx⟩
  | notReleased k token e => exact .inl ⟨x, rfl, hx⟩

/-- A call that publishes nothing but `good` results. -/
def HotCall.Publishes (good : CompletedIdempotencyResult → Prop) (c : HotCall) : Prop :=
  ∀ k token result ttl, c = .complete k token result ttl → good result

/-- The results in the entries of a server, and those on their way to it, are `good`. -/
structure Redis.Holds (good : CompletedIdempotencyResult → Prop) (h : Redis W) : Prop where
  entry : ∀ key x text, h.entries key = some x → x.result = some text →
    ∃ result, text = encodeCompleted result ∧ good result
  inflight : ∀ m ∈ h.inflight, m.2.Publishes good

variable {good : CompletedIdempotencyResult → Prop} {h h' : Redis W} {now : Instant} {w : W}

theorem Redis.Holds.mono {good' : CompletedIdempotencyResult → Prop} (hh : h.Holds good)
    (hle : ∀ result, good result → good' result) : h.Holds good' where
  entry key x text hx htext := by
    obtain ⟨result, hres, hgood⟩ := hh.entry key x text hx htext
    exact ⟨result, hres, hle result hgood⟩
  inflight m hm k token result ttl hc := hle result (hh.inflight m hm k token result ttl hc)

theorem Redis.Holds.serve {awaited : Bool} {c : HotCall} (hh : h.Holds good) (hc : c.Publishes good) :
    (h.serve R w awaited now c).Holds good where
  entry key x text hx htext := by
    rw [serve_entries] at hx
    split at hx
    · have heff := answer_effect R now c h
      rw [hx] at heff
      rcases heff.result htext with ⟨y, hy, hres⟩ | ⟨k, token, result, ttl, rfl, rfl⟩
      · exact hh.entry _ y text (visible_eq_some.1 hy).1 hres
      · exact ⟨result, rfl, hc k token result ttl rfl⟩
    · exact hh.entry key x text hx htext
  inflight m hm := hh.inflight m hm

theorem redisExec_holds {c : HotCall} {r : Except Exn c.Reply} (hh : h.Holds good)
    (hc : c.Publishes good) (he : redisExec R w now c h r h') : h'.Holds good := by
  unfold redisExec at he
  split at he
  · rcases he with ⟨-, rfl⟩ | ⟨e, -, -, rfl⟩
    · exact hh.serve hc
    · refine ⟨hh.entry, fun m hm => ?_⟩
      rcases List.mem_cons.1 hm with rfl | hm
      · exact hc
      · exact hh.inflight m hm
  · obtain ⟨-, rfl⟩ := he
    exact hh

theorem RedisEnv.holds (hh : h.Holds good) (he : RedisEnv R now h h') : h'.Holds good := by
  cases he with
  | deliver v c l₁ l₂ hm =>
    have hrest : ∀ m ∈ l₁ ++ l₂, m.2.Publishes good := by
      intro m hmem
      refine hh.inflight m ?_
      rw [hm]
      rcases List.mem_append.1 hmem with hmem | hmem
      · exact List.mem_append_left _ hmem
      · exact List.mem_append_right _ (List.mem_cons_of_mem _ hmem)
    refine Redis.Holds.serve ⟨hh.entry, hrest⟩ (hh.inflight (v, c) ?_)
    rw [hm]
    exact List.mem_append_right _ List.mem_cons_self
  | evict key _ =>
    refine ⟨fun key' x text hx htext => ?_, hh.inflight⟩
    change Function.update h.entries key none key' = some x at hx
    rw [Function.update_apply] at hx
    split at hx
    · cases hx
    · exact hh.entry key' x text hx htext

theorem readClaim_holds {fp : Digest} {answer : ClaimAnswer} {c : CompletedIdempotencyResult}
    (h : readClaim R fp answer = .ok (.replay c)) :
    answer.result.bind R.decodeCompleted = some c ∧ c.requestFingerprint = fp := by
  unfold readClaim at h
  split at h
  · cases h
  · split at h
    · cases h
    · rename_i c' hc'
      split at h
      · cases h
      · rename_i hfp
        cases h
        exact ⟨hc', not_not.1 hfp⟩
  · cases h
  · cases h
  · cases h

theorem claimAnswer_result (fingerprint : Str) (e : Entry) :
    (claimAnswer fingerprint e).result = none ∨ (claimAnswer fingerprint e).result = e.result := by
  unfold claimAnswer
  split
  · exact .inl rfl
  · split
    · exact .inl rfl
    · split
      · exact .inl rfl
      · split
        · exact .inl rfl
        · split
          · exact .inl rfl
          · split
            · exact .inr rfl
            · split <;> exact .inl rfl

theorem redisExec_replay {k : IdempotencyKey} {fp : Digest} {token : Token} {lease : Nat}
    {r : Except Exn ClaimResult} {c : CompletedIdempotencyResult} (hh : h.Holds good)
    (he : redisExec R w now (.claim k fp token lease) h r h') (hr : r = .ok (.replay c)) :
    good c ∧ c.requestFingerprint = fp := by
  subst hr
  unfold redisExec at he
  split at he
  · rcases he with ⟨hanswer, -⟩ | ⟨e, -, hr, -⟩
    · change _ = readClaim R fp (claimScript now fp.text (uuidText token) lease
        (visible now (h.entries (R.storageKey k)))).1 at hanswer
      obtain ⟨hdecode, hfp⟩ := readClaim_holds hanswer.symm
      cases hv : visible now (h.entries (R.storageKey k)) with
      | none =>
        rw [hv] at hdecode
        cases hdecode
      | some x =>
        rw [hv] at hdecode
        change (claimAnswer fp.text x).result.bind R.decodeCompleted = some c at hdecode
        rcases claimAnswer_result fp.text x with hres | hres
        · rw [hres] at hdecode
          cases hdecode
        · rw [hres] at hdecode
          obtain ⟨text, htext, hdec⟩ := Option.bind_eq_some_iff.1 hdecode
          obtain ⟨result, rfl, hgood⟩ := hh.entry _ x text (visible_eq_some.1 hv).1 htext
          rw [R.decode_encode] at hdec
          cases hdec
          exact ⟨hgood, hfp⟩
    · cases hr
  · obtain ⟨hr, -⟩ := he
    cases hr

variable [DecidableEq W] {B : Business W} {job : W → Request B}
  {before : IdempotencyKey → List (Version W DurableRecord)} {identity : IdempotencyKey}
  {s s' : World W (redisHotStore W R) B}

theorem Stored.grown {c : CompletedIdempotencyResult} (h : Stored identity c s)
    (hg : Grown s s') : Stored identity c s' := by
  obtain ⟨v, hv, hc⟩ := h
  exact ⟨v, (hg identity).subset hv, hc⟩

/-- The hot store holds results of committed records only. -/
def HotBacked (identity : IdempotencyKey) (s : World W (redisHotStore W R) B) : Prop :=
  Redis.Holds (fun c => Stored identity c s) s.hot

/-- What the Redis store contributes when everything published to it has a property that
committed records have, and keep. -/
theorem HotContract.redis_of (F : Failures)
    {P : CompletedIdempotencyResult → World W (redisHotStore W R) B → Prop}
    (hgrown : ∀ {c s s'}, P c s → Grown s s' → P c s')
    (hstored : ∀ {w c s}, Stored (job w).identity c s → P c s) :
    HotContract (H := redisHotStore W R) F job before (fun s => Redis.Holds (fun c => P c s) s.hot)
      (fun w c s => P c s ∧ c.requestFingerprint = (job w).requestFingerprint) where
  good_grown hg hgrows := ⟨hgrown hg.1 hgrows, hg.2⟩
  good_backed h := ⟨hstored h.1, h.2⟩
  db {w s s'} _ hstep hj := by
    show Redis.Holds (fun c => P c s') s'.hot
    rw [hstep.hot]
    exact Redis.Holds.mono hj fun c hc => hgrown hc hstep.grown
  call {w s c r h} _ hj hown he := by
    have hpub : c.Publishes fun c => P c s := by
      intro k token result ttl hc
      cases hown with
      | claim => cases hc
      | complete completed hgood =>
        cases hc
        exact hgood.1
      | release => cases hc
    exact Redis.Holds.mono (redisExec_holds hj hpub he) fun c hc => hgrown hc (Grown.refl _)
  replay {w s r h completed} _ hj he hr := by
    obtain ⟨hp, hfp⟩ := redisExec_replay hj he hr
    exact ⟨hgrown hp (Grown.refl _), hfp⟩
  heartbeat hj := Redis.Holds.mono hj fun c hc => hgrown hc (Grown.refl _)
  env {s s'} _ hj he := by
    cases he with
    | tick now hle => exact Redis.Holds.mono hj fun c hc => hgrown hc (Grown.refl _)
    | hot h he =>
      exact Redis.Holds.mono (RedisEnv.holds hj he) fun c hc => hgrown hc (Grown.refl _)
    | beat w hb r h hw hrun he =>
      refine Redis.Holds.mono (redisExec_holds hj (fun k token result ttl hc => ?_) he)
        fun c hc => hgrown hc (Grown.refl _)
      cases hc

/-- All requests are for one identity. -/
theorem HotContract.redis (F : Failures) (hid : ∀ w, (job w).identity = identity) :
    HotContract (H := redisHotStore W R) F job before (HotBacked identity)
      (fun w c s => Backed identity (job w).requestFingerprint c s) :=
  HotContract.redis_of F Stored.grown fun {w c s} h => by
    rw [hid w] at h
    exact h

structure Answer (identity : IdempotencyKey) (q : Request B) (w : W)
    (c : CompletedIdempotencyResult) (s : World W (redisHotStore W R) B) : Prop where
  committed : ∃ v ∈ (s.records identity).versions, v.row.completed = c
  requestFingerprint : c.requestFingerprint = q.requestFingerprint
  lives : s.clockRead w < c.expiresAt

/-- Two answers are the same record, or one was created after the other had expired. -/
def Agree (identity : IdempotencyKey) (c d : CompletedIdempotencyResult)
    (s : World W (redisHotStore W R) B) : Prop :=
  c = d ∨ ∃ v ∈ (s.records identity).versions, ∃ u ∈ (s.records identity).versions,
    v.row.completed = c ∧ u.row.completed = d ∧
      (c.expiresAt ≤ u.row.createdAt ∨ d.expiresAt ≤ v.row.createdAt)

theorem Consistent.agree (h : Consistent job before s) {c d : CompletedIdempotencyResult}
    (hc : Stored identity c s) (hd : Stored identity d s) : Agree identity c d s := by
  obtain ⟨v, hv, rfl⟩ := hc
  obtain ⟨u, hu, rfl⟩ := hd
  by_cases hvu : v = u
  · exact .inl (by rw [hvu])
  · have hpair := h.succession identity
    rw [← h.versions identity] at hpair
    let Apart (x y : Version W DurableRecord) : Prop :=
      x.row.completed.expiresAt ≤ y.row.createdAt ∨ y.row.completed.expiresAt ≤ x.row.createdAt
    have : Std.Symm Apart := ⟨fun _ _ hxy => hxy.symm⟩
    have hapart : (s.records identity).versions.Pairwise Apart := hpair.imp fun hxy => .inr hxy
    exact .inr ⟨v, hv, u, hu, rfl, rfl, hapart.forall hv hu hvu⟩

variable {stored : IdempotencyKey → Option DurableRecord}

/-- Any number of dispatches of one identity over the two stores, in any interleaving:
every normal return is a committed record of the identity for the caller's
fingerprint, still alive, and any two of them agree. -/
theorem execute_answers {now : Instant} {business : B.State}
    {c : Config (sig B) Exn W (World W (redisHotStore W R) B) CompletedIdempotencyResult}
    (hid : ∀ w, (job w).identity = identity) (hmode : ∀ w, (job w).policy.mode = .hotDurable)
    (hquiet : ∀ w, B.staged w business = B.nothing)
    (hr : (machine W (redisHotStore W R) B Failures.any).Reachable
      ⟨World.initial now (Redis.empty : Redis W) business stored, fun w => some (job w).code⟩ c) :
    (∀ w result, c.task w = some (.ret (.ok result)) →
      Answer identity (job w) w result c.state) ∧
    ∀ w u result result', c.task w = some (.ret (.ok result)) →
      c.task u = some (.ret (.ok result')) → Agree identity result result' c.state := by
  have hempty : HotBacked identity
      (World.initial now (Redis.empty : Redis W) business stored :
        World W (redisHotStore W R) B) :=
    { entry := fun _ _ _ hx => nomatch hx
      inflight := fun _ hm => nomatch hm }
  have hsafe := keeps_reachable (HotContract.redis _ hid) hmode (initial_consistent hquiet) hempty
    initial_start hr
  have hback : ∀ w result, c.task w = some (.ret (.ok result)) →
      Backed identity (job w).requestFingerprint result c.state ∧
        c.state.clockRead w < result.expiresAt :=
    fun w result hw => hsafe.outcome hw result rfl
  refine ⟨fun w result hw => ?_, fun w u result result' hw hu => ?_⟩
  · obtain ⟨⟨hstored, hfp⟩, hlives⟩ := hback w result hw
    exact ⟨hstored, hfp, hlives⟩
  · exact hsafe.inv.1.agree (hback w result hw).1.1 (hback u result' hu).1.1

theorem execute_answers_sample : ∃ (result : CompletedIdempotencyResult)
    (s : World Bool (redisHotStore Bool (sampleClient true)) (effectLog Bool Bool)),
    Answer sampleKey (sampleJob true) true result s := by
  have hfail : redisExec (sampleClient true) true 0 (.claim sampleKey sampleFingerprint 7 30)
      Redis.empty (.error (.idempotencyUnavailable "")) _ :=
    .inr ⟨_, .inr ⟨"", rfl⟩, rfl, rfl⟩
  obtain ⟨r, s, hrun, -, result, rfl⟩ :=
    sampleRun (H := redisHotStore Bool (sampleClient true)) Redis.empty hfail
  refine ⟨result, s, (execute_answers (fun _ => rfl) (fun _ => rfl) (fun _ => rfl)
    (hrun.reachable rfl)).1 true result ?_⟩
  simp

end ProfileService.Idempotency
