import ProfileService.Idempotency.SequentialExecution
import ProfileService.Idempotency.HotHistory

/-!
# Redis between executions

The world while one worker runs and the others rest, over Redis and a database that does not fail.
A claim or a completion may fail; what it leaves behind is to go with a record.
-/

namespace ProfileService.Idempotency
open Library Library.Machine Application

/-! ### The hot store of one caller at a time -/

/-- Whether a call may fail, executed or not. What leaves a lease behind, a claim that was
executed or a completion that was not, happens only if `covered`. -/
def HotCall.MayFail (covered : Prop) (executed : Bool) : HotCall → Prop
  | .claim .. => executed = true → covered
  | .renew .. => False
  | .complete .. => executed = false → covered
  | .release .. => False

/-- A call is executed and answered, or it fails: its message is lost, or its answer is. -/
def soloHot {W : Type} (R : RedisClient) (covered : Prop) (w : W) (now : Instant) (c : HotCall)
    (h : Redis W) (r : Except Exn c.Reply) (h' : Redis W) : Prop :=
  if c.Valid then
    (r = (h.answer R now c).1 ∧ h' = h.serve R w true now c) ∨
      (∃ message, r = .error (.idempotencyUnavailable message)) ∧
        (c.MayFail covered false ∧ h' = { h with inflight := (w, c) :: h.inflight } ∨
          c.MayFail covered true ∧ h' = h.serve R w false now c)
  else r = .error c.invalid ∧ h' = h

section
variable {W ι : Type} [DecidableEq W] {ResultT : ι → Type} (R : RedisClient)
  (covered : Prop)

def soloExec (w : W) : (o : Op (handlerCalls ResultT W)) →
    World W (redisHotStore W R) (handlerCalls ResultT W) →
    Except Exn ((sig (handlerCalls ResultT W)).Reply o) →
    World W (redisHotStore W R) (handlerCalls ResultT W) → Prop
  | .hot c, s, r, s' => ∃ h, soloHot R covered w s.now c s.hot r h ∧ s' = { s with hot := h }
  | o, s, r, s' => opExec Failures.never w o s r s'

/-- The world while one worker runs and the others rest. -/
def solo (ResultT : ι → Type) (W : Type) [DecidableEq W] : Machine (sig (handlerCalls ResultT W)) Exn W
    (World W (redisHotStore W R) (handlerCalls ResultT W)) where
  exec := soloExec R covered
  env _ _ := False
  crash _ _ _ := False

end

variable {W ι : Type} [DecidableEq W] {ResultT : ι → Type} {R : RedisClient}
  {covered : Prop} {w : W}
  {s s' s'' : World W (redisHotStore W R) (handlerCalls ResultT W)} {k : IdempotencyKey} {fp : Digest}
  {α : Type} {ran kept : List (Invocation ResultT)}
  {records : IdempotencyKey → Option DurableRecord}

omit [DecidableEq W] in
/-- A call that runs alone is a call of the machine, after which a message may arrive. -/
theorem soloHot_redis {now : Instant} {c : HotCall} {h h' : Redis W} {r : Except Exn c.Reply}
    (he : soloHot R covered w now c h r h') :
    ∃ h₁, redisExec R w now c h r h₁ ∧ (h' = h₁ ∨ RedisEnv R now h₁ h') := by
  unfold soloHot at he
  unfold redisExec
  split at he
  · rename_i hvalid
    simp only [if_pos hvalid]
    rcases he with ⟨rfl, rfl⟩ | ⟨⟨message, rfl⟩, ⟨-, rfl⟩ | ⟨-, rfl⟩⟩
    · exact ⟨_, .inl ⟨rfl, rfl⟩, .inl rfl⟩
    · exact ⟨_, .inr ⟨_, .inr ⟨message, rfl⟩, rfl, rfl⟩, .inl rfl⟩
    · exact ⟨_, .inr ⟨_, .inr ⟨message, rfl⟩, rfl, rfl⟩, .inr (.deliver _ w c [] _ rfl)⟩
  · rename_i hvalid
    obtain ⟨rfl, rfl⟩ := he
    refine ⟨h', ?_, .inl rfl⟩
    rw [if_neg hvalid]
    exact ⟨rfl, rfl⟩

/-- So a step of the world alone is a step of the world of all workers. -/
theorem soloExec_machine {o : Op (handlerCalls ResultT W)}
    {r : Except Exn ((sig (handlerCalls ResultT W)).Reply o)} (he : soloExec R covered w o s r s') :
    ∃ s₁, opExec Failures.never w o s r s₁ ∧ (s' = s₁ ∨ WorldEnv s₁ s') := by
  cases o with
  | hot c =>
    obtain ⟨h, he, rfl⟩ := he
    obtain ⟨h₁, hexec, hlater⟩ := soloHot_redis he
    let called : World W (redisHotStore W R) (handlerCalls ResultT W) := { s with hot := h₁ }
    refine ⟨called, ⟨h₁, hexec, rfl⟩, ?_⟩
    rcases hlater with rfl | harrives
    · exact .inl rfl
    · exact .inr (.hot called h harrives)
  | _ => exact ⟨s', he, .inl rfl⟩

theorem runs_reachable {x : Code (sig (handlerCalls ResultT W)) Exn α} {r : Except Exn α}
    (h : Runs (solo R covered ResultT W) w x s r s')
    {task : W → Option (Code (sig (handlerCalls ResultT W)) Exn α)} (ht : task w = some x) :
    (machine W (redisHotStore W R) (handlerCalls ResultT W) Failures.never).Reachable
      ⟨s, task⟩ ⟨s', Function.update task w (some (.ret r))⟩ := by
  induction h generalizing task with
  | ret r s =>
    rw [← ht, Function.update_eq_self]
    exact .refl
  | @call o rest s a s₁ r s₂ he _ ih =>
    obtain ⟨s₀, hexec, hlater⟩ := soloExec_machine he
    have hcalled : (machine W (redisHotStore W R) (handlerCalls ResultT W) Failures.never).Step
        ⟨s, task⟩ ⟨s₀, Function.update task w (some (rest a))⟩ := .act ht hexec
    have hrest := ih (Function.update_self w (some (rest a)) task)
    rw [Function.update_idem] at hrest
    rcases hlater with rfl | henv
    · exact .head hcalled hrest
    · exact .head hcalled (.head (.env henv) hrest)

theorem ensures_db {P : Except Exn α → World W (redisHotStore W R) (handlerCalls ResultT W) → Prop}
    {x : Code (dbSig (handlerCalls ResultT W)) Exn α}
    (h : Ensures (soloDb W (redisHotStore W R) ResultT) w P x s) :
    Ensures (solo R covered ResultT W) w P (x.lift (dbInSig (handlerCalls ResultT W))) s := by
  refine h.lift (dbInSig _) (fun o s r s' he => ?_) fun o s r s' he => ⟨r, s', he⟩
  have hid : r.map ((dbInSig (handlerCalls ResultT W)).reply o) = r := by cases r <;> rfl
  rw [hid]
  exact he

/-! ### What an entry may say -/

/-- A lease for `fingerprint` that nobody holds on to. -/
structure Entry.Leases (x : Entry) (fingerprint : Digest) (until_ : Int) : Prop where
  formatVersion : x.formatVersion = some version2
  state : x.state = some processing
  leaseToken : x.leaseToken ≠ none
  requestFingerprint : x.requestFingerprint = some fingerprint.text
  result : x.result = none
  expireAt : x.expireAt = some until_

/-- The entry is a copy of the record, or a lease; it goes with the record. -/
def Entry.Fits (x : Entry) (c : CompletedIdempotencyResult) : Prop :=
  ∃ until_, (until_ ≤ ms c.expiresAt ∨ until_ ≤ timestampMs c.expiresAt) ∧
    (x.Caches c until_ ∨ ∃ fingerprint, x.Leases fingerprint until_)

theorem readClaim_caches {x : Entry} {c : CompletedIdempotencyResult} {until_ : Int}
    (h : x.Caches c until_) : readClaim R fp (claimAnswer fp.text x) =
      .ok (if c.requestFingerprint = fp then .replay c else .conflict) := by
  by_cases hfp : c.requestFingerprint = fp
  · have hanswer : claimAnswer fp.text x = ⟨2, some (encodeCompleted c)⟩ := by
      simp [claimAnswer, h.state, h.formatVersion, h.requestFingerprint, h.leaseToken, h.result,
        completed_ne_processing, hfp]
    rw [hanswer, if_pos hfp]
    simp [readClaim, R.decode_encode, hfp]
  · have htext : ¬ c.requestFingerprint.text = fp.text := fun h => hfp (text_inj h)
    have hanswer : claimAnswer fp.text x = ⟨3, none⟩ := by
      simp [claimAnswer, h.state, h.formatVersion, h.requestFingerprint, h.leaseToken, h.result,
        completed_ne_processing, htext]
    rw [hanswer, if_neg hfp]
    rfl

theorem readClaim_leases {x : Entry} {fp' : Digest} {until_ : Int} (h : x.Leases fp' until_) :
    readClaim R fp (claimAnswer fp.text x) =
      .ok (if fp' = fp then .inProgress else .conflict) := by
  by_cases hfp : fp' = fp
  · have hanswer : claimAnswer fp.text x = ⟨4, none⟩ := by
      simp [claimAnswer, h.state, h.formatVersion, h.requestFingerprint, h.leaseToken, h.result,
        completed_ne_processing.symm, hfp]
    rw [hanswer, if_pos hfp]
    rfl
  · have htext : ¬ fp'.text = fp.text := fun h => hfp (text_inj h)
    have hanswer : claimAnswer fp.text x = ⟨3, none⟩ := by
      simp [claimAnswer, h.state, h.formatVersion, h.requestFingerprint, h.leaseToken, h.result,
        completed_ne_processing.symm, htext]
    rw [hanswer, if_neg hfp]
    rfl

/-- `now` is before the millisecond of the deadline, or after it in both stores. -/
def OffDeadline (now : Instant) (deadline : Instant) : Prop :=
  ms now < ms deadline ∨ ms deadline < ms now ∧ timestampMs deadline < ms now

theorem Entry.Fits.lives {x : Entry} {c : CompletedIdempotencyResult} {now : Instant}
    (h : x.Fits c) (hv : visible now (some x) = some x) (hoff : OffDeadline now c.expiresAt) :
    now < c.expiresAt := by
  obtain ⟨until_, huntil, hx⟩ := h
  have hexpire : x.expireAt = some until_ := by
    rcases hx with hx | ⟨_, hx⟩
    · exact hx.expireAt
    · exact hx.expireAt
  have hle := (visible_eq_some.1 hv).2 _ hexpire
  have hms : ms now < ms c.expiresAt := by
    rcases hoff with hbefore | ⟨hafter, hafter'⟩
    · exact hbefore
    · omega
  by_contra hover
  exact absurd hms (not_lt.2 (Int.ediv_le_ediv (by decide) (not_lt.1 hover)))

theorem leased_leases (now : Instant) (fp : Digest) (token : Token) (lease : Nat) :
    (Entry.leased now fp.text (uuidText token) lease).Leases fp (ms now + lease * 1000) :=
  ⟨rfl, rfl, by simp [Entry.leased], rfl, rfl, rfl⟩

theorem visible_leased (now : Instant) (fingerprint token : Str) (lease : Nat) :
    visible now (some (Entry.leased now fingerprint token lease)) =
      some (Entry.leased now fingerprint token lease) :=
  visible_of_le rfl (by omega)

/-! ### Calls of the hot store -/

/-- Only the hot store, the heartbeats and the clock readings may have changed. -/
structure Unmoved (s s' : World W (redisHotStore W R) (handlerCalls ResultT W)) : Prop where
  now : s'.now = s.now
  records : s'.records = s.records
  business : s'.business = s.business
  inTransaction : s'.inTransaction = s.inTransaction

theorem Unmoved.refl (s : World W (redisHotStore W R) (handlerCalls ResultT W)) : Unmoved s s :=
  ⟨rfl, rfl, rfl, rfl⟩

theorem Unmoved.trans (h : Unmoved s s') (h' : Unmoved s' s'') : Unmoved s s'' :=
  ⟨h'.now.trans h.now, h'.records.trans h.records, h'.business.trans h.business,
    h'.inTransaction.trans h.inTransaction⟩

theorem Unmoved.newest (h : Unmoved s s') : newest s' = newest s := by
  unfold Idempotency.newest
  rw [h.records]

theorem Rested.unmoved (h : Rested s) (hu : Unmoved s s') : Rested s' := by
  refine ⟨fun v => ?_, fun k v => ?_, fun v => ?_⟩
  · rw [hu.inTransaction]
    exact h.inTransaction v
  · rw [hu.records]
    exact h.own k v
  · rw [hu.business]
    exact h.staged v

theorem Done.unmoved (h : Done ran kept records s s') (hu : Unmoved s' s'') :
    Done ran kept records s s'' :=
  ⟨h.toRested.unmoved hu, hu.now.trans h.now, (congrArg _ hu.business).trans h.made,
    (congrArg _ hu.business).trans h.lasting, hu.newest.trans h.newest⟩

theorem Done.of_unmoved (h : Done ran kept records s' s'') (hu : Unmoved s s') :
    Done ran kept records s s'' :=
  ⟨h.toRested, h.now.trans hu.now, h.made.trans (congrArg (ran ++ ·.made) hu.business),
    h.lasting.trans (congrArg (kept ++ ·.lasting) hu.business), h.newest⟩

theorem unmoved_readClock : Unmoved s (s.readClock w) := ⟨rfl, rfl, rfl, rfl⟩

theorem unmoved_setHeartbeat (hb : Option Heartbeat) : Unmoved s (s.setHeartbeat w hb) :=
  ⟨rfl, rfl, rfl, rfl⟩

theorem unmoved_hot (h : Redis W) :
    Unmoved s ({ s with hot := h } : World W (redisHotStore W R) (handlerCalls ResultT W)) :=
  ⟨rfl, rfl, rfl, rfl⟩

theorem Unmoved.known (h : Unmoved s s') : known k fp s' = known k fp s := by
  unfold Idempotency.known
  rw [h.newest, h.now]

/-- The entries of other identities are as they were, and what is seen at that of `k` is `P`. -/
structure EntryIs (R : RedisClient) (k : IdempotencyKey) (P : Entry → Prop)
    (s s' : World W (redisHotStore W R) (handlerCalls ResultT W)) : Prop where
  elsewhere : ∀ key, key ≠ R.storageKey k → s'.hot.entries key = s.hot.entries key
  here : ∀ x, visible s'.now (s'.hot.entries (R.storageKey k)) = some x → P x

/-- `w` holds the lease at the key of `k`. -/
structure HoldsLease (w : W) (k : IdempotencyKey) (fp : Digest) (token : Token) (lease : Nat)
    (s : World W (redisHotStore W R) (handlerCalls ResultT W)) : Prop where
  entry : s.hot.entries (R.storageKey k) =
    some (Entry.leased s.now fp.text (uuidText token) lease)
  heartbeat : (s.heartbeat w).any Heartbeat.lostLease = false

theorem EntryIs.then {P Q : Entry → Prop} (h : EntryIs R k P s s') (hu : Unmoved s' s'')
    (hhot : s''.hot = s'.hot) (hpq : ∀ x, P x → Q x) : EntryIs R k Q s s'' := by
  refine ⟨fun key hkey => ?_, fun x hx => hpq x (h.here x ?_)⟩
  · rw [hhot]
    exact h.elsewhere key hkey
  · rw [← hhot, ← hu.now]
    exact hx

theorem HoldsLease.mono {token : Token} {lease : Nat} (h : HoldsLease w k fp token lease s)
    (hnow : s'.now = s.now) (hhot : s'.hot = s.hot)
    (hheartbeat : (s'.heartbeat w).any Heartbeat.lostLease = false) :
    HoldsLease w k fp token lease s' := by
  refine ⟨?_, hheartbeat⟩
  rw [hhot, hnow]
  exact h.entry

/-- A call of the hot store ends in one of three ways. -/
theorem ensures_hot {Q : Except Exn α → World W (redisHotStore W R) (handlerCalls ResultT W) → Prop}
    {c : HotCall} {rest : Except Exn c.Reply → Code (sig (handlerCalls ResultT W)) Exn α}
    (hvalid : c.Valid)
    (hserved : Ensures (solo R covered ResultT W) w Q (rest (s.hot.answer R s.now c).1)
      { s with hot := s.hot.serve R w true s.now c })
    (hlost : c.MayFail covered false → ∀ message, Ensures (solo R covered ResultT W) w Q
      (rest (.error (.idempotencyUnavailable message)))
      { s with hot := { s.hot with inflight := (w, c) :: s.hot.inflight } })
    (hexecuted : c.MayFail covered true → ∀ message, Ensures (solo R covered ResultT W) w Q
      (rest (.error (.idempotencyUnavailable message)))
      { s with hot := s.hot.serve R w false s.now c }) :
    Ensures (solo R covered ResultT W) w Q (.call (.hot c) rest) s := by
  have hone : ∀ r h, soloHot R covered w s.now c s.hot r h →
      Ensures (solo R covered ResultT W) w Q (rest r) { s with hot := h } := by
    intro r h he
    unfold soloHot at he
    rw [if_pos hvalid] at he
    rcases he with ⟨rfl, rfl⟩ | ⟨⟨message, rfl⟩, ⟨hmay, rfl⟩ | ⟨hmay, rfl⟩⟩
    · exact hserved
    · exact hlost hmay message
    · exact hexecuted hmay message
  refine ensures_call.2 ⟨⟨(s.hot.answer R s.now c).1, _, s.hot.serve R w true s.now c, ?_, rfl⟩,
    fun r s' he => ?_⟩
  · unfold soloHot
    rw [if_pos hvalid]
    exact .inl ⟨rfl, rfl⟩
  · obtain ⟨h, he, rfl⟩ := he
    exact hone r h he

theorem entryIs_serve {c : HotCall} {awaited : Bool} {P : Entry → Prop}
    (h : ∀ x, visible s.now (s.hot.answer R s.now c).2 = some x → P x) :
    EntryIs R c.identity P s { s with hot := s.hot.serve R w awaited s.now c } where
  elsewhere key hkey := (serve_entries R w awaited s.now c s.hot key).trans (if_neg hkey)
  here x hx := by
    have hentry := (serve_entries R w awaited s.now c s.hot (R.storageKey c.identity)).trans
      (if_pos rfl)
    exact h x ((congrArg (visible s.now) hentry).symm.trans hx)

theorem HoldsLease.answer {token : Token} {lease : Nat} (h : HoldsLease w k fp token lease s)
    {c : HotCall} (hc : c.identity = k) : s.hot.answer R s.now c =
      R.script s.now c (some (Entry.leased s.now fp.text (uuidText token) lease)) := by
  show R.script s.now c (visible s.now (s.hot.entries (R.storageKey c.identity))) = _
  rw [hc, h.entry, visible_leased]

theorem ensures_release {token : Token} {lease : Nat} (h : HoldsLease w k fp token lease s) :
    Ensures (solo R covered ResultT W) w
      (fun r s' => r = .ok () ∧ Unmoved s s' ∧ EntryIs R k (fun _ => False) s s')
      (release_ k token) s := by
  have hanswer : s.hot.answer R s.now (.release k token) = (.ok true, none) := by
    have hown : (Entry.leased s.now fp.text (uuidText token) lease).OwnedBy (uuidText token) :=
      ⟨rfl, rfl, rfl⟩
    rw [h.answer rfl]
    simp only [RedisClient.script, releaseScript, if_pos hown]
  refine ensures_hot trivial ?_ (fun hmay => hmay.elim) fun hmay => hmay.elim
  rw [hanswer]
  refine ⟨rfl, unmoved_hot _, entryIs_serve (c := .release k token) fun x hx => ?_⟩
  rw [hanswer] at hx
  cases hx

theorem complete_answer {token : Token} {lease ttl : Nat} {c : CompletedIdempotencyResult}
    (h : HoldsLease w k fp token lease s) (hfp : c.requestFingerprint = fp) :
    (∃ published, (s.hot.answer R s.now (.complete k token c ttl)).1 = .ok published) ∧
      ∀ x, (s.hot.answer R s.now (.complete k token c ttl)).2 = some x → x.Fits c := by
  have hown : (Entry.leased s.now fp.text (uuidText token) lease).OwnedBy (uuidText token) ∧
      (Entry.leased s.now fp.text (uuidText token) lease).requestFingerprint =
        some c.requestFingerprint.text := ⟨⟨rfl, rfl, rfl⟩, by rw [hfp]; rfl⟩
  rw [h.answer rfl]
  refine ⟨⟨_, rfl⟩, fun x hx => ?_⟩
  simp only [RedisClient.script, completeScript, if_pos hown] at hx
  split at hx
  · cases hx
  · obtain rfl := Option.some.inj hx
    exact ⟨_, .inr (by omega), .inl ⟨rfl, rfl, rfl, hown.2, rfl, rfl⟩⟩

/-- After a completion the entry, if there is one, goes with the record it is about: a failed
one leaves a lease that ends by the deadline. -/
theorem ensures_complete {token : Token} {policy : IdempotencyPolicy} {c : CompletedIdempotencyResult}
    (h : HoldsLease w k fp token policy.leaseSeconds s) (hmode : policy.mode = .hotDurable)
    (hfp : c.requestFingerprint = fp)
    (hcovered : covered → ms s.now + 1000 * policy.leaseSeconds ≤ ms c.expiresAt) :
    Ensures (solo R covered ResultT W) w
      (fun r s' => r = .ok () ∧ Unmoved s s' ∧ EntryIs R k (·.Fits c) s s')
      (complete_ k token c policy) s := by
  let call : HotCall := .complete k token c policy.hotResultTtlSeconds
  obtain ⟨⟨published, hanswer⟩, hentry⟩ := complete_answer h hfp
  have hserved : ∀ awaited, EntryIs R k (·.Fits c) s
      { s with hot := s.hot.serve R w awaited s.now call } := fun awaited =>
    entryIs_serve (c := call) fun x hx => hentry x (visible_eq_some.1 hx).1
  have hdurable : ¬ policy.mode = .hotOnly := by
    rw [hmode]
    exact fun h => by cases h
  refine ensures_hot policy.hotResultTtlSeconds_pos ?_ (fun hmay message => ?_)
    fun _ message => ?_
  · rw [hanswer]
    show Ensures _ w _ (if !published ∧ policy.mode = .hotOnly then _ else _) _
    rw [if_neg fun h => hdurable h.2]
    exact ⟨rfl, unmoved_hot _, hserved true⟩
  · show Ensures _ w _ (if policy.mode = .hotOnly then _ else _) _
    rw [if_neg hdurable]
    refine ⟨rfl, unmoved_hot _, fun _ _ => rfl, fun x hx => ?_⟩
    change visible s.now (s.hot.entries (R.storageKey k)) = some x at hx
    rw [h.entry, visible_leased] at hx
    obtain rfl := Option.some.inj hx
    have hend := hcovered (hmay rfl)
    exact ⟨ms s.now + policy.leaseSeconds * 1000, .inl (by omega),
      .inr ⟨fp, leased_leases s.now fp token policy.leaseSeconds⟩⟩
  · show Ensures _ w _ (if policy.mode = .hotOnly then _ else _) _
    rw [if_neg hdurable]
    exact ⟨rfl, unmoved_hot _, hserved false⟩

end ProfileService.Idempotency
