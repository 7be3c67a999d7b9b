import ProfileService.Idempotency.SequentialStore

/-!
# Executions of the coordinator one after another

An execution alone is answered by the durable record alone; what the hot store shows, and how its
calls fail, only decides how the answer is found.
-/

namespace ProfileService.Idempotency
open Library Library.Machine Application

variable {W ι : Type} [DecidableEq W] {ResultT : ι → Type} {R : RedisClient}
  {covered : Prop} {w : W}
  {s s' s'' : World W (redisHotStore W R) (handlerCalls ResultT W)} {k : IdempotencyKey} {fp : Digest}

/-! ### The steps of the coordinator -/

/-- What the coordinator makes of the outcome of the durable execution. -/
def answerOf : Except Exn IdempotencyResult → Except Exn CompletedIdempotencyResult
  | .ok (.executed completed) => .ok completed
  | .ok (.replay completed) => .ok completed
  | .ok .conflict => .error (.idempotencyConflict
      "Ключ идемпотентности повторно использован с отличающимся телом запроса")
  | .ok .inProgress => .error (.idempotencyInProgress
      "Запрос с данным ключом идемпотентности уже находится в процессе обработки")
  | .error e => .error e

def IdempotencyResult.Carries (result : IdempotencyResult) (c : CompletedIdempotencyResult) : Prop :=
  result = .executed c ∨ result = .replay c

/-- The result is for `fp`, and what it carries is alive at `now`. -/
def IdempotencyResult.Lives (result : IdempotencyResult) (fp : Digest) (now : Instant) : Prop :=
  ∀ c, result.Carries c → c.requestFingerprint = fp ∧ now < c.expiresAt

theorem ensures_evaluateResult {result : IdempotencyResult} {c : CompletedIdempotencyResult}
    (h : result = .executed c ∨ result = .replay c) (hlives : s.now < c.expiresAt) :
    Ensures (solo R covered ResultT W) w (fun r s' => r = .ok c ∧ s' = s.readClock w)
      (evaluateResult result) s := by
  have hread : Ensures (solo R covered ResultT W) w (fun r s' => r = .ok c ∧ s' = s.readClock w)
      (do
        let now ← clockNow
        if c.expiresAt ≤ now then
          throw (.idempotencyUnavailable "Replay lifetime expired before response")
        else return c) s := by
    refine (ensures_db ensures_utcNow).bind (fun now s₁ hs₁ => ?_) fun e s₁ hs₁ => by cases hs₁.1
    obtain ⟨hnow, rfl⟩ := hs₁
    obtain rfl := Except.ok.inj hnow
    rw [if_neg (not_le.2 hlives)]
    exact ⟨rfl, rfl⟩
  rcases h with rfl | rfl
  · exact hread
  · exact hread

theorem ensures_evaluated {result : IdempotencyResult} (hlives : result.Lives fp s.now) :
    Ensures (solo R covered ResultT W) w
      (fun r s' => r = answerOf (.ok result) ∧ Unmoved s s' ∧ s'.hot = s.hot)
      (evaluateResult result) s := by
  have hcarried : ∀ c, result.Carries c → answerOf (.ok result) = .ok c →
      Ensures (solo R covered ResultT W) w
        (fun r s' => r = answerOf (.ok result) ∧ Unmoved s s' ∧ s'.hot = s.hot)
        (evaluateResult result) s := by
    intro c hc hanswer
    refine (ensures_evaluateResult hc (hlives c hc).2).mono fun r s' hr => ?_
    obtain ⟨rfl, rfl⟩ := hr
    exact ⟨hanswer.symm, unmoved_readClock, rfl⟩
  cases result with
  | executed c => exact hcarried c (.inl rfl) rfl
  | replay c => exact hcarried c (.inr rfl) rfl
  | conflict => exact ⟨rfl, Unmoved.refl s, rfl⟩
  | inProgress => exact ⟨rfl, Unmoved.refl s, rfl⟩

theorem ensures_leaseLost {token : Token} {lease : Nat} (h : HoldsLease w k fp token lease s) :
    Ensures (solo R covered ResultT W) w (fun r s' => r = .ok false ∧ s' = s) leaseLost s := by
  have hexec : ∀ r s', (solo R covered ResultT W).exec w .leaseLost s r s' ↔
      r = .ok ((s.heartbeat w).any Heartbeat.lostLease) ∧ s' = s := fun _ _ => Iff.rfl
  refine ensures_of_exec hexec ?_
  rw [h.heartbeat]
  exact ⟨rfl, rfl⟩

theorem ensures_publish {token : Token} {policy : IdempotencyPolicy} {result : IdempotencyResult}
    (h : HoldsLease w k fp token policy.leaseSeconds s) (hmode : policy.mode = .hotDurable)
    (hlives : result.Lives fp s.now) (hcovered : covered → ∀ c, result.Carries c →
      ms s.now + 1000 * policy.leaseSeconds ≤ ms c.expiresAt) :
    Ensures (solo R covered ResultT W) w (fun r s' => r = answerOf (.ok result) ∧ Unmoved s s' ∧
      EntryIs R k (fun x => ∃ c, result.Carries c ∧ x.Fits c) s s')
      (publish k token policy result) s := by
  refine (ensures_leaseLost h).bind (fun lost s₁ hs₁ => ?_) fun e s₁ hs₁ => by cases hs₁.1
  obtain ⟨hlost, rfl⟩ := hs₁
  obtain rfl := Except.ok.inj hlost
  have hevaluated : ∀ {P : Entry → Prop} {s₂}, Unmoved s₁ s₂ ∧ EntryIs R k P s₁ s₂ →
      (∀ x, P x → ∃ c, result.Carries c ∧ x.Fits c) →
      Ensures (solo R covered ResultT W) w (fun r s' => r = answerOf (.ok result) ∧ Unmoved s₁ s' ∧
        EntryIs R k (fun x => ∃ c, result.Carries c ∧ x.Fits c) s₁ s') (evaluateResult result) s₂ := by
    intro P s₂ hs₂ hp
    have hlives₂ : result.Lives fp s₂.now := hs₂.1.now ▸ hlives
    refine (ensures_evaluated hlives₂).mono fun r s₃ hs₃ => ?_
    exact ⟨hs₃.1, hs₂.1.trans hs₃.2.1, hs₂.2.then hs₃.2.1 hs₃.2.2 hp⟩
  have hcompletes : ∀ c, result.Carries c → Ensures (solo R covered ResultT W) w
      (fun r s' => r = answerOf (.ok result) ∧ Unmoved s₁ s' ∧
        EntryIs R k (fun x => ∃ c, result.Carries c ∧ x.Fits c) s₁ s')
      (do complete_ k token c policy; evaluateResult result) s₁ := by
    intro c hc
    refine (ensures_complete h hmode (hlives c hc).1 fun h => hcovered h c hc).bind (fun _ s₂ hs₂ => ?_)
      fun e s₂ hs₂ => by cases hs₂.1
    exact hevaluated hs₂.2 fun x hx => ⟨c, hc, hx⟩
  have hreleases : Ensures (solo R covered ResultT W) w
      (fun r s' => r = answerOf (.ok result) ∧ Unmoved s₁ s' ∧
        EntryIs R k (fun x => ∃ c, result.Carries c ∧ x.Fits c) s₁ s')
      (do release_ k token; evaluateResult result) s₁ := by
    refine (ensures_release h).bind (fun _ s₂ hs₂ => ?_) fun e s₂ hs₂ => by cases hs₂.1
    exact hevaluated hs₂.2 fun x hx => hx.elim
  cases result with
  | executed c => exact hcompletes c (.inl rfl)
  | replay c => exact hcompletes c (.inr rfl)
  | conflict => exact hreleases
  | inProgress => exact hreleases

variable {o : Invocation ResultT} {kept : Except Exn (StoredResult × Deadline)}
  {result : Except Exn StoredResult} {retention : Nat}

theorem ExecutedOnce.unmoved {r : Except Exn IdempotencyResult}
    (h : ExecutedOnce k fp o kept s s' r) (hu : Unmoved s' s'') :
    ExecutedOnce k fp o kept s s'' r := by
  cases h with
  | known result hknown h => exact .known result hknown (h.unmoved hu)
  | failed hunknown e he h => exact .failed hunknown e he (h.unmoved hu)
  | kept hunknown stored deadline row hkept hrow h =>
    exact .kept hunknown stored deadline row hkept hrow (h.unmoved hu)

theorem ExecutedOnce.of_unmoved {r : Except Exn IdempotencyResult}
    (h : ExecutedOnce k fp o kept s' s'' r) (hu : Unmoved s s') :
    ExecutedOnce k fp o kept s s'' r := by
  cases h with
  | known result hknown h =>
    rw [hu.newest] at h
    exact .known result (hu.known.symm.trans hknown) (h.of_unmoved hu)
  | failed hunknown e he h =>
    rw [hu.newest] at h
    exact .failed (hu.known.symm.trans hunknown) e he (h.of_unmoved hu)
  | kept hunknown stored deadline row hkept hrow h =>
    rw [hu.newest] at h
    exact .kept (hu.known.symm.trans hunknown) stored deadline row hkept hrow (h.of_unmoved hu)

theorem ExecutedOnce.now {r : Except Exn IdempotencyResult} (h : ExecutedOnce k fp o kept s s' r) :
    s'.now = s.now := by
  cases h with
  | known result hknown h => exact h.now
  | failed hunknown e he h => exact h.now
  | kept hunknown stored deadline row hkept hrow h => exact h.now

theorem known_lives {found : IdempotencyResult} (h : known k fp s = some found) :
    found.Lives fp s.now := by
  obtain ⟨row, -, hdecide⟩ := Option.bind_eq_some_iff.1 h
  unfold decideExisting at hdecide
  split at hdecide
  · cases hdecide
  · rename_i hlive
    split at hdecide
    · obtain rfl := Option.some.inj hdecide
      rintro c (hc | hc) <;> cases hc
    · rename_i hfp
      obtain rfl := Option.some.inj hdecide
      rintro c (hc | hc)
      · cases hc
      · cases hc
        exact ⟨not_not.1 hfp, not_le.1 hlive⟩

theorem ExecutedOnce.lives {found : IdempotencyResult} (hpos : 0 < retention)
    (h : ExecutedOnce k fp o (retained result s.now retention) s s' (.ok found)) :
    found.Lives fp s.now := by
  cases h with
  | known found hknown h => exact known_lives hknown
  | kept hunknown stored deadline row hkept hrow h =>
    rintro c (hc | hc)
    · cases hc
      rw [hrow]
      exact ⟨rfl, deadlineAfter_lt hpos (retained_deadline hkept)⟩
    · cases hc

/-- Both stores speak of one record: what is seen at the key of `k` goes with its newest record. -/
def Fitting (k : IdempotencyKey) (s : World W (redisHotStore W R) (handlerCalls ResultT W)) (x : Entry) :
    Prop :=
  ∃ row, newest s k = some row ∧ x.Fits row.completed

/-- How one execution of the coordinator ends, if the durable execution gave `found`. -/
structure Coordinated (k : IdempotencyKey) (fp : Digest) (o : Invocation ResultT)
    (kept : Except Exn (StoredResult × Deadline))
    (s s' : World W (redisHotStore W R) (handlerCalls ResultT W))
    (found : Except Exn IdempotencyResult) : Prop where
  executed : ExecutedOnce k fp o kept s s' found
  entry : EntryIs R k (Fitting k s') s s'

theorem ExecutedOnce.carried {given : IdempotencyResult} {c : CompletedIdempotencyResult}
    (h : ExecutedOnce k fp o kept s s' (.ok given)) (hc : given.Carries c) :
    ∃ row, newest s' k = some row ∧ row.completed = c := by
  cases h with
  | known _ hknown hdone =>
    obtain ⟨row, hrow, hdecide⟩ := Option.bind_eq_some_iff.1 hknown
    refine ⟨row, by rw [hdone.newest]; exact hrow, ?_⟩
    unfold decideExisting at hdecide
    split at hdecide
    · cases hdecide
    · split at hdecide
      · obtain rfl := Option.some.inj hdecide
        rcases hc with hc | hc <;> cases hc
      · obtain rfl := Option.some.inj hdecide
        rcases hc with hc | hc <;> cases hc
        rfl
  | kept hunknown stored deadline row hkept hrow hdone =>
    refine ⟨row, by rw [hdone.newest, Function.update_self], ?_⟩
    rcases hc with hc | hc <;> cases hc
    rfl

theorem ensures_stopHeartbeat : Ensures (solo R covered ResultT W) w
    (fun r s' => r = .ok () ∧
      s' = s.setHeartbeat w ((s.heartbeat w).map fun hb => { hb with ended := true }))
    (.call .stopHeartbeat .ret) s :=
  ensures_of_exec (fun _ _ => Iff.rfl) ⟨rfl, rfl⟩

theorem HoldsLease.stopHeartbeat {token : Token} {lease : Nat} (h : HoldsLease w k fp token lease s) :
    HoldsLease w k fp token lease
      (s.setHeartbeat w ((s.heartbeat w).map fun hb => { hb with ended := true })) := by
  refine h.mono rfl rfl ?_
  have hsame : ((s.heartbeat w).map fun hb => ({ hb with ended := true } : Heartbeat)).any
      Heartbeat.lostLease = (s.heartbeat w).any Heartbeat.lostLease := by
    cases s.heartbeat w <;> rfl
  show (Function.update s.heartbeat w _ w).any _ = false
  rw [Function.update_self, hsame]
  exact h.heartbeat

theorem ensures_abandonClaim {token : Token} {lease : Nat} {e : Exn}
    (h : HoldsLease w k fp token lease s) : Ensures (solo R covered ResultT W) w
      (fun r s' => r = .error e ∧ Unmoved s s' ∧ EntryIs R k (fun _ => False) s s')
      (abandonClaim k token e) s := by
  refine (ensures_leaseLost h).bind (fun lost s₁ hs₁ => ?_) fun e s₁ hs₁ => by cases hs₁.1
  obtain ⟨hlost, rfl⟩ := hs₁
  obtain rfl := Except.ok.inj hlost
  refine (ensures_release h).bind (fun _ s₂ hs₂ => ?_) fun e s₂ hs₂ => by cases hs₂.1
  exact ⟨rfl, hs₂.2⟩

/-- Under the lease: the operation, the release of the lease after an exception, and the end of
the heartbeat. -/
theorem ensures_underLease {token : Token} {operation : Operation (handlerCalls ResultT W)}
    {policy : IdempotencyPolicy} (hq : Rested s) (hmode : policy.mode = .hotDurable)
    (hlease : HoldsLease w k fp token policy.leaseSeconds s)
    (hcalls : CallsOnce o result operation.hotDurable) :
    Ensures (solo R covered ResultT W) w (fun r s' =>
        ExecutedOnce k fp o (retained result s.now policy.retentionSeconds) s s' r ∧
          (∀ found, r = .ok found →
            HoldsLease w k fp token policy.leaseSeconds s' ∧ s'.hot = s.hot) ∧
          ∀ e, r = .error e → EntryIs R k (fun _ => False) s s')
      ((tryCatch (executeOperation k fp operation policy) (abandonClaim k token)).andFinally
        (.call .stopHeartbeat .ret)) s := by
  have hoperation : Ensures (solo R covered ResultT W) w (fun r s' =>
      ExecutedOnce k fp o (retained result s.now policy.retentionSeconds) s s' r ∧
        s'.hot = s.hot ∧ s'.heartbeat = s.heartbeat) (executeOperation k fp operation policy) s := by
    rw [executeOperation, if_pos hmode]
    exact ensures_db (ensures_executeOnce hq policy.retentionSeconds_pos hcalls)
  have hcaught : Ensures (solo R covered ResultT W) w (fun r s' =>
      ExecutedOnce k fp o (retained result s.now policy.retentionSeconds) s s' r ∧
        (∀ found, r = .ok found →
          HoldsLease w k fp token policy.leaseSeconds s' ∧ s'.hot = s.hot) ∧
        ∀ e, r = .error e → EntryIs R k (fun _ => False) s s')
      (tryCatch (executeOperation k fp operation policy) (abandonClaim k token)) s := by
    refine hoperation.onOutcome fun r s₁ hs₁ => ?_
    obtain ⟨hexecuted, hhot, hbeat⟩ := hs₁
    have hlease₁ := hlease.mono hexecuted.now hhot (by rw [hbeat]; exact hlease.heartbeat)
    cases r with
    | ok found => exact ⟨hexecuted, fun _ _ => ⟨hlease₁, hhot⟩, fun e he => by cases he⟩
    | error e =>
      refine (ensures_abandonClaim hlease₁).mono fun r s₂ hs₂ => ?_
      obtain ⟨rfl, hu, hentry⟩ := hs₂
      refine ⟨hexecuted.unmoved hu, fun _ he => (by cases he), fun _ _ => ⟨fun key hkey => ?_,
        hentry.here⟩⟩
      rw [hentry.elsewhere key hkey, hhot]
  refine hcaught.onOutcome fun r s₁ hs₁ => ensures_stopHeartbeat.onOutcome fun a s₂ hs₂ => ?_
  obtain ⟨hexecuted, hok, herror⟩ := hs₁
  obtain ⟨rfl, rfl⟩ := hs₂
  refine ⟨hexecuted.unmoved (unmoved_setHeartbeat _), fun found hfound => ?_, fun e he => ?_⟩
  · exact ⟨(hok found hfound).1.stopHeartbeat, (hok found hfound).2⟩
  · exact ⟨(herror e he).elsewhere, (herror e he).here⟩

/-- However the execution ends, `lease` seconds from now end by the deadline of a record of `k`. -/
def Covers (k : IdempotencyKey) (fp : Digest) (o : Invocation ResultT)
    (kept : Except Exn (StoredResult × Deadline)) (lease : Nat)
    (s : World W (redisHotStore W R) (handlerCalls ResultT W)) : Prop :=
  ∀ found s', ExecutedOnce k fp o kept s s' found → ∃ row, newest s' k = some row ∧
    ms s.now + 1000 * lease ≤ ms row.completed.expiresAt

theorem Covers.unmoved {lease : Nat} (h : Covers k fp o kept lease s) (hu : Unmoved s s') :
    Covers k fp o kept lease s' := fun found _ hexecuted =>
  hu.now ▸ h found _ (hexecuted.of_unmoved hu)

theorem ensures_executeClaimed {token : Token} {operation : Operation (handlerCalls ResultT W)}
    {policy : IdempotencyPolicy} (hq : Rested s) (hmode : policy.mode = .hotDurable)
    (hentry : s.hot.entries (R.storageKey k) =
      some (Entry.leased s.now fp.text (uuidText token) policy.leaseSeconds))
    (hcalls : CallsOnce o result operation.hotDurable)
    (hcovered : covered → Covers k fp o (retained result s.now policy.retentionSeconds)
      policy.leaseSeconds s) :
    Ensures (solo R covered ResultT W) w (fun r s' => ∃ found, r = answerOf found ∧
      Coordinated k fp o (retained result s.now policy.retentionSeconds) s s' found)
      (executeClaimed k fp token operation policy) s := by
  let s₁ := s.setHeartbeat w (some ⟨k, token, policy.leaseSeconds, false, false⟩)
  have hstart : ∀ r s', (solo R covered ResultT W).exec w (.startHeartbeat k token policy.leaseSeconds)
      s r s' ↔ r = .ok () ∧ s' = s₁ := fun _ _ => Iff.rfl
  have hu₁ : Unmoved s s₁ := unmoved_setHeartbeat _
  have hlease : HoldsLease w k fp token policy.leaseSeconds s₁ := by
    refine ⟨hentry, ?_⟩
    show (Function.update s.heartbeat w _ w).any _ = false
    rw [Function.update_self]
    rfl
  refine ensures_of_exec hstart ?_
  refine (ensures_underLease (hq.unmoved hu₁) hmode hlease hcalls).bind
    (fun found s₂ hs₂ => ?_) fun e s₂ hs₂ => ?_
  · obtain ⟨hexecuted, hok, -⟩ := hs₂
    obtain ⟨hlease₂, hhot⟩ := hok found rfl
    have hnow : s₂.now = s.now := hexecuted.now
    have hlives : found.Lives fp s₂.now := by
      rw [hexecuted.now]
      exact hexecuted.lives policy.retentionSeconds_pos
    have hcarried : covered → ∀ c, found.Carries c →
        ms s₂.now + 1000 * policy.leaseSeconds ≤ ms c.expiresAt := by
      intro h c hc
      have hexecuted' := hexecuted.of_unmoved hu₁
      obtain ⟨row, hrow, hend⟩ := hcovered h _ _ hexecuted'
      obtain ⟨row', hrow', rfl⟩ := hexecuted'.carried hc
      obtain rfl := Option.some.inj (hrow.symm.trans hrow')
      exact hnow ▸ hend
    refine (ensures_publish hlease₂ hmode hlives hcarried).mono fun r s₃ hs₃ => ?_
    obtain ⟨rfl, hu, hentry⟩ := hs₃
    have hend := (hexecuted.of_unmoved hu₁).unmoved hu
    refine ⟨.ok found, rfl, hend, fun key hkey => ?_, fun x hx => ?_⟩
    · rw [hentry.elsewhere key hkey, hhot]
      rfl
    · obtain ⟨c, hc, hx⟩ := hentry.here x hx
      obtain ⟨row, hrow, rfl⟩ := hend.carried hc
      exact ⟨row, hrow, hx⟩
  · obtain ⟨hexecuted, -, herror⟩ := hs₂
    have hentry := herror e rfl
    exact ⟨.error e, rfl, hexecuted.of_unmoved hu₁, hentry.elsewhere, fun x hx =>
      (hentry.here x hx).elim⟩

/-! ### An execution of the coordinator -/

/-- No call comes in the millisecond of the deadline that is recorded for its identity. -/
def OffDeadlines (k : IdempotencyKey) (s : World W (redisHotStore W R) (handlerCalls ResultT W)) :
    Prop :=
  ∀ row, newest s k = some row → OffDeadline s.now row.completed.expiresAt

theorem known_of_newest {row : DurableRecord} (hrow : newest s k = some row)
    (hlive : s.now < row.completed.expiresAt) : known k fp s =
      some (if row.completed.requestFingerprint = fp then .replay row.completed else .conflict) := by
  unfold known decideExisting
  rw [hrow, Option.bind_some, if_neg (not_le.2 hlive)]
  by_cases hfp : row.completed.requestFingerprint = fp <;> simp [hfp]

/-- An answer from what is known. -/
theorem Coordinated.of_known {given : IdempotencyResult} (hknown : known k fp s = some given)
    (hdone : Done [] [] (newest s) s s') (hentry : EntryIs R k (Fitting k s) s s') :
    Coordinated k fp o kept s s' (.ok given) := by
  refine ⟨.known given hknown hdone, hentry.elsewhere, fun x hx => ?_⟩
  obtain ⟨row, hrow, hfits⟩ := hentry.here x hx
  exact ⟨row, by rw [hdone.newest]; exact hrow, hfits⟩

/-- What goes with the record goes with the record that an execution leaves. -/
theorem ExecutedOnce.fitting {found : Except Exn IdempotencyResult} {x : Entry}
    (h : ExecutedOnce k fp o kept s s' found) (hoff : OffDeadlines k s)
    (hv : visible s.now (some x) = some x) (hfits : Fitting k s x) : Fitting k s' x := by
  obtain ⟨row, hrow, hx⟩ := hfits
  cases h with
  | known _ hknown hdone => exact ⟨row, by rw [hdone.newest]; exact hrow, hx⟩
  | failed hunknown e he hdone => exact ⟨row, by rw [hdone.newest]; exact hrow, hx⟩
  | kept hunknown stored deadline row' hkept hrow' hdone =>
    rw [known_of_newest hrow (hx.lives hv (hoff row hrow))] at hunknown
    cases hunknown

/-- A claim that fails leaves the durable execution to itself. -/
theorem ensures_unclaimed {operation : Operation (handlerCalls ResultT W)} {policy : IdempotencyPolicy}
    (hq : Rested s) (hcalls : CallsOnce o result operation.hotDurable)
    (hfits : ∀ found s', ExecutedOnce k fp o (retained result s.now policy.retentionSeconds) s s' found →
      ∀ x, visible s.now (s.hot.entries (R.storageKey k)) = some x → Fitting k s' x) :
    Ensures (solo R covered ResultT W) w (fun r s' => ∃ found, r = answerOf found ∧
      Coordinated k fp o (retained result s.now policy.retentionSeconds) s s' found)
      (do evaluateResult (← executeDurable k fp operation policy.retentionSeconds)) s := by
  have hsame : ∀ {found s'}, ExecutedOnce k fp o (retained result s.now policy.retentionSeconds)
      s s' found → s'.hot = s.hot →
      Coordinated k fp o (retained result s.now policy.retentionSeconds) s s' found := by
    intro found s' hexecuted hhot
    refine ⟨hexecuted, fun key _ => by rw [hhot], fun x hx => ?_⟩
    rw [hhot, hexecuted.now] at hx
    exact hfits found s' hexecuted x hx
  refine (ensures_db (ensures_executeOnce hq policy.retentionSeconds_pos hcalls)).bind
    (fun found s₁ hs₁ => ?_) fun e s₁ hs₁ => ⟨.error e, rfl, hsame hs₁.1 hs₁.2.1⟩
  obtain ⟨hexecuted, hhot, -⟩ := hs₁
  have hlives : found.Lives fp s₁.now := by
    rw [hexecuted.now]
    exact hexecuted.lives policy.retentionSeconds_pos
  refine (ensures_evaluated hlives).mono fun r s₂ hs₂ => ?_
  obtain ⟨rfl, hu, hhot₂⟩ := hs₂
  exact ⟨.ok found, rfl, hsame (hexecuted.unmoved hu) (hhot₂.trans hhot)⟩

theorem ensures_resolveBusy {policy : IdempotencyPolicy} {busy given : IdempotencyResult}
    (hq : Rested s) (hmode : policy.mode = .hotDurable) (hknown : known k fp s = some given) :
    Ensures (solo R covered ResultT W) w (fun r s' => r = answerOf (.ok given) ∧
      Done [] [] (newest s) s s' ∧ s'.hot = s.hot) (resolveBusy k fp busy policy) s := by
  rw [resolveBusy, if_pos hmode]
  refine (ensures_db (ensures_unavailableAs (ensures_findExisting hq))).bind
    (fun found s₁ hs₁ => ?_) fun e s₁ hs₁ => ?_
  · obtain ⟨a, ⟨rfl, hlooked⟩, hfound⟩ := hs₁
    obtain rfl := Except.ok.inj hfound
    rw [hknown]
    have hlives : given.Lives fp s₁.now := by
      rw [hlooked.now]
      exact known_lives hknown
    refine (ensures_evaluated hlives).mono fun r s₂ hs₂ => ?_
    obtain ⟨rfl, hu, hhot⟩ := hs₂
    exact ⟨rfl, hlooked.toDone.unmoved hu, hhot.trans hlooked.hot⟩
  · obtain ⟨a, ⟨rfl, -⟩, he⟩ := hs₁
    cases he

theorem Coordinated.of_unmoved {found : Except Exn IdempotencyResult}
    (h : Coordinated k fp o kept s' s'' found) (hu : Unmoved s s')
    (helsewhere : ∀ key, key ≠ R.storageKey k → s'.hot.entries key = s.hot.entries key) :
    Coordinated k fp o kept s s'' found :=
  ⟨h.executed.of_unmoved hu, fun key hkey => (h.entry.elsewhere key hkey).trans (helsewhere key hkey),
    h.entry.here⟩

theorem answer_claim {token : Token} {lease : Nat} : s.hot.answer R s.now (.claim k fp token lease) =
    R.script s.now (.claim k fp token lease) (visible s.now (s.hot.entries (R.storageKey k))) := rfl

/-- An entry that goes with a live record is answered by what is known of the record. -/
theorem readClaim_fitting (fp : Digest) {row : DurableRecord} {x : Entry} (hrow : newest s k = some row)
    (hfits : x.Fits row.completed) (hlive : s.now < row.completed.expiresAt) :
    ∃ given, known k fp s = some given ∧ (readClaim R fp (claimAnswer fp.text x) = .ok .conflict ∨
      readClaim R fp (claimAnswer fp.text x) = .ok .inProgress ∨
      ∃ c, given = .replay c ∧ readClaim R fp (claimAnswer fp.text x) = .ok (.replay c)) := by
  obtain ⟨until_, -, hcaches | ⟨fp', hleases⟩⟩ := hfits
  · refine ⟨_, known_of_newest hrow hlive, ?_⟩
    rw [readClaim_caches hcaches]
    by_cases hfp : row.completed.requestFingerprint = fp
    · rw [if_pos hfp, if_pos hfp]
      exact .inr (.inr ⟨_, rfl, rfl⟩)
    · rw [if_neg hfp]
      exact .inl rfl
  · refine ⟨_, known_of_newest hrow hlive, ?_⟩
    rw [readClaim_leases hleases]
    by_cases hfp : fp' = fp
    · rw [if_pos hfp]
      exact .inr (.inl rfl)
    · rw [if_neg hfp]
      exact .inl rfl

/-- The way out after a busy answer or a replay: what is known is answered, and nothing changes. -/
theorem Coordinated.of_answered {given : IdempotencyResult} {r : Except Exn CompletedIdempotencyResult}
    (hknown : known k fp s = some given) (hu : Unmoved s s')
    (hentry : EntryIs R k (Fitting k s) s s')
    (h : r = answerOf (.ok given) ∧ Done [] [] (newest s') s' s'' ∧ s''.hot = s'.hot) :
    ∃ found, r = answerOf found ∧ Coordinated k fp o kept s s'' found := by
  obtain ⟨rfl, hdone, hhot⟩ := h
  have hdone' : Done [] [] (newest s) s s'' := (hu.newest ▸ hdone).of_unmoved hu
  refine ⟨_, rfl, .of_known hknown hdone' ⟨fun key hkey => ?_, fun x hx => ?_⟩⟩
  · rw [hhot]
    exact hentry.elsewhere key hkey
  · rw [hhot, hdone.now] at hx
    exact hentry.here x hx

/-- A claim that fails: what it leaves is to go with the record there will be. -/
theorem ensures_failedClaim {operation : Operation (handlerCalls ResultT W)} {policy : IdempotencyPolicy}
    {h : Redis W} {message : String} (hq : Rested s) (hmode : policy.mode = .hotDurable)
    (hcalls : CallsOnce o result operation.hotDurable)
    (helsewhere : ∀ key, key ≠ R.storageKey k → h.entries key = s.hot.entries key)
    (hfits : ∀ found s', ExecutedOnce k fp o (retained result s.now policy.retentionSeconds) s s' found →
      ∀ x, visible s.now (h.entries (R.storageKey k)) = some x → Fitting k s' x) :
    Ensures (solo R covered ResultT W) w (fun r s' => ∃ found, r = answerOf found ∧
      Coordinated k fp o (retained result s.now policy.retentionSeconds) s s' found)
      (if policy.mode = .hotOnly then throw (.idempotencyUnavailable message)
        else do evaluateResult (← executeDurable k fp operation policy.retentionSeconds))
      { s with hot := h } := by
  have hnotHot : ¬ policy.mode = .hotOnly := by
    rw [hmode]
    exact fun h => by cases h
  rw [if_neg hnotHot]
  have hu : Unmoved s { s with hot := h } := unmoved_hot _
  refine (ensures_unclaimed (hq.unmoved hu) hcalls fun found s' hexecuted =>
    hfits found s' (hexecuted.of_unmoved hu)).mono fun r s' hr => ?_
  obtain ⟨found, rfl, hcoordinated⟩ := hr
  exact ⟨found, rfl, hcoordinated.of_unmoved hu helsewhere⟩

/-- What a claim leaves of an entry that is there, and of one that is not. -/
theorem claim_entries (fp : Digest) (token : Token) (lease : Nat) (awaited : Bool) (w : W) :
    (s.hot.serve R w awaited s.now (.claim k fp token lease)).entries (R.storageKey k) =
      some ((visible s.now (s.hot.entries (R.storageKey k))).getD
        (Entry.leased s.now fp.text (uuidText token) lease)) := by
  refine (serve_entries R w awaited s.now _ s.hot _).trans ((if_pos rfl).trans ?_)
  rw [answer_claim]
  cases visible s.now (s.hot.entries (R.storageKey k)) <;> rfl

/-- A claim keeps the entry that it meets. -/
theorem entryIs_claim {token : Token} {lease : Nat} {x : Entry}
    (hv : visible s.now (s.hot.entries (R.storageKey k)) = some x) (hfits : Fitting k s x) :
    EntryIs R k (Fitting k s) s
      { s with hot := s.hot.serve R w true s.now (.claim k fp token lease) } where
  elsewhere key hkey := (serve_entries R w true s.now _ s.hot key).trans (if_neg hkey)
  here y hy := by
    change visible s.now ((s.hot.serve R w true s.now (.claim k fp token lease)).entries
      (R.storageKey k)) = some y at hy
    rw [claim_entries, hv] at hy
    obtain rfl : x = y := Option.some.inj (visible_eq_some.1 hy).1
    exact hfits

/-- An execution alone: the answer is that of the durable execution, whatever the hot store
holds and however its calls fail. -/
theorem ensures_execute {operation : Operation (handlerCalls ResultT W)} {policy : IdempotencyPolicy}
    {token : Token} (hq : Rested s) (hmode : policy.mode = .hotDurable)
    (hfits : ∀ x, visible s.now (s.hot.entries (R.storageKey k)) = some x → Fitting k s x)
    (hoff : OffDeadlines k s) (hcalls : CallsOnce o result operation.hotDurable)
    (hcovered : covered → Covers k fp o (retained result s.now policy.retentionSeconds)
      policy.leaseSeconds s) :
    Ensures (solo R covered ResultT W) w (fun r s' => ∃ found, r = answerOf found ∧
      Coordinated k fp o (retained result s.now policy.retentionSeconds) s s' found)
      (execute k fp operation policy token) s := by
  let claim : HotCall := .claim k fp token policy.leaseSeconds
  have helsewhere : ∀ awaited key, key ≠ R.storageKey k →
      (s.hot.serve R w awaited s.now claim).entries key = s.hot.entries key :=
    fun awaited key hkey => (serve_entries R w awaited s.now claim s.hot key).trans (if_neg hkey)
  have hhere := fun awaited => claim_entries (s := s) (k := k) fp token policy.leaseSeconds awaited w
  have hkeeps : ∀ found s', ExecutedOnce k fp o (retained result s.now policy.retentionSeconds) s s' found →
      ∀ x, visible s.now (s.hot.entries (R.storageKey k)) = some x → Fitting k s' x := by
    intro found s' hexecuted x hx
    exact hexecuted.fitting hoff (visible_eq_some.2 ⟨rfl, (visible_eq_some.1 hx).2⟩) (hfits x hx)
  refine ensures_hot policy.leaseSeconds_pos ?_ (fun _ message => ?_) fun hmay message => ?_
  · let served : World W (redisHotStore W R) (handlerCalls ResultT W) :=
      { s with hot := s.hot.serve R w true s.now claim }
    have hu : Unmoved s served := unmoved_hot _
    cases hv : visible s.now (s.hot.entries (R.storageKey k)) with
    | none =>
      have hentry := hhere true
      rw [hv] at hentry
      rw [answer_claim, hv]
      refine (ensures_executeClaimed (hq.unmoved hu) hmode hentry hcalls fun h =>
        (hcovered h).unmoved hu).mono fun r s' hr => ?_
      obtain ⟨found, rfl, hcoordinated⟩ := hr
      exact ⟨found, rfl, hcoordinated.of_unmoved hu (helsewhere true)⟩
    | some x =>
      obtain ⟨row, hrow, hx⟩ := hfits x hv
      have hlive := hx.lives (visible_eq_some.2 ⟨rfl, (visible_eq_some.1 hv).2⟩) (hoff row hrow)
      obtain ⟨given, hknown, hanswer⟩ := readClaim_fitting (R := R) fp hrow hx hlive
      have hentry : EntryIs R k (Fitting k s) s served := entryIs_claim hv ⟨row, hrow, hx⟩
      have hknown' : known k fp served = some given := hu.known.trans hknown
      have hbusy : ∀ busy, Ensures (solo R covered ResultT W) w (fun r s' => ∃ found,
          r = answerOf found ∧
            Coordinated k fp o (retained result s.now policy.retentionSeconds) s s' found)
          (resolveBusy k fp busy policy) served := fun busy =>
        (ensures_resolveBusy (hq.unmoved hu) hmode hknown').mono fun r s' hr =>
          Coordinated.of_answered hknown hu hentry hr
      have hscript : (s.hot.answer R s.now claim).1 = readClaim R fp (claimAnswer fp.text x) := by
        rw [answer_claim, hv]
        rfl
      rw [hscript]
      rcases hanswer with hanswer | hanswer | ⟨c, rfl, hanswer⟩
      · rw [hanswer]
        exact hbusy .conflict
      · rw [hanswer]
        exact hbusy .inProgress
      · rw [hanswer]
        refine (ensures_evaluated (known_lives hknown')).mono fun r s' hr => ?_
        obtain ⟨hr, hu', hhot⟩ := hr
        exact Coordinated.of_answered hknown hu hentry
          ⟨hr, Done.unmoved ⟨hq.unmoved hu, rfl, rfl, rfl, rfl⟩ hu', hhot⟩
  · exact ensures_failedClaim hq hmode hcalls (fun _ _ => rfl) hkeeps
  · -- only the answer was lost: the lease, if there was no entry, is there and stays
    refine ensures_failedClaim hq hmode hcalls (helsewhere false) fun found s' hexecuted x hx => ?_
    rw [hhere false] at hx
    cases hv : visible s.now (s.hot.entries (R.storageKey k)) with
    | none =>
      rw [hv, Option.getD_none, visible_leased] at hx
      obtain rfl := Option.some.inj hx
      obtain ⟨row, hrow, hend⟩ := hcovered (hmay rfl) found s' hexecuted
      exact ⟨row, hrow, _, .inl (by omega), .inr ⟨fp, leased_leases s.now fp token _⟩⟩
    | some y =>
      rw [hv, Option.getD_some] at hx
      obtain rfl : y = x := Option.some.inj (visible_eq_some.1 hx).1
      exact hkeeps found s' hexecuted y hv

end ProfileService.Idempotency
