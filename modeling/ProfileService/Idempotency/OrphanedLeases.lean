import ProfileService.Idempotency.SequentialCoordinator

/-!
# Leases that are left behind

A completion that warms the cache may fail after its claim; the lease then stays until it ends by
itself, and blocks the request if the record is gone before.
-/

namespace ProfileService.Idempotency
open Library Library.Machine Application

variable {W ι : Type} [DecidableEq W] {ResultT : ι → Type} {R : RedisClient}
  {covered : Prop} {w : W}
  {s s' s'' : World W (redisHotStore W R) (handlerCalls ResultT W)} {k : IdempotencyKey} {fp : Digest}
  {o : Invocation ResultT} {result : Except Exn StoredResult}
  {operation : Operation (handlerCalls ResultT W)} {policy : IdempotencyPolicy} {token : Token}

omit [DecidableEq W] in
theorem soloHot_served {now : Instant} {c : HotCall} {h : Redis W} {r : Except Exn c.Reply}
    (hvalid : c.Valid) (hr : r = (h.answer R now c).1) :
    soloHot R covered w now c h r (h.serve R w true now c) := by
  unfold soloHot
  rw [if_pos hvalid]
  exact .inl ⟨hr, rfl⟩

theorem runs_lost_complete {c : CompletedIdempotencyResult} (hmode : policy.mode = .hotDurable)
    (hcovered : covered) : ∃ h : Redis W,
      Runs (solo R covered ResultT W) w (complete_ k token c policy) s (.ok ()) { s with hot := h } ∧
        h.entries = s.hot.entries := by
  let call : HotCall := .complete k token c policy.hotResultTtlSeconds
  let lost : Redis W := { s.hot with inflight := (w, call) :: s.hot.inflight }
  have hfailed : soloHot R covered w s.now call s.hot (.error (.idempotencyUnavailable "")) lost := by
    unfold soloHot
    rw [if_pos (show call.Valid from policy.hotResultTtlSeconds_pos)]
    exact .inr ⟨⟨"", rfl⟩, .inl ⟨fun _ => hcovered, rfl⟩⟩
  have hdurable : ¬ policy.mode = .hotOnly := by
    rw [hmode]
    exact fun h => by cases h
  refine ⟨lost, .call ⟨lost, hfailed, rfl⟩ ?_, rfl⟩
  show Runs _ w (if policy.mode = .hotOnly then _ else _) _ _ _
  rw [if_neg hdurable]
  exact .ret _ _

theorem runs_leaseLost {lease : Nat} (h : HoldsLease w k fp token lease s) :
    Runs (solo R covered ResultT W) w leaseLost s (.ok false) s := by
  have hends : Ensures (solo R covered ResultT W) w _ leaseLost s := ensures_leaseLost h
  obtain ⟨r, s', hrun⟩ := hends.exists_runs
  obtain ⟨rfl, rfl⟩ := hends.of_runs hrun
  exact hrun

/-- The completion that warms the cache from a record may fail and leave the lease behind. -/
theorem exists_orphan {c : CompletedIdempotencyResult} (hq : Rested s)
    (hmode : policy.mode = .hotDurable) (hcalls : CallsOnce o result operation.hotDurable)
    (hnone : visible s.now (s.hot.entries (R.storageKey k)) = none)
    (hknown : known k fp s = some (.replay c)) (hcovered : covered) :
    ∃ s', Runs (solo R covered ResultT W) w (execute k fp operation policy token) s (.ok c) s' ∧
      Done [] [] (newest s) s s' ∧ s'.hot.entries (R.storageKey k) =
        some (Entry.leased s.now fp.text (uuidText token) policy.leaseSeconds) := by
  let claim : HotCall := .claim k fp token policy.leaseSeconds
  let served : World W (redisHotStore W R) (handlerCalls ResultT W) :=
    { s with hot := s.hot.serve R w true s.now claim }
  let started : World W (redisHotStore W R) (handlerCalls ResultT W) :=
    served.setHeartbeat w (some ⟨k, token, policy.leaseSeconds, false, false⟩)
  have hu : Unmoved s started := ⟨rfl, rfl, rfl, rfl⟩
  have hentry : started.hot.entries (R.storageKey k) =
      some (Entry.leased s.now fp.text (uuidText token) policy.leaseSeconds) := by
    refine (serve_entries R w true s.now claim s.hot _).trans ((if_pos rfl).trans ?_)
    rw [answer_claim, hnone]
    rfl
  have hlease : HoldsLease w k fp token policy.leaseSeconds started := by
    refine ⟨hentry, ?_⟩
    show (Function.update s.heartbeat w _ w).any _ = false
    rw [Function.update_self]
    rfl
  have hunder : Ensures (solo R covered ResultT W) w _ _ started :=
    ensures_underLease (hq.unmoved hu) hmode hlease hcalls
  obtain ⟨r, held, hrun⟩ := hunder.exists_runs
  obtain ⟨hexecuted, hok, -⟩ := hunder.of_runs hrun
  -- a live record is given back, whatever the operation would do
  have hreplay : r = .ok (.replay c) ∧ Done [] [] (newest s) s held := by
    cases hexecuted.of_unmoved hu with
    | known given hgiven hdone =>
      obtain rfl := Option.some.inj (hgiven.symm.trans hknown)
      exact ⟨rfl, hdone⟩
    | failed hunknown _ _ _ =>
      rw [hknown] at hunknown
      cases hunknown
    | kept hunknown _ _ _ _ _ _ =>
      rw [hknown] at hunknown
      cases hunknown
  obtain ⟨rfl, hdone⟩ := hreplay
  obtain ⟨hheld, hhot⟩ := hok _ rfl
  obtain ⟨h, hcomplete, hentries⟩ := @runs_lost_complete W ι _ ResultT R covered w held k policy token c
    hmode hcovered
  let left : World W (redisHotStore W R) (handlerCalls ResultT W) := { held with hot := h }
  have hleft : Done [] [] (newest s) s left := hdone.unmoved (unmoved_hot h)
  have hlives : (IdempotencyResult.replay c).Lives fp left.now := by
    rw [hleft.now]
    exact known_lives hknown
  have hevaluates : Ensures (solo R covered ResultT W) w _ _ left := ensures_evaluated hlives
  obtain ⟨a, s', hevaluate⟩ := hevaluates.exists_runs
  obtain ⟨rfl, hu', hhot'⟩ := hevaluates.of_runs hevaluate
  have hacquired : soloHot R covered w s.now claim s.hot (.ok .acquired)
      (s.hot.serve R w true s.now claim) := by
    refine soloHot_served (show claim.Valid from policy.leaseSeconds_pos) ?_
    rw [answer_claim, hnone]
    rfl
  have hstart : (solo R covered ResultT W).exec w (.startHeartbeat k token policy.leaseSeconds)
      served (.ok ()) started := ⟨rfl, rfl⟩
  refine ⟨s', .call ⟨_, hacquired, rfl⟩ (.call hstart (hrun.bind
    ((runs_leaseLost hheld).bind (hcomplete.bind hevaluate)))), hleft.unmoved hu', ?_⟩
  rw [hhot']
  show h.entries _ = _
  rw [hentries, hhot]
  exact hentry

/-- Under a lease that is still there and without a live record the request is in progress. -/
theorem exists_blocked {x : Entry} {until_ : Int} (hq : Rested s)
    (hmode : policy.mode = .hotDurable)
    (hv : visible s.now (s.hot.entries (R.storageKey k)) = some x) (hx : x.Leases fp until_)
    (hunknown : known k fp s = none) :
    ∃ s', Runs (solo R covered ResultT W) w (execute k fp operation policy token) s
      (.error (.idempotencyInProgress
        "Запрос с данным ключом идемпотентности уже находится в процессе обработки")) s' ∧
      Done [] [] (newest s) s s' := by
  let claim : HotCall := .claim k fp token policy.leaseSeconds
  let served : World W (redisHotStore W R) (handlerCalls ResultT W) :=
    { s with hot := s.hot.serve R w true s.now claim }
  have hu : Unmoved s served := unmoved_hot _
  have hbusy : soloHot R covered w s.now claim s.hot (.ok .inProgress)
      (s.hot.serve R w true s.now claim) := by
    refine soloHot_served (show claim.Valid from policy.leaseSeconds_pos) ?_
    rw [answer_claim, hv]
    exact ((readClaim_leases hx).trans (congrArg _ (if_pos rfl))).symm
  have hresolves : Ensures (solo R covered ResultT W) w (fun r s' => r = .error (.idempotencyInProgress
      "Запрос с данным ключом идемпотентности уже находится в процессе обработки") ∧
      Done [] [] (newest s) s s') (resolveBusy k fp .inProgress policy) served := by
    rw [resolveBusy, if_pos hmode]
    refine (ensures_db (ensures_unavailableAs (ensures_findExisting (hq.unmoved hu)))).bind
      (fun found s₁ hs₁ => ?_) fun e s₁ hs₁ => ?_
    · obtain ⟨a, ⟨rfl, hlooked⟩, hfound⟩ := hs₁
      obtain rfl := Except.ok.inj hfound
      rw [hu.known, hunknown]
      exact ⟨rfl, (hu.newest ▸ hlooked.toDone).of_unmoved hu⟩
    · obtain ⟨a, ⟨rfl, -⟩, he⟩ := hs₁
      cases he
  obtain ⟨r, s', hrun⟩ := hresolves.exists_runs
  obtain ⟨rfl, hdone⟩ := hresolves.of_runs hrun
  exact ⟨s', .call ⟨_, hbusy, rfl⟩ hrun, hdone⟩

end ProfileService.Idempotency
