import ProfileService.Idempotency.CoordinatorSafety

/-!
# Exactly-once commit

Whatever the hot store answers, and whoever fails or dies when, an operation's
effect and its replay record are committed together or not at all.
-/

namespace ProfileService.Idempotency
open Library Library.Machine Application

variable {W : Type} [DecidableEq W] {H : HotStore W} {B : Business W}

/-- The database before a run: no open transaction, and at most one record row for
each identity. -/
def World.initial (now : Instant) (hot : H.State) (business : B.State)
    (stored : IdempotencyKey → Option DurableRecord) : World W H B where
  now := now
  hot := hot
  heartbeat _ := none
  records k := ⟨(stored k).toList.map fun row => ⟨none, row⟩, none⟩
  business := business
  inTransaction _ := false
  clockRead _ := now
  log := []

/-- The committed effects are `base` and those of the commits of the run. -/
def EffectsLogged (base : List (W × B.Staged)) (s : World W H B) : Prop :=
  B.committed s.business = (s.log.map fun c => (c.worker, c.staged)) ++ base

/-- What the commits of a run are allowed to be. `log` lists them, newest first;
`base` and `stored` are the effects and the records that were there before. -/
structure ExactlyOnce (job : W → Request B) (base : List (W × B.Staged))
    (stored : IdempotencyKey → Option DurableRecord) (s : World W H B) : Prop where
  effects : EffectsLogged base s
  effect_recorded : ∀ c ∈ s.log, c.staged ≠ B.nothing →
    ∃ row, c.installed (job c.worker).identity = some row
  record_own : ∀ c ∈ s.log, ∀ k row, c.installed k = some row →
    k = (job c.worker).identity ∧ OwnRecord (job c.worker) c.worker c.staged row
  once : s.log.Pairwise fun d c => c.worker = d.worker → (∃ k, (c.installed k).isSome) →
    d.staged = B.nothing ∧ ∀ k, d.installed k = none
  disjoint : ∀ k, s.log.Pairwise fun d c => ∀ new old, d.installed k = some new →
    c.installed k = some old → old.completed.expiresAt ≤ new.createdAt ∧ new.createdAt ≤ d.instant
  after_stored : ∀ c ∈ s.log, ∀ k new old, c.installed k = some new → stored k = some old →
    old.completed.expiresAt ≤ new.createdAt ∧ new.createdAt ≤ c.instant
  records : ∀ k, (s.records k).versions =
    installs k s.log ++ (stored k).toList.map fun row => ⟨none, row⟩

variable {F : Failures} {job : W → Request B} {base : List (W × B.Staged)} {stored : IdempotencyKey → Option DurableRecord}
  {s : World W H B}

theorem initial_consistent {now : Instant} {hot : H.State} {business : B.State}
    (hquiet : ∀ w, B.staged w business = B.nothing) :
    Consistent job (fun k => (stored k).toList.map fun row => ⟨none, row⟩)
      (World.initial now hot business stored : World W H B) where
  idle w _ := ⟨hquiet w, fun _ => rfl⟩
  lawful k := by
    cases h : stored k with
    | none =>
      have habsent : Row.Lawful Succeeds (Row.absent : Row W DurableRecord) := Row.lawful_absent
      simpa [World.initial, h, Row.absent] using habsent
    | some row =>
      have hnext : Succeeds none row := fun o ho => by cases ho
      simpa [World.initial, h, Row.stored] using Row.lawful_stored hnext
  pending k w row hp := by cases hp
  commits c hc := by cases hc
  versions k := rfl
  once := .nil

omit [DecidableEq W] in
theorem initial_start {now : Instant} {hot : H.State} {business : B.State} (w : W) :
    Start w (World.initial now hot business stored : World W H B) :=
  ⟨rfl, fun c hc => by cases hc⟩

/-- A record follows on every older version of its row, not only on the newest. -/
theorem Consistent.succession {before : IdempotencyKey → List (Version W DurableRecord)}
    (h : Consistent job before s) (k : IdempotencyKey) :
    (installs k s.log ++ before k).Pairwise fun newer older =>
      older.row.completed.expiresAt ≤ newer.row.createdAt := by
  rw [← h.versions k]
  refine (h.lawful k).history.pairwise (r := fun older newer =>
    older.completed.expiresAt ≤ newer.createdAt) (fun a b hab => hab a rfl) ?_
  intro a b c hab hbc
  exact le_trans hab (le_trans b.lives.le hbc)

theorem Consistent.exactlyOnce
    (h : Consistent job (fun k => (stored k).toList.map fun row => ⟨none, row⟩) s)
    (heffects : EffectsLogged base s) : ExactlyOnce job base stored s where
  effects := heffects
  effect_recorded c hc hne := by
    by_contra hno
    refine hne ((h.commits c hc).recorded fun k => ?_)
    cases hk : c.installed k with
    | none => rfl
    | some row =>
      obtain ⟨rfl, -⟩ := (h.commits c hc).own k row hk
      exact absurd ⟨row, hk⟩ hno
  record_own c hc k row hk := by
    obtain ⟨hid, -, hown⟩ := (h.commits c hc).own k row hk
    exact ⟨hid, hown⟩
  once := by
    refine h.once.imp_of_mem fun {d c} hd _ hdc hw hinst => ?_
    have hnone := hdc hw hinst
    exact ⟨(h.commits d hd).recorded hnone, hnone⟩
  disjoint k := by
    have hpair := (List.pairwise_append.1 (h.succession k)).1
    unfold installs at hpair
    rw [List.pairwise_filterMap] at hpair
    refine hpair.imp_of_mem fun {d c} hd _ hdc new old hnew hold => ?_
    have hle := hdc ⟨some d.worker, new⟩ (by rw [hnew]; rfl) ⟨some c.worker, old⟩ (by rw [hold]; rfl)
    exact ⟨hle, ((h.commits d hd).own k new hnew).2.1⟩
  after_stored c hc k new old hnew hold := by
    have hcross := (List.pairwise_append.1 (h.succession k)).2.2 ⟨some c.worker, new⟩
      (List.mem_filterMap.2 ⟨c, hc, by rw [hnew]; rfl⟩) ⟨none, old⟩ (by simp [hold])
    exact ⟨hcross, ((h.commits c hc).own k new hnew).2.1⟩
  records := h.versions

theorem DbStep.effectsLogged {w : W} {s' : World W H B} (h : DbStep w s s')
    (hs : EffectsLogged base s) : EffectsLogged base s' := by
  unfold EffectsLogged at hs ⊢
  cases h with
  | same => exact hs
  | readClock => exact hs
  | begin _ => exact hs
  | commit _ =>
    rw [show (s.commit w).business = B.commit w s.business from rfl, B.committed_commit, hs]
    rfl
  | rollback _ => exact (B.committed_rollback w _).trans hs
  | write _ _ _ _ _ => exact hs
  | stmt _ _ _ _ hexec => exact (B.committed_exec hexec).trans hs

/-- A hot store of which nothing is assumed. -/
theorem HotContract.effects (F : Failures) (job : W → Request B)
    (before : IdempotencyKey → List (Version W DurableRecord)) (base : List (W × B.Staged)) :
    HotContract (H := H) F job before (EffectsLogged base) (fun _ _ _ => True) where
  good_grown _ _ := True.intro
  good_backed _ := True.intro
  db _ hstep hs := hstep.effectsLogged hs
  call _ hs _ _ := hs
  replay _ _ _ _ := True.intro
  heartbeat hs := hs
  env _ hs he := by
    cases he with
    | tick _ _ => exact hs
    | hot _ _ => exact hs
    | beat _ _ _ _ _ _ _ => exact hs

/-- Any number of concurrent dispatches over any hot store: in every state of every
interleaving an effect is committed exactly with its own record, at most once for
each dispatch and at most once in the lifetime of a record. -/
theorem execute_exactlyOnce {now : Instant} {hot : H.State} {business : B.State}
    {c : Config (sig B) Exn W (World W H B) CompletedIdempotencyResult}
    (hmode : ∀ w, (job w).policy.mode = .hotDurable)
    (hquiet : ∀ w, B.staged w business = B.nothing)
    (hr : (machine W H B Failures.any).Reachable
      ⟨World.initial now hot business stored, fun w => some (job w).code⟩ c) :
    ExactlyOnce job (B.committed business) stored c.state := by
  have hsafe := keeps_reachable (HotContract.effects _ _ _ (B.committed business)) hmode
    (initial_consistent hquiet) (show EffectsLogged _ _ from rfl) initial_start hr
  exact hsafe.inv.1.exactlyOnce hsafe.inv.2

structure EffectLog (W E : Type) where
  committed : List (W × List E)
  staged : W → List E

def effectLog (W E : Type) [DecidableEq W] : Business W where
  State := EffectLog W E
  Op := E
  Reply _ := Unit
  Staged := List E
  exec w e b r b' :=
    (r = .ok () ∧ b' = { b with staged := Function.update b.staged w (b.staged w ++ [e]) }) ∨
      ∃ x, r = .error x ∧ b' = b
  commit w b := ⟨(w, b.staged w) :: b.committed, Function.update b.staged w []⟩
  rollback w b := { b with staged := Function.update b.staged w [] }
  staged w b := b.staged w
  nothing := []
  committed b := b.committed
  frame w b b' := b'.staged w = b.staged w
  committed_exec := by
    rintro w o b r b' (⟨-, rfl⟩ | ⟨x, -, rfl⟩) <;> rfl
  committed_commit _ _ := rfl
  committed_rollback _ _ := rfl
  staged_commit w b := by simp
  staged_rollback w b := by simp
  staged_frame h := h
  frame_refl _ _ := rfl
  frame_trans h h' := h'.trans h
  frame_exec := by
    rintro w v o b r b' (⟨-, rfl⟩ | ⟨x, -, rfl⟩) hw
    · simp [hw]
    · rfl
  frame_commit b hw := by simp [hw]
  frame_rollback b hw := by simp [hw]

def deadHotStore (W : Type) : HotStore W where
  State := Unit
  exec _ _ _ _ r _ := ∃ message, r = .error (.idempotencyUnavailable message)
  env _ _ _ := True
  frame _ _ _ := True
  frame_refl _ _ := trivial
  frame_trans _ _ := trivial
  frame_exec _ _ := trivial
  frame_renew _ := trivial
  frame_env _ := trivial

section Sample

def stageOnce {W : Type} [DecidableEq W] (w : W) : Code (stmtSig (effectLog W W)) Exn StoredResult :=
  .call (.stmt w) fun
    | .ok _ => .ret (.ok StoredResult.completion)
    | .error e => .ret (.error e)

def sampleJob {W : Type} [DecidableEq W] (w : W) : Request (effectLog W W) where
  identity := sampleKey
  requestFingerprint := sampleFingerprint
  operation := ⟨.ret (.ok StoredResult.completion), stageOnce w⟩
  policy := samplePolicy .hotDurable
  leaseToken := 7

theorem sampleRun {H : HotStore Bool} (hot : H.State) {hot' : H.State}
    (hfail : H.exec true 0 (.claim sampleKey sampleFingerprint 7 30) hot
      (.error (.idempotencyUnavailable "")) hot') :
    ∃ r s, Runs (machine Bool H (effectLog Bool Bool) Failures.any) true
      (sampleJob true).code (World.initial 0 hot ⟨[], fun _ => []⟩ fun _ => none) r s ∧
      s.log.map Commit.staged = [[true], []] ∧ ∃ completed, r = .ok completed := by
  refine Runs.exists_call (.error (.idempotencyUnavailable "")) ⟨hot', hfail, rfl⟩ ?_
  refine Runs.exists_call (.ok ()) (Or.inl ⟨rfl, rfl⟩) ?_
  refine Runs.exists_call (.ok (0 : Int)) ⟨rfl, rfl⟩ ?_
  refine Runs.exists_call (.ok none) ⟨rfl, Or.inl rfl⟩ ?_
  refine Runs.exists_call (.ok ()) (Or.inl ⟨rfl, rfl⟩) ?_
  refine Runs.exists_call (.ok ()) (Or.inl ⟨rfl, rfl⟩) ?_
  refine Runs.exists_call (.ok ()) ⟨_, Or.inl ⟨rfl, rfl⟩, rfl⟩ ?_
  refine Runs.exists_call (.ok (0 : Int)) ⟨rfl, rfl⟩ ?_
  refine Runs.exists_call (.ok (0 : Int)) ⟨rfl, rfl⟩ ?_
  refine Runs.exists_call (.ok true) (Or.inl ⟨?_, ⟨rfl, rfl⟩⟩) ?_
  · intro u r h
    cases h
  refine Runs.exists_call (.ok ()) (Or.inl ⟨rfl, rfl⟩) ?_
  refine Runs.exists_call (.ok (0 : Int)) ⟨rfl, rfl⟩ ?_
  exact ⟨_, _, .ret _ _, rfl, _, rfl⟩

theorem execute_exactlyOnce_sample : ∃ s : World Bool (deadHotStore Bool) (effectLog Bool Bool),
    s.log.map Commit.staged = [[true], []] ∧ ExactlyOnce sampleJob [] (fun _ => none) s := by
  have hfail : (deadHotStore Bool).exec true 0 (.claim sampleKey sampleFingerprint 7 30) ()
      (.error (.idempotencyUnavailable "")) () := ⟨"", rfl⟩
  obtain ⟨r, s, hrun, hlog, -⟩ := sampleRun (H := deadHotStore Bool) () hfail
  exact ⟨s, hlog, execute_exactlyOnce (fun _ => rfl) (fun _ => rfl) (hrun.reachable rfl)⟩

end Sample
end ProfileService.Idempotency
