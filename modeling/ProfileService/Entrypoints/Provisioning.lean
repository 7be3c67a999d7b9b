import ProfileService.Entrypoints.LostUpdates

/-!
# Provisioning makes both halves of a user, once

However executions of provisionings and updates interleave and fail: a provisioning commits
both rows or nothing, writes only where there is no row, and never raises a domain error.
-/

namespace ProfileService.Entrypoints
open Domain Library Library.Machine Application Infrastructure Idempotency

variable {W : Type} [DecidableEq W] {zones : ZoneInfo} {fault : Exn → Prop} {name : TableName}
  {id : UserId} {w : W} {commands : W → Command} {H : HotStore W}
  {s : World W H (database W zones fault)}
  {base : (name : TableName) → UserId → Option (tableOf zones name).Row}
  {cmd : CreateDefaultProfileCommand}

/-- The first version of a row, by its provisioning. -/
structure FirstVersion (zones : ZoneInfo) (name : TableName) (id : UserId)
    (cmd : CreateDefaultProfileCommand) (c : Row W (tableOf zones name).Row)
    (v : Version W (tableOf zones name).Row) : Prop where
  userId : cmd.userId = id
  default : v.row =
    (tableOf zones name).values (defaultOf zones name id cmd.registeredAt.instant)
  oldest : c.versions.getLast? = some v

omit [DecidableEq W] in
theorem Writes.over_nothing {old : Option (tableOf zones name).Row} {row : (tableOf zones name).Row}
    (h : Writes zones name id (.createDefaultProfile cmd) old row) :
    old = none ∧ cmd.userId = id ∧
      row = (tableOf zones name).values (defaultOf zones name id cmd.registeredAt.instant) := by
  cases old with
  | none =>
    obtain ⟨c, hc, hid, hrow⟩ := h
    obtain rfl := Command.createDefaultProfile.inj hc
    exact ⟨rfl, hid, hrow⟩
  | some old =>
    obtain ⟨u, a, a', now, hu, -⟩ := h
    rw [rowUpdate_not_createDefault] at hu
    cases hu

theorem Accounted.firstVersion (h : Accounted commands base s)
    {v : Version W (tableOf zones name).Row} (hv : v ∈ (rowOf name id s).versions)
    (hw : v.writer = some w) (hc : commands w = .createDefaultProfile cmd) :
    base name id = none ∧ FirstVersion zones name id cmd (rowOf name id s) v := by
  obtain ⟨newer, older, hsplit⟩ := List.append_of_mem hv
  have htraces := (h.traced name id).history
  rw [hsplit] at htraces
  obtain ⟨hwrites, -⟩ := htraces.tail
  simp only [hw, hc] at hwrites
  obtain ⟨hnone, hid, hrow⟩ := Writes.over_nothing hwrites
  have holder : older = [] := by
    cases older with
    | nil => rfl
    | cons x xs => cases hnone
  subst holder
  have hlast : (rowOf name id s).versions.getLast? = some v := by
    rw [hsplit, List.getLast?_concat]
  refine ⟨?_, hid, hrow, hlast⟩
  cases hbase : base name id with
  | none => rfl
  | some row =>
    rw [h.versions name id, hbase, Option.toList_some, List.map_singleton,
      List.getLast?_concat] at hlast
    rw [← Option.some.inj hlast] at hw
    cases hw

/-- What one provisioning has to do with the rows and records of a state. -/
structure Provisioned (commands : W → Command) (population : Population zones)
    (s : World W H (database W zones fault)) : Prop where
  whole : ∀ commit ∈ s.log, ∀ cmd, commands commit.worker = .createDefaultProfile cmd →
    (commit.staged = (database W zones fault).nothing ∧ ∀ k, commit.installed k = none) ∨
      ∀ name, (rowOf name cmd.userId s).committed.isSome = true
  committed : ∀ name id, ∀ v ∈ (rowOf name id s).versions, ∀ w cmd, v.writer = some w →
    commands w = .createDefaultProfile cmd →
    population.entity name id = none ∧ FirstVersion zones name id cmd (rowOf name id s) v
  uncommitted : ∀ name id w row cmd, (rowOf name id s).own w = some row →
    commands w = .createDefaultProfile cmd → (rowOf name id s).committed = none

section Run
variable {R : RedisClient} {D : Deployment} {modes : W → ResultMode}
  {job : W → Request (database W zones Failures.any.fault)} {population : Population zones}
  {now : Instant} {stored : IdempotencyKey → Option DurableRecord}
  {c : Config (sig (database W zones Failures.any.fault)) Exn W (RouteWorld W R zones)
    CompletedIdempotencyResult}

theorem executions_provisioned (hmode : ∀ w, (job w).policy.mode = .hotDurable)
    (hoperation : ∀ w, (job w).operation = operationOf D zones _ (modes w) (commands w))
    (hr : (machine W (redisHotStore W R) (database W zones Failures.any.fault)
      Failures.any).Reachable ⟨World.initial now (Redis.empty : Redis W)
        (Tables.stored population.rows) stored, fun w => some (job w).code⟩ c) :
    Provisioned commands population c.state := by
  have hsafe := executions_governed any_orchestration any_orchestration redisExec_raises hmode
    hoperation hr
  have hkeeps := keeps_reachable (HotContract.effects _ _ _ _) hmode (initial_consistent
    population.quiet)
    (show EffectsLogged _ _ from rfl) initial_start hr
  refine ⟨fun commit hcommit cmd hc => ?_, fun name id v hv w cmd hw hc => ?_,
    fun name id w row cmd ho hc => ?_⟩
  · by_cases hnone : ∀ k, commit.installed k = none
    · exact .inl ⟨(hkeeps.inv.1.commits commit hcommit).recorded hnone, hnone⟩
    · obtain ⟨k, hk⟩ := not_forall.1 hnone
      obtain ⟨row, hrow⟩ := Option.ne_none_iff_exists'.1 hk
      obtain ⟨stored', -, -, -, hkept⟩ := hsafe.inv.2.logged commit hcommit k row hrow
      exact .inr (hkept.provision cmd hc)
  · obtain ⟨hbase, hfirst⟩ := Accounted.firstVersion hsafe.inv.1 hv hw hc
    exact ⟨Option.map_eq_none_iff.1 hbase, hfirst⟩
  · have hwrites := (hsafe.inv.1.traced name id).pending w row (Row.own_eq_some.1 ho)
    rw [hc] at hwrites
    exact (Writes.over_nothing hwrites).1

/-- No row is ever missing for a provisioning, nor its version another one. -/
theorem provisioning_raises (hmode : ∀ w, (job w).policy.mode = .hotDurable)
    (hoperation : ∀ w, (job w).operation = operationOf D zones _ (modes w) (commands w))
    (hr : (machine W (redisHotStore W R) (database W zones Failures.any.fault)
      Failures.any).Reachable ⟨World.initial now (Redis.empty : Redis W)
        (Tables.stored population.rows) stored, fun w => some (job w).code⟩ c)
    {e : Exn} (hc : commands w = .createDefaultProfile cmd)
    (he : c.task w = some (.ret (.error e))) : e.isOrchestration = true := by
  have hsafe := executions_governed any_orchestration any_orchestration redisExec_raises hmode
    hoperation hr
  rcases hsafe.outcome he e rfl with h | ⟨d, -, name, u, hu, -⟩
  · exact h
  · rw [hc, rowUpdate_not_createDefault] at hu
    cases hu

end Run

/-- Any number of executions of the registered commands, in any interleaving and with any
failures: a provisioning commits both halves of its user or nothing; whatever it wrote is
the first version of a row, so that no row is ever overwritten by one; and it raises only
exceptions of the orchestration, `missing_error` never. -/
theorem provisioning_whole {R : RedisClient} {D : Deployment} {modes : W → ResultMode}
    {job : W → Request (database W zones Failures.any.fault)} {population : Population zones}
    {now : Instant} {stored : IdempotencyKey → Option DurableRecord}
    {c : Config (sig (database W zones Failures.any.fault)) Exn W (RouteWorld W R zones)
      CompletedIdempotencyResult}
    (hmode : ∀ w, (job w).policy.mode = .hotDurable)
    (hoperation : ∀ w, (job w).operation = operationOf D zones _ (modes w) (commands w))
    (hr : (machine W (redisHotStore W R) (database W zones Failures.any.fault)
      Failures.any).Reachable ⟨World.initial now (Redis.empty : Redis W)
        (Tables.stored population.rows) stored, fun w => some (job w).code⟩ c) :
    Provisioned commands population c.state ∧
      ∀ w cmd e, commands w = .createDefaultProfile cmd → c.task w = some (.ret (.error e)) →
        e.isOrchestration = true :=
  ⟨executions_provisioned hmode hoperation hr,
    fun _ _ _ hc he => provisioning_raises hmode hoperation hr hc he⟩

section Sample

def nobody : Population moscowOnly where
  entity _ _ := none
  entity_id _ _ _ h := by cases h

def sampleProvisioning : CreateDefaultProfileCommand :=
  provisionProfile 0 (sampleNow false)

theorem sampleProvisioning_run : ∃ r s, Runs (machine Unit (redisHotStore Unit (sampleClient true))
    (database Unit moscowOnly Failures.any.fault) Failures.any) ()
    (sampleExecution (.createDefaultProfile sampleProvisioning)).code
    (World.initial 20 (Redis.empty : Redis Unit) (Tables.stored nobody.rows) fun _ => none) r s ∧
    ∀ name, (rowOf name 0 s).committed =
      some ((tableOf moscowOnly name).values
        (defaultOf moscowOnly name 0 sampleProvisioning.registeredAt.instant)) := by
  refine Runs.exists_call (.error unavailable) ⟨_, .inr ⟨_, .inr ⟨"", rfl⟩, rfl, rfl⟩, rfl⟩ ?_
  refine Runs.exists_call (.ok ()) (.inl ⟨rfl, rfl⟩) ?_
  refine Runs.exists_call (.ok (20 : Int)) ⟨rfl, rfl⟩ ?_
  refine Runs.exists_call (.ok none) ⟨rfl, .inl rfl⟩ ?_
  refine Runs.exists_call (.ok ()) (.inl ⟨rfl, rfl⟩) ?_
  refine Runs.exists_call (.ok ()) (.inl ⟨rfl, rfl⟩) ?_
  refine Runs.exists_call (.ok (some (profilesTable.values
    (UserProfile.createDefault 0 sampleProvisioning.registeredAt.instant))))
    ⟨_, ⟨_, .inl ⟨?_, ⟨?_, ?_⟩, rfl, rfl⟩, rfl⟩, rfl⟩ ?_
  · intro u r h
    cases h
  · decide
  · exact fun other _ content h => absurd h content_absent
  refine Runs.exists_call (.ok (some ((settingsTable moscowOnly).values
    (UserSettings.createDefault 0 sampleProvisioning.registeredAt.instant))))
    ⟨_, ⟨_, .inl ⟨?_, ⟨?_, ?_⟩, rfl, rfl⟩, rfl⟩, rfl⟩ ?_
  · intro u r h
    cases h
  · decide
  · exact fun other _ content h => absurd h content_absent
  refine Runs.exists_call (.ok (20 : Int)) ⟨rfl, rfl⟩ ?_
  refine Runs.exists_call (.ok (20 : Int)) ⟨rfl, rfl⟩ ?_
  refine Runs.exists_call (.ok true) (.inl ⟨?_, ⟨rfl, rfl⟩⟩) ?_
  · intro u r h
    cases h
  refine Runs.exists_call (.ok ()) (.inl ⟨rfl, rfl⟩) ?_
  refine Runs.exists_call (.ok (20 : Int)) ⟨rfl, rfl⟩ ?_
  refine ⟨_, _, .ret _ _, fun name => ?_⟩
  cases name <;> rfl

theorem provisioning_whole_sample : ∃ s : RouteWorld Unit (sampleClient true) moscowOnly,
    (∀ name, (rowOf name 0 s).committed.isSome = true) ∧
      Provisioned (fun _ => .createDefaultProfile sampleProvisioning) nobody s := by
  obtain ⟨r, s, hrun, hrows⟩ := sampleProvisioning_run
  refine ⟨s, fun name => by rw [hrows name]; rfl, ?_⟩
  exact (provisioning_whole (fun _ => rfl) sampleExecution_operation (hrun.reachable rfl)).1

end Sample

end ProfileService.Entrypoints
