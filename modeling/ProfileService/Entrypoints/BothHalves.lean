import ProfileService.Entrypoints.Deadlocks
import ProfileService.Entrypoints.Provisioning
import ProfileService.Idempotency.Classification

/-!
# Both halves of a user, from their first insertion on

A provisioning among any other executions: what it has committed is there ever after, what it
has not committed is nowhere, and a row is its first insertion with the committed updates.
-/

namespace ProfileService.Entrypoints
open Domain Library Library.Machine Application Infrastructure Idempotency

variable {W : Type} [DecidableEq W] {zones : ZoneInfo} {fault : Exn → Prop} {name : TableName}
  {id : UserId} {w : W} {commands : W → Command} {H : HotStore W} {F : Failures} {α : Type}
  {s : World W H (database W zones fault)} {population : Population zones}
  {base : (name : TableName) → UserId → Option (tableOf zones name).Row}

/-! ### Where a row comes from -/

/-- What the oldest version of a row is: the row of before the run, or the default that a
provisioning has inserted where there was none. -/
inductive First (commands : W → Command) (population : Population zones) (name : TableName)
    (id : UserId) : VersionedMutableEntity (FieldsOf zones name) → Option W → Prop where
  | stored {a : VersionedMutableEntity (FieldsOf zones name)}
      (h : population.entity name id = some a) : First commands population name id a none
  | inserted (w : W) (cmd : CreateDefaultProfileCommand) (h : population.entity name id = none)
      (hcommand : commands w = .createDefaultProfile cmd) (hid : cmd.userId = id) :
      First commands population name id (defaultOf zones name id cmd.registeredAt.instant) (some w)

/-- `a` is the first version of its row with what the others who committed the row, none of them
a provisioning, have made of it one after another. -/
structure Derived (commands : W → Command) (population : Population zones) (name : TableName)
    (id : UserId) (writers : List W) (a : VersionedMutableEntity (FieldsOf zones name))
    (a₀ : VersionedMutableEntity (FieldsOf zones name)) (inserter : Option W)
    (runs : List (W × Instant)) : Prop where
  first : First commands population name id a₀ inserter
  writers : inserter.toList ++ runs.map Prod.fst = writers
  updates : runs.foldlM (updateRow name commands) a₀ = some a
  unprovisioned : ∀ run ∈ runs, ∀ cmd, commands run.1 ≠ .createDefaultProfile cmd
  version : a.version = a₀.version + runs.length
  createdAt : a.createdAt = a₀.createdAt

omit [DecidableEq W] in
theorem updateRows_kept {runs : List (W × Instant)}
    {a a' : VersionedMutableEntity (FieldsOf zones name)}
    (h : runs.foldlM (updateRow name commands) a = some a') :
    a'.createdAt = a.createdAt ∧ ∀ run ∈ runs, ∀ cmd, commands run.1 ≠ .createDefaultProfile cmd := by
  induction runs generalizing a with
  | nil =>
    cases h
    exact ⟨rfl, fun run hrun => by cases hrun⟩
  | cons run runs ih =>
    rw [List.foldlM_cons] at h
    obtain ⟨b, hb, hrest⟩ := Option.bind_eq_some_iff.1 h
    obtain ⟨hcreated, hall⟩ := ih hrest
    obtain ⟨u, hu, happly⟩ := Option.bind_eq_some_iff.1 hb
    obtain ⟨-, -, hok⟩ := apply_eq_some.1 happly
    refine ⟨hcreated.trans (rowUpdate_kept hu hok).2.1, fun run' hrun cmd hc => ?_⟩
    rcases List.mem_cons.1 hrun with rfl | hrun
    · rw [hc, rowUpdate_not_createDefault] at hu
      cases hu
    · exact hall run' hrun cmd hc

theorem Accounted.derived (h : Accounted commands population.rows s)
    {row : (tableOf zones name).Row} (hc : (rowOf name id s).committed = some row) :
    ∃ a a₀ inserter runs, row = (tableOf zones name).values a ∧
      Derived commands population name id (writersOf name id s.log) a a₀ inserter runs := by
  cases hentity : population.entity name id with
  | some a₀ =>
    have hbase : population.rows name id = some ((tableOf zones name).values a₀) := by
      unfold Population.rows
      rw [hentity]
      rfl
    obtain ⟨runs, a, hwriters, hfold, hcommitted⟩ := Accounted.replay h hbase
    obtain ⟨hcreated, hupdates⟩ := updateRows_kept hfold
    exact ⟨a, a₀, none, runs, Option.some.inj (hc.symm.trans hcommitted), .stored hentity, hwriters,
      hfold, hupdates, (updateRows_versions hfold).1, hcreated⟩
  | none =>
    have hbase : population.rows name id = none := by
      unfold Population.rows
      rw [hentity]
      rfl
    have hversions : (rowOf name id s).versions = stagedVersions name id s.log := by
      rw [h.versions name id, hbase]
      exact List.append_nil _
    obtain ⟨u, hu, -⟩ := Row.mem_of_committed hc
    obtain ⟨vs, v, hsplit⟩ : ∃ vs v, (rowOf name id s).versions = vs ++ [v] := by
      refine ⟨_, _, (List.dropLast_append_getLast (List.ne_nil_of_mem hu)).symm⟩
    have htraces := (h.traced name id).history
    rw [hsplit] at htraces
    obtain ⟨holdest, -⟩ := htraces.tail
    cases hw : v.writer with
    | none =>
      rw [hw] at holdest
      obtain ⟨-, hbase'⟩ := holdest
      rw [hbase] at hbase'
      cases hbase'
    | some w =>
      rw [hw] at holdest
      obtain ⟨cmd, hcommand, hid, hrow⟩ := holdest
      obtain ⟨runs, a, hwho, hfold, hcommitted⟩ := Accounted.replay_from h hsplit hrow
      obtain ⟨hcreated, hupdates⟩ := updateRows_kept hfold
      refine ⟨a, _, some w, runs, Option.some.inj (hc.symm.trans hcommitted),
        .inserted w cmd hentity hcommand hid, ?_, hfold, hupdates, (updateRows_versions hfold).1,
        hcreated⟩
      have hlast : ((vs ++ [v]).map Version.writer).reverse =
          some w :: (runs.map Prod.fst).map some := by
        rw [List.map_append, List.reverse_append, hwho, List.map_singleton, hw]
        rfl
      refine List.map_injective_iff.2 (Option.some_injective W) ?_
      rw [← stagedVersions_writers, ← hversions, hsplit, hlast]
      rfl

/-! ### Whoever has ended -/

/-- The rest of a task obeys the order from what its rows say it has locked. -/
theorem obeying_reachable {keeps : W → Prop}
    {c c' : Library.Config (sig (database W zones fault)) Exn W (World W H (database W zones fault)) α}
    (hsound : ∀ d, (machine W H (database W zones fault) F).Reachable c d →
      Infrastructure.Sound d.state)
    (h : ∀ w, ∃ p, Locked w p c.state ∧ (c.task w).elim (p.lock = 0)
      fun x => x.Obeys (lockOrderOf (keeps w)) Outside p)
    (hr : (machine W H (database W zones fault) F).Reachable c c') :
    ∀ w, ∃ p, Locked w p c'.state ∧ (c'.task w).elim (p.lock = 0)
      fun x => x.Obeys (lockOrderOf (keeps w)) Outside p := by
  induction hr with
  | refl => exact h
  | tail hpast hs ih =>
    intro w
    obtain ⟨p, hlocked, hrest⟩ := ih w
    cases hs with
    | @act u o k r s' htask hexec =>
      by_cases huw : w = u
      · subst huw
        rw [htask] at hrest
        obtain ⟨hpermits, hnext⟩ := hrest
        refine ⟨_, hlocked.step (hsound _ hpast) hpermits hexec, ?_⟩
        simp only [Function.update_self]
        exact hnext r
      · refine ⟨p, hlocked.frame (opExec_frame hexec huw), ?_⟩
        simp only [Function.update_of_ne huw]
        exact hrest
    | env henv => exact ⟨p, hlocked.frame (henv.frame w), hrest⟩
    | @crash u o k s' htask hcrash =>
      obtain ⟨-, rfl⟩ := hcrash
      by_cases huw : w = u
      · subst huw
        simp only [Function.update_self]
        exact ⟨⟨0, none⟩, hlocked.crash, rfl⟩
      · refine ⟨p, hlocked.frame (crash_frame _ huw), ?_⟩
        simp only [Function.update_of_ne huw]
        exact hrest

theorem executions_idle {R : RedisClient} {D : Deployment} {modes : W → ResultMode}
    {job : W → Request (database W zones fault)} {now : Instant}
    {stored : IdempotencyKey → Option DurableRecord}
    {c : Library.Config (sig (database W zones fault)) Exn W
      (World W (redisHotStore W R) (database W zones fault)) CompletedIdempotencyResult}
    (hmode : ∀ w, (job w).policy.mode = .hotDurable)
    (hoperation : ∀ w, (job w).operation = operationOf D zones _ (modes w) (commands w))
    (hsound : ∀ d, (machine W (redisHotStore W R) (database W zones fault) F).Reachable
      (opening R job population now stored) d → Infrastructure.Sound d.state)
    (hr : (machine W (redisHotStore W R) (database W zones fault) F).Reachable
      (opening R job population now stored) c)
    (hended : c.task w = none ∨ ∃ r, c.task w = some (.ret r)) :
    c.state.inTransaction w = false := by
  have hstart : ∀ v, ∃ p, Locked v p (opening R job population now stored).state ∧
      ((opening R job population now stored).task v).elim (p.lock = 0) fun x =>
        x.Obeys (lockOrderOf (renames (commands v) = false)) Outside p := by
    refine fun v => ⟨⟨0, none⟩, locked_ended rfl
      (fun name id => population.own_stored v name id) (fun _ => rfl), ?_⟩
    refine obeys_execute (hmode v) ?_ rfl
    rw [hoperation v]
    exact obeys_operation (commands v)
  obtain ⟨p, hlocked, hrest⟩ := obeying_reachable hsound hstart hr w
  have hp : p.lock = 0 := by
    rcases hended with hdead | ⟨r, hreturned⟩
    · rwa [hdead] at hrest
    · rwa [hreturned] at hrest
  refine eq_false_of_ne_true fun ht => ?_
  have hopen := hlocked.active ht
  omega

/-- Any number of executions of the registered commands, in any interleaving and with any
failures. Once a provisioning has committed, both halves of its user are there in every later
state; a row is its first version, of before the run or inserted by one provisioning where there
was none, with the committed updates of others and of no provisioning; one that has not
committed has written no row, and whoever has ended holds none; and `missing_error` is raised
by none of them. -/
theorem provisioning_makes_both {R : RedisClient} {D : Deployment} {modes : W → ResultMode}
    {job : W → Request (database W zones Failures.any.fault)} {now : Instant}
    {stored : IdempotencyKey → Option DurableRecord}
    {c : Library.Config (sig (database W zones Failures.any.fault)) Exn W (RouteWorld W R zones)
      CompletedIdempotencyResult}
    (hmode : ∀ w, (job w).policy.mode = .hotDurable)
    (hoperation : ∀ w, (job w).operation = operationOf D zones _ (modes w) (commands w))
    (hr : (machine W (redisHotStore W R) (database W zones Failures.any.fault)
      Failures.any).Reachable (opening R job population now stored) c) :
    (∀ made ∈ c.state.log, ¬ made.Empty → ∀ cmd, commands made.worker = .createDefaultProfile cmd →
      ∀ c', (machine W (redisHotStore W R) (database W zones Failures.any.fault)
        Failures.any).Reachable c c' →
      ∀ name, (rowOf name cmd.userId c'.state).committed.isSome = true) ∧
    (∀ name id row, (rowOf name id c.state).committed = some row →
      ∃ a a₀ inserter runs, row = (tableOf zones name).values a ∧
        Derived commands population name id (writersOf name id c.state.log) a a₀ inserter runs) ∧
    (∀ w cmd, commands w = .createDefaultProfile cmd →
      (∀ made ∈ c.state.log, made.worker = w → made.Empty) →
      ∀ name id, w ∉ writersOf name id c.state.log) ∧
    (∀ w, (c.task w = none ∨ ∃ r, c.task w = some (.ret r)) →
      ∀ name id, (rowOf name id c.state).own w = none) ∧
    ∀ w cmd e, commands w = .createDefaultProfile cmd → c.task w = some (.ret (.error e)) →
      e.isOrchestration = true := by
  have hgoverned : ∀ d, (machine W (redisHotStore W R) (database W zones Failures.any.fault)
      Failures.any).Reachable (opening R job population now stored) d →
      Accounted commands population.rows d.state := fun d hd =>
    (executions_governed any_orchestration any_orchestration redisExec_raises hmode hoperation
      hd).inv.accounted
  refine ⟨fun made hmade hcommitted cmd hcmd c' hlater name => ?_,
    fun name id row hrow => Accounted.derived (hgoverned c hr) hrow,
    fun w cmd _ hempty name id hwriter => ?_, fun w hended => ?_,
    fun w cmd e hcmd he => provisioning_raises hmode hoperation hr hcmd he⟩
  · have hwhole := (executions_provisioned hmode hoperation hr).whole made hmade cmd hcmd
    exact committed_isSome_mono (VersionsGrow.of_reachable hlater name cmd.userId)
      (hwhole.resolve_left hcommitted name)
  · obtain ⟨made, hmade, hw, hwritten⟩ := mem_writersOf.1 hwriter
    rw [(hempty made hmade hw).1] at hwritten
    cases hwritten
  · exact (hgoverned c hr).sound.idle w
      (executions_idle hmode hoperation (fun d hd => (hgoverned d hd).sound) hr hended)

section Sample

theorem provisioning_makes_both_sample : ∃ s : RouteWorld Unit (sampleClient true) moscowOnly,
    ∀ name, ∃ row a a₀ inserter runs, (rowOf name 0 s).committed = some row ∧
      row = (tableOf moscowOnly name).values a ∧
        Derived (fun _ => .createDefaultProfile sampleProvisioning) nobody name 0
          (writersOf name 0 s.log) a a₀ inserter runs := by
  obtain ⟨r, s, hrun, hrows⟩ := sampleProvisioning_run
  obtain ⟨-, hderived, -⟩ :=
    provisioning_makes_both (fun _ => rfl) sampleExecution_operation (hrun.reachable rfl)
  refine ⟨s, fun name => ?_⟩
  obtain ⟨a, a₀, inserter, runs, hrow, hfrom⟩ := hderived name 0 _ (hrows name)
  exact ⟨_, a, a₀, inserter, runs, hrows name, hrow, hfrom⟩

end Sample

end ProfileService.Entrypoints
