import ProfileService.Entrypoints.CommandRuns

/-!
# No update is lost

Whatever executions of the registered commands run together, a row is what its committed
updates make of it, one after another, each of them from the version it expected.
-/

namespace ProfileService.Entrypoints
open Domain Library Library.Machine Application Infrastructure Idempotency

variable {W : Type} [DecidableEq W] {zones : ZoneInfo} {fault : Exn → Prop} {name : TableName}
  {id : UserId} {commands : W → Command}

/-- The workers whose commits made the versions of a row, oldest first. -/
def writersOf (name : TableName) (id : UserId) (log : List (Commit W (database W zones fault))) :
    List W :=
  (log.reverse.filter fun c => ((show Uncommitted zones from c.staged) name id).isSome).map
    Commit.worker

theorem mem_writersOf {log : List (Commit W (database W zones fault))} {w : W} :
    w ∈ writersOf name id log ↔ ∃ made ∈ log, made.worker = w ∧
      ((show Uncommitted zones from made.staged) name id).isSome = true := by
  simp only [writersOf, List.mem_map, List.mem_filter, List.mem_reverse]
  exact ⟨fun ⟨made, ⟨hmem, hsome⟩, hw⟩ => ⟨made, hmem, hw, hsome⟩,
    fun ⟨made, hmem, hw, hsome⟩ => ⟨made, ⟨hmem, hsome⟩, hw⟩⟩

/-- One update of a row, by the command of its worker at the time that worker read. -/
def updateRow (name : TableName) (commands : W → Command)
    (a : VersionedMutableEntity (FieldsOf zones name)) (run : W × Instant) :
    Option (VersionedMutableEntity (FieldsOf zones name)) :=
  (rowUpdate zones name (commands run.1)).bind fun u => u.apply run.2 a

omit [DecidableEq W] in
theorem updateRow_version {a a' : VersionedMutableEntity (FieldsOf zones name)} {run : W × Instant}
    (h : updateRow name commands a run = some a') :
    a'.version = a.version + 1 ∧
      (rowUpdate zones name (commands run.1)).map RowUpdate.expectedVersion = some a.version := by
  obtain ⟨u, hu, happly⟩ := Option.bind_eq_some_iff.1 h
  obtain ⟨-, hversion, hok⟩ := apply_eq_some.1 happly
  refine ⟨(rowUpdate_kept hu hok).2.2, ?_⟩
  rw [hu, hversion]
  rfl

omit [DecidableEq W] in
theorem updateRows_versions {runs : List (W × Instant)}
    {a a' : VersionedMutableEntity (FieldsOf zones name)}
    (h : runs.foldlM (updateRow name commands) a = some a') :
    a'.version = a.version + runs.length ∧
      (runs.map fun run => (rowUpdate zones name (commands run.1)).map RowUpdate.expectedVersion) =
        (List.range' a.version runs.length).map some := by
  induction runs generalizing a with
  | nil =>
    cases h
    exact ⟨rfl, rfl⟩
  | cons run runs ih =>
    rw [List.foldlM_cons] at h
    obtain ⟨b, hb, hrest⟩ := Option.bind_eq_some_iff.1 h
    obtain ⟨hversion, hexpected⟩ := updateRow_version hb
    obtain ⟨hlast, hall⟩ := ih hrest
    refine ⟨by rw [hlast, hversion, List.length_cons]; omega, ?_⟩
    rw [List.map_cons, List.length_cons, List.range'_succ, List.map_cons, hexpected, hall, hversion]

theorem stagedVersions_writers (log : List (Commit W (database W zones fault))) :
    ((stagedVersions name id log).map Version.writer).reverse = (writersOf name id log).map some := by
  induction log with
  | nil => rfl
  | cons c log ih =>
    cases hc : (show Uncommitted zones from c.staged) name id with
    | none =>
      have hstaged : stagedVersions name id (c :: log) = stagedVersions name id log :=
        List.filterMap_cons_none (congrArg (Option.map _) hc)
      have hwriters : writersOf name id (c :: log) = writersOf name id log := by
        simp [writersOf, List.filter_append, hc]
      rw [hstaged, hwriters, ih]
    | some row =>
      have hstaged : stagedVersions name id (c :: log) =
          ⟨some c.worker, row⟩ :: stagedVersions name id log :=
        List.filterMap_cons_some (congrArg (Option.map _) hc)
      have hwriters : writersOf name id (c :: log) = writersOf name id log ++ [c.worker] := by
        simp [writersOf, List.filter_append, hc]
      rw [hstaged, hwriters, List.map_cons, List.reverse_cons, ih, List.map_append]
      rfl

/-- A row replayed from its oldest version by what was committed after it. -/
theorem Accounted.replay_from {H : HotStore W} {s : World W H (database W zones fault)}
    {base : (name : TableName) → UserId → Option (tableOf zones name).Row}
    (h : Accounted commands base s) {vs : List (Version W (tableOf zones name).Row)}
    {v : Version W (tableOf zones name).Row} (hversions : (rowOf name id s).versions = vs ++ [v])
    {a₀ : VersionedMutableEntity (FieldsOf zones name)} (hv : v.row = (tableOf zones name).values a₀) :
    ∃ (runs : List (W × Instant)) (a : VersionedMutableEntity (FieldsOf zones name)),
      (vs.map Version.writer).reverse = (runs.map Prod.fst).map some ∧
      runs.foldlM (updateRow name commands) a₀ = some a ∧
      (rowOf name id s).committed = some ((tableOf zones name).values a) := by
  have htraces := (h.traced name id).history
  rw [hversions] at htraces
  have hnext : ∀ w old row, Writes zones name id (commands w) (some old) row →
      ∃ a a' run, Prod.fst run = w ∧ old = (tableOf zones name).values a ∧
        row = (tableOf zones name).values a' ∧ updateRow name commands a run = some a' := by
    rintro w old row ⟨u, a, a', now, hu, happly, -, rfl, rfl⟩
    refine ⟨a, a', (w, now), rfl, rfl, rfl, ?_⟩
    show (rowUpdate zones name (commands w)).bind _ = _
    rw [hu]
    exact happly
  obtain ⟨runs, a, hwho, hfold, hhead⟩ := htraces.replay (fun _ _ => values_inj) hnext hv
  refine ⟨runs, a, ?_, hfold, ?_⟩
  · rw [hwho, List.map_map]
    rfl
  · unfold Row.committed
    rw [hversions]
    exact hhead

theorem Accounted.replay {H : HotStore W} {s : World W H (database W zones fault)}
    {base : (name : TableName) → UserId → Option (tableOf zones name).Row}
    (h : Accounted commands base s) {a₀ : VersionedMutableEntity (FieldsOf zones name)}
    (hbase : base name id = some ((tableOf zones name).values a₀)) :
    ∃ (runs : List (W × Instant)) (a : VersionedMutableEntity (FieldsOf zones name)),
      runs.map Prod.fst = writersOf name id s.log ∧
      runs.foldlM (updateRow name commands) a₀ = some a ∧
      (rowOf name id s).committed = some ((tableOf zones name).values a) := by
  have hversions : (rowOf name id s).versions = stagedVersions name id s.log ++
      [⟨none, (tableOf zones name).values a₀⟩] := by
    rw [h.versions name id, hbase]
    rfl
  obtain ⟨runs, a, hwho, hfold, hcommitted⟩ := Accounted.replay_from h hversions rfl
  rw [stagedVersions_writers] at hwho
  exact ⟨runs, a, (List.map_injective_iff.2 (Option.some_injective W) hwho).symm, hfold, hcommitted⟩

/-! ### Refusals -/

abbrev opening (R : RedisClient) (job : W → Request (database W zones fault))
    (population : Population zones) (now : Instant)
    (stored : IdempotencyKey → Option DurableRecord) :
    Config (sig (database W zones fault)) Exn W
      (World W (redisHotStore W R) (database W zones fault)) CompletedIdempotencyResult :=
  ⟨World.initial now (Redis.empty : Redis W) (Tables.stored population.rows) stored,
    fun w => some (job w).code⟩

section Refused
variable {H : HotStore W} {D : Deployment} {modes : W → ResultMode} {F : Failures}
  {base : (name : TableName) → UserId → Option (tableOf zones name).Row}
  {job : W → Request (database W zones fault)}
  {c c' : Config (sig (database W zones fault)) Exn W (World W H (database W zones fault))
    CompletedIdempotencyResult}
  (hfault : ∀ e, fault e → e.isOrchestration = true)
  (hF : ∀ e, F.fault e → e.isOrchestration = true)
  (hhot : ∀ {w now c h e h'}, H.exec w now c h (.error e) h' → e.isOrchestration = true)

include hfault hF hhot

/-- An execution that begins in the middle of a run is refused by what is there from then on. -/
theorem refused_since {Q : W → Except Exn CompletedIdempotencyResult →
      World W H (database W zones fault) → Prop} {now : Instant} {w : W}
    (hmode : (job w).policy.mode = .hotDurable)
    (hoperation : (job w).operation = operationOf D zones fault (modes w) (commands w))
    (hsafe : AllSafe (rely F) (Governed D commands modes base ⟨now, []⟩) Q c)
    (hw : c.task w = some (job w).code) (hr : (machine W H (database W zones fault) F).Reachable c c')
    {e : Exn} (he : c'.task w = some (.ret (.error e))) :
    Escapes (Raised commands base (now ≤ ·) c.state.log w) e c'.state := by
  have hlater : ∀ s : World W H (database W zones fault),
      (Governed D commands modes base ⟨now, []⟩ s ∧ c.state.log <:+ s.log) ↔
        Governed D commands modes base ⟨now, c.state.log⟩ s := fun s =>
    ⟨fun h => ⟨h.1.1, h.1.2, h.1.3.now, h.1.3.clockRead, h.2⟩,
      fun h => ⟨⟨h.1, h.2, h.3.now, h.3.clockRead, List.nil_suffix⟩, h.3.log⟩⟩
  have hbegun : AllSafe (rely F) (Governed D commands modes base ⟨now, c.state.log⟩)
      (fun v r s => v = w → Raises (Escapes (Raised commands base (now ≤ ·) c.state.log w)) r s) c := by
    refine ⟨(hlater c.state).1 ⟨hsafe.inv, List.suffix_refl _⟩, fun v x hx => ?_⟩
    by_cases hv : v = w
    · subst hv
      obtain rfl := Option.some.inj (hw.symm.trans hx)
      exact (execution_governed hfault hF hhot hmode hoperation).mono fun _ _ h _ => h
    · refine (((hsafe.task v x hx).and_inv fun o s r s' hexec _ hlog => ?_).congr_inv hlater).mono
        fun _ _ _ hvw => absurd hvw hv
      rcases opExec_log hexec with hsame | ⟨made, hmade⟩
      · exact hsame ▸ hlog
      · rw [hmade]
        exact hlog.trans (List.suffix_cons _ _)
  refine (reachable_safe (fun _ _ hi he => hi.env he) ?_ hbegun hr).outcome he rfl e rfl
  rintro v s₁ s₂ hi ⟨-, rfl⟩
  exact hi.crash

end Refused

/-- Any number of executions of the registered commands, in any interleaving and with any
failures of the two stores: a stored row is the fold of its committed updates in the order
of their commits, each from the very version it expected. Where the database reports no
violation without one, an update that ends with a domain error was refused while it ran, by
what was committed then: another version of its row, another user with the username, or an
aggregate that does not take the change. -/
theorem no_lost_update {R : RedisClient} {D : Deployment} {modes : W → ResultMode}
    {job : W → Request (database W zones fault)} {population : Population zones} {now : Instant}
    {stored : IdempotencyKey → Option DurableRecord}
    {c : Config (sig (database W zones fault)) Exn W
      (World W (redisHotStore W R) (database W zones fault)) CompletedIdempotencyResult}
    (hfault : ∀ e, fault e → Failures.any.fault e)
    (hmode : ∀ w, (job w).policy.mode = .hotDurable)
    (hoperation : ∀ w, (job w).operation = operationOf D zones _ (modes w) (commands w))
    (hr : (machine W (redisHotStore W R) (database W zones fault) Failures.any).Reachable
      (opening R job population now stored) c)
    {a₀ : VersionedMutableEntity (FieldsOf zones name)}
    (hstored : population.entity name id = some a₀) :
    (∃ (runs : List (W × Instant)) (a : VersionedMutableEntity (FieldsOf zones name)),
      runs.map Prod.fst = writersOf name id c.state.log ∧
      runs.foldlM (updateRow name commands) a₀ = some a ∧
      (rowOf name id c.state).committed = some ((tableOf zones name).values a) ∧
      a.version = a₀.version + runs.length ∧
      (runs.map fun run => (rowUpdate zones name (commands run.1)).map RowUpdate.expectedVersion) =
        (List.range' a₀.version runs.length).map some) ∧
    ((∀ constraintName, ¬ fault (.sql (.integrity constraintName))) → ∀ c₁ w u e,
      (machine W (redisHotStore W R) (database W zones fault) Failures.any).Reachable
        (opening R job population now stored) c₁ →
      c₁.task w = some (job w).code →
      (machine W (redisHotStore W R) (database W zones fault) Failures.any).Reachable c₁ c →
      rowUpdate zones name (commands w) = some u → u.userId = id →
      c.task w = some (.ret (.error e)) →
      e.isOrchestration = true ∨ ∃ d read mid, e = .domain d ∧ now ≤ read ∧
        (machine W (redisHotStore W R) (database W zones fault) Failures.any).Reachable c₁ mid ∧
        (machine W (redisHotStore W R) (database W zones fault) Failures.any).Reachable mid c ∧
        RefusedBy u read (fun id => (rowOf name id mid.state).committed) d) := by
  have horchestration : ∀ e, fault e → e.isOrchestration = true :=
    fun e he => any_orchestration e (hfault e he)
  have hgoverned : ∀ c, (machine W (redisHotStore W R) (database W zones fault)
        Failures.any).Reachable (opening R job population now stored) c →
      AllSafe (rely Failures.any) (Governed D commands modes population.rows ⟨now, []⟩)
        (fun w => Raises (Escapes (Raised commands population.rows (now ≤ ·) [] w))) c := fun _ hr =>
    executions_governed horchestration any_orchestration redisExec_raises hmode hoperation hr
  have hbase : population.rows name id = some ((tableOf zones name).values a₀) := by
    unfold Population.rows
    rw [hstored]
    rfl
  refine ⟨?_, fun hreports c₁ w u e hr₁ hw hrest hu hid he => ?_⟩
  · obtain ⟨runs, a, hwriters, hfold, hcommitted⟩ := Accounted.replay (hgoverned c hr).inv.1 hbase
    exact ⟨runs, a, hwriters, hfold, hcommitted, updateRows_versions hfold⟩
  · rcases refused_since horchestration any_orchestration redisExec_raises (hmode w) (hoperation w)
      (hgoverned c₁ hr₁) hw hrest he with h | ⟨d, rfl, name', u', hu', hrefusal⟩
    · exact .inl h
    · obtain rfl := (rowUpdate_table hu hu').symm
      obtain rfl := Option.some.inj (hu.symm.trans hu')
      obtain ⟨read, hread, ⟨-, hunasked⟩ | ⟨past, hsince, hpast, hrefused⟩⟩ :=
        hrefusal (by rw [hid, hbase]; rfl)
      · exact absurd hunasked (hreports _)
      · -- some configuration of the run has committed just these
        obtain ⟨mid, hfrom, hto, rfl⟩ := reachable_between hrest hsince hpast
        refine .inr ⟨d, read, mid, rfl, hread, hfrom, hto, ?_⟩
        have hcommitted := (hgoverned mid (hr₁.trans hfrom)).inv.1.committed name
        rwa [show (fun id => (rowOf name id mid.state).committed) =
          committedAfter name population.rows mid.state.log from funext hcommitted]

section Sample

def somebody : Population moscowOnly where
  entity
    | .profiles, id => if id = sampleProfile.id then some sampleProfile else none
    | .settings, _ => none
  entity_id name id a h := by
    cases name with
    | profiles =>
      change (if id = sampleProfile.id then some sampleProfile else none) = some a at h
      split at h
      · rename_i hid
        cases h
        exact hid.symm
      · cases h
    | settings => cases h

theorem somebody_absent {W : Type} {other : UserId} (h : other ≠ sampleProfile.id) :
    (Tables.stored somebody.rows : Tables W moscowOnly).rows .profiles other = Row.absent := by
  show (Option.map _ (if other = sampleProfile.id then some sampleProfile else none)).elim _ _ = _
  rw [if_neg h]
  rfl

theorem sampleRename_name : 1 ≤ "b".toList.length ∧ "b".toList.length ≤ 64 := by decide

theorem sampleRename_version : 1 ≤ 1 ∧ 1 ≤ 2 ^ 63 - 1 := by decide

def sampleRename : Command :=
  .updateProfile (patchMyProfile 0 ⟨1, sampleRename_version⟩ (sampleRequest "b" sampleRename_name))

def sampleRenamed : ProfileORM :=
  { ProfileORM.values sampleProfile with
    displayName := "b".toList
    version := 2
    updatedAt := some 20 }

theorem sampleRename_run {hot : Redis Bool} :
    ∃ r s, Runs (machine Bool (redisHotStore Bool (sampleClient true))
      (database Bool moscowOnly Failures.any.fault) Failures.any) true
      (sampleExecution sampleRename).code
      (World.initial 20 hot (Tables.stored somebody.rows) fun _ => none) r s ∧
    writersOf .profiles 0 s.log = [true] ∧
    ∃ record, (s.records sampleKey).committed = some record ∧
      s.now < record.completed.expiresAt := by
  refine Runs.exists_call (.error unavailable) ⟨_, .inr ⟨_, .inr ⟨"", rfl⟩, rfl, rfl⟩, rfl⟩ ?_
  refine Runs.exists_call (.ok ()) (.inl ⟨rfl, rfl⟩) ?_
  refine Runs.exists_call (.ok (20 : Int)) ⟨rfl, rfl⟩ ?_
  refine Runs.exists_call (.ok none) ⟨rfl, .inl rfl⟩ ?_
  refine Runs.exists_call (.ok ()) (.inl ⟨rfl, rfl⟩) ?_
  refine Runs.exists_call (.ok ()) (.inl ⟨rfl, rfl⟩) ?_
  refine Runs.exists_call (.ok (some (ProfileORM.values sampleProfile)))
    ⟨_, ⟨_, ⟨.inl rfl, rfl⟩, rfl⟩, rfl⟩ ?_
  refine Runs.exists_call (.ok (20 : Int)) ⟨rfl, rfl⟩ ?_
  refine Runs.exists_call (.ok (some sampleRenamed))
    ⟨_, ⟨_, .inl ⟨?_, ⟨?_, ?_⟩, rfl, rfl⟩, rfl⟩, rfl⟩ ?_
  · intro u r h
    cases h
  · decide
  · intro other hother content h
    change (Row.commit true ((Tables.stored somebody.rows : Tables Bool moscowOnly).rows
      .profiles other)).Content content at h
    rw [somebody_absent hother] at h
    exact absurd h content_absent
  refine Runs.exists_call (.ok (20 : Int)) ⟨rfl, rfl⟩ ?_
  refine Runs.exists_call (.ok (20 : Int)) ⟨rfl, rfl⟩ ?_
  refine Runs.exists_call (.ok true) (.inl ⟨?_, ⟨rfl, rfl⟩⟩) ?_
  · intro u r h
    cases h
  refine Runs.exists_call (.ok ()) (.inl ⟨rfl, rfl⟩) ?_
  refine Runs.exists_call (.ok (20 : Int)) ⟨rfl, rfl⟩ ?_
  refine ⟨_, _, .ret _ _, rfl, _, rfl, ?_⟩
  exact DurableRecord.lives _

theorem sampleStale_version : 1 ≤ 2 ∧ 2 ≤ 2 ^ 63 - 1 := by decide

/-- A rename of the second version, which is not there yet. -/
def sampleStale : Command :=
  .updateProfile (patchMyProfile 0 ⟨2, sampleStale_version⟩ (sampleRequest "b" sampleRename_name))

theorem sampleStale_run : ∃ r s, Runs (machine Bool (redisHotStore Bool (sampleClient true))
      (database Bool moscowOnly fun _ => False) Failures.any) true (sampleExecution sampleStale).code
      (World.initial 20 (Redis.empty : Redis Bool) (Tables.stored somebody.rows) fun _ => none) r s ∧
    r = .error (.domain (.profileVersionMismatch (some 1))) := by
  refine Runs.exists_call (.error unavailable) ⟨_, .inr ⟨_, .inr ⟨"", rfl⟩, rfl, rfl⟩, rfl⟩ ?_
  refine Runs.exists_call (.ok ()) (.inl ⟨rfl, rfl⟩) ?_
  refine Runs.exists_call (.ok (20 : Int)) ⟨rfl, rfl⟩ ?_
  refine Runs.exists_call (.ok none) ⟨rfl, .inl rfl⟩ ?_
  refine Runs.exists_call (.ok ()) (.inl ⟨rfl, rfl⟩) ?_
  refine Runs.exists_call (.ok ()) (.inl ⟨rfl, rfl⟩) ?_
  refine Runs.exists_call (.ok (some (ProfileORM.values sampleProfile)))
    ⟨_, ⟨_, ⟨.inl rfl, rfl⟩, rfl⟩, rfl⟩ ?_
  refine Runs.exists_call (.ok ()) ⟨rfl, .inl rfl⟩ ?_
  refine Runs.exists_call (.ok ()) (.inl ⟨rfl, rfl⟩) ?_
  refine Runs.exists_call (.ok (20 : Int)) ⟨rfl, rfl⟩ ?_
  refine Runs.exists_call (.ok none) ⟨rfl, .inl rfl⟩ ?_
  refine Runs.exists_call (.ok ()) (.inl ⟨rfl, rfl⟩) ?_
  exact ⟨_, _, .ret _ _, rfl⟩

theorem no_lost_update_sample :
    (∃ s : RouteWorld Bool (sampleClient true) moscowOnly,
      writersOf .profiles 0 s.log = [true] ∧
        ∃ (runs : List (Bool × Instant)) (a : UserProfile),
          runs.map Prod.fst = writersOf .profiles 0 s.log ∧
          (rowOf .profiles 0 s).committed = some (ProfileORM.values a) ∧
          a.version = sampleProfile.version + runs.length) ∧
    ∃ (s : World Bool (redisHotStore Bool (sampleClient true))
        (database Bool moscowOnly fun _ => False)) (u : RowUpdate moscowOnly .profiles) (read : Instant),
      u.expectedVersion = 2 ∧ RefusedBy u read (fun id => (rowOf .profiles id s).committed)
        (.profileVersionMismatch (some 1)) := by
  constructor
  · obtain ⟨r, s, hrun, hwriters, -⟩ := sampleRename_run
    obtain ⟨⟨runs, a, hruns, -, hcommitted, hversion, -⟩, -⟩ :=
      no_lost_update (fun _ he => he) (fun _ => rfl) sampleExecution_operation (hrun.reachable rfl)
        (show somebody.entity .profiles 0 = some sampleProfile from rfl)
    exact ⟨s, hwriters, runs, a, hruns, hcommitted, hversion⟩
  · obtain ⟨r, s, hrun, rfl⟩ := sampleStale_run
    obtain ⟨-, hrefused⟩ := no_lost_update (fun _ he => he.elim) (fun _ => rfl)
      sampleExecution_operation (hrun.reachable rfl)
      (show somebody.entity .profiles 0 = some sampleProfile from rfl)
    rcases hrefused (fun _ h => h) _ true _ _ .refl rfl (hrun.reachable rfl) rfl rfl rfl with
      h | ⟨d, read, mid, hd, -, -, -, hrefusal⟩
    · cases h
    · cases hd
      exact ⟨mid.state, _, read, rfl, hrefusal⟩

end Sample

end ProfileService.Entrypoints
