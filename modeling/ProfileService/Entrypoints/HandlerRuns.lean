import ProfileService.Entrypoints.LostUpdates

/-!
# Handlers beside each other

The four updating handlers, each in a unit of work of its own (`unit_of_work.py:38-66`),
whatever the idempotency around them: a stored row is what the committed updates make of it,
and a run that has committed none has left nothing.
-/

namespace ProfileService.Entrypoints
open Domain Library Library.Machine Application Infrastructure Idempotency

variable {W : Type} [DecidableEq W] {zones : ZoneInfo} {fault : Exn → Prop} {name : TableName}
  {id : UserId} {w : W} {commands : W → Command} {H : HotStore W} {F : Failures} {α : Type}

/-! ### A unit of work -/

section UnitOfWork
variable {B : Business W} {I : World W H B → Prop} {s : World W H B}
  {body : Code (dbSig B) Exn α} {P Q : Except Exn α → World W H B → Prop}
  (C : QuietContract F w I)
  (hin : ∀ r s', P r s' → s'.inTransaction w = true)
  (hcommit : ∀ a s₁ s₂, P (.ok a) s₁ → Frame w (s₁.commit w) s₂ → Q (.ok a) s₂)
  (hrollback : ∀ e s₁ s₂, P (.error e) s₁ → Frame w (s₁.rollback w) s₂ →
    Q (.error e.leavingUow) s₂)
  (herror : ∀ e s', e.isOrchestration = true → s'.inTransaction w = false → Q (.error e) s')

include C hin hcommit hrollback herror

theorem safe_leaveUow {r : Except Exn α} (hr : ∀ s', Frame w s s' → I s' → P r s') :
    Safe (dbRely F) I w Q (leaveUow r) s := by
  cases r with
  | ok a =>
    refine Safe.bind (P := fun r' s' =>
        (∀ u, r' = .ok u → ∀ s'', Frame w s' s'' → Q (.ok a) s'') ∧
          ∀ e, r' = .error e → Q (.error e) s')
      (escapes_translated C rfl rfl fun s₁ hf hi r' s₂ he s₃ hf₃ => ?_)
      (fun u s' hq _ s'' hf _ => hq.1 u rfl s'' hf) fun e s' hq => hq.2 e rfl
    have hp : P (.ok a) s₁ := hr s₁ hf hi
    simp only [dbExec, hin _ _ hp, if_true] at he
    rcases he with ⟨rfl, rfl⟩ | ⟨e, hraised, rfl, hended⟩
    · exact ⟨fun _ _ s₄ hf₄ => hcommit a s₁ s₄ hp (hf₃.trans hf₄), fun e he => by cases he⟩
    · refine ⟨fun u hu => (by cases hu), fun e' he' => ?_⟩
      obtain rfl := Except.error.inj he'
      refine herror _ s₃ (Exn.isOrchestration_leavingUow (C.fault e hraised)) ?_
      rcases hended with rfl | rfl
      · exact hf₃.inTransaction.trans (by simp [World.commit])
      · exact hf₃.inTransaction.trans (by simp [World.rollback])
  | error e =>
    refine Safe.bind (P := fun r' s' =>
        (∀ u, r' = .ok u → ∀ s'', Frame w s' s'' → Q (.error e.leavingUow) s'') ∧
          ∀ e', r' = .error e' → Q (.error e') s')
      (escapes_translated C rfl rfl fun s₁ hf hi r' s₂ he s₃ hf₃ => ?_)
      (fun u s' hq _ s'' hf _ => hq.1 u rfl s'' hf) fun e' s' hq => hq.2 e' rfl
    have hp : P (.error e) s₁ := hr s₁ hf hi
    simp only [dbExec, hin _ _ hp, if_true] at he
    obtain ⟨rfl, rfl | ⟨e', hraised, rfl⟩⟩ := he
    · exact ⟨fun _ _ s₄ hf₄ => hrollback e s₁ s₄ hp (hf₃.trans hf₄), fun e' he' => by cases he'⟩
    · refine ⟨fun u hu => (by cases hu), fun e'' he'' => ?_⟩
      obtain rfl := Except.error.inj he''
      exact herror _ s₃ (Exn.isOrchestration_leavingUow (C.fault e' hraised))
        (hf₃.inTransaction.trans (by simp [World.rollback]))

/-- One unit of work: it begins, runs its body and commits what a normal body has written, or
rolls back. Only an exception of the session itself may come after a commit. -/
theorem safe_unitOfWork (hidle : s.inTransaction w = false)
    (hbody : ∀ s₁, Frame w s s₁ → I s₁ → Safe (dbRely F) I w P body (s₁.begin w)) :
    Safe (dbRely F) I w Q (withUow body) s := by
  refine Safe.bind (P := fun r' s' =>
      (∀ u, r' = .ok u → Safe (dbRely F) I w P body s') ∧ ∀ e, r' = .error e → Q (.error e) s')
    (escapes_translated C rfl rfl fun s₁ hf hi r' s₂ he s₃ hf₃ => ?_)
    (fun u s' hx _ => ?_) fun e s' hq => hq.2 e rfl
  · have ht : s₁.inTransaction w = false := hf.inTransaction.trans hidle
    simp only [dbExec, ht, Bool.false_eq_true, if_false] at he
    rcases he with ⟨rfl, rfl⟩ | ⟨e, hraised, rfl, rfl⟩
    · exact ⟨fun _ _ => (hbody s₁ hf hi).rely hf₃, fun e he => by cases he⟩
    · refine ⟨fun u hu => (by cases hu), fun e' he' => ?_⟩
      obtain rfl := Except.error.inj he'
      exact herror _ s₃ (Exn.isOrchestration_leavingUow (C.fault e hraised))
        (hf₃.inTransaction.trans ht)
  · exact (hx.1 u rfl).onOutcome fun r s₂ hp => safe_leaveUow C hin hcommit hrollback herror hp

end UnitOfWork

/-! ### The handlers of a table -/

def ResultOf : TableName → Type
  | .profiles => ProfileDTO
  | .settings => SettingsDTO

def fromDomain : (name : TableName) → VersionedMutableEntity (FieldsOf zones name) → ResultOf name
  | .profiles, a => ProfileDTO.fromDomain a
  | .settings, a => SettingsDTO.fromDomain a

def updateHandler (W : Type) [DecidableEq W] (zones : ZoneInfo) (fault : Exn → Prop) :
    (name : TableName) → Command →
      Option (Code (stmtSig (database W zones fault)) Exn (ResultOf name))
  | .profiles, .updateProfile c => some (updateProfileHandler profiles handlerClock c)
  | .profiles, .updateAvatar c => some (updateAvatarHandler profiles handlerClock c)
  | .settings, .updateSettings c => some (updateSettingsHandler settings handlerClock c)
  | .settings, .resetSettings c => some (resetSettingsHandler settings handlerClock c)
  | _, _ => none

/-- `async with uow: return await handler(command)`. -/
def handlerRun {B : Business W} (handler : Code (stmtSig B) Exn α) : Code (dbSig B) Exn α :=
  withUow (handler.lift (stmtInDb B))

theorem updateHandler_eq {command : Command}
    {x : Code (stmtSig (database W zones fault)) Exn (ResultOf name)}
    (h : updateHandler W zones fault name command = some x) :
    ∃ y, changeRow W zones fault name command = some y ∧
      x = y >>= fun a => pure (fromDomain name a) := by
  cases name <;> cases command <;> cases h <;> exact ⟨_, rfl, rfl⟩

theorem updateHandler_rowUpdate {command : Command}
    {x : Code (stmtSig (database W zones fault)) Exn (ResultOf name)}
    (h : updateHandler W zones fault name command = some x) :
    ∃ u, rowUpdate zones name command = some u := by
  cases name <;> cases command <;> cases h <;> exact ⟨_, rfl⟩

/-! ### How a run ends -/

variable {s s' : World W H (database W zones fault)}
  {base : (name : TableName) → UserId → Option (tableOf zones name).Row}

/-- How the run of an updating handler by `w` has ended. -/
structure RunEnded (base : (name : TableName) → UserId → Option (tableOf zones name).Row)
    (u : RowUpdate zones name) (w : W) (r : Except Exn (ResultOf name))
    (s : World W H (database W zones fault)) : Prop where
  idle : s.inTransaction w = false
  /-- It has committed what it returns, or there was nothing to change. -/
  returned : ∀ dto, r = .ok dto → ∃ a, dto = fromDomain name a ∧
    ((∃ made ∈ s.log, made.worker = w ∧
        (show Uncommitted zones from made.staged) name u.userId =
          some ((tableOf zones name).values a)) ∨
      w ∉ writersOf name u.userId s.log ∧ a.id = u.userId ∧ Unchanged u a s)
  /-- It was aborted, or refused by a domain error and has committed nothing. -/
  raised : ∀ e, r = .error e → e.isOrchestration = true ∨
    w ∉ writersOf name u.userId s.log ∧ ∃ d, e = .domain d ∧
      ((base name u.userId).isSome = true → ∃ read, Refusal base [] u read d s)

/-- In the transaction of its run `w` has not committed yet. -/
structure Running (w : W) (s : World W H (database W zones fault)) : Prop where
  inTransaction : s.inTransaction w = true
  first : ∀ made ∈ s.log, made.worker ≠ w

theorem Running.frame (h : Running w s) (hf : Frame w s s') : Running w s' :=
  ⟨hf.inTransaction.trans h.inTransaction, fun made hmade hw => h.first made (hf.ownLog made hmade hw) hw⟩

theorem Running.stmt {o : StmtOp (database W zones fault)}
    {r : Except Exn ((stmtSig (database W zones fault)).Reply o)} (h : Running w s)
    (he : stmtExec F w o s r s') : Running w s' := by
  cases o with
  | clock =>
    obtain ⟨-, rfl⟩ := he
    exact ⟨h.inTransaction, h.first⟩
  | stmt o =>
    simp only [stmtExec, dbExec, h.inTransaction, if_true] at he
    obtain ⟨b, -, rfl⟩ := he
    exact ⟨h.inTransaction, h.first⟩

theorem Running.unwritten_commit (h : Running w s) (hown : (rowOf name id s).own w = none) :
    w ∉ writersOf name id (s.commit w).log := by
  rw [mem_writersOf]
  rintro ⟨made, hmade, hw, hsome⟩
  rcases List.mem_cons.1 hmade with rfl | hold
  · change ((rowOf name id s).own w).isSome = true at hsome
    rw [hown] at hsome
    cases hsome
  · exact h.first made hold hw

theorem unwritten_frame (h : w ∉ writersOf name id s.log) (hf : Frame w s s') :
    w ∉ writersOf name id s'.log := by
  rw [mem_writersOf] at h ⊢
  rintro ⟨made, hmade, hw, hsome⟩
  exact h ⟨made, hf.ownLog made hmade hw, hw, hsome⟩

/-- What a run has found and written when its handler is through. -/
def Handled (base : (name : TableName) → UserId → Option (tableOf zones name).Row)
    (u : RowUpdate zones name) (w : W) (r : Except Exn (ResultOf name))
    (s : World W H (database W zones fault)) : Prop :=
  Running w s ∧ ∃ r', r = r'.map (fromDomain name) ∧ (Updated base [] u w r' s ∨
    (base name u.userId).isSome = false ∧ ∃ d, r' = .error (.domain d))

theorem Handled.of_ended {u : RowUpdate zones name} {s₀ : World W H (database W zones fault)}
    {r : Except Exn (VersionedMutableEntity (FieldsOf zones name))}
    (h₀ : Accounted commands base s₀) (hrunning : Running w s) (h : Ended base u w s₀ r s) :
    Handled base u w (r.map (fromDomain name)) s := by
  refine ⟨hrunning, r, rfl, ?_⟩
  rcases h with hupdated | ⟨habsent, hrefused⟩
  · exact .inl (hupdated.since List.nil_suffix)
  · refine .inr ⟨eq_false_of_ne_true fun hbase => ?_, hrefused⟩
    rw [h₀.visible_of_base hbase] at habsent
    cases habsent

theorem Handled.frame {u : RowUpdate zones name} {r : Except Exn (ResultOf name)}
    (h : Handled base u w r s) (hf : Frame w s s') : Handled base u w r s' := by
  obtain ⟨hrunning, r', hr, hended⟩ := h
  exact ⟨hrunning.frame hf, r', hr, hended.imp_left fun hupdated => hupdated.frame hf⟩

theorem Handled.commit {u : RowUpdate zones name} {dto : ResultOf name} {command : Command}
    (hu : rowUpdate zones name command = some u) (h : Handled base u w (.ok dto) s)
    (hf : Frame w (s.commit w) s') : RunEnded base u w (.ok dto) s' := by
  obtain ⟨hrunning, r', hr, hended⟩ := h
  cases r' with
  | error e => cases hr
  | ok a =>
    obtain rfl := Except.ok.inj hr
    refine ⟨hf.inTransaction.trans (by simp [World.commit]), fun dto hdto => ?_,
      fun e he => by cases he⟩
    refine ⟨a, (Except.ok.inj hdto).symm, ?_⟩
    rcases hended with (hown | ⟨hnothing, loaded, now, hloaded, hid, hversion, hok⟩) | ⟨-, d, hd⟩
    · exact .inl ⟨_, hf.log.subset List.mem_cons_self, rfl, hown⟩
    · obtain rfl := rowUpdate_same hu hok
      exact .inr ⟨unwritten_frame (hrunning.unwritten_commit (hnothing _ _)) hf, hid,
        (Loaded.grow hloaded .of_commit).frame hf, hversion, now, hok⟩
    · cases hd

theorem Handled.rollback {u : RowUpdate zones name} {e : Exn} (h : Handled base u w (.error e) s)
    (hf : Frame w (s.rollback w) s') : RunEnded base u w (.error e.leavingUow) s' := by
  obtain ⟨hrunning, r', hr, hended⟩ := h
  cases r' with
  | ok a => cases hr
  | error e' =>
    obtain rfl := Except.error.inj hr
    have hunwritten : w ∉ writersOf name u.userId s'.log := by
      refine unwritten_frame (s := s.rollback w) ?_ hf
      rw [mem_writersOf]
      rintro ⟨made, hmade, hw, -⟩
      exact hrunning.first made hmade hw
    refine ⟨hf.inTransaction.trans (by simp [World.rollback]), fun _ hdto => (by cases hdto),
      fun e'' he => ?_⟩
    obtain rfl := Except.error.inj he
    rcases hended with ⟨horchestration | ⟨d, rfl⟩, hrefusal⟩ | ⟨habsent, d, hd⟩
    · exact .inl (Exn.isOrchestration_leavingUow horchestration)
    · exact .inr ⟨hunwritten, d, rfl, fun _ =>
        ⟨_, (hrefusal d rfl).later (List.suffix_refl _) hf.log⟩⟩
    · obtain rfl := Except.error.inj hd
      refine .inr ⟨hunwritten, d, rfl, fun hbase => ?_⟩
      rw [habsent] at hbase
      cases hbase

/-! ### Any number of runs -/

theorem dead_idle {B : Business W} {c c' : Library.Config (dbSig B) Exn W (World W H B) α}
    (h : ∀ w, c.task w = none → c.state.inTransaction w = false)
    (hr : (dbMachine W H B F).Reachable c c') :
    ∀ w, c'.task w = none → c'.state.inTransaction w = false := by
  induction hr with
  | refl => exact h
  | tail _ hs ih =>
    intro w hw
    cases hs with
    | @act u o k r s' htask hexec =>
      by_cases huw : w = u
      · subst huw
        simp at hw
      · simp only [Function.update_of_ne huw] at hw
        exact ((dbRely F).exec hexec huw).inTransaction.trans (ih w hw)
    | env henv => exact (henv.frame w).inTransaction.trans (ih w hw)
    | @crash u o k s' htask hcrash =>
      obtain ⟨-, rfl⟩ := hcrash
      by_cases huw : w = u
      · subst huw
        exact crash_inTransaction
      · simp only [Function.update_of_ne huw] at hw
        exact (crash_frame _ huw).inTransaction.trans (ih w hw)

section Runs
variable (hfault : ∀ e, fault e → e.isOrchestration = true)
  (hF : ∀ e, F.fault e → e.isOrchestration = true)

include hfault hF

/-- One run among the others. -/
theorem handlerRun_ends {u : RowUpdate zones name}
    {x : Code (stmtSig (database W zones fault)) Exn (ResultOf name)}
    (hx : updateHandler W zones fault name (commands w) = some x)
    (hu : rowUpdate zones name (commands w) = some u)
    (hidle : s.inTransaction w = false) (hfirst : ∀ made ∈ s.log, made.worker ≠ w) :
    Safe (dbRely F) (Accounted commands base) w (RunEnded base u w) (handlerRun x) s := by
  refine safe_unitOfWork (P := Handled base u w) ⟨hF, fun he hi => hi.quiet he⟩
    (fun r s' hp => hp.1.inTransaction) (fun dto s₁ s₂ hp hf => hp.commit hu hf)
    (fun e s₁ s₂ hp hf => hp.rollback hf)
    (fun e s' he hended => ⟨hended, fun _ hdto => (by cases hdto), fun e' he' => .inl ?_⟩) hidle
    fun s₁ hf hi => ?_
  · obtain rfl := Except.error.inj he'
    exact he
  · have ht : s₁.inTransaction w = false := hf.inTransaction.trans hidle
    have hrunning : Running w (s₁.begin w) :=
      ⟨by simp [World.begin], fun made hmade hw => hfirst made (hf.ownLog made hmade hw) hw⟩
    have hbegun : Accounted commands base (s₁.begin w) := hi.quiet (.begin ht)
    obtain ⟨y, hy, rfl⟩ := updateHandler_eq hx
    have hchanged : SafeStmt F (Accounted commands base) w (Ended base u w (s₁.begin w)) y
        (s₁.begin w) :=
      safe_changeRow hfault hy hu hrunning.inTransaction (hi.sound.idle w ht)
    refine safe_stmtInDb ((hchanged.carry hrunning (fun _ _ hf h => h.frame hf)
      fun _ _ _ _ he h => h.stmt he).bind (fun a s₂ hp _ => ?_) fun e s₂ hp => ?_)
    · exact fun s₃ hf₃ _ => (Handled.of_ended hbegun hp.2 hp.1).frame hf₃
    · exact Handled.of_ended hbegun hp.2 hp.1

variable {x : W → Code (stmtSig (database W zones fault)) Exn (ResultOf name)}
  {population : Population zones} {now : Instant} {hot : H.State}
  {stored : IdempotencyKey → Option DurableRecord}
  {c : Library.Config (dbSig (database W zones fault)) Exn W (World W H (database W zones fault))
    (ResultOf name)}

theorem handlerRuns_safe (hx : ∀ w, updateHandler W zones fault name (commands w) = some (x w))
    (hr : (dbMachine W H (database W zones fault) F).Reachable
      ⟨World.initial now hot (Tables.stored population.rows) stored,
        fun w => some (handlerRun (x w))⟩ c) :
    AllSafe (dbRely F) (Accounted commands population.rows)
      (fun w r s => ∀ u, rowUpdate zones name (commands w) = some u →
        RunEnded population.rows u w r s) c := by
  refine reachable_safe (fun _ _ hi he => hi.env he) ?_ ⟨initial_accounted, fun w y hy => ?_⟩ hr
  · rintro w s₁ s₂ hi ⟨-, rfl⟩
    exact hi.crash
  · cases hy
    obtain ⟨u, hu⟩ := updateHandler_rowUpdate (hx w)
    refine (handlerRun_ends hfault hF (hx w) hu rfl fun made hmade => ?_).mono fun r s h u' hu' => ?_
    · cases hmade
    · obtain rfl := Option.some.inj (hu.symm.trans hu')
      exact h

end Runs

/-- Any number of runs of the handlers of one table, each in a transaction of its own, in any
interleaving and with any failures: a stored row is the fold of its committed changes in the
order of their commits, each from the version it expected and no version twice; a run that has
returned or raised has committed what it answers, or has left the row as it was and ends
unchanged, aborted or refused; and nobody who has ended holds an uncommitted row. -/
theorem handlers_lose_no_update {x : W → Code (stmtSig (database W zones fault)) Exn (ResultOf name)}
    {population : Population zones} {now : Instant} {hot : H.State}
    {stored : IdempotencyKey → Option DurableRecord}
    {c : Library.Config (dbSig (database W zones fault)) Exn W (World W H (database W zones fault))
      (ResultOf name)}
    (hfault : ∀ e, fault e → Failures.any.fault e)
    (hx : ∀ w, updateHandler W zones fault name (commands w) = some (x w))
    (hr : (dbMachine W H (database W zones fault) Failures.any).Reachable
      ⟨World.initial now hot (Tables.stored population.rows) stored,
        fun w => some (handlerRun (x w))⟩ c)
    {a₀ : VersionedMutableEntity (FieldsOf zones name)}
    (hstored : population.entity name id = some a₀) :
    (∃ (runs : List (W × Instant)) (a : VersionedMutableEntity (FieldsOf zones name)),
      runs.map Prod.fst = writersOf name id c.state.log ∧
      runs.foldlM (updateRow name commands) a₀ = some a ∧
      (rowOf name id c.state).committed = some ((tableOf zones name).values a) ∧
      a.version = a₀.version + runs.length) ∧
    ((writersOf name id c.state.log).Pairwise fun v w =>
      (rowUpdate zones name (commands v)).map RowUpdate.expectedVersion ≠
        (rowUpdate zones name (commands w)).map RowUpdate.expectedVersion) ∧
    (∀ w u r, rowUpdate zones name (commands w) = some u → c.task w = some (.ret r) →
      RunEnded population.rows u w r c.state) ∧
    ∀ w, (c.task w = none ∨ ∃ r, c.task w = some (.ret r)) →
      ∀ name id, (rowOf name id c.state).own w = none := by
  have hsafe := handlerRuns_safe (fun e he => any_orchestration e (hfault e he)) any_orchestration
    hx hr
  have hbase : population.rows name id = some ((tableOf zones name).values a₀) := by
    unfold Population.rows
    rw [hstored]
    rfl
  obtain ⟨runs, a, hwriters, hfold, hcommitted⟩ := Accounted.replay hsafe.inv hbase
  obtain ⟨hversion, hexpected⟩ := updateRows_versions hfold
  refine ⟨⟨runs, a, hwriters, hfold, hcommitted, hversion⟩, ?_,
    fun w u r hu hended => hsafe.outcome hended u hu, fun w hended => ?_⟩
  · rw [← hwriters, List.pairwise_map]
    have hdistinct : ((List.range' a₀.version runs.length).map some).Nodup :=
      (List.nodup_range' (s := a₀.version)).map (Option.some_injective _)
    rw [← hexpected, List.Nodup, List.pairwise_map] at hdistinct
    exact hdistinct
  · have hidle : c.state.inTransaction w = false := by
      rcases hended with hdead | ⟨r, hended⟩
      · exact dead_idle (fun w hw => by cases hw) hr w hdead
      · obtain ⟨u, hu⟩ := updateHandler_rowUpdate (hx w)
        exact (hsafe.outcome hended u hu).idle
    exact hsafe.inv.sound.idle w hidle

section Sample

def sampleHandler : Code (stmtSig (database Bool moscowOnly Failures.any.fault)) Exn ProfileDTO :=
  updateProfileHandler profiles handlerClock
    (patchMyProfile 0 ⟨1, sampleRename_version⟩ (sampleRequest "b" sampleRename_name))

/-- One of two runs of the rename, before the other one begins. -/
theorem sampleHandler_run : ∃ r s, Runs (dbMachine Bool (deadHotStore Bool)
      (database Bool moscowOnly Failures.any.fault) Failures.any) true (handlerRun sampleHandler)
      (World.initial 20 () (Tables.stored somebody.rows) fun _ => none) r s ∧
    ((∃ dto, r = .ok dto ∧ dto.version = 2) ∧ writersOf .profiles 0 s.log = [true]) := by
  refine Runs.exists_call (.ok ()) (.inl ⟨rfl, rfl⟩) ?_
  refine Runs.exists_call (.ok (some (ProfileORM.values sampleProfile)))
    ⟨_, ⟨_, ⟨.inl rfl, rfl⟩, rfl⟩, rfl⟩ ?_
  refine Runs.exists_call (.ok (20 : Int)) ⟨rfl, rfl⟩ ?_
  refine Runs.exists_call (.ok (some sampleRenamed))
    ⟨_, ⟨_, .inl ⟨?_, ⟨?_, ?_⟩, rfl, rfl⟩, rfl⟩, rfl⟩ ?_
  · intro u r h
    cases h
  · decide
  · intro other hother content h
    change ((Tables.stored somebody.rows : Tables Bool moscowOnly).rows .profiles other).Content
      content at h
    rw [somebody_absent hother] at h
    exact absurd h content_absent
  refine Runs.exists_call (.ok ()) (.inl ⟨rfl, rfl⟩) ?_
  exact ⟨_, _, .ret _ _, ⟨_, rfl, rfl⟩, rfl⟩

/-- The rename is committed once, and is what the run answers. -/
theorem handlers_lose_no_update_sample :
    ∃ (s : World Bool (deadHotStore Bool) (database Bool moscowOnly Failures.any.fault))
      (u : RowUpdate moscowOnly .profiles) (r : Except Exn (ResultOf .profiles))
      (runs : List (Bool × Instant)) (a : UserProfile),
      runs.map Prod.fst = [true] ∧ (rowOf .profiles 0 s).committed = some (ProfileORM.values a) ∧
        a.version = 2 ∧ RunEnded somebody.rows u true r s := by
  obtain ⟨r, s, hrun, ⟨dto, rfl, -⟩, hwriters⟩ := sampleHandler_run
  have hx : ∀ _ : Bool, updateHandler Bool moscowOnly Failures.any.fault .profiles sampleRename =
      some sampleHandler := fun _ => rfl
  obtain ⟨⟨runs, a, hruns, -, hcommitted, hversion⟩, -, hended, -⟩ :=
    handlers_lose_no_update (fun _ he => he) hx (hrun.reachable rfl)
      (show somebody.entity .profiles 0 = some sampleProfile from rfl)
  rw [hwriters] at hruns
  have hlength : runs.length = 1 := by
    rw [← List.length_map (f := Prod.fst), hruns]
    rfl
  refine ⟨s, _, _, runs, a, hruns, hcommitted, ?_, hended true _ _ rfl rfl⟩
  rw [hversion, hlength]
  rfl

end Sample

end ProfileService.Entrypoints
