import ProfileService.Idempotency.CoordinatorSafety

/-!
# Which exceptions escape

Of the exceptions of an operation only domain errors come through the durable execution
and the coordinator as they are; everything else either raises is an exception of the
orchestration. What is known of a domain error when it is raised is still known at the end.
-/

namespace ProfileService.Idempotency
open Library Library.Machine Application Domain

variable {W : Type} [DecidableEq W] {H : HotStore W} {B : Business W} {F : Failures}
  {w : W} {s s' : World W H B} {α β : Type} {I : World W H B → Prop}
  {P D : DomainError → World W H B → Prop} {Ready : World W H B → Prop}
  {Prepared : StoredResult → World W H B → Prop} {identity : IdempotencyKey}

/-- A domain error of which `D` holds, or an exception of the orchestration. -/
def Escapes (D : DomainError → World W H B → Prop) (e : Exn) (s : World W H B) : Prop :=
  e.isOrchestration = true ∨ ∃ d, e = .domain d ∧ D d s

/-- What reading the records needs of the world: the faults belong to the orchestration, and
what writes nothing keeps the invariant. -/
structure QuietContract (F : Failures) (w : W) (I : World W H B → Prop) : Prop where
  fault : ∀ e, F.fault e → e.isOrchestration = true
  db : ∀ {s s'}, Quiet w s s' → I s → I s'

abbrev RaisesDb (F : Failures) (I : World W H B → Prop) (w : W)
    (D : DomainError → World W H B → Prop) (x : Code (dbSig B) Exn α) (s : World W H B) : Prop :=
  Safe (dbRely F) I w (Raises (Escapes D)) x s

/-- What the argument needs of the world: the invariant is kept by all but the statements of
the operation, which leaves what it returns `Prepared` for its record and of whose domain
errors `P` holds; that outlasts what happens to them on their way out, and settling a lost
race turns it into `D`. -/
structure ExecutionContract (F : Failures) (w : W) (identity : IdempotencyKey)
    (I : World W H B → Prop) (P D : DomainError → World W H B → Prop)
    (Prepared : StoredResult → World W H B → Prop) : Prop extends QuietContract F w I where
  hotRaises : ∀ {now c h e h'}, H.exec w now c h (.error e) h' → e.isOrchestration = true
  write : ∀ {s row stored requestFingerprint expiresAt}, Prepared stored s →
    s.inTransaction w = true → (s.records identity).Free w →
    row.completed = stored.completed requestFingerprint expiresAt → I s →
    I (s.writeRecord w identity row)
  prepared_frame : ∀ {stored s s'}, Prepared stored s → Frame w s s' → Prepared stored s'
  prepared_readClock : ∀ {stored s}, Prepared stored s → Prepared stored (s.readClock w)
  hot : ∀ {c s r h}, H.exec w s.now c s.hot r h → I s → I { s with hot := h }
  heartbeat : ∀ {s hb}, I s → I (s.setHeartbeat w hb)
  raised_frame : ∀ d s s', P d s → Frame w s s' → P d s'
  raised_rollback : ∀ d s, P d s → P d (s.rollback w)
  frame : ∀ d s s', D d s → Frame w s s' → D d s'
  setHot : ∀ {d s h}, D d s → D d { s with hot := h }
  setHeartbeat : ∀ {d s hb}, D d s → D d (s.setHeartbeat w hb)
  settled : ∀ {d s}, Exn.isRaceError (.domain d) = false → P d s → D d s
  race : ∀ {fp d s}, Exn.isRaceError (.domain d) = true → P d s → I s →
    RaisesDb F I w D (resolveRace identity fp (.domain d)) s

/-- The same where settling a race adds nothing to what is known of a domain error, and the
record needs nothing of the result. -/
structure EscapeContract (F : Failures) (w : W) (I : World W H B → Prop)
    (D : DomainError → World W H B → Prop) (Ready : World W H B → Prop) : Prop where
  fault : ∀ e, F.fault e → e.isOrchestration = true
  hotRaises : ∀ {now c h e h'}, H.exec w now c h (.error e) h' → e.isOrchestration = true
  db : ∀ {s s'}, Quiet w s s' → I s → I s'
  write : ∀ {s k row}, Ready s → s.inTransaction w = true → I s → I (s.writeRecord w k row)
  ready_frame : ∀ {s s'}, Ready s → Frame w s s' → Ready s'
  ready_readClock : ∀ {s}, Ready s → Ready (s.readClock w)
  hot : ∀ {c s r h}, H.exec w s.now c s.hot r h → I s → I { s with hot := h }
  heartbeat : ∀ {s hb}, I s → I (s.setHeartbeat w hb)
  frame : ∀ {d s s'}, D d s → Frame w s s' → D d s'
  rollback : ∀ {d s}, D d s → D d (s.rollback w)
  setHot : ∀ {d s h}, D d s → D d { s with hot := h }
  setHeartbeat : ∀ {d s hb}, D d s → D d (s.setHeartbeat w hb)
  race : ∀ {d s s'}, Exn.isRaceError (.domain d) = true → D d s → D d s'

omit [DecidableEq W] in
theorem Escapes.leavingUow {e : Exn} (h : Escapes D e s) : Escapes D e.leavingUow s := by
  rcases h with h | ⟨d, rfl, hd⟩
  · exact .inl (Exn.isOrchestration_leavingUow h)
  · exact .inr ⟨d, rfl, hd⟩

theorem Escapes.frame (hframe : ∀ d s s', D d s → Frame w s s' → D d s') {e : Exn}
    (h : Escapes D e s) (hf : Frame w s s') : Escapes D e s' := by
  rcases h with h | ⟨d, rfl, hd⟩
  · exact .inl h
  · exact .inr ⟨d, rfl, hframe _ _ _ hd hf⟩

section Quiet
variable (C : QuietContract F w I)

include C

theorem dbExec_raises {o : DbOp B} {r : Except Exn ((dbSig B).Reply o)} (ho : DbOp.isStmt o = false)
    (h : dbExec F w o s r s') : Raises (Escapes D) r s'' := by
  intro e he
  subst he
  refine .inl ?_
  cases o with
  | clock => obtain ⟨h, -⟩ := h; cases h
  | begin =>
    simp only [dbExec] at h
    split at h
    · obtain ⟨h, -⟩ := h
      cases h
      rfl
    · rcases h with ⟨h, -⟩ | ⟨e', hfault, h, -⟩
      · cases h
      · cases h
        exact C.fault _ hfault
  | commit =>
    simp only [dbExec] at h
    split at h
    · rcases h with ⟨h, -⟩ | ⟨e', hfault, h, -⟩
      · cases h
      · cases h
        exact C.fault _ hfault
    · obtain ⟨h, -⟩ := h
      cases h
      rfl
  | rollback =>
    simp only [dbExec] at h
    split at h
    · obtain ⟨-, h | ⟨e', hfault, h⟩⟩ := h
      · cases h
      · cases h
        exact C.fault _ hfault
    · obtain ⟨h, -⟩ := h
      cases h
      rfl
  | selectRecord k now =>
    obtain ⟨-, h | ⟨e', hfault, h⟩⟩ := h
    · cases h
    · cases h
      exact C.fault _ hfault
  | upsertRecord k row =>
    simp only [dbExec] at h
    split at h
    · rcases h with ⟨-, h⟩ | ⟨e', hfault, h, -⟩
      · split at h
        · obtain ⟨h, -⟩ := h
          cases h
        · split at h
          all_goals
            obtain ⟨h, -⟩ := h
            cases h
      · cases h
        exact C.fault _ hfault
    · obtain ⟨h, -⟩ := h
      cases h
      rfl
  | stmt q => cases ho

/-! ### The durable execution -/

omit C in
theorem raisesDb_ret {r : Except Exn α} (h : ∀ s', Frame w s s' → Raises (Escapes D) r s') :
    RaisesDb F I w D (.ret r) s :=
  fun s' hf _ => h s' hf

omit C in
theorem raisesDb_throw {e : Exn} (h : e.isOrchestration = true) :
    RaisesDb F I w D (throw e : Code (dbSig B) Exn α) s :=
  fun _ _ _ => raises_error (.inl h)

omit C in
theorem raisesDb_pure (a : α) : RaisesDb F I w D (pure a : Code (dbSig B) Exn α) s :=
  fun s' _ _ => raises_ok a s'

theorem raisesDb_call {o : DbOp B} (ho : DbOp.isStmt o = false) (hu : DbOp.isUpsert o = false) :
    RaisesDb F I w D (.call o .ret) s :=
  fun _ _ hi _ _ he => ⟨C.db (dbExec_quiet ho hu he) hi, fun _ _ _ => dbExec_raises C ho he⟩

theorem escapes_translated {o : (dbSig B).Op}
    {P : Except Exn ((dbSig B).Reply o) → World W H B → Prop} (ho : DbOp.isStmt o = false)
    (hu : DbOp.isUpsert o = false)
    (h : ∀ s₁, Frame w s s₁ → I s₁ → ∀ r s₂, dbExec F w o s₁ r s₂ → ∀ s₃, Frame w s₂ s₃ →
      P (r.mapError Exn.leavingUow) s₃) :
    Safe (dbRely F) I w P (translated (.call o .ret)) s := by
  rw [translated_call]
  intro s₁ hf hi r s₂ he
  exact ⟨C.db (dbExec_quiet ho hu he) hi, fun s₃ hf₃ _ => h s₁ hf hi r s₂ he s₃ hf₃⟩

theorem raisesDb_translated {o : DbOp B} (ho : DbOp.isStmt o = false)
    (hu : DbOp.isUpsert o = false) : RaisesDb F I w D (translated (.call o .ret)) s := by
  refine escapes_translated C ho hu fun s₁ _ _ r s₂ he s₃ _ e her => ?_
  cases r with
  | ok a => cases her
  | error e' =>
    cases her
    exact Escapes.leavingUow (dbExec_raises C ho he e' rfl)

theorem raisesDb_leaveUow {r : Except Exn α} (hframe : ∀ d s s', D d s → Frame w s s' → D d s')
    (hrollback : ∀ d s, D d s → D d (s.rollback w)) (hr : Raises (Escapes D) r s) :
    RaisesDb F I w D (leaveUow r) s := by
  cases r with
  | ok a => exact (raisesDb_translated C rfl rfl).bind_raises fun _ _ _ => raisesDb_pure a
  | error e =>
    have hkept : Safe (dbRely F) I w (fun r' s' => match r' with
        | .ok _ => Escapes D e s'
        | .error e' => Escapes D e' s') (translated (.call .rollback .ret)) s := by
      refine escapes_translated C rfl rfl fun s₁ hf _ r' s₂ he s₃ hf₃ => ?_
      cases r' with
      | error e' => exact Escapes.leavingUow (dbExec_raises C rfl he e' rfl)
      | ok _ =>
        refine Escapes.frame hframe ?_ hf₃
        simp only [dbExec] at he
        split at he
        · obtain ⟨rfl, -⟩ := he
          rcases Escapes.frame hframe (hr e rfl) hf with h | ⟨d, rfl, hd⟩
          · exact .inl h
          · exact .inr ⟨d, rfl, hrollback _ _ hd⟩
        · obtain ⟨he, -⟩ := he
          cases he
    refine hkept.bind (fun _ s' he _ => ?_) fun e' s' he => raises_error he
    exact raisesDb_ret fun s'' hf => raises_error (Escapes.frame hframe (Escapes.leavingUow he) hf)

omit C in
def Begun (w : W) (I : World W H B → Prop) (s : World W H B) : Prop :=
  ∃ s₀, I s₀ ∧ s₀.inTransaction w = false ∧ Frame w (s₀.begin w) s

theorem raisesDb_withUow {body : Code (dbSig B) Exn α}
    (hframe : ∀ d s s', D d s → Frame w s s' → D d s')
    (hrollback : ∀ d s, D d s → D d (s.rollback w))
    (hbody : ∀ s', Begun w I s' → RaisesDb F I w D body s') :
    RaisesDb F I w D (withUow body) s := by
  have hbegin : Safe (dbRely F) I w (fun r s' => match r with
      | .ok _ => Begun w I s'
      | .error e => Escapes D e s') (translated (.call .begin .ret)) s := by
    refine escapes_translated C rfl rfl fun s₁ _ hi r s₂ he s₃ hf₃ => ?_
    cases r with
    | error e => exact Escapes.leavingUow (dbExec_raises C rfl he e rfl)
    | ok _ =>
      simp only [dbExec] at he
      split at he
      · obtain ⟨he, -⟩ := he
        cases he
      · rename_i ht
        rcases he with ⟨-, rfl⟩ | ⟨e, -, he, -⟩
        · exact ⟨s₁, hi, eq_false_of_ne_true ht, hf₃⟩
        · cases he
  refine hbegin.bind (fun _ s' hb _ => ?_) fun e s' he => raises_error he
  refine (hbody s' hb).onOutcome fun r s₁ hr => Safe.of_rely fun s₂ hf hi => ?_
  exact raisesDb_leaveUow C hframe hrollback (hr s₂ hf hi)

theorem raisesDb_utcNow : RaisesDb F I w D utcNow s := raisesDb_call C rfl rfl

theorem raisesDb_getCompleted {k : IdempotencyKey} :
    RaisesDb F I w D (getCompleted k) s := by
  refine (raisesDb_utcNow C).bind_raises fun now s₁ _ => ?_
  have hselect : RaisesDb F I w D (.call (.selectRecord k now) fun row =>
      .ret (row.map (Option.map DurableRecord.completed))) s₁ := by
    intro s₂ _ hi r s₃ he
    refine ⟨C.db (dbExec_quiet (o := .selectRecord k now) rfl rfl he) hi, fun s₄ _ _ e her => ?_⟩
    cases r with
    | ok row => cases her
    | error e' =>
      cases her
      exact dbExec_raises C (o := .selectRecord k now) rfl he _ rfl
  exact hselect

theorem raisesDb_findExisting_ {k : IdempotencyKey} {fp : Digest} :
    RaisesDb F I w D (findExisting_ k fp) s := by
  have hnone : RaisesDb F I w (fun _ _ => False) (findExisting_ k fp) s := by
    refine (raisesDb_withUow C (fun _ _ _ h _ => h) (fun _ _ h => h)
      fun _ _ => raisesDb_getCompleted C).bind_raises fun found s₁ _ => ?_
    cases found with
    | none => exact raisesDb_pure none
    | some existing =>
      exact (raisesDb_utcNow C).bind_raises fun now s₂ _ => raisesDb_pure _
  exact hnone.mono fun r s' h e he => (h e he).imp_right fun ⟨_, _, hd⟩ => hd.elim

/-- What is known of a lost race outlasts the lookup that settles it. -/
theorem raisesDb_resolveRace {k : IdempotencyKey} {fp : Digest} {d : DomainError}
    (hs : D d s) (hframe : ∀ s s', Frame w s s' → D d s → D d s')
    (hcall : ∀ o s r s', dbExec F w o s r s' → D d s → D d s') :
    RaisesDb F I w D (resolveRace k fp (.domain d)) s := by
  have hfound : RaisesDb F I w D (findExisting_ k fp) s := raisesDb_findExisting_ C
  refine (hfound.carry hs hframe hcall).bind (fun found s₁ hp _ => ?_)
    fun e s₁ hp => raises_error (hp.1 e rfl)
  cases found with
  | some winner => exact raisesDb_pure winner
  | none => exact raisesDb_ret fun s₂ hf => raises_error (.inr ⟨d, rfl, hframe _ _ hf hp.2⟩)

end Quiet

/-- The contract without a settlement is one where races are read off the exception alone. -/
theorem EscapeContract.execution (C : EscapeContract F w I D Ready) :
    ExecutionContract F w identity I D D (fun _ => Ready) where
  fault := C.fault
  db := C.db
  hotRaises := C.hotRaises
  write hready ht _ _ hi := C.write hready ht hi
  prepared_frame := C.ready_frame
  prepared_readClock := C.ready_readClock
  hot := C.hot
  heartbeat := C.heartbeat
  raised_frame _ _ _ := C.frame
  raised_rollback _ _ := C.rollback
  frame _ _ _ := C.frame
  setHot := C.setHot
  setHeartbeat := C.setHeartbeat
  settled _ h := h
  race hrace hd _ := raisesDb_resolveRace ⟨C.fault, C.db⟩ hd (fun _ _ _ => C.race hrace)
    fun _ _ _ _ _ => C.race hrace

abbrev PreparesDb (F : Failures) (I : World W H B → Prop) (w : W)
    (P : DomainError → World W H B → Prop) (Prepared : α → World W H B → Prop)
    (x : Code (dbSig B) Exn α) (s : World W H B) : Prop :=
  Safe (dbRely F) I w (fun r s' => Raises (Escapes P) r s' ∧ ∀ a, r = .ok a → Prepared a s') x s

abbrev ReadiesDb (F : Failures) (I : World W H B → Prop) (w : W)
    (P : DomainError → World W H B → Prop) (Ready : World W H B → Prop)
    (x : Code (dbSig B) Exn α) (s : World W H B) : Prop :=
  PreparesDb F I w P (fun _ => Ready) x s

section Execution
variable (C : ExecutionContract F w identity I P D Prepared)

include C

theorem raisesDb_upsert {row : DurableRecord} {stored : StoredResult} {fp : Digest}
    {expiresAt : Deadline} (hrow : row.completed = stored.completed fp expiresAt)
    (hprepared : Prepared stored s) :
    RaisesDb F I w P (.call (.upsertRecord identity row) .ret) s := by
  intro s₁ hf hi r s₂ he
  refine ⟨?_, fun _ _ _ => dbExec_raises C.toQuietContract (o := .upsertRecord identity row) rfl he⟩
  have hprepared₁ : Prepared stored s₁ := C.prepared_frame hprepared hf
  change dbExec F w (.upsertRecord identity row) s₁ r s₂ at he
  simp only [dbExec] at he
  split at he
  · rename_i ht
    rcases he with ⟨hfree, he⟩ | ⟨e, -, -, rfl⟩
    · split at he
      · obtain ⟨-, rfl⟩ := he
        exact C.write hprepared₁ ht hfree hrow hi
      · split at he
        · obtain ⟨-, rfl⟩ := he
          exact C.write hprepared₁ ht hfree hrow hi
        · obtain ⟨-, rfl⟩ := he
          exact hi
    · exact hi
  · obtain ⟨-, rfl⟩ := he
    exact hi

theorem prepares_utcNow {stored : StoredResult} (hprepared : Prepared stored s) :
    ReadiesDb F I w P (Prepared stored) utcNow s := by
  intro s₁ hf hi r s₂ he
  obtain ⟨rfl, rfl⟩ := he
  have hprepared₂ : Prepared stored (s₁.readClock w) :=
    C.prepared_readClock (C.prepared_frame hprepared hf)
  exact ⟨C.db .readClock hi,
    fun s₃ hf₃ _ => ⟨raises_ok _ s₃, fun _ _ => C.prepared_frame hprepared₂ hf₃⟩⟩

theorem raisesDb_tryAddCompleted {completed : CompletedIdempotencyResult} {stored : StoredResult}
    {fp : Digest} {expiresAt : Deadline} (hcompleted : completed = stored.completed fp expiresAt)
    (hprepared : Prepared stored s) : RaisesDb F I w P (tryAddCompleted identity completed) s := by
  refine (prepares_utcNow C hprepared).bind (fun now s₁ hp _ => ?_)
    fun e s₁ hp => raises_error (hp.1 e rfl)
  split
  · exact raisesDb_upsert C hcompleted (hp.2 now rfl)
  · exact raisesDb_throw rfl

theorem raisesDb_executeInTransaction {fp : Digest}
    {operation : Code (stmtSig B) Exn StoredResult} {retention : Nat}
    (hoperation : PreparesDb F I w P Prepared (operation.lift (stmtInDb B)) s) :
    RaisesDb F I w P (executeInTransaction identity fp operation retention) s := by
  refine hoperation.bind (fun stored s₁ hp _ => ?_) fun e s₁ hp => raises_error (hp.1 e rfl)
  refine (prepares_utcNow C (hp.2 stored rfl)).bind (fun now s₂ hq _ => ?_)
    fun e s₂ hq => raises_error (hq.1 e rfl)
  have hdeadline : ReadiesDb F I w P (Prepared stored) (.ret (deadlineAfter now retention)) s₂ := by
    intro s₃ hf₃ _
    refine ⟨fun e he => ?_, fun _ _ => C.prepared_frame (hq.2 now rfl) hf₃⟩
    unfold deadlineAfter at he
    split at he
    · cases he
    · cases he
      exact .inl rfl
  refine hdeadline.bind (fun expiresAt s₃ hd _ => ?_) fun e s₃ hd => raises_error (hd.1 e rfl)
  refine (raisesDb_tryAddCompleted C rfl (hd.2 expiresAt rfl)).bind_raises fun added s₄ _ => ?_
  cases added with
  | true => exact raisesDb_pure _
  | false => exact raisesDb_throw rfl

/-- Of the exceptions that mean a lost race, the one of the record itself is not expected. -/
theorem raisesDb_settle {fp : Digest} {e : Exn} (hrace : e.isRaceError = true)
    (he : Escapes P e s) : RaisesDb F I w D (resolveRace identity fp e) s := by
  refine Safe.of_rely fun s₁ hf hi => ?_
  rcases Escapes.frame C.raised_frame he hf with h | ⟨d, rfl, hd⟩
  · refine (raisesDb_findExisting_ C.toQuietContract).bind_raises fun found s₂ _ => ?_
    cases found with
    | some winner => exact raisesDb_pure winner
    | none =>
      refine raisesDb_ret fun s₃ _ => raises_error (.inl ?_)
      cases e with
      | concurrentWinnerCommitted => rfl
      | _ => exact h
  · exact C.race hrace hd hi

theorem raisesDb_executeOnce_ {fp : Digest}
    {operation : Code (stmtSig B) Exn StoredResult} {retention : Nat}
    (hoperation : ∀ s', Begun w I s' →
      PreparesDb F I w P Prepared (operation.lift (stmtInDb B)) s') :
    RaisesDb F I w D (executeOnce_ identity fp operation retention) s := by
  refine (raisesDb_findExisting_ C.toQuietContract).bind_raises fun found s₁ _ => ?_
  cases found with
  | some existing => exact raisesDb_pure existing
  | none =>
    refine (raisesDb_withUow C.toQuietContract C.raised_frame C.raised_rollback fun s₂ hb =>
      raisesDb_executeInTransaction C (hoperation s₂ hb)).onOutcome fun r s₂ hr =>
        Safe.of_rely fun s₃ hf hi => ?_
    have hescapes := hr s₃ hf hi
    cases r with
    | ok completed => exact raisesDb_pure _
    | error e =>
      by_cases hrace : e.isRaceError = true
      · show RaisesDb F I w D (if e.isRaceError then resolveRace identity fp e else throw e) s₃
        rw [if_pos hrace]
        exact raisesDb_settle C hrace (hescapes e rfl)
      · show RaisesDb F I w D (if e.isRaceError then resolveRace identity fp e else throw e) s₃
        rw [if_neg hrace]
        refine raisesDb_ret fun s' hf' => raises_error ?_
        rcases Escapes.frame C.raised_frame (hescapes e rfl) hf' with h | ⟨d, rfl, hd⟩
        · exact .inl h
        · exact .inr ⟨d, rfl, C.settled (eq_false_of_ne_true hrace) hd⟩

theorem raisesDb_unavailableAs {message : String} {x : Code (dbSig B) Exn α}
    (hx : RaisesDb F I w D x s) : RaisesDb F I w D (unavailableAs message x) s := by
  refine Safe.tryCatch hx (fun a s' _ => raises_ok a s') fun e s' he _ => ?_
  cases e with
  | persistenceUnavailable => exact raisesDb_throw rfl
  | _ => exact raisesDb_ret fun s'' hf => raises_error (Escapes.frame C.frame (he _ rfl) hf)

theorem raisesDb_executeOnce {fp : Digest}
    {operation : Code (stmtSig B) Exn StoredResult} {retention : Nat}
    (hoperation : ∀ s', Begun w I s' →
      PreparesDb F I w P Prepared (operation.lift (stmtInDb B)) s') :
    RaisesDb F I w D (executeOnce identity fp operation retention) s := by
  unfold executeOnce
  split
  · exact raisesDb_throw rfl
  · exact raisesDb_unavailableAs C (raisesDb_executeOnce_ C hoperation)

theorem raisesDb_findExisting {fp : Digest} :
    RaisesDb F I w D (findExisting identity fp) s :=
  raisesDb_unavailableAs C (raisesDb_findExisting_ C.toQuietContract)

/-! ### The coordinator -/

abbrev RaisesOp (F : Failures) (I : World W H B → Prop) (w : W)
    (D : DomainError → World W H B → Prop) (x : Code (sig B) Exn α) (s : World W H B) : Prop :=
  Safe (rely F) I w (Raises (Escapes D)) x s

omit C in
theorem raises_lift {x : Code (dbSig B) Exn α} (hx : RaisesDb F I w D x s) :
    RaisesOp F I w D (x.lift (dbInSig B)) s := by
  refine hx.lift (dbInSig B) (fun _ _ h => h) fun o s₁ r s₂ he => ?_
  cases r with
  | ok a => exact he
  | error e => exact he

omit C in
theorem raises_throw {e : Exn} (h : e.isOrchestration = true) :
    RaisesOp F I w D (throw e : Code (sig B) Exn α) s :=
  fun _ _ _ => raises_error (.inl h)

omit C in
theorem raises_pure (a : α) : RaisesOp F I w D (pure a : Code (sig B) Exn α) s :=
  fun s' _ _ => raises_ok a s'

theorem raises_rethrow {e : Exn} (h : Escapes D e s) :
    RaisesOp F I w D (throw e : Code (sig B) Exn α) s :=
  fun _ hf _ => raises_error (Escapes.frame C.frame h hf)

theorem escapes_hot {c : HotCall} {P : Except Exn c.Reply → World W H B → Prop}
    (h : ∀ s₁ r hot s₂, Frame w s s₁ → Frame w { s₁ with hot := hot } s₂ →
      (∀ e, r = .error e → e.isOrchestration = true) → P r s₂) :
    Safe (rely F) I w P (.call (.hot c) .ret) s := by
  intro s₁ hf hi r s₂ he
  obtain ⟨hot, he, rfl⟩ := he
  refine ⟨C.hot he hi, fun s₃ hf₃ _ => h s₁ r hot s₃ hf hf₃ fun e her => ?_⟩
  subst her
  exact C.hotRaises he

theorem raises_clockNow : RaisesOp F I w D clockNow s := raises_lift (raisesDb_utcNow C.toQuietContract)

theorem raises_evaluateResult {result : IdempotencyResult} :
    RaisesOp F I w D (evaluateResult result) s := by
  have hcompleted : ∀ completed : CompletedIdempotencyResult, RaisesOp F I w D (do
      let now ← clockNow
      if completed.expiresAt ≤ now then
        throw (.idempotencyUnavailable "Replay lifetime expired before response")
      else return completed) s := by
    intro completed
    refine (raises_clockNow C).bind_raises fun now s₁ _ => ?_
    split
    · exact raises_throw rfl
    · exact raises_pure completed
  cases result with
  | conflict => exact raises_throw rfl
  | inProgress => exact raises_throw rfl
  | executed completed => exact hcompleted completed
  | replay completed => exact hcompleted completed

/-- Neither cleanup call forgets an exception that is on its way out. -/
theorem escapes_release_ {k : IdempotencyKey} {token : Token} {e : Exn} (he : Escapes D e s) :
    Safe (rely F) I w (fun r s' => Escapes D e s' ∧ Raises (Escapes D) r s')
      (release_ k token) s := by
  refine Safe.onOutcome (P := fun r s' => Escapes D e s' ∧
      ∀ e' : Exn, r = .error e' → e'.isOrchestration = true)
    (escapes_hot C fun s₁ r hot s₂ hf hf₂ hr => ⟨?_, hr⟩) fun r s₁ hp =>
      Safe.of_rely fun s₂ hf hi => ?_
  · refine Escapes.frame C.frame ?_ hf₂
    rcases Escapes.frame C.frame he hf with h | ⟨d, rfl, hd⟩
    · exact .inl h
    · exact .inr ⟨d, rfl, C.setHot hd⟩
  · obtain ⟨hescapes, hr⟩ := hp s₂ hf hi
    have hkept : ∀ s₃, Frame w s₂ s₃ → Escapes D e s₃ := fun s₃ hf₃ => Escapes.frame C.frame hescapes hf₃
    split
    · exact fun s₃ hf₃ _ => ⟨hkept s₃ hf₃, raises_ok () s₃⟩
    · exact fun s₃ hf₃ _ => ⟨hkept s₃ hf₃, raises_error (.inl (hr _ rfl))⟩
    · exact fun s₃ hf₃ _ => ⟨hkept s₃ hf₃, raises_ok () s₃⟩

theorem raises_release_ {k : IdempotencyKey} {token : Token} :
    RaisesOp F I w D (release_ k token) s :=
  (escapes_release_ C (e := .transactionConflict) (.inl rfl)).mono fun _ _ h => h.2

theorem raises_complete_ {k : IdempotencyKey} {token : Token}
    {completed : CompletedIdempotencyResult} {policy : IdempotencyPolicy} :
    RaisesOp F I w D (complete_ k token completed policy) s := by
  refine Safe.onOutcome (P := fun r _ => ∀ e' : Exn, r = .error e' → e'.isOrchestration = true)
    (escapes_hot C fun _ _ _ _ _ _ hr => hr) fun r s₁ hp => Safe.of_rely fun s₂ hf hi => ?_
  have hr := hp s₂ hf hi
  split
  · split
    · exact raises_throw rfl
    · exact raises_pure ()
  · exact raises_throw (hr _ rfl)
  · split
    · exact raises_throw rfl
    · exact raises_pure ()

omit C in
theorem raises_leaseLost : RaisesOp F I w D leaseLost s := by
  intro s₁ _ hi r s₂ he
  obtain ⟨rfl, rfl⟩ := he
  exact ⟨hi, fun s₃ _ _ => raises_ok _ s₃⟩

theorem raises_abandonClaim {k : IdempotencyKey} {token : Token} {e : Exn} (he : Escapes D e s) :
    RaisesOp F I w D (abandonClaim k token e) s := by
  have hlost : Safe (rely F) I w (fun r s' => Escapes D e s' ∧ ∃ lost, r = .ok lost)
      leaseLost s := by
    intro s₁ hf hi r s₂ he'
    obtain ⟨rfl, rfl⟩ := he'
    exact ⟨hi, fun s₃ hf₃ _ => ⟨Escapes.frame C.frame he (hf.trans hf₃), _, rfl⟩⟩
  refine hlost.bind (fun lost s₁ hp _ => ?_) fun e' s₁ hp => ?_
  · cases lost with
    | true => exact raises_rethrow C hp.1
    | false =>
      exact (escapes_release_ C hp.1).bind (fun _ s₂ hq _ => raises_rethrow C hq.1)
        fun e' s₂ hq => raises_error (hq.2 e' rfl)
  · obtain ⟨-, lost, hlost⟩ := hp
    cases hlost

theorem raises_publish {k : IdempotencyKey} {token : Token} {policy : IdempotencyPolicy}
    {result : IdempotencyResult} (hmode : policy.mode = .hotDurable) :
    RaisesOp F I w D (publish k token policy result) s := by
  refine raises_leaseLost.bind_raises fun lost s₁ _ => ?_
  cases lost with
  | true =>
    simp only [if_true, hmode, reduceCtorEq, if_false]
    exact raises_evaluateResult C
  | false =>
    simp only [Bool.false_eq_true, if_false]
    cases result with
    | executed completed =>
      exact (raises_complete_ C).bind_raises fun _ _ _ => raises_evaluateResult C
    | replay completed =>
      exact (raises_complete_ C).bind_raises fun _ _ _ => raises_evaluateResult C
    | conflict => exact (raises_release_ C).bind_raises fun _ _ _ => raises_evaluateResult C
    | inProgress => exact (raises_release_ C).bind_raises fun _ _ _ => raises_evaluateResult C

theorem raises_executeDurable {fp : Digest} {operation : Operation B}
    {retention : Nat}
    (hoperation : ∀ s', Begun w I s' →
      PreparesDb F I w P Prepared (operation.hotDurable.lift (stmtInDb B)) s') :
    RaisesOp F I w D (executeDurable identity fp operation retention) s :=
  raises_lift (raisesDb_executeOnce C hoperation)

theorem raises_andStop {x : Code (sig B) Exn α} (hx : RaisesOp F I w D x s) :
    RaisesOp F I w D (x.andFinally (.call .stopHeartbeat .ret)) s := by
  refine hx.onOutcome fun r s₁ hr => Safe.of_rely fun s₂ hf hi => ?_
  have hraises := hr s₂ hf hi
  intro s₃ hf₃ hi₃ r' s₄ he
  obtain ⟨rfl, rfl⟩ := he
  refine ⟨C.heartbeat hi₃, fun s₅ hf₅ _ e her => Escapes.frame C.frame ?_ hf₅⟩
  rcases Escapes.frame C.frame (hraises e her) hf₃ with h | ⟨d, rfl, hd⟩
  · exact .inl h
  · exact .inr ⟨d, rfl, C.setHeartbeat hd⟩

theorem raises_executeClaimed {fp : Digest} {token : Token}
    {operation : Operation B} {policy : IdempotencyPolicy} (hmode : policy.mode = .hotDurable)
    (hoperation : ∀ s', Begun w I s' →
      PreparesDb F I w P Prepared (operation.hotDurable.lift (stmtInDb B)) s') :
    RaisesOp F I w D (executeClaimed identity fp token operation policy) s := by
  have hstart : RaisesOp F I w D (.call (.startHeartbeat identity token policy.leaseSeconds) .ret) s := by
    intro s₁ _ hi r s₂ he
    obtain ⟨rfl, rfl⟩ := he
    exact ⟨C.heartbeat hi, fun s₃ _ _ => raises_ok () s₃⟩
  refine hstart.bind_raises fun _ s₁ _ => ?_
  refine (raises_andStop C ?_).bind_raises fun result s₂ _ => raises_publish C hmode
  simp only [executeOperation, hmode, if_true]
  exact Safe.tryCatch (raises_executeDurable C hoperation) (fun a s' _ => raises_ok a s')
    fun e s' he _ => raises_abandonClaim C (he e rfl)

theorem raises_resolveBusy {fp : Digest} {busy : IdempotencyResult}
    {policy : IdempotencyPolicy} (hmode : policy.mode = .hotDurable) :
    RaisesOp F I w D (resolveBusy identity fp busy policy) s := by
  simp only [resolveBusy, hmode, if_true]
  refine (raises_lift (raisesDb_findExisting C)).bind_raises fun found s₁ _ => ?_
  cases found with
  | none => exact raises_evaluateResult C
  | some existing => exact raises_evaluateResult C

/-- The coordinator raises its own exceptions, those of the two stores, and what is left of
the operation's: its domain errors. -/
theorem raises_executeAs {fp : Digest} {token : Token}
    {operation : Operation B} {policy : IdempotencyPolicy} (hmode : policy.mode = .hotDurable)
    (hoperation : ∀ s', Begun w I s' →
      PreparesDb F I w P Prepared (operation.hotDurable.lift (stmtInDb B)) s') :
    RaisesOp F I w D (execute identity fp operation policy token) s := by
  refine Safe.onOutcome (P := fun r _ => ∀ e' : Exn, r = .error e' → e'.isOrchestration = true)
    (escapes_hot C fun _ _ _ _ _ _ hr => hr) fun r s₁ hp => Safe.of_rely fun s₂ hf hi => ?_
  have hr := hp s₂ hf hi
  cases r with
  | error e =>
    cases e with
    | idempotencyUnavailable message =>
      show RaisesOp F I w D (if policy.mode = .hotOnly then _ else _) s₂
      rw [if_neg (by rw [hmode]; exact IdempotencyMode.noConfusion)]
      exact (raises_executeDurable C hoperation).bind_raises fun _ _ _ => raises_evaluateResult C
    | _ => exact raises_throw (hr _ rfl)
  | ok claim =>
    cases claim with
    | acquired => exact raises_executeClaimed C hmode hoperation
    | replay completed => exact raises_evaluateResult C
    | conflict => exact raises_resolveBusy C hmode
    | inProgress => exact raises_resolveBusy C hmode

end Execution

theorem raises_execute {k : IdempotencyKey} {fp : Digest} {token : Token}
    (C : EscapeContract F w I D Ready) {operation : Operation B} {policy : IdempotencyPolicy}
    (hmode : policy.mode = .hotDurable)
    (hoperation : ∀ s', Begun w I s' →
      ReadiesDb F I w D Ready (operation.hotDurable.lift (stmtInDb B)) s') :
    RaisesOp F I w D (execute k fp operation policy token) s :=
  raises_executeAs C.execution hmode hoperation

end ProfileService.Idempotency
