import ProfileService.Entrypoints.ErrorAnswers
import ProfileService.Infrastructure.RowHistory

/-!
# The registered commands at work

Any number of executions of the five registered commands, over one hot store and the
database. `Accounted` says where the rows come from, `Accompanied` that a record describes
what was written with it; the coordinator keeps both.
-/

namespace ProfileService.Entrypoints
open Domain Library Library.Machine Application Infrastructure Idempotency

variable {W : Type} [DecidableEq W] {zones : ZoneInfo} {fault : Exn → Prop} {D : Deployment}
  {H : HotStore W} {F : Failures} {name : TableName} {id : UserId} {w u : W}
  {commands : W → Command} {modes : W → ResultMode}
  {base : (name : TableName) → UserId → Option (tableOf zones name).Row}
  {s s' : World W H (database W zones fault)} {stored : StoredResult}
  {made : Commit W (database W zones fault)}

/-! ### The registered commands -/

/-- The callback of a dispatch (`execution.py:41-65`). -/
def operationOf (D : Deployment) (zones : ZoneInfo) (fault : Exn → Prop) (mode : ResultMode) :
    Command → Operation (database W zones fault)
  | .createDefaultProfile c => callback (D.registry zones fault).createDefaultProfile c mode
  | .updateProfile c => callback (D.registry zones fault).updateProfile c mode
  | .updateAvatar c => callback (D.registry zones fault).updateAvatar c mode
  | .updateSettings c => callback (D.registry zones fault).updateSettings c mode
  | .resetSettings c => callback (D.registry zones fault).resetSettings c mode

def snapshotOf (D : Deployment) :
    (name : TableName) → VersionedMutableEntity (FieldsOf zones name) → StoredResult
  | .profiles, a => (codecOf D.adapters.profile).encode (ProfileDTO.fromDomain a)
  | .settings, a => (codecOf D.adapters.settings).encode (SettingsDTO.fromDomain a)

def resultOf (D : Deployment) (mode : ResultMode) (name : TableName)
    (a : VersionedMutableEntity (FieldsOf zones name)) : StoredResult :=
  match mode with
  | .completionOnly => StoredResult.completion
  | .replayable => snapshotOf D name a

/-! ### Records beside the rows -/

/-- What an operation that returned `stored` leaves in its transaction: the outcome it
describes, if it updates a row, and both halves of the user it provisions. -/
structure Prepared (D : Deployment) (commands : W → Command) (modes : W → ResultMode) (w : W)
    (stored : StoredResult) (s : World W H (database W zones fault)) : Prop where
  update : ∀ name u, rowUpdate zones name (commands w) = some u → ∃ a, a.id = u.userId ∧
    stored = resultOf D (modes w) name a ∧ Outcome u a s ∧
    ((rowOf name u.userId s).own w = some ((tableOf zones name).values a) ∨ Unchanged u a s)
  provision : ∀ c, commands w = .createDefaultProfile c → ∀ name,
    ((rowOf name c.userId s).visible w).isSome = true

/-- The same of committed rows, and of the commit that made them. -/
structure Kept (D : Deployment) (commands : W → Command) (modes : W → ResultMode)
    (made : Commit W (database W zones fault)) (stored : StoredResult)
    (s : World W H (database W zones fault)) : Prop where
  update : ∀ name u, rowUpdate zones name (commands made.worker) = some u → ∃ a,
    a.id = u.userId ∧ stored = resultOf D (modes made.worker) name a ∧ Outcome u a s ∧
    Loaded name a s ∧
    (((show Uncommitted zones from made.staged) name u.userId).isSome = true ∨ Unchanged u a s)
  provision : ∀ c, commands made.worker = .createDefaultProfile c → ∀ name,
    (rowOf name c.userId s).committed.isSome = true

def Carries (p : StoredResult → Prop) (row : DurableRecord) : Prop :=
  ∃ stored requestFingerprint expiresAt,
    row.completed = stored.completed requestFingerprint expiresAt ∧ p stored

/-- Every record describes what its transaction wrote or committed with it. -/
structure Accompanied (D : Deployment) (commands : W → Command) (modes : W → ResultMode)
    (s : World W H (database W zones fault)) : Prop where
  idle : ∀ w, s.inTransaction w = false → ∀ k, (s.records k).own w = none
  pending : ∀ k w row, (s.records k).own w = some row →
    Carries (fun stored => Prepared D commands modes w stored s) row
  logged : ∀ c ∈ s.log, ∀ k row, c.installed k = some row →
    Carries (fun stored => Kept D commands modes c stored s) row

theorem Prepared.frame (h : Prepared D commands modes w stored s) (hf : Frame w s s') :
    Prepared D commands modes w stored s' where
  update name u hu := by
    obtain ⟨a, hid, hstored, houtcome, hwritten⟩ := h.update name u hu
    refine ⟨a, hid, hstored, houtcome.grow (.of_frame hf), ?_⟩
    rcases hwritten with hown | hunchanged
    · exact .inl (((hf.business name u.userId).own).trans hown)
    · exact .inr (hunchanged.grow (.of_frame hf))
  provision c hc name := (hf.business name c.userId).visible_isSome (h.provision c hc name)

theorem committed_isSome_mono {T R : Type} {c c' : Row T R} (h : c.versions <:+ c'.versions)
    (hc : c.committed.isSome = true) : c'.committed.isSome = true := by
  obtain ⟨row, hrow⟩ := Option.isSome_iff_exists.1 hc
  obtain ⟨v, hv, -⟩ := Row.mem_of_committed hrow
  unfold Row.committed
  cases hvs : c'.versions with
  | nil =>
    have := h.subset hv
    rw [hvs] at this
    cases this
  | cons x xs => rfl

theorem Kept.grow (h : Kept D commands modes made stored s) (hg : VersionsGrow s s') :
    Kept D commands modes made stored s' where
  update name u hu := by
    obtain ⟨a, hid, hstored, houtcome, hloaded, hchange⟩ := h.update name u hu
    exact ⟨a, hid, hstored, houtcome.grow hg, Loaded.grow hloaded hg,
      hchange.imp_right fun hunchanged => hunchanged.grow hg⟩
  provision c hc name := committed_isSome_mono (hg name c.userId) (h.provision c hc name)

theorem Prepared.commit (h : Prepared D commands modes made.worker stored s)
    (hstaged : made.staged = (database W zones fault).staged made.worker s.business) :
    Kept D commands modes made stored (s.commit made.worker) where
  update name u hu := by
    obtain ⟨a, hid, hstored, houtcome, hwritten⟩ := h.update name u hu
    refine ⟨a, hid, hstored, houtcome.grow .of_commit, ?_⟩
    rcases hwritten with hown | hunchanged
    · refine ⟨⟨⟨some made.worker, (tableOf zones name).values a⟩, ?_, rfl⟩, .inl ?_⟩
      · show _ ∈ ((rowOf name a.id s).commit made.worker).versions
        rw [hid, Row.commit_of_own hown]
        exact List.mem_cons_self
      · rw [hstaged]
        exact Option.isSome_iff_exists.2 ⟨_, hown⟩
    · have hkept : Unchanged u a (s.commit made.worker) := hunchanged.grow .of_commit
      exact ⟨hkept.1, .inr hkept⟩
  provision c hc name := by
    have hv := h.provision c hc name
    show ((rowOf name c.userId s).commit made.worker).committed.isSome = true
    cases ho : (rowOf name c.userId s).own made.worker with
    | none =>
      rw [Row.commit_of_not_own ho]
      rwa [Row.visible_of_not_own ho] at hv
    | some row =>
      rw [Row.commit_of_own ho]
      rfl

theorem Carries.imp {p q : StoredResult → Prop} {row : DurableRecord} (h : Carries p row)
    (hpq : ∀ stored, p stored → q stored) : Carries q row := by
  obtain ⟨stored, fp, expiresAt, hrow, hp⟩ := h
  exact ⟨stored, fp, expiresAt, hrow, hpq stored hp⟩

namespace Accompanied

/-- A step of `w`, by what it does to the records of `w` and to the log. -/
theorem step (h : Accompanied D commands modes s) (hf : ∀ u, u ≠ w → Frame u s s')
    (hg : VersionsGrow s s')
    (hidle : s'.inTransaction w = false → ∀ k, (s'.records k).own w = none)
    (hown : ∀ k row, (s'.records k).own w = some row →
      Carries (fun stored => Prepared D commands modes w stored s') row)
    (hlog : ∀ c ∈ s'.log, c ∈ s.log ∨ ∀ k row, c.installed k = some row →
      Carries (fun stored => Kept D commands modes c stored s') row) :
    Accompanied D commands modes s' where
  idle u hu k := by
    by_cases huw : u = w
    · subst huw
      exact hidle hu k
    · have hfu := hf u huw
      exact ((hfu.records k).own).trans (h.idle u (hfu.inTransaction ▸ hu) k)
  pending k u row ho := by
    by_cases huw : u = w
    · subst huw
      exact hown k row ho
    · have hfu := hf u huw
      rw [(hfu.records k).own] at ho
      exact (h.pending k u row ho).imp fun _ hp => hp.frame hfu
  logged c hc k row hrow := by
    rcases hlog c hc with hold | hnew
    · exact (h.logged c hold k row hrow).imp fun _ hk => hk.grow hg
    · exact hnew k row hrow

theorem commit (h : Accompanied D commands modes s) (ht : s.inTransaction w = true) :
    Accompanied D commands modes (s.commit w) := by
  refine h.step (w := w) (fun u hu => (DbStep.commit ht).frame hu)
    .of_commit (fun _ k => Row.own_commit_self) ?_ ?_
  · intro k row ho
    have hnone : ((s.commit w).records k).own w = none := Row.own_commit_self
    rw [ho] at hnone
    cases hnone
  · intro c hc
    rcases List.mem_cons.1 hc with rfl | hc
    · exact .inr fun k row ho => (h.pending k w row ho).imp fun _ hp => hp.commit rfl
    · exact .inl hc

theorem rollback (h : Accompanied D commands modes s) (ht : s.inTransaction w = true) :
    Accompanied D commands modes (s.rollback w) := by
  refine h.step (w := w) (fun u hu => (DbStep.rollback ht).frame hu) .of_rollback
    (fun _ k => Row.own_rollback_self) (fun k row ho => ?_) fun c hc => .inl hc
  have hnone : ((s.rollback w).records k).own w = none := Row.own_rollback_self
  rw [ho] at hnone
  cases hnone

theorem quiet (he : Quiet w s s') (h : Accompanied D commands modes s) :
    Accompanied D commands modes s' := by
  cases he with
  | same => exact h
  | readClock =>
    exact ⟨h.idle, fun k u row ho => (h.pending k u row ho).imp fun _ hp => ⟨hp.update, hp.provision⟩,
      fun c hc k row hrow => (h.logged c hc k row hrow).imp fun _ hk => ⟨hk.update, hk.provision⟩⟩
  | begin ht =>
    refine h.step (w := w) (fun u hu => (DbStep.begin ht).frame hu)
      (fun name id => List.suffix_refl _) (fun hw => ?_) (fun k row ho => ?_) fun c hc => .inl hc
    · simp [World.begin] at hw
    · have hnone := h.idle w ht k
      change (s.records k).own w = some row at ho
      rw [ho] at hnone
      cases hnone
  | commit ht => exact h.commit ht
  | rollback ht => exact h.rollback ht

theorem beside (h : Accompanied D commands modes s) (hrecords : s'.records = s.records)
    (hbusiness : s'.business = s.business) (hlog : s'.log = s.log)
    (hinTransaction : s'.inTransaction = s.inTransaction) : Accompanied D commands modes s' := by
  obtain ⟨now, hot, heartbeat, records, business, inTransaction, clockRead, log⟩ := s'
  cases hrecords
  cases hbusiness
  cases hlog
  cases hinTransaction
  exact ⟨h.idle, fun k u row ho => (h.pending k u row ho).imp fun _ hp => ⟨hp.update, hp.provision⟩,
    fun c hc k row hrow => (h.logged c hc k row hrow).imp fun _ hk => ⟨hk.update, hk.provision⟩⟩

theorem env (he : WorldEnv s s') (h : Accompanied D commands modes s) :
    Accompanied D commands modes s' := by
  cases he with
  | tick now hle => exact h.beside rfl rfl rfl rfl
  | hot hot he => exact h.beside rfl rfl rfl rfl
  | beat v hb r hot hw hrun he => exact h.beside rfl rfl rfl rfl

theorem crash (h : Accompanied D commands modes s) : Accompanied D commands modes (s.crash w) := by
  unfold World.crash
  split
  · rename_i ht
    exact (h.rollback ht).beside rfl rfl rfl rfl
  · exact h.beside rfl rfl rfl rfl

theorem frame_writeRecord {k : IdempotencyKey} {row : DurableRecord} (h : u ≠ w)
    (hfree : (s.records k).Free w) : Frame u s (s.writeRecord w k row) := by
  refine { Frame.refl u s with records := fun k' => ?_ }
  by_cases hk : k' = k
  · subst hk
    simpa [World.writeRecord] using Row.frame_write h hfree
  · simpa [World.writeRecord, hk] using Row.Frame.refl u (s.records k')

theorem writeRecord {k : IdempotencyKey} {row : DurableRecord} {fp : Digest} {expiresAt : Deadline}
    (h : Accompanied D commands modes s) (ht : s.inTransaction w = true)
    (hfree : (s.records k).Free w) (hrow : row.completed = stored.completed fp expiresAt)
    (hp : Prepared D commands modes w stored s) :
    Accompanied D commands modes (s.writeRecord w k row) := by
  have hkeep : ∀ stored, Prepared D commands modes w stored s →
      Prepared D commands modes w stored (s.writeRecord w k row) :=
    fun _ hp => ⟨hp.update, hp.provision⟩
  refine h.step (w := w) (fun u hu => frame_writeRecord hu hfree) (fun name id => List.suffix_refl _)
    (fun hw => absurd (ht.symm.trans hw) (by decide)) (fun k' row' ho => ?_) fun c hc => .inl hc
  by_cases hk : k' = k
  · subst hk
    have hrow' : row = row' := by simpa [World.writeRecord] using ho
    subst hrow'
    exact ⟨stored, fp, expiresAt, hrow, hkeep stored hp⟩
  · have ho' : (s.records k').own w = some row' := by simpa [World.writeRecord, hk] using ho
    exact (h.pending k' w row' ho').imp hkeep

theorem stmt {o : StmtOp (database W zones fault)}
    {r : Except Exn ((stmtSig (database W zones fault)).Reply o)} (h : Accompanied D commands modes s)
    (he : stmtExec F w o s r s') (hown : ∀ k, (s.records k).own w = none) :
    Accompanied D commands modes s' ∧ ∀ k, (s'.records k).own w = none := by
  have hf : ∀ u, u ≠ w → Frame u s s' := fun u hu => (stmtExec_step he).frame hu
  have hsame : s'.records = s.records ∧ s'.log = s.log := by
    cases o with
    | clock =>
      obtain ⟨-, rfl⟩ := he
      exact ⟨rfl, rfl⟩
    | stmt o =>
      simp only [stmtExec, dbExec] at he
      split at he
      · obtain ⟨b, -, rfl⟩ := he
        exact ⟨rfl, rfl⟩
      · obtain ⟨-, rfl⟩ := he
        exact ⟨rfl, rfl⟩
  obtain ⟨hrecords, hlog⟩ := hsame
  have hg : VersionsGrow s s' := .of_step (stmtExec_step he)
  have hown' : ∀ k, (s'.records k).own w = none := fun k => hrecords ▸ hown k
  refine ⟨h.step (w := w) hf hg (fun _ => hown') (fun k row ho => ?_) fun c hc => .inl (hlog ▸ hc),
    hown'⟩
  rw [hown' k] at ho
  cases ho

end Accompanied

/-! ### What the operations raise and leave -/

/-- A domain error of an updating command; of a row that was there before the run it is a
refusal of its own, at one of the given times and not before the given commits. -/
def Raised (commands : W → Command)
    (base : (name : TableName) → UserId → Option (tableOf zones name).Row) (times : Instant → Prop)
    (since : List (Commit W (database W zones fault))) (w : W) (d : DomainError)
    (s : World W H (database W zones fault)) : Prop :=
  ∃ name u, rowUpdate zones name (commands w) = some u ∧
    ((base name u.userId).isSome = true → ∃ now, times now ∧ Refusal base since u now d s)

theorem Raised.later {times : Instant → Prop} {past : List (Commit W (database W zones fault))}
    {d : DomainError} (h : Raised commands base times past w d s) (hlog : s.log <:+ s'.log) :
    Raised commands base times past w d s' := by
  obtain ⟨name, u, hu, hrefusal⟩ := h
  refine ⟨name, u, hu, fun hbase => ?_⟩
  obtain ⟨now, hnow, hrefused⟩ := hrefusal hbase
  exact ⟨now, hnow, hrefused.later (List.suffix_refl _) hlog⟩

section Operations
variable (hfault : ∀ e, fault e → e.isOrchestration = true)

abbrev PreparesStmt (F : Failures) (D : Deployment) (commands : W → Command)
    (modes : W → ResultMode)
    (base : (name : TableName) → UserId → Option (tableOf zones name).Row) (w : W)
    (x : Code (stmtSig (database W zones fault)) Exn StoredResult)
    (s : World W H (database W zones fault)) : Prop :=
  SafeStmt F (Accounted commands base) w (fun r s' =>
    Raises (Escapes fun d s' => Raised commands base (· = s'.clockRead w) s.log w d s') r s' ∧
      ∀ stored, r = .ok stored → Prepared D commands modes w stored s') x s

theorem prepares_update {CommandT ResultT : Type}
    {registration : CommandHandlerRegistration (Code (stmtSig (database W zones fault)) Exn)
      CommandT ResultT} {command : CommandT}
    {fromDomain : VersionedMutableEntity (FieldsOf zones name) → ResultT}
    {x : Code (stmtSig (database W zones fault)) Exn (VersionedMutableEntity (FieldsOf zones name))}
    {u : RowUpdate zones name} (hu : rowUpdate zones name (commands w) = some u)
    (hhandler : registration.handler command = x >>= fun a => pure (fromDomain a))
    (hcodec : ∀ a, registration.codec.encode (fromDomain a) = snapshotOf D name a)
    (hthere : (base name u.userId).isSome = true → ((rowOf name u.userId s).visible w).isSome = true)
    (hx : SafeStmt F (Accounted commands base) w (Ended base u w s) x s) :
    PreparesStmt F D commands modes base w (invokeHandler registration command (modes w)) s := by
  have hresult : ∀ a, (match modes w with
      | .completionOnly => pure StoredResult.completion
      | .replayable => pure (registration.codec.encode (fromDomain a))) =
        (.ret (.ok (resultOf D (modes w) name a)) :
          Code (stmtSig (database W zones fault)) Exn StoredResult) := by
    intro a
    unfold resultOf
    cases modes w with
    | completionOnly => rfl
    | replayable =>
      rw [← hcodec]
      rfl
  have hcode : invokeHandler registration command (modes w) =
      x >>= fun a => .ret (.ok (resultOf D (modes w) name a)) := by
    unfold invokeHandler
    rw [hhandler, Code.bind_assoc]
    congr 1
    funext a
    exact hresult a
  rw [hcode]
  refine hx.bind_ret ?_ ?_
  · intro a s₁ hi hended
    rcases hended with hupdated | ⟨-, d, hd⟩
    · refine ⟨raises_ok _ s₁, fun stored hstored => ⟨?_, ?_⟩⟩
      · intro name' u' hu'
        obtain rfl := rowUpdate_table hu hu'
        obtain rfl := Option.some.inj (hu.symm.trans hu')
        obtain rfl := Except.ok.inj hstored
        rcases hupdated with hown | ⟨-, loaded, now, hloaded, hid, hversion, hsame⟩
        · exact ⟨a, own_id hi.sound hown, rfl, hi.outcome hu hown, .inl hown⟩
        · obtain rfl := rowUpdate_same hu hsame
          exact ⟨a, hid, rfl, ⟨a, now, false, hloaded, hid, hversion, hsame⟩,
            .inr ⟨hloaded, hversion, now, hsame⟩⟩
      · intro c hc
        rw [hc, rowUpdate_not_createDefault] at hu
        cases hu
    · cases hd
  · intro e s₁ _ hended
    refine ⟨raises_error ?_, fun stored hstored => by cases hstored⟩
    rcases hended with ⟨he | ⟨d, rfl⟩, hrefusal⟩ | ⟨hnone, d, hd⟩
    · exact .inl he
    · exact .inr ⟨d, rfl, name, u, hu, fun _ => ⟨_, rfl, hrefusal d rfl⟩⟩
    · obtain rfl := Except.error.inj hd
      refine .inr ⟨d, rfl, name, u, hu, fun hbase => ?_⟩
      rw [hthere hbase] at hnone
      cases hnone

include hfault

theorem safe_half {c : CreateDefaultProfileCommand} {missingError : Exn} (name : TableName)
    (hc : commands w = .createDefaultProfile c) (ht : s.inTransaction w = true)
    (hown : (rowOf name c.userId s).own w = none) :
    SafeStmt F (Accounted commands base) w (fun r s' =>
      Raises (fun e _ => e.isOrchestration = true) r s' ∧
        ∀ a, r = .ok a → ((rowOf name c.userId s').visible w).isSome = true ∧
          s'.inTransaction w = true ∧ ∀ name', name' ≠ name →
            (rowOf name' c.userId s').own w = (rowOf name' c.userId s).own w)
      (createDefaultIfAbsent (statements name) missingError (defaultOf zones name) c.userId
        c.registeredAt.instant) s := by
  have hid : (defaultOf zones name c.userId c.registeredAt.instant).id = c.userId := by
    cases name <;> rfl
  refine safe_createDefaultIfAbsent name (fun _ hi => hi.sound) hfault hid ht hown ?_ ?_ ?_
  · exact fun s₁ rows _ hi ht₁ hs => hi.insert ht₁ hc hs
  · intro a s₁ hv ht₁ hothers
    refine ⟨raises_ok a s₁, fun b _ => ⟨hv, ht₁, fun name' hname => ?_⟩⟩
    exact hothers name' c.userId hname
  · exact fun e s₁ he => ⟨raises_error he, fun b hb => by cases hb⟩

theorem prepares_createDefaultProfile {c : CreateDefaultProfileCommand}
    (hc : commands w = .createDefaultProfile c) (ht : s.inTransaction w = true)
    (hown : ∀ name id, (rowOf name id s).own w = none) :
    PreparesStmt F D commands modes base w
      (invokeHandler (D.registry zones fault).createDefaultProfile c (modes w)) s := by
  have hhandler : SafeStmt F (Accounted commands base) w (fun r s' =>
      Raises (fun e _ => e.isOrchestration = true) r s' ∧
        (∀ a, r = .ok a → ∀ name, ((rowOf name c.userId s').visible w).isSome = true))
      (createDefaultProfileHandler profiles (@settings W _ zones fault) c) s := by
    refine (safe_half hfault .profiles hc ht (hown _ _)).bind (fun profile s₁ hp _ => ?_)
      fun e s₁ hp => ⟨raises_error (hp.1 e rfl), fun a ha => by cases ha⟩
    obtain ⟨hprofile, ht₁, hothers⟩ := hp.2 profile rfl
    have hown₁ : (rowOf .settings c.userId s₁).own w = none :=
      (hothers .settings TableName.noConfusion).trans (hown _ _)
    refine (Safe.carry (K := fun s : World W H (database W zones fault) =>
        ((rowOf .profiles c.userId s).visible w).isSome = true)
      (safe_half hfault .settings hc ht₁ hown₁) hprofile
      (fun s s' hf hv => (hf.business .profiles c.userId).visible_isSome hv)
      fun o s r s' he hv => stmtExec_visible he .profiles c.userId hv).bind
      (fun stored s₂ hq _ => ?_) fun e s₂ hq =>
        ⟨raises_error (hq.1.1 e rfl), fun a ha => by cases ha⟩
    obtain ⟨⟨-, hreturned⟩, hprofile₂⟩ := hq
    obtain ⟨hstored, -⟩ := hreturned stored rfl
    intro s₃ hf₃ _
    refine ⟨raises_ok () s₃, fun a _ name => ?_⟩
    cases name with
    | profiles => exact (hf₃.business .profiles c.userId).visible_isSome hprofile₂
    | settings => exact (hf₃.business .settings c.userId).visible_isSome hstored
  refine hhandler.bind (fun result s₁ hp _ => ?_) fun e s₁ hp =>
    ⟨raises_error (.inl (hp.1 e rfl)), fun stored hstored => by cases hstored⟩
  have hprepared : ∀ stored s₂, Frame w s₁ s₂ → Prepared D commands modes w stored s₂ := by
    intro stored s₂ hf
    refine ⟨fun name u hu => ?_, fun c' hc' name => ?_⟩
    · rw [hc, rowUpdate_not_createDefault] at hu
      cases hu
    · obtain rfl : c = c' := by
        rw [hc] at hc'
        exact Command.createDefaultProfile.inj hc'
      exact (hf.business name c.userId).visible_isSome (hp.2 result rfl name)
  cases modes w <;> exact fun s₂ hf _ => ⟨raises_ok _ s₂, fun stored _ => hprepared stored s₂ hf⟩

/-- The operation of a command, from a transaction that has written nothing. -/
theorem prepares_operation (ht : s.inTransaction w = true)
    (hown : ∀ name id, (rowOf name id s).own w = none)
    (hthere : ∀ name id, (base name id).isSome = true →
      ((rowOf name id s).visible w).isSome = true) :
    PreparesStmt F D commands modes base w
      (operationOf D zones fault (modes w) (commands w)).hotDurable s := by
  cases hc : commands w with
  | createDefaultProfile c => exact prepares_createDefaultProfile hfault hc ht hown
  | updateProfile c =>
    have hu : rowUpdate zones .profiles (commands w) =
        some ⟨c.userId, c.expectedVersion, c.change⟩ := by rw [hc]; rfl
    exact prepares_update hu rfl (fun _ => rfl) (hthere _ _)
      (safe_changeRow hfault (by rw [hc]; rfl) hu ht hown)
  | updateAvatar c =>
    have hu : rowUpdate zones .profiles (commands w) =
        some ⟨c.userId, c.expectedVersion, c.change⟩ := by rw [hc]; rfl
    exact prepares_update hu rfl (fun _ => rfl) (hthere _ _)
      (safe_changeRow hfault (by rw [hc]; rfl) hu ht hown)
  | updateSettings c =>
    have hu : rowUpdate zones .settings (commands w) =
        some ⟨c.userId, c.expectedVersion, c.change⟩ := by rw [hc]; rfl
    exact prepares_update hu rfl (fun _ => rfl) (hthere _ _)
      (safe_changeRow hfault (by rw [hc]; rfl) hu ht hown)
  | resetSettings c =>
    have hu : rowUpdate zones .settings (commands w) =
        some ⟨c.userId, c.expectedVersion, c.change⟩ := by rw [hc]; rfl
    exact prepares_update hu rfl (fun _ => rfl) (hthere _ _)
      (safe_changeRow hfault (by rw [hc]; rfl) hu ht hown)

end Operations
/-! ### Any number of executions -/

/-- A moment of a run: what the clock showed and what had been committed. -/
structure Moment (W : Type) [DecidableEq W] (zones : ZoneInfo) (fault : Exn → Prop) where
  now : Instant
  log : List (Commit W (database W zones fault))

/-- `since` has passed, and nobody has read an earlier time. -/
structure Started (since : Moment W zones fault) (s : World W H (database W zones fault)) :
    Prop where
  now : since.now ≤ s.now
  clockRead : ∀ w, since.now ≤ s.clockRead w
  log : since.log <:+ s.log

variable {since : Moment W zones fault}

theorem Started.step (h : Started since s) (hs : DbStep w s s') : Started since s' := by
  cases hs with
  | readClock =>
    refine ⟨h.now, fun u => ?_, h.log⟩
    by_cases hu : u = w
    · subst hu
      simpa [World.readClock] using h.now
    · simpa [World.readClock, hu] using h.clockRead u
  | commit _ => exact ⟨h.now, h.clockRead, h.log.trans (List.suffix_cons _ _)⟩
  | _ => exact ⟨h.now, h.clockRead, h.log⟩

theorem Started.env (h : Started since s) (he : WorldEnv s s') : Started since s' := by
  cases he with
  | tick now hle => exact ⟨le_trans h.now hle, h.clockRead, h.log⟩
  | _ => exact ⟨h.now, h.clockRead, h.log⟩

theorem Started.crash (h : Started since s) : Started since (s.crash w) := by
  unfold World.crash
  split
  · exact ⟨h.now, h.clockRead, h.log⟩
  · exact ⟨h.now, h.clockRead, h.log⟩

/-- Where the rows come from, what the records say of them, and when it all began. -/
structure Governed (D : Deployment) (commands : W → Command) (modes : W → ResultMode)
    (base : (name : TableName) → UserId → Option (tableOf zones name).Row)
    (since : Moment W zones fault) (s : World W H (database W zones fault)) : Prop where
  accounted : Accounted commands base s
  accompanied : Accompanied D commands modes s
  started : Started since s

theorem Governed.quiet (he : Quiet w s s') (h : Governed D commands modes base since s) :
    Governed D commands modes base since s' :=
  ⟨h.1.quiet he, h.2.quiet he, h.3.step he.housekeeping.step⟩

theorem Governed.env (he : WorldEnv s s') (h : Governed D commands modes base since s) :
    Governed D commands modes base since s' :=
  ⟨h.1.env he, h.2.env he, h.3.env he⟩

theorem Governed.setHot {hot : H.State} (h : Governed D commands modes base since s) :
    Governed D commands modes base since { s with hot := hot } :=
  ⟨h.1.beside rfl rfl rfl, h.2.beside rfl rfl rfl rfl, ⟨h.3.now, h.3.clockRead, h.3.log⟩⟩

theorem Governed.setHeartbeat {hb : Option Heartbeat} (h : Governed D commands modes base since s) :
    Governed D commands modes base since (s.setHeartbeat w hb) :=
  ⟨h.1.beside rfl rfl rfl, h.2.beside rfl rfl rfl rfl, ⟨h.3.now, h.3.clockRead, h.3.log⟩⟩

theorem Governed.writeRecord {k : IdempotencyKey} {row : DurableRecord} {fp : Digest}
    {expiresAt : Deadline} (h : Governed D commands modes base since s)
    (ht : s.inTransaction w = true) (hfree : (s.records k).Free w)
    (hrow : row.completed = stored.completed fp expiresAt) (hp : Prepared D commands modes w stored s) :
    Governed D commands modes base since (s.writeRecord w k row) :=
  ⟨h.1.beside rfl rfl rfl, h.2.writeRecord ht hfree hrow hp, ⟨h.3.now, h.3.clockRead, h.3.log⟩⟩

theorem Governed.crash (h : Governed D commands modes base since s) :
    Governed D commands modes base since (s.crash w) :=
  ⟨h.1.crash, h.2.crash, h.3.crash⟩

section Runs
variable (hfault : ∀ e, fault e → e.isOrchestration = true)
  (hF : ∀ e, F.fault e → e.isOrchestration = true)
  (hhot : ∀ {w now c h e h'}, H.exec w now c h (.error e) h' → e.isOrchestration = true)

include hfault hF hhot

omit hfault in
theorem executionContract (w : W) (k : IdempotencyKey) :
    ExecutionContract F w k
      (fun s : World W H (database W zones fault) => Governed D commands modes base since s)
      (Raised commands base (since.now ≤ ·) since.log w) (Raised commands base (since.now ≤ ·) since.log w)
      (Prepared D commands modes w) where
  fault := hF
  db he hi := hi.quiet he
  hotRaises := hhot
  write hp ht hfree hrow hi := hi.writeRecord ht hfree hrow hp
  prepared_frame hp hf := hp.frame hf
  prepared_readClock hp := ⟨hp.update, hp.provision⟩
  hot _ hi := hi.setHot
  heartbeat hi := hi.setHeartbeat
  raised_frame _ _ _ hd hf := hd.later hf.log
  raised_rollback _ _ hd := hd.later (List.suffix_refl _)
  frame _ _ _ hd hf := hd.later hf.log
  setHot hd := hd
  setHeartbeat hd := hd
  settled _ hd := hd
  race _ hd _ := raisesDb_resolveRace ⟨hF, fun he hi => Governed.quiet he hi⟩ hd
    (fun _ _ hf hd => hd.later hf.log) fun _ _ _ _ he hd => hd.later (dbExec_step he).log

variable {job : W → Request (database W zones fault)}
  (hmode : ∀ w, (job w).policy.mode = .hotDurable)
  (hoperation : ∀ w, (job w).operation = operationOf D zones fault (modes w) (commands w))

omit hF hhot in
theorem prepares_begun (hoperation : (job w).operation = operationOf D zones fault (modes w) (commands w))
    (hs : Begun w (Governed D commands modes base since) s) :
    PreparesDb F (Governed D commands modes base since) w (Raised commands base (since.now ≤ ·) since.log w)
      (Prepared D commands modes w) ((job w).operation.hotDurable.lift (stmtInDb _)) s := by
  obtain ⟨s₀, hgoverned, hidle, hf⟩ := hs
  have ht : s.inTransaction w = true := hf.inTransaction.trans (by simp [World.begin])
  have hown : ∀ name id, (rowOf name id s).own w = none := fun name id =>
    ((hf.business name id).own).trans (hgoverned.1.sound.idle w hidle name id)
  have hthere : ∀ name id, (base name id).isSome = true →
      ((rowOf name id s).visible w).isSome = true := fun name id hbase =>
    (hf.business name id).visible_isSome (hgoverned.1.visible_of_base (w := w) hbase)
  have hrecords : ∀ k, (s.records k).own w = none := fun k =>
    ((hf.records k).own).trans (hgoverned.2.idle w hidle k)
  rw [hoperation]
  have hstmt : PreparesStmt F D commands modes base w
      (operationOf D zones fault (modes w) (commands w)).hotDurable s :=
    prepares_operation hfault ht hown hthere
  have hall := hstmt.and_inv_while
    (J := fun s => Accompanied D commands modes s ∧ Started since s)
    (K := fun s => ∀ k, (s.records k).own w = none) hrecords
    (fun _ _ hf hn k => ((hf.records k).own).trans (hn k)) fun _ _ _ _ he _ hj hn => by
      obtain ⟨haccompanied, hown⟩ := hj.1.stmt he hn
      exact ⟨⟨haccompanied, hj.2.step (stmtExec_step he)⟩, hown⟩
  refine safe_stmtInDb ((hall.congr_inv fun s => ⟨fun h => ⟨h.1, h.2.1, h.2.2⟩,
    fun h => ⟨h.1, h.2, h.3⟩⟩).mono_inv fun r s' hi hp => ⟨fun e he => ?_, hp.2⟩)
  -- the clock was read by then, and not before the run began
  rcases hp.1 e he with h | ⟨d, rfl, name, u, hu, hrefusal⟩
  · exact .inl h
  · refine .inr ⟨d, rfl, name, u, hu, fun hbase => ?_⟩
    obtain ⟨now, rfl, hrefused⟩ := hrefusal hbase
    have hlog : s₀.log <:+ s.log := hf.log
    exact ⟨_, hi.3.clockRead w, hrefused.later (hgoverned.3.log.trans hlog) (List.suffix_refl _)⟩

theorem execution_governed (hmode : (job w).policy.mode = .hotDurable)
    (hoperation : (job w).operation = operationOf D zones fault (modes w) (commands w)) :
    RaisesOp F (Governed D commands modes base since) w (Raised commands base (since.now ≤ ·) since.log w)
      (job w).code s :=
  raises_executeAs (executionContract hF hhot w (job w).identity) hmode fun _ hs =>
    prepares_begun hfault hoperation hs

omit hfault hF hhot in
theorem Population.quiet (population : Population zones) (w : W) :
    (database W zones fault).staged w (Tables.stored population.rows) =
      (database W zones fault).nothing := by
  funext name id
  exact population.own_stored w name id

omit hfault hF hhot in
theorem initial_accounted {population : Population zones} {now : Instant} {hot : H.State}
    {stored : IdempotencyKey → Option DurableRecord} :
    Accounted commands population.rows
      (World.initial now hot (Tables.stored population.rows) stored :
        World W H (database W zones fault)) := by
  have hrows : ∀ name id, rowOf name id (World.initial now hot (Tables.stored population.rows) stored :
      World W H (database W zones fault)) = (population.rows name id).elim Row.absent Row.stored :=
    fun _ _ => rfl
  refine ⟨⟨fun name id => ?_, fun w _ name id => population.own_stored w name id⟩,
    fun name id => ?_, fun name id => ?_⟩
  · rw [hrows]
    unfold Population.rows
    cases h : population.entity name id with
    | none => exact ⟨0, fun v hv => (nomatch hv), fun u r hp => (nomatch hp)⟩
    | some a =>
      refine ⟨a.createdAt, fun v hv => ?_, fun u r hp => (nomatch hp)⟩
      obtain rfl := List.mem_singleton.1 hv
      exact ⟨a, rfl, population.entity_id name id a h, rfl⟩
  · rw [hrows]
    cases h : population.rows name id with
    | none => exact Row.traced_absent
    | some row => exact Row.traced_stored rfl
  · rw [hrows]
    cases h : population.rows name id <;> rfl

omit hfault hF hhot in
theorem initial_governed {population : Population zones} {now : Instant} {hot : H.State}
    {stored : IdempotencyKey → Option DurableRecord} :
    Governed D commands modes population.rows ⟨now, []⟩
      (World.initial now hot (Tables.stored population.rows) stored :
        World W H (database W zones fault)) := by
  refine ⟨initial_accounted, ⟨fun _ _ _ => rfl, fun k w row ho => ?_, fun c hc => ?_⟩,
    ⟨le_refl now, fun _ => le_refl now, List.suffix_refl _⟩⟩
  · cases ho
  · cases hc

include hmode hoperation

/-- Any number of executions in any interleaving, with faults and deaths. -/
theorem executions_governed {population : Population zones} {now : Instant} {hot : H.State}
    {stored : IdempotencyKey → Option DurableRecord}
    {c : Library.Config (sig (database W zones fault)) Exn W (World W H (database W zones fault))
      CompletedIdempotencyResult}
    (hr : (machine W H (database W zones fault) F).Reachable
      ⟨World.initial now hot (Tables.stored population.rows) stored,
        fun w => some (job w).code⟩ c) :
    AllSafe (rely F) (Governed D commands modes population.rows ⟨now, []⟩)
      (fun w => Raises (Escapes (Raised commands population.rows (now ≤ ·) [] w))) c := by
  refine reachable_safe (fun _ _ hi he => hi.env he) ?_ ⟨initial_governed, fun w x hx => ?_⟩ hr
  · rintro w s₁ s₂ hi ⟨-, rfl⟩
    exact hi.crash
  · cases hx
    exact execution_governed hfault hF hhot (hmode w) (hoperation w)

end Runs
/-! ### One command alone -/

section Sample
variable {command : Command}

def sampleExecution {W : Type} [DecidableEq W] {fault : Exn → Prop} (command : Command) :
    Request (database W moscowOnly fault) where
  identity := sampleKey
  requestFingerprint := sampleFingerprint
  operation := operationOf sampleDeployment moscowOnly fault .replayable command
  policy := samplePolicy .hotDurable
  leaseToken := 7

theorem content_absent {T R : Type} {r : R} : ¬ (Row.absent : Row T R).Content r := by
  rintro (h | ⟨u, h⟩)
  · cases h
  · cases h

theorem sampleExecution_operation {W : Type} [DecidableEq W] {fault : Exn → Prop} (_ : W) :
    (sampleExecution command : Request (database W moscowOnly fault)).operation =
      operationOf sampleDeployment moscowOnly fault .replayable command := rfl

end Sample

end ProfileService.Entrypoints
