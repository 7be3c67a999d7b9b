import ProfileService.Idempotency.World

/-!
# What the steps of the world leave unchanged

`DbStep` says once what a database await can do, `Frame w` what the steps of
everybody else leave to worker `w`; `rely` packages the latter for `Safe`.
-/

namespace ProfileService.Idempotency
open Library Application

variable {W : Type} [DecidableEq W] {H : HotStore W} {B : Business W}

/-- A record follows on an older one only when that one has expired. -/
def Succeeds (old : Option DurableRecord) (new : DurableRecord) : Prop :=
  ∀ o, old = some o → o.completed.expiresAt ≤ new.createdAt

inductive DbStep (w : W) (s : World W H B) : World W H B → Prop where
  | same : DbStep w s s
  | readClock : DbStep w s (s.readClock w)
  | begin (h : s.inTransaction w = false) : DbStep w s (s.begin w)
  | commit (h : s.inTransaction w = true) : DbStep w s (s.commit w)
  | rollback (h : s.inTransaction w = true) : DbStep w s (s.rollback w)
  | write (k : IdempotencyKey) (row : DurableRecord) (h : s.inTransaction w = true)
      (hfree : (s.records k).Free w) (hexpired : Succeeds ((s.records k).visible w) row) :
      DbStep w s (s.writeRecord w k row)
  | stmt (o : B.Op) (r : Except Exn (B.Reply o)) (b : B.State) (h : s.inTransaction w = true)
      (hexec : B.exec w o s.business r b) : DbStep w s { s with business := b }

def DbOp.isStmt : DbOp B → Bool
  | .stmt _ => true
  | _ => false

def DbOp.isUpsert : DbOp B → Bool
  | .upsertRecord .. => true
  | _ => false

/-- A step of the transactional execution that writes nothing. -/
inductive Quiet (w : W) (s : World W H B) : World W H B → Prop where
  | same : Quiet w s s
  | readClock : Quiet w s (s.readClock w)
  | begin (h : s.inTransaction w = false) : Quiet w s (s.begin w)
  | commit (h : s.inTransaction w = true) : Quiet w s (s.commit w)
  | rollback (h : s.inTransaction w = true) : Quiet w s (s.rollback w)

/-- A step of the transactional execution itself, not of the operation it runs. -/
inductive Housekeeping (w : W) (s : World W H B) : World W H B → Prop where
  | same : Housekeeping w s s
  | readClock : Housekeeping w s (s.readClock w)
  | begin (h : s.inTransaction w = false) : Housekeeping w s (s.begin w)
  | commit (h : s.inTransaction w = true) : Housekeeping w s (s.commit w)
  | rollback (h : s.inTransaction w = true) : Housekeeping w s (s.rollback w)
  | write (k : IdempotencyKey) (row : DurableRecord) (h : s.inTransaction w = true)
      (hfree : (s.records k).Free w) (hexpired : Succeeds ((s.records k).visible w) row) :
      Housekeeping w s (s.writeRecord w k row)

theorem Quiet.housekeeping {w : W} {s s' : World W H B} (h : Quiet w s s') : Housekeeping w s s' := by
  cases h with
  | same => exact .same
  | readClock => exact .readClock
  | begin ht => exact .begin ht
  | commit ht => exact .commit ht
  | rollback ht => exact .rollback ht

theorem Housekeeping.step {w : W} {s s' : World W H B} (h : Housekeeping w s s') : DbStep w s s' := by
  cases h with
  | same => exact .same
  | readClock => exact .readClock
  | begin ht => exact .begin ht
  | commit ht => exact .commit ht
  | rollback ht => exact .rollback ht
  | write k row ht hfree hexpired => exact .write k row ht hfree hexpired

theorem dbExec_quiet {F : Failures} {w : W} {o : DbOp B} {s s' : World W H B}
    {r : Except Exn ((dbSig B).Reply o)} (ho : DbOp.isStmt o = false) (hu : DbOp.isUpsert o = false)
    (h : dbExec F w o s r s') : Quiet w s s' := by
  cases o with
  | clock =>
    obtain ⟨-, rfl⟩ := h
    exact .readClock
  | begin =>
    cases ht : s.inTransaction w with
    | true =>
      simp only [dbExec, ht, if_true] at h
      obtain ⟨-, rfl⟩ := h
      exact .same
    | false =>
      simp only [dbExec, ht, Bool.false_eq_true, if_false] at h
      rcases h with ⟨-, rfl⟩ | ⟨e, -, -, rfl⟩
      · exact .begin ht
      · exact .same
  | commit =>
    cases ht : s.inTransaction w with
    | true =>
      simp only [dbExec, ht, if_true] at h
      rcases h with ⟨-, rfl⟩ | ⟨e, -, -, rfl | rfl⟩
      · exact .commit ht
      · exact .commit ht
      · exact .rollback ht
    | false =>
      simp only [dbExec, ht, Bool.false_eq_true, if_false] at h
      obtain ⟨-, rfl⟩ := h
      exact .same
  | rollback =>
    cases ht : s.inTransaction w with
    | true =>
      simp only [dbExec, ht, if_true] at h
      obtain ⟨rfl, -⟩ := h
      exact .rollback ht
    | false =>
      simp only [dbExec, ht, Bool.false_eq_true, if_false] at h
      obtain ⟨-, rfl⟩ := h
      exact .same
  | selectRecord k now =>
    obtain ⟨rfl, -⟩ := h
    exact .same
  | upsertRecord k row => cases hu
  | stmt o => cases ho

theorem dbExec_housekeeping {F : Failures} {w : W} {o : DbOp B} {s s' : World W H B}
    {r : Except Exn ((dbSig B).Reply o)} (ho : DbOp.isStmt o = false) (h : dbExec F w o s r s') :
    Housekeeping w s s' := by
  cases o with
  | upsertRecord k row =>
    cases ht : s.inTransaction w with
    | true =>
      simp only [dbExec, ht, if_true] at h
      rcases h with ⟨hfree, h⟩ | ⟨e, -, -, rfl⟩
      · cases hv : (s.records k).visible w with
        | none =>
          rw [hv] at h
          obtain ⟨-, rfl⟩ := h
          exact .write k row ht hfree (fun o ho => by rw [hv] at ho; cases ho)
        | some old =>
          rw [hv] at h
          by_cases hle : old.completed.expiresAt ≤ row.createdAt
          · simp only [hle, if_true] at h
            obtain ⟨-, rfl⟩ := h
            refine .write k row ht hfree fun o ho => ?_
            rw [hv] at ho
            cases ho
            exact hle
          · simp only [hle, if_false] at h
            obtain ⟨-, rfl⟩ := h
            exact .same
      · exact .same
    | false =>
      simp only [dbExec, ht, Bool.false_eq_true, if_false] at h
      obtain ⟨-, rfl⟩ := h
      exact .same
  | stmt o => cases ho
  | _ => exact (dbExec_quiet rfl rfl h).housekeeping

theorem dbExec_step {F : Failures} {w : W} {o : DbOp B} {s s' : World W H B}
    {r : Except Exn ((dbSig B).Reply o)} (h : dbExec F w o s r s') : DbStep w s s' := by
  cases o with
  | stmt o =>
    cases ht : s.inTransaction w with
    | true =>
      simp only [dbExec, ht, if_true] at h
      obtain ⟨b, hexec, rfl⟩ := h
      exact .stmt o _ b ht hexec
    | false =>
      simp only [dbExec, ht, Bool.false_eq_true, if_false] at h
      obtain ⟨-, rfl⟩ := h
      exact .same
  | _ => exact (dbExec_housekeeping rfl h).step

theorem DbStep.now {w : W} {s s' : World W H B} (h : DbStep w s s') : s'.now = s.now := by
  cases h <;> rfl

theorem DbStep.hot {w : W} {s s' : World W H B} (h : DbStep w s s') : s'.hot = s.hot := by
  cases h <;> rfl

theorem DbStep.log_cases {w : W} {s s' : World W H B} (h : DbStep w s s') :
    s'.log = s.log ∨ ∃ made, s'.log = made :: s.log := by
  cases h with
  | commit _ => exact .inr ⟨_, rfl⟩
  | _ => exact .inl rfl

theorem DbStep.log {w : W} {s s' : World W H B} (h : DbStep w s s') : s.log <:+ s'.log := by
  rcases h.log_cases with hsame | ⟨made, hmade⟩
  · rw [hsame]
  · rw [hmade]
    exact List.suffix_cons _ _

/-- What every step that is not `w`'s own leaves to `w`. -/
structure Frame (w : W) (s s' : World W H B) : Prop where
  now : s.now ≤ s'.now
  hot : H.frame w s.hot s'.hot
  records : ∀ k, Row.Frame w (s.records k) (s'.records k)
  business : B.frame w s.business s'.business
  inTransaction : s'.inTransaction w = s.inTransaction w
  clockRead : s'.clockRead w = s.clockRead w
  log : s.log <:+ s'.log
  ownLog : ∀ c ∈ s'.log, c.worker = w → c ∈ s.log

theorem Frame.refl (w : W) (s : World W H B) : Frame w s s where
  now := le_refl _
  hot := H.frame_refl w _
  records _ := Row.Frame.refl w _
  business := B.frame_refl w _
  inTransaction := rfl
  clockRead := rfl
  log := List.suffix_refl _
  ownLog _ h _ := h

theorem Frame.trans {w : W} {s₁ s₂ s₃ : World W H B} (h : Frame w s₁ s₂) (h' : Frame w s₂ s₃) :
    Frame w s₁ s₃ where
  now := le_trans h.now h'.now
  hot := H.frame_trans h.hot h'.hot
  records k := (h.records k).trans (h'.records k)
  business := B.frame_trans h.business h'.business
  inTransaction := h'.inTransaction.trans h.inTransaction
  clockRead := h'.clockRead.trans h.clockRead
  log := h.log.trans h'.log
  ownLog c hc hw := h.ownLog c (h'.ownLog c hc hw) hw

theorem DbStep.frame {w u : W} {s s' : World W H B} (h : DbStep u s s') (hw : w ≠ u) :
    Frame w s s' := by
  have hr := Frame.refl w s
  cases h with
  | same => exact hr
  | readClock => exact { hr with clockRead := by simp [World.readClock, hw] }
  | begin _ => exact { hr with inTransaction := by simp [World.begin, hw] }
  | commit _ =>
    exact { hr with
      records := fun _ => Row.frame_commit hw
      business := B.frame_commit _ hw
      inTransaction := by simp [World.commit, hw]
      log := List.suffix_cons _ _
      ownLog := fun c hc hcw => by
        rcases List.mem_cons.1 hc with rfl | hc
        · exact absurd hcw.symm hw
        · exact hc }
  | rollback _ =>
    exact { hr with
      records := fun _ => Row.frame_rollback hw
      business := B.frame_rollback _ hw
      inTransaction := by simp [World.rollback, hw] }
  | write k row _ hfree _ =>
    refine { hr with records := fun k' => ?_ }
    by_cases hk : k' = k
    · subst hk
      simpa [World.writeRecord] using Row.frame_write hw hfree
    · simpa [World.writeRecord, hk] using Row.Frame.refl w (s.records k')
  | stmt o r b _ hexec => exact { hr with business := B.frame_exec hexec hw }

theorem opExec_frame {F : Failures} {w u : W} {o : Op B} {s s' : World W H B}
    {r : Except Exn ((sig B).Reply o)} (h : opExec F u o s r s') (hw : w ≠ u) :
    Frame w s s' := by
  have hr := Frame.refl w s
  cases o with
  | hot c =>
    obtain ⟨h', he, rfl⟩ := h
    exact { hr with hot := H.frame_exec he hw }
  | startHeartbeat k token lease =>
    obtain ⟨-, rfl⟩ := h
    exact { hr with }
  | leaseLost =>
    obtain ⟨-, rfl⟩ := h
    exact hr
  | stopHeartbeat =>
    obtain ⟨-, rfl⟩ := h
    exact { hr with }
  | db o => exact (dbExec_step h).frame hw

theorem WorldEnv.frame {s s' : World W H B} (h : WorldEnv s s') (w : W) : Frame w s s' := by
  have hr := Frame.refl w s
  cases h with
  | tick now h => exact { hr with now := h }
  | hot h he => exact { hr with hot := H.frame_env he }
  | beat v hb r h hw hrun he => exact { hr with hot := H.frame_renew he }

theorem crash_frame {w u : W} (s : World W H B) (hw : w ≠ u) :
    Frame w s (s.crash u) := by
  have hr := Frame.refl w s
  unfold World.crash
  split
  · rename_i ht
    exact { (DbStep.rollback ht).frame hw with }
  · exact { hr with }

theorem crash_inTransaction {w : W} {s : World W H B} : (s.crash w).inTransaction w = false := by
  unfold World.crash
  split
  · simp [World.rollback, World.setHeartbeat]
  · rename_i ht
    exact eq_false_of_ne_true ht

def rely (F : Failures) : (machine W H B F).Rely where
  rel := Frame
  refl := Frame.refl
  trans := Frame.trans
  exec := opExec_frame
  env h := h.frame _
  crash := by
    rintro t u s s' ⟨-, rfl⟩ hw
    exact crash_frame s hw

def dbRely (F : Failures) : (dbMachine W H B F).Rely where
  rel := Frame
  refl := Frame.refl
  trans := Frame.trans
  exec h hw := (dbExec_step h).frame hw
  env h := h.frame _
  crash := by
    rintro t u s s' ⟨-, rfl⟩ hw
    exact crash_frame s hw

theorem opExec_log {F : Failures} {w : W} {o : Op B} {s s' : World W H B}
    {r : Except Exn ((sig B).Reply o)} (h : opExec F w o s r s') :
    s'.log = s.log ∨ ∃ made, s'.log = made :: s.log := by
  cases o with
  | hot call =>
    obtain ⟨hot, -, rfl⟩ := h
    exact .inl rfl
  | startHeartbeat k token lease =>
    obtain ⟨-, rfl⟩ := h
    exact .inl rfl
  | leaseLost =>
    obtain ⟨-, rfl⟩ := h
    exact .inl rfl
  | stopHeartbeat =>
    obtain ⟨-, rfl⟩ := h
    exact .inl rfl
  | db o => exact (dbExec_step h).log_cases

theorem step_log {F : Failures} {α : Type} {c c' : Config (sig B) Exn W (World W H B) α}
    (h : (machine W H B F).Step c c') :
    c'.state.log = c.state.log ∨ ∃ made, c'.state.log = made :: c.state.log := by
  cases h with
  | act htask hexec => exact opExec_log hexec
  | env he => cases he <;> exact .inl rfl
  | crash htask hcrash =>
    obtain ⟨-, rfl⟩ := hcrash
    refine .inl ?_
    show (World.crash _ _).log = _
    unfold World.crash
    split <;> rfl

/-- Every log between those of two configurations of a run is that of one in between. -/
theorem reachable_between {F : Failures} {α : Type} {c c' : Config (sig B) Exn W (World W H B) α}
    (h : (machine W H B F).Reachable c c') {past : List (Commit W B)}
    (hsince : c.state.log <:+ past) (hpast : past <:+ c'.state.log) :
    ∃ mid, (machine W H B F).Reachable c mid ∧ (machine W H B F).Reachable mid c' ∧
      mid.state.log = past := by
  induction h with
  | refl => exact ⟨c, .refl, .refl, hsince.eq_of_length_le hpast.length_le⟩
  | @tail b c' hb hs ih =>
    by_cases hbefore : past <:+ b.state.log
    · obtain ⟨mid, hfrom, hto, hmid⟩ := ih hbefore
      exact ⟨mid, hfrom, hto.tail hs, hmid⟩
    · refine ⟨c', hb.tail hs, .refl, ?_⟩
      rcases step_log hs with hsame | ⟨made, hmade⟩
      · exact absurd (hsame ▸ hpast) hbefore
      · rw [hmade] at hpast ⊢
        exact ((List.suffix_cons_iff.1 hpast).resolve_right hbefore).symm

def stmtExec (F : Failures) (w : W) :
    (o : StmtOp B) → World W H B → Except Exn ((stmtSig B).Reply o) → World W H B → Prop
  | .clock => dbExec F w .clock
  | .stmt o => dbExec F w (.stmt o)

def stmtMachine (W : Type) [DecidableEq W] (H : HotStore W) (B : Business W) (F : Failures) :
    Machine (stmtSig B) Exn W (World W H B) where
  exec := stmtExec F
  env := WorldEnv
  crash w s s' := F.crash ∧ s' = s.crash w

theorem stmtExec_step {F : Failures} {w : W} {o : StmtOp B} {s s' : World W H B}
    {r : Except Exn ((stmtSig B).Reply o)} (h : stmtExec F w o s r s') : DbStep w s s' := by
  cases o with
  | clock => exact dbExec_step (F := F) (o := .clock) h
  | stmt o => exact dbExec_step (F := F) (o := .stmt o) h

def stmtRely (F : Failures) : (stmtMachine W H B F).Rely where
  rel := Frame
  refl := Frame.refl
  trans := Frame.trans
  exec h hw := (stmtExec_step h).frame hw
  env h := h.frame _
  crash := by
    rintro t u s s' ⟨-, rfl⟩ hw
    exact crash_frame s hw

/-- An operation is as safe inside the durable execution as it is alone. -/
theorem safe_stmtInDb {F : Failures} {w : W} {I : World W H B → Prop} {α : Type}
    {Q : Except Exn α → World W H B → Prop} {x : Code (stmtSig B) Exn α} {s : World W H B}
    (hx : Machine.Safe (stmtRely F) I w Q x s) :
    Machine.Safe (dbRely F) I w Q (x.lift (stmtInDb B)) s := by
  refine hx.lift (stmtInDb B) (fun _ _ h => h) fun o s₁ r s₂ he => ?_
  cases o with
  | clock =>
    cases r with
    | ok a => exact he
    | error e => exact he
  | stmt o =>
    cases r with
    | ok a => exact he
    | error e => exact he

end ProfileService.Idempotency
