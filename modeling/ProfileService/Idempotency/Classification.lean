import ProfileService.Idempotency.Attempt
import ProfileService.Idempotency.ExactlyOnce

/-!
# What the outcome of an attempt says

EXECUTED comes with the commit of the effects and their record, every other outcome
with no commit of either; an exception of the operation comes out unless it stands
for a lost race that has a live winner.
-/

namespace ProfileService.Idempotency
open Library Library.Machine Application

variable {W : Type} [DecidableEq W] {H : HotStore W} {B : Business W} {F : Failures} {w : W}
  {s s' s'' s₀ : World W H B} {α : Type}

def Commit.Empty (c : Commit W B) : Prop := c.staged = B.nothing ∧ ∀ k, c.installed k = none

/-- All that `w` has committed since `s₀` is nothing. -/
def Untouched (w : W) (s₀ s : World W H B) : Prop :=
  ∃ new, s.log = new ++ s₀.log ∧ ∀ c ∈ new, c.worker = w → c.Empty

structure Idle (w : W) (s : World W H B) : Prop where
  inTransaction : s.inTransaction w = false
  own : ∀ k, (s.records k).own w = none
  staged : B.staged w s.business = B.nothing

/-- Since `s₀`, `w` has committed the effects of its operation together with the record
of `completed`, in one commit, and nothing else. -/
def CommittedTogether (q : Request B) (w : W) (completed : CompletedIdempotencyResult)
    (s₀ s : World W H B) : Prop :=
  ∃ after c before, s.log = after ++ c :: (before ++ s₀.log) ∧
    (∀ d ∈ after ++ before, d.worker = w → d.Empty) ∧ c.worker = w ∧
    ∃ row, row.completed = completed ∧ OwnRecord q w c.staged row ∧
      ∀ k, c.installed k = if k = q.identity then some row else none

/-- `result` is what a committed record of the identity, alive when the clock of `w` was
last read, means for the request. -/
def LiveRecord (q : Request B) (w : W) (result : IdempotencyResult) (s : World W H B) : Prop :=
  ∃ completed, Stored q.identity completed s ∧ s.clockRead w < completed.expiresAt ∧
    result = if completed.requestFingerprint = q.requestFingerprint then .replay completed
      else .conflict

/-- What the newest committed record of the identity means for the request at `now`. -/
def recordAnswer (q : Request B) (now : Instant) (newest : Option DurableRecord) :
    Option IdempotencyResult :=
  (newest.filter fun row => now < row.completed.expiresAt).map fun row =>
    if row.completed.requestFingerprint = q.requestFingerprint then .replay row.completed
    else .conflict

/-- A lookup of `w` from `s` to `s'` meets the newest record that is committed at a moment in
between, and `found` is what that record means when `w` reads its clock for the last time. -/
def Meets (q : Request B) (w : W) (s : World W H B) (found : Option IdempotencyResult)
    (s' : World W H B) : Prop :=
  ∃ committed, (s.records q.identity).versions <:+ committed ∧
    committed <:+ (s'.records q.identity).versions ∧
    found = recordAnswer q (s'.clockRead w) (committed.head?.map Version.row)

/-- What the outcome `r` of an attempt says, given how the operation (`o`), the rollback
(`x`) and the second lookup (`l`) ended. The second lookup comes after the transaction and
meets whatever winner is committed by then. -/
structure Classified (F : Failures) (q : Request B) (retention : Nat) (w : W) (s₀ : World W H B)
    (o : Option (Except Exn StoredResult)) (x : Option (Except Exn Unit))
    (l : Option (Except Exn (Option IdempotencyResult))) (r : Except Exn IdempotencyResult)
    (s : World W H B) : Prop where
  executed : ∀ completed, r = .ok (.executed completed) → CommittedTogether q w completed s₀ s
  unexecuted : (∀ completed, r ≠ .ok (.executed completed)) → Untouched w s₀ s
  decided : ∀ result, r = .ok result → (∀ completed, result ≠ .executed completed) →
    LiveRecord q w result s
  surfaces : ∀ e, o = some (.error e) → x = some (.ok ()) → e.leavingUow = e →
    e ≠ .transactionConflict → (∀ m, e ≠ .domain (.profileVersionMismatch m)) →
    (∀ m, e ≠ .domain (.settingsVersionMismatch m)) → e ≠ .persistenceUnavailable →
    e ≠ .concurrentWinnerCommitted → r = .error e
  raced : ∀ e, o = some (.error e) → x = some (.ok ()) →
    (e.leavingUow = .transactionConflict ∨ (∃ m, e = .domain (.profileVersionMismatch m)) ∨
      ∃ m, e = .domain (.settingsVersionMismatch m)) →
    (∃ winner, l = some (.ok (some winner)) ∧ r = .ok winner) ∨
      (l = some (.ok none) ∧ r = .error e.leavingUow) ∨
      ∃ e', l = some (.error e') ∧ r = .error (leavingExecution e')
  consulted : ∀ found, l = some (.ok found) → ∃ e s₁ s₂, Untouched w s₀ s₁ ∧
    Transaction F q retention w s₁ o x (.error e) s₂ ∧ Untouched w s₂ s ∧ Meets q w s₂ found s
  unavailable : ∀ e, o = some (.error e) → x = some (.ok ()) →
    e.leavingUow = .persistenceUnavailable → r = .error (.idempotencyUnavailable
      "Durable execution unavailable; commit outcome may be unknown")

omit [DecidableEq W] in
theorem Untouched.trans (h : Untouched w s s') (h' : Untouched w s' s'') : Untouched w s s'' := by
  obtain ⟨new, hnew, hempty⟩ := h
  obtain ⟨new', hnew', hempty'⟩ := h'
  refine ⟨new' ++ new, by rw [hnew', hnew, List.append_assoc], fun c hc hw => ?_⟩
  rcases List.mem_append.1 hc with hc | hc
  · exact hempty' c hc hw
  · exact hempty c hc hw

omit [DecidableEq W] in
theorem Untouched.of_log (h : s'.log = s.log) : Untouched w s s' :=
  ⟨[], h, fun _ hc => absurd hc List.not_mem_nil⟩

theorem Apart.untouched (h : Apart w s s') : Untouched w s s' := by
  obtain ⟨new, hnew, hother⟩ := h.others
  exact ⟨new, hnew, fun c hc hw => absurd hw (hother c hc)⟩

theorem Idle.apart (h : Idle w s) (hs : Apart w s s') : Idle w s' where
  inTransaction := hs.inTransaction.trans h.inTransaction
  own k := (hs.records k).own.trans (h.own k)
  staged := (B.staged_frame hs.business).trans h.staged

theorem Idle.begin (h : Idle w s) : Clean w (s.begin w) :=
  ⟨by simp [World.begin], h.own, h.staged⟩

theorem idle_rollback (s : World W H B) : Idle w (s.rollback w) where
  inTransaction := by simp [World.rollback]
  own k := by simp [World.rollback]
  staged := B.staged_rollback w s.business

theorem idle_commit (s : World W H B) : Idle w (s.commit w) where
  inTransaction := by simp [World.commit]
  own k := by simp [World.commit]
  staged := B.staged_commit w s.business

theorem Clean.untouched (h : Clean w s) : Untouched w s (s.commit w) := by
  refine ⟨[_], rfl, fun c hc _ => ?_⟩
  rw [List.mem_singleton.1 hc]
  exact ⟨h.staged, h.own⟩

theorem part_call {o : (dbSig B).Op} {r : Except Exn ((dbSig B).Reply o)}
    (h : Part F w (.call o .ret) s r s') :
    ∃ s₁ s₂, Apart w s s₁ ∧ dbExec F w o s₁ r s₂ ∧ CommitAnswers w o s₁ r ∧ Apart w s₂ s' := by
  obtain ⟨s₁, r', s₂, hs, ⟨he, hc⟩, hr⟩ := runsAmong_call.1 h
  obtain ⟨rfl, hend⟩ := runsAmong_ret.1 hr
  exact ⟨s₁, s₂, hs, he, hc, hend⟩

theorem part_begin {r : Except Exn Unit} (hi : Idle w s)
    (h : Part F w (translated (.call .begin .ret)) s r s') :
    Untouched w s s' ∧ (r = .ok () → Clean w s') ∧ ∀ e, r = .error e → Idle w s' := by
  obtain ⟨x, hx, rfl⟩ := part_translated.1 h
  obtain ⟨s₁, s₂, hs, he, -, hend⟩ := part_call hx
  have hi₁ := hi.apart hs
  simp only [dbExec, hi₁.inTransaction, Bool.false_eq_true, if_false] at he
  rcases he with ⟨rfl, rfl⟩ | ⟨e, -, rfl, rfl⟩
  · refine ⟨hs.untouched.trans ((Untouched.of_log rfl).trans hend.untouched),
      fun _ => hi₁.begin.frame hend.toFrame, fun e he => ?_⟩
    cases he
  · refine ⟨hs.untouched.trans hend.untouched, fun hok => ?_, fun _ _ => hi₁.apart hend⟩
    cases hok

theorem part_rolledBack {x : Except Exn Unit} (ht : s.inTransaction w = true)
    (h : Part F w (.call .rollback .ret) s x s') : Idle w s' ∧ Untouched w s s' := by
  obtain ⟨s₁, s₂, hs, he, -, hend⟩ := part_call h
  have ht₁ : s₁.inTransaction w = true := hs.inTransaction.trans ht
  simp only [dbExec, ht₁, if_true] at he
  obtain ⟨rfl, -⟩ := he
  exact ⟨(idle_rollback s₁).apart hend,
    hs.untouched.trans ((Untouched.of_log rfl).trans hend.untouched)⟩

theorem part_commit_clean {r : Except Exn Unit} (hclean : Clean w s)
    (h : Part F w (translated (.call .commit .ret)) s r s') : Idle w s' ∧ Untouched w s s' := by
  obtain ⟨x, hx, -⟩ := part_translated.1 h
  obtain ⟨s₁, s₂, hs, he, -, hend⟩ := part_call hx
  have hc₁ : Clean w s₁ := hclean.frame hs.toFrame
  have hcommitted : s₂ = s₁.commit w → Idle w s' ∧ Untouched w s s' := by
    rintro rfl
    exact ⟨(idle_commit s₁).apart hend, hs.untouched.trans (hc₁.untouched.trans hend.untouched)⟩
  simp only [dbExec, hc₁.inTransaction, if_true] at he
  rcases he with ⟨-, hs₂⟩ | ⟨e, -, -, hs₂ | rfl⟩
  · exact hcommitted hs₂
  · exact hcommitted hs₂
  · exact ⟨(idle_rollback s₁).apart hend,
      hs.untouched.trans ((Untouched.of_log rfl).trans hend.untouched)⟩

theorem part_commit_record {r : Except Exn Unit} {k : IdempotencyKey} {row : DurableRecord}
    (ht : s.inTransaction w = true) (hrow : (s.records k).own w = some row)
    (h : Part F w (translated (.call .commit .ret)) s r s') :
    r = .ok () ∧ Idle w s' ∧ ∃ after c before, s'.log = after ++ c :: (before ++ s.log) ∧
      (∀ d ∈ after ++ before, d.worker = w → d.Empty) ∧ c.worker = w ∧
      c.staged = B.staged w s.business ∧ ∀ k', c.installed k' = (s.records k').own w := by
  obtain ⟨x, hx, rfl⟩ := part_translated.1 h
  obtain ⟨s₁, s₂, hs, he, hanswers, hend⟩ := part_call hx
  have ht₁ : s₁.inTransaction w = true := hs.inTransaction.trans ht
  obtain rfl : x = .ok () := hanswers ⟨k, row, (hs.records k).own.trans hrow⟩
  simp only [dbExec, ht₁, if_true] at he
  have hs₂ : s₂ = s₁.commit w := by
    rcases he with ⟨-, rfl⟩ | ⟨e, -, he, -⟩
    · rfl
    · cases he
  subst hs₂
  obtain ⟨before, hbefore, hother⟩ := hs.others
  obtain ⟨after, hafter, hother'⟩ := hend.others
  refine ⟨rfl, (idle_commit s₁).apart hend, after,
    ⟨w, s₁.now, B.staged w s₁.business, fun k => (s₁.records k).own w⟩, before, ?_, fun d hd hw => ?_,
    rfl, B.staged_frame hs.business, fun k' => (hs.records k').own⟩
  · rw [hafter, ← hbefore]
    rfl
  · rcases List.mem_append.1 hd with hd | hd
    · exact absurd hw (hother' d hd)
    · exact absurd hw (hother d hd)

theorem part_utcNow {r : Except Exn Instant} (h : Part F w utcNow s r s') :
    ∃ s₁, Apart w s s₁ ∧ r = .ok s₁.now ∧ Apart w (s₁.readClock w) s' := by
  obtain ⟨s₁, s₂, hs, ⟨rfl, rfl⟩, -, hend⟩ := part_call h
  exact ⟨s₁, hs, rfl, hend⟩

theorem part_grown {x : Code (dbSig B) Exn α} {r : Except Exn α} (h : Part F w x s r s') :
    Grown s s' := by
  induction h with
  | ret r hrel => exact hrel.toFrame.grown
  | call hrel hexec hk ih =>
    exact hrel.toFrame.grown.trans ((dbExec_step hexec.1).grown.trans ih)

theorem part_commit_clockRead {r : Except Exn Unit}
    (h : Part F w (translated (.call .commit .ret)) s r s') : s'.clockRead w = s.clockRead w := by
  obtain ⟨x, hx, -⟩ := part_translated.1 h
  obtain ⟨s₁, s₂, hs, he, -, hend⟩ := part_call hx
  have hsame : s₂.clockRead w = s₁.clockRead w := by
    cases ht : s₁.inTransaction w with
    | true =>
      simp only [dbExec, ht, if_true] at he
      rcases he with ⟨-, rfl⟩ | ⟨e, -, -, rfl | rfl⟩ <;> rfl
    | false =>
      simp only [dbExec, ht, Bool.false_eq_true, if_false] at he
      rw [he.2]
  exact hend.clockRead.trans (hsame.trans hs.clockRead)

/-- What `get_completed` between `s` and `s'` finds: the newest record at a moment in between,
if it is alive at `now`. -/
def Finds (k : IdempotencyKey) (now : Instant) (s : World W H B)
    (found : Option CompletedIdempotencyResult) (s' : World W H B) : Prop :=
  ∃ committed, (s.records k).versions <:+ committed ∧ committed <:+ (s'.records k).versions ∧
    found = ((committed.head?.map Version.row).filter fun row =>
      now < row.completed.expiresAt).map DurableRecord.completed

omit [DecidableEq W] in
theorem Finds.within {k : IdempotencyKey} {now : Instant} {t t' : World W H B}
    {found : Option CompletedIdempotencyResult} (h : Finds k now s found s') (hbefore : Grown t s)
    (hafter : Grown s' t') : Finds k now t found t' := by
  obtain ⟨committed, hold, hnew, hfound⟩ := h
  exact ⟨committed, (hbefore k).trans hold, hnew.trans (hafter k), hfound⟩

theorem part_getCompleted {k : IdempotencyKey} {r : Except Exn (Option CompletedIdempotencyResult)}
    (hclean : Clean w s) (h : Part F w (getCompleted k) s r s') :
    Clean w s' ∧ Untouched w s s' ∧ ∀ found, r = .ok found →
      Finds k (s'.clockRead w) s found s' := by
  rcases runsAmong_bind.1 h with ⟨now, s₁, hclock, hselect⟩ | ⟨e, hclock, rfl⟩
  · obtain ⟨s₂, hs₂, hnow, hs₁⟩ := part_utcNow hclock
    have hread : s₁.clockRead w = now := by
      rw [hs₁.clockRead, Except.ok.inj hnow]
      simp [World.readClock]
    have hclean₁ : Clean w s₁ := (hclean.frame hs₂.toFrame).readClock.frame hs₁.toFrame
    have huntouched : Untouched w s s₁ :=
      hs₂.untouched.trans ((Untouched.of_log rfl).trans hs₁.untouched)
    obtain ⟨s₃, r', s₄, hs₃, ⟨⟨rfl, he⟩, -⟩, hr⟩ := runsAmong_call.1 hselect
    obtain ⟨rfl, hend⟩ := runsAmong_ret.1 hr
    have hclean₄ := hclean₁.frame hs₃.toFrame
    refine ⟨hclean₄.frame hend.toFrame, huntouched.trans (hs₃.untouched.trans hend.untouched),
      fun found hfound => ?_⟩
    have hmoment : Finds k now s₄ found s₄ := by
      refine ⟨(s₄.records k).versions, List.suffix_refl _, List.suffix_refl _, ?_⟩
      rcases he with rfl | ⟨e, -, rfl⟩
      · rw [Row.visible_of_not_own (hclean₄.own k)] at hfound
        exact (Except.ok.inj hfound).symm
      · cases hfound
    rw [hend.clockRead, hs₃.clockRead, hread]
    exact hmoment.within ((part_grown hclock).trans hs₃.toFrame.grown) hend.toFrame.grown
  · obtain ⟨s₂, -, hr, -⟩ := part_utcNow hclock
    cases hr

omit [DecidableEq W] in
theorem decideExisting_eq {q : Request B} {row : DurableRecord} {now : Instant} :
    decideExisting q.requestFingerprint row.completed now = recordAnswer q now (some row) := by
  unfold decideExisting recordAnswer
  by_cases hexp : row.completed.expiresAt ≤ now
  · rw [if_pos hexp, Option.filter_some, decide_eq_false (not_lt.2 hexp)]
    rfl
  · rw [if_neg hexp, Option.filter_some, decide_eq_true (not_le.1 hexp)]
    by_cases hfp : row.completed.requestFingerprint = q.requestFingerprint <;> simp [hfp]

omit [DecidableEq W] in
theorem Meets.live {q : Request B} {result : IdempotencyResult}
    (h : Meets q w s (some result) s') : LiveRecord q w result s' := by
  obtain ⟨committed, -, hnew, hfound⟩ := h
  obtain ⟨row, hrow, rfl⟩ := Option.map_eq_some_iff.1 hfound.symm
  obtain ⟨hrow, hlive⟩ := Option.filter_eq_some_iff.1 hrow
  obtain ⟨v, hv, rfl⟩ := Option.map_eq_some_iff.1 hrow
  exact ⟨v.row.completed, ⟨v, hnew.subset (List.mem_of_mem_head? hv), rfl⟩,
    of_decide_eq_true hlive, rfl⟩

theorem part_lookup {k : IdempotencyKey} {r : Except Exn (Option CompletedIdempotencyResult)}
    (hi : Idle w s) (hrun : Part F w (withUow (getCompleted k)) s r s') :
    Idle w s' ∧ Untouched w s s' ∧ ∀ found, r = .ok found →
      Finds k (s'.clockRead w) s found s' := by
  rcases runsAmong_bind.1 hrun with ⟨⟨⟩, s₂, hbegin, hbody⟩ | ⟨e, hbegin, rfl⟩
  · obtain ⟨hun₂, hclean₂, -⟩ := part_begin hi hbegin
    obtain ⟨a, s₃, hselect, hexit⟩ := runsAmong_onOutcome.1 hbody
    obtain ⟨hclean₃, hun₃, hfinds⟩ := part_getCompleted (hclean₂ rfl) hselect
    cases a with
    | ok found =>
      have hun : Untouched w s s₃ := hun₂.trans hun₃
      rcases part_return.1 hexit with ⟨hcommit, rfl⟩ | ⟨e, hcommit, rfl⟩
      · obtain ⟨hidle, hun₁⟩ := part_commit_clean hclean₃ hcommit
        refine ⟨hidle, hun.trans hun₁, fun found' hf => ?_⟩
        obtain rfl := Except.ok.inj hf
        rw [part_commit_clockRead hcommit]
        exact (hfinds found rfl).within (part_grown hbegin) (part_grown hcommit)
      · obtain ⟨hidle, hun₁⟩ := part_commit_clean hclean₃ hcommit
        exact ⟨hidle, hun.trans hun₁, fun _ hc => by cases hc⟩
    | error e =>
      obtain ⟨x, hrollback, rfl⟩ := part_rollback.1 hexit
      obtain ⟨hidle, hun₁⟩ := part_rolledBack hclean₃.inTransaction hrollback
      exact ⟨hidle, (hun₂.trans hun₃).trans hun₁, fun _ hc => by cases hc⟩
  · obtain ⟨hun, -, hidle⟩ := part_begin hi hbegin
    exact ⟨hidle e rfl, hun, fun _ hc => by cases hc⟩

theorem part_findExisting {q : Request B} {r : Except Exn (Option IdempotencyResult)}
    (hi : Idle w s) (h : Part F w (findExisting_ q.identity q.requestFingerprint) s r s') :
    Idle w s' ∧ Untouched w s s' ∧ ∀ found, r = .ok found → Meets q w s found s' := by
  rcases runsAmong_bind.1 h with ⟨found, s₁, hrun, hrest⟩ | ⟨e, hrun, rfl⟩
  · obtain ⟨hidle, hun, hfinds⟩ := part_lookup hi hrun
    obtain ⟨committed, hold, hnew, hfound⟩ := hfinds found rfl
    cases found with
    | none =>
      obtain ⟨rfl, hend⟩ := runsAmong_ret.1 hrest
      refine ⟨hidle.apart hend, hun.trans hend.untouched, fun found hr => ?_⟩
      obtain rfl := Except.ok.inj hr
      refine ⟨committed, hold, hnew.trans (hend.toFrame.grown _), ?_⟩
      rw [hend.clockRead, recordAnswer, Option.map_eq_none_iff.1 hfound.symm]
      rfl
    | some existing =>
      rcases runsAmong_bind.1 hrest with ⟨now, s₂, hclock, hr⟩ | ⟨e, hclock, rfl⟩
      · obtain ⟨s₃, hs₃, hnow, hs₂⟩ := part_utcNow hclock
        cases hnow
        obtain ⟨rfl, hend⟩ := runsAmong_ret.1 hr
        have hread : Apart w (s₃.readClock w) s' := hs₂.trans hend
        have hidle₃ : Idle w (s₃.readClock w) := { hidle.apart hs₃ with }
        refine ⟨hidle₃.apart hread, hun.trans (hs₃.untouched.trans
          ((Untouched.of_log rfl).trans hread.untouched)), fun found hres => ?_⟩
        obtain ⟨row, hrow, rfl⟩ := Option.map_eq_some_iff.1 hfound.symm
        have hgrown : Grown s₁ s' :=
          hs₃.toFrame.grown.trans ((Grown.refl _).trans hread.toFrame.grown)
        refine ⟨committed, hold, hnew.trans (hgrown _), ?_⟩
        rw [(Option.filter_eq_some_iff.1 hrow).1, ← decideExisting_eq, hread.clockRead]
        simpa [World.readClock] using (Except.ok.inj hres).symm
      · obtain ⟨s₃, -, hr, -⟩ := part_utcNow hclock
        cases hr
  · obtain ⟨hidle, hun, -⟩ := part_lookup hi hrun
    exact ⟨hidle, hun, fun _ hr => by cases hr⟩

theorem part_operation {x : Code (stmtSig B) Exn α} {a : Except Exn α}
    (ht : s.inTransaction w = true) (ho : ∀ k, (s.records k).own w = none)
    (h : Part F w (x.lift (stmtInDb B)) s a s') :
    s'.inTransaction w = true ∧ (∀ k, (s'.records k).own w = none) ∧ Untouched w s s' ∧
      Ran w x s.business a s'.business := by
  induction x generalizing s with
  | ret r =>
    obtain ⟨rfl, hs⟩ := runsAmong_ret.1 h
    exact ⟨hs.inTransaction.trans ht, fun k => (hs.records k).own.trans (ho k), hs.untouched,
      .frame hs.business (.ret _ _)⟩
  | call o k ih =>
    obtain ⟨s₁, r, s₂, hs, ⟨he, -⟩, hk⟩ := runsAmong_call.1 h
    have ht₁ : s₁.inTransaction w = true := hs.inTransaction.trans ht
    have ho₁ : ∀ k, (s₁.records k).own w = none := fun k => (hs.records k).own.trans (ho k)
    cases o with
    | clock =>
      obtain ⟨rfl, rfl⟩ := he
      obtain ⟨ht', ho', hun, hran⟩ := ih _ (s := s₁.readClock w) ht₁ ho₁ hk
      exact ⟨ht', ho', hs.untouched.trans ((Untouched.of_log rfl).trans hun),
        .frame hs.business (.clock _ hran)⟩
    | stmt o =>
      simp only [stmtInDb, dbExec, ht₁, if_true] at he
      obtain ⟨b, hexec, rfl⟩ := he
      have hr : r.map (stmtInDb B |>.reply (.stmt o)) = r := by cases r <;> rfl
      rw [hr] at hk
      obtain ⟨ht', ho', hun, hran⟩ := ih _ (s := { s₁ with business := b }) ht₁ ho₁ hk
      exact ⟨ht', ho', hs.untouched.trans ((Untouched.of_log rfl).trans hun),
        .frame hs.business (.stmt hexec hran)⟩

/-- `w` stays inside its transaction and stages nothing more. -/
structure Within (w : W) (s s' : World W H B) : Prop where
  inTransaction : s'.inTransaction w = true
  untouched : Untouched w s s'
  staged : B.staged w s'.business = B.staged w s.business

omit [DecidableEq W] in
theorem Within.trans (h : Within w s s') (h' : Within w s' s'') : Within w s s'' :=
  ⟨h'.inTransaction, h.untouched.trans h'.untouched, h'.staged.trans h.staged⟩

theorem Apart.within (h : Apart w s s') (ht : s.inTransaction w = true) : Within w s s' :=
  ⟨h.inTransaction.trans ht, h.untouched, B.staged_frame h.business⟩

def HoldsOnly (w : W) (k : IdempotencyKey) (row : DurableRecord) (s : World W H B) : Prop :=
  ∀ k', (s.records k').own w = if k' = k then some row else none

theorem HoldsOnly.apart {k : IdempotencyKey} {row : DurableRecord} (h : HoldsOnly w k row s)
    (hs : Apart w s s') : HoldsOnly w k row s' :=
  fun k' => (hs.records k').own.trans (h k')

theorem holdsOnly_write {k : IdempotencyKey} {row : DurableRecord}
    (ho : ∀ k, (s.records k).own w = none) : HoldsOnly w k row (s.writeRecord w k row) := by
  intro k'
  by_cases hk : k' = k
  · subst hk
    simp [World.writeRecord]
  · simp [World.writeRecord, hk, ho]

theorem part_tryAddCompleted {k : IdempotencyKey} {completed : CompletedIdempotencyResult}
    {r : Except Exn Bool} (ht : s.inTransaction w = true) (ho : ∀ k, (s.records k).own w = none)
    (h : Part F w (tryAddCompleted k completed) s r s') :
    Within w s s' ∧ (r = .ok true → ∃ row, row.completed = completed ∧ HoldsOnly w k row s') := by
  rcases runsAmong_bind.1 h with ⟨now, s₁, hclock, hadd⟩ | ⟨e, hclock, rfl⟩
  · obtain ⟨s₂, hs₂, -, hs₁⟩ := part_utcNow hclock
    have hw₂ := hs₂.within ht
    have hread : Within w s₂ (s₂.readClock w) := ⟨hw₂.inTransaction, .of_log rfl, rfl⟩
    have hw₁ : Within w s s₁ := (hw₂.trans hread).trans (hs₁.within hw₂.inTransaction)
    have ho₁ : ∀ k, (s₁.records k).own w = none :=
      fun k => (hs₁.records k).own.trans ((hs₂.records k).own.trans (ho k))
    split at hadd
    · rename_i hlt
      obtain ⟨s₃, s₄, hs₃, he, -, hend⟩ := part_call hadd
      have hw₃ := hw₁.trans (hs₃.within hw₁.inTransaction)
      have ho₃ : ∀ k, (s₃.records k).own w = none := fun k => (hs₃.records k).own.trans (ho₁ k)
      have hsame : s₄ = s₃ → Within w s s' := by
        rintro rfl
        exact hw₃.trans (hend.within hw₃.inTransaction)
      have hwritten : ∀ row, s₄ = s₃.writeRecord w k row → row.completed = completed →
          Within w s s' ∧ ∃ row, row.completed = completed ∧ HoldsOnly w k row s' := by
        rintro row rfl hrow
        have hwrite : Within w s₃ (s₃.writeRecord w k row) :=
          ⟨hw₃.inTransaction, .of_log rfl, rfl⟩
        exact ⟨(hw₃.trans hwrite).trans (hend.within hw₃.inTransaction), row, hrow,
          (holdsOnly_write ho₃).apart hend⟩
      simp only [dbExec, hw₃.inTransaction, if_true] at he
      rcases he with ⟨-, he⟩ | ⟨e, -, rfl, hs₄⟩
      · split at he
        · obtain ⟨rfl, hs₄⟩ := he
          exact ⟨(hwritten _ hs₄ rfl).1, fun _ => (hwritten _ hs₄ rfl).2⟩
        · split at he
          · obtain ⟨rfl, hs₄⟩ := he
            exact ⟨(hwritten _ hs₄ rfl).1, fun _ => (hwritten _ hs₄ rfl).2⟩
          · obtain ⟨rfl, hs₄⟩ := he
            exact ⟨hsame hs₄, fun hr => by cases hr⟩
      · exact ⟨hsame hs₄, fun hr => by cases hr⟩
    · obtain ⟨rfl, hend⟩ := runsAmong_ret.1 hadd
      exact ⟨hw₁.trans (hend.within hw₁.inTransaction), fun hr => by cases hr⟩
  · obtain ⟨s₂, -, hr, -⟩ := part_utcNow hclock
    cases hr

theorem part_recordResult {k : IdempotencyKey} {fp : Digest} {retention : Nat}
    {stored : StoredResult} {r : Except Exn CompletedIdempotencyResult}
    (ht : s.inTransaction w = true) (ho : ∀ k, (s.records k).own w = none)
    (h : Part F w (recordResult k fp retention stored) s r s') :
    Within w s s' ∧ ∀ completed, r = .ok completed → ∃ (expiresAt : Deadline) (row : DurableRecord),
      completed = stored.completed fp expiresAt ∧ row.completed = completed ∧ HoldsOnly w k row s' := by
  rcases runsAmong_bind.1 h with ⟨now, s₁, hclock, hrest⟩ | ⟨e, hclock, rfl⟩
  · obtain ⟨s₂, hs₂, -, hs₁⟩ := part_utcNow hclock
    have hw₂ := hs₂.within ht
    have hread : Within w s₂ (s₂.readClock w) := ⟨hw₂.inTransaction, .of_log rfl, rfl⟩
    have hw₁ : Within w s s₁ := (hw₂.trans hread).trans (hs₁.within hw₂.inTransaction)
    have ho₁ : ∀ k, (s₁.records k).own w = none :=
      fun k => (hs₁.records k).own.trans ((hs₂.records k).own.trans (ho k))
    rcases runsAmong_bind.1 hrest with ⟨expiresAt, s₃, hdeadline, hadd⟩ | ⟨e, hdeadline, rfl⟩
    · obtain ⟨-, hs₃⟩ := runsAmong_ret.1 hdeadline
      have hw₃ := hw₁.trans (hs₃.within hw₁.inTransaction)
      have ho₃ : ∀ k, (s₃.records k).own w = none := fun k => (hs₃.records k).own.trans (ho₁ k)
      rcases runsAmong_bind.1 hadd with ⟨added, s₄, hadded, hr⟩ | ⟨e, hadded, rfl⟩
      · obtain ⟨hw₄, hheld⟩ := part_tryAddCompleted hw₃.inTransaction ho₃ hadded
        cases added with
        | true =>
          obtain ⟨rfl, hend⟩ := runsAmong_ret.1 hr
          obtain ⟨row, hrow, hheld⟩ := hheld rfl
          refine ⟨(hw₃.trans hw₄).trans (hend.within hw₄.inTransaction), fun completed hc => ?_⟩
          cases hc
          exact ⟨expiresAt, row, rfl, hrow, hheld.apart hend⟩
        | false =>
          obtain ⟨rfl, hend⟩ := runsAmong_ret.1 hr
          exact ⟨(hw₃.trans hw₄).trans (hend.within hw₄.inTransaction), fun _ hc => by cases hc⟩
      · obtain ⟨hw₄, -⟩ := part_tryAddCompleted hw₃.inTransaction ho₃ hadded
        exact ⟨hw₃.trans hw₄, fun _ hc => by cases hc⟩
    · obtain ⟨-, hend⟩ := runsAmong_ret.1 hdeadline
      exact ⟨hw₁.trans (hend.within hw₁.inTransaction), fun _ hc => by cases hc⟩
  · obtain ⟨s₂, -, hr, -⟩ := part_utcNow hclock
    cases hr

omit [DecidableEq W] in
theorem Untouched.committedTogether {q : Request B} {completed : CompletedIdempotencyResult}
    (h : Untouched w s₀ s) (hc : CommittedTogether q w completed s s') :
    CommittedTogether q w completed s₀ s' := by
  obtain ⟨new, hnew, hempty⟩ := h
  obtain ⟨after, c, before, hlog, hothers, hrest⟩ := hc
  refine ⟨after, c, before ++ new, ?_, fun d hd hw => ?_, hrest⟩
  · rw [hlog, hnew, List.append_assoc]
  · rw [← List.append_assoc] at hd
    rcases List.mem_append.1 hd with hd | hd
    · exact hothers d hd hw
    · exact hempty d hd hw

theorem part_started {q : Request B} {a : Except Exn StoredResult} {s₁ s₂ : World W H B}
    (hi : Idle w s) (hbegin : Part F w (translated (.call .begin .ret)) s (.ok ()) s₁)
    (hoperation : Part F w (q.operation.hotDurable.lift (stmtInDb B)) s₁ a s₂) :
    s₂.inTransaction w = true ∧ (∀ k, (s₂.records k).own w = none) ∧ Untouched w s s₂ ∧
      B.staged w s₁.business = B.nothing ∧
      Ran w q.operation.hotDurable s₁.business a s₂.business := by
  obtain ⟨hun₁, hclean, -⟩ := part_begin hi hbegin
  have hclean₁ := hclean rfl
  obtain ⟨ht, ho, hun₂, hran⟩ := part_operation hclean₁.inTransaction hclean₁.own hoperation
  exact ⟨ht, ho, hun₁.trans hun₂, hclean₁.staged, hran⟩

theorem part_committed {q : Request B} {retention : Nat} {stored : StoredResult}
    {completed : CompletedIdempotencyResult} {r : Except Exn Unit} {s₁ s₂ s₃ : World W H B}
    (hi : Idle w s) (hbegin : Part F w (translated (.call .begin .ret)) s (.ok ()) s₁)
    (hoperation : Part F w (q.operation.hotDurable.lift (stmtInDb B)) s₁ (.ok stored) s₂)
    (hrecord : Part F w (recordResult q.identity q.requestFingerprint retention stored) s₂
      (.ok completed) s₃)
    (hcommit : Part F w (translated (.call .commit .ret)) s₃ r s') :
    r = .ok () ∧ CommittedTogether q w completed s s' := by
  obtain ⟨ht₂, ho₂, hun₂, hnothing, hran⟩ := part_started hi hbegin hoperation
  obtain ⟨hw₃, hheld⟩ := part_recordResult ht₂ ho₂ hrecord
  obtain ⟨expiresAt, row, hcompleted, hrow, hheld⟩ := hheld completed rfl
  have hown : (s₃.records q.identity).own w = some row := by rw [hheld, if_pos rfl]
  obtain ⟨hr, -, after, c, before, hlog, hothers, hcw, hstaged, hinstalled⟩ :=
    part_commit_record hw₃.inTransaction hown hcommit
  refine ⟨hr, (hun₂.trans hw₃.untouched).committedTogether
    ⟨after, c, before, hlog, hothers, hcw, row, hrow, ?_, fun k => ?_⟩⟩
  · refine ⟨s₁.business, s₂.business, stored, expiresAt, hnothing, hran, ?_, ?_⟩
    · rw [hstaged, hw₃.staged]
    · rw [hrow, hcompleted]
  · rw [hinstalled, hheld]

/-- What a business transaction leaves: its effects with their record, or nothing. -/
theorem Transaction.leaves {q : Request B} {retention : Nat} {o : Option (Except Exn StoredResult)}
    {x : Option (Except Exn Unit)} {r : Except Exn CompletedIdempotencyResult} (hi : Idle w s)
    (h : Transaction F q retention w s o x r s') :
    (∀ completed, r = .ok completed → CommittedTogether q w completed s s') ∧
      ∀ e, r = .error e → Idle w s' ∧ Untouched w s s' := by
  cases h with
  | unbegun hbegin =>
    obtain ⟨hun, -, hidle⟩ := part_begin hi hbegin
    exact ⟨fun _ hr => (by cases hr), fun _ _ => ⟨hidle _ rfl, hun⟩⟩
  | committed hbegin hoperation hrecord hcommit =>
    refine ⟨fun c hr => ?_, fun _ hr => by cases hr⟩
    cases hr
    exact (part_committed hi hbegin hoperation hrecord hcommit).2
  | uncommitted hbegin hoperation hrecord hcommit =>
    cases (part_committed hi hbegin hoperation hrecord hcommit).1
  | raised hbegin hoperation hrollback =>
    obtain ⟨ht, -, hun, -⟩ := part_started hi hbegin hoperation
    obtain ⟨hidle, hun'⟩ := part_rolledBack ht hrollback
    exact ⟨fun _ hr => (by cases hr), fun _ _ => ⟨hidle, hun.trans hun'⟩⟩
  | unrecorded hbegin hoperation hrecord hrollback =>
    obtain ⟨ht, ho, hun, -⟩ := part_started hi hbegin hoperation
    obtain ⟨hw, -⟩ := part_recordResult ht ho hrecord
    obtain ⟨hidle, hun'⟩ := part_rolledBack hw.inTransaction hrollback
    exact ⟨fun _ hr => (by cases hr), fun _ _ => ⟨hidle, (hun.trans hw.untouched).trans hun'⟩⟩

/-- An operation that raised, and a rollback that answered, end the transaction with what
the unit of work makes of the exception. -/
theorem Transaction.raises {q : Request B} {retention : Nat} {e : Exn}
    {r : Except Exn CompletedIdempotencyResult}
    (h : Transaction F q retention w s (some (.error e)) (some (.ok ())) r s') :
    r = .error e.leavingUow := by
  cases h with
  | raised hbegin hoperation hrollback => rfl

theorem isRaceError_iff {e : Exn} : e.isRaceError = true ↔ e = .concurrentWinnerCommitted ∨
    e = .transactionConflict ∨ (∃ m, e = .domain (.profileVersionMismatch m)) ∨
      ∃ m, e = .domain (.settingsVersionMismatch m) := by
  constructor
  · intro h
    cases e with
    | domain d => cases d <;> first | exact absurd h Bool.false_ne_true | simp
    | concurrentWinnerCommitted => exact .inl rfl
    | transactionConflict => exact .inr (.inl rfl)
    | _ => exact absurd h Bool.false_ne_true
  · rintro (rfl | rfl | ⟨m, rfl⟩ | ⟨m, rfl⟩) <;> rfl

theorem leavingExecution_eq {e : Exn} (h : e ≠ .persistenceUnavailable) :
    leavingExecution e = e := by
  cases e <;> first | exact absurd rfl h | rfl

omit [DecidableEq W] in
theorem raceAnswer_not_executed {q : Request B} {e : Exn}
    {l : Except Exn (Option IdempotencyResult)} {result : IdempotencyResult}
    (hl : ∀ winner, l = .ok (some winner) → LiveRecord q w winner s)
    (h : (raceAnswer e l).mapError leavingExecution = .ok result) : LiveRecord q w result s := by
  cases l with
  | error e' => cases h
  | ok found =>
    cases found with
    | none => cases h
    | some winner =>
      cases h
      exact hl _ rfl

omit [DecidableEq W] in
theorem LiveRecord.not_executed {q : Request B} {result : IdempotencyResult}
    (h : LiveRecord q w result s) (completed : CompletedIdempotencyResult) :
    result ≠ .executed completed := by
  obtain ⟨found, -, -, rfl⟩ := h
  split <;> exact fun hr => by cases hr

theorem Attempt.raises {q : Request B} {retention : Nat} {e : Exn}
    {l : Option (Except Exn (Option IdempotencyResult))} {r : Except Exn IdempotencyResult}
    (h : Attempt F q retention w s₀ (some (.error e)) (some (.ok ())) l r s) :
    (e.leavingUow.isRaceError = false ∧ l = none ∧
        r = .error (leavingExecution e.leavingUow)) ∨
      e.leavingUow.isRaceError = true ∧ ∃ found, l = some found ∧
        r = (raceAnswer e.leavingUow found).mapError leavingExecution := by
  cases h with
  | raised _ _ hbody hrace =>
    cases hbody.raises
    exact .inl ⟨hrace, rfl, rfl⟩
  | raced _ _ hbody hrace hagain =>
    cases hbody.raises
    exact .inr ⟨hrace, _, rfl, rfl⟩

/-- What was committed, and what a decision without EXECUTED rests on. -/
theorem Attempt.leaves {q : Request B} {retention : Nat} {o : Option (Except Exn StoredResult)}
    {x : Option (Except Exn Unit)} {l : Option (Except Exn (Option IdempotencyResult))}
    {r : Except Exn IdempotencyResult} (hi : Idle w s₀)
    (h : Attempt F q retention w s₀ o x l r s) :
    (∃ completed, r = .ok (.executed completed) ∧ CommittedTogether q w completed s₀ s) ∨
      Untouched w s₀ s ∧ ∀ result, r = .ok result → LiveRecord q w result s := by
  cases h with
  | refused _ hs => exact .inr ⟨hs.untouched, fun _ hr => by cases hr⟩
  | lookupRaised _ hlookup =>
    exact .inr ⟨(part_findExisting hi hlookup).2.1, fun _ hr => by cases hr⟩
  | existing _ hlookup =>
    obtain ⟨-, hun, hmeets⟩ := part_findExisting hi hlookup
    refine .inr ⟨hun, fun result hr => ?_⟩
    cases hr
    exact (hmeets _ rfl).live
  | executed _ hlookup hbody =>
    obtain ⟨hidle, hun, -⟩ := part_findExisting hi hlookup
    exact .inl ⟨_, rfl, hun.committedTogether ((hbody.leaves hidle).1 _ rfl)⟩
  | raised _ hlookup hbody _ =>
    obtain ⟨hidle, hun, -⟩ := part_findExisting hi hlookup
    exact .inr ⟨hun.trans ((hbody.leaves hidle).2 _ rfl).2, fun _ hr => by cases hr⟩
  | raced _ hlookup hbody _ hagain =>
    obtain ⟨hidle, hun, -⟩ := part_findExisting hi hlookup
    obtain ⟨hidle', hun'⟩ := (hbody.leaves hidle).2 _ rfl
    obtain ⟨-, hun'', hmeets⟩ := part_findExisting hidle' hagain
    exact .inr ⟨(hun.trans hun').trans hun'', fun result hr =>
      raceAnswer_not_executed (fun winner hl => (hmeets _ hl).live) hr⟩

theorem Attempt.consulted {q : Request B} {retention : Nat}
    {o : Option (Except Exn StoredResult)} {x : Option (Except Exn Unit)}
    {found : Option IdempotencyResult} {r : Except Exn IdempotencyResult} (hi : Idle w s₀)
    (h : Attempt F q retention w s₀ o x (some (.ok found)) r s) :
    ∃ e s₁ s₂, Untouched w s₀ s₁ ∧ Transaction F q retention w s₁ o x (.error e) s₂ ∧
      Untouched w s₂ s ∧ Meets q w s₂ found s := by
  cases h with
  | raced _ hlookup hbody _ hagain =>
    obtain ⟨hidle, hun, -⟩ := part_findExisting hi hlookup
    obtain ⟨hidle', -⟩ := (hbody.leaves hidle).2 _ rfl
    obtain ⟨-, hun', hmeets⟩ := part_findExisting hidle' hagain
    exact ⟨_, _, _, hun, hbody, hun', hmeets _ rfl⟩

theorem Attempt.classified {q : Request B} {retention : Nat} {o : Option (Except Exn StoredResult)}
    {x : Option (Except Exn Unit)} {l : Option (Except Exn (Option IdempotencyResult))}
    {r : Except Exn IdempotencyResult} (hi : Idle w s₀)
    (h : Attempt F q retention w s₀ o x l r s) : Classified F q retention w s₀ o x l r s where
  executed completed hr := by
    rcases h.leaves hi with ⟨completed', hr', hcommitted⟩ | ⟨-, hlive⟩
    · rw [hr] at hr'
      cases hr'
      exact hcommitted
    · exact absurd rfl ((hlive _ hr).not_executed completed)
  unexecuted hr := by
    rcases h.leaves hi with ⟨completed, hr', -⟩ | ⟨hun, -⟩
    · exact absurd hr' (hr completed)
    · exact hun
  decided result hr hne := by
    rcases h.leaves hi with ⟨completed, hr', -⟩ | ⟨-, hlive⟩
    · rw [hr] at hr'
      cases hr'
      exact absurd rfl (hne completed)
    · exact hlive result hr
  surfaces e ho hx hmap hconflict hprofile hsettings hunavailable hsignal := by
    subst ho hx
    rcases h.raises with ⟨-, -, rfl⟩ | ⟨hrace, -⟩
    · rw [hmap, leavingExecution_eq hunavailable]
    · rw [hmap] at hrace
      rcases isRaceError_iff.1 hrace with rfl | rfl | ⟨m, rfl⟩ | ⟨m, rfl⟩
      · exact absurd rfl hsignal
      · exact absurd rfl hconflict
      · exact absurd rfl (hprofile m)
      · exact absurd rfl (hsettings m)
  raced e ho hx hrace := by
    subst ho hx
    have hlost : e.leavingUow.isRaceError = true ∧ lostRace e.leavingUow = e.leavingUow ∧
        leavingExecution e.leavingUow = e.leavingUow := by
      rcases hrace with hconflict | ⟨m, rfl⟩ | ⟨m, rfl⟩
      · rw [hconflict]
        exact ⟨rfl, rfl, rfl⟩
      · exact ⟨rfl, rfl, rfl⟩
      · exact ⟨rfl, rfl, rfl⟩
    obtain ⟨hrace', hlost, hleaving⟩ := hlost
    rcases h.raises with ⟨hno, -⟩ | ⟨-, found, rfl, rfl⟩
    · rw [hrace'] at hno
      cases hno
    · cases found with
      | error e' => exact .inr (.inr ⟨e', rfl, rfl⟩)
      | ok found =>
        cases found with
        | none =>
          refine .inr (.inl ⟨rfl, ?_⟩)
          show Except.error (leavingExecution (lostRace e.leavingUow)) = _
          rw [hlost, hleaving]
        | some winner => exact .inl ⟨winner, rfl, rfl⟩
  consulted found hl := by
    subst hl
    exact h.consulted hi
  unavailable e ho hx hmap := by
    subst ho hx
    rcases h.raises with ⟨-, -, rfl⟩ | ⟨hrace, -⟩
    · rw [hmap]
      rfl
    · rw [hmap] at hrace
      cases hrace

/-- What a worker ends with in an interleaving of any tasks. -/
theorem reachable_attempt {q : Request B} {retention : Nat}
    {tasks : W → Option (Code (dbSig B) Exn IdempotencyResult)}
    {c : Config (dbSig B) Exn W (World W H B) IdempotencyResult} {r : Except Exn IdempotencyResult}
    (hw : tasks w = some
      (executeOnce q.identity q.requestFingerprint q.operation.hotDurable retention))
    (hr : (attemptMachine W H B F).Reachable ⟨s₀, tasks⟩ c) (hend : c.task w = some (.ret r)) :
    ∃ o x l, Attempt F q retention w s₀ o x l r c.state := by
  obtain ⟨x, hx, hrun⟩ := hr.runsAmong (R := attemptRely F) hend
  obtain rfl := Option.some.inj (hw.symm.trans hx)
  exact run_attempt.1 hrun

/-- Every run of `execute_once` from an idle session, among whatever the others do and
with any failure but that of the commit of its record, is an attempt, and the outcome
of an attempt is classified by how its operation, its rollback and its second lookup
ended. -/
theorem executeOnce_classified {q : Request B} {retention : Nat} (hi : Idle w s₀) :
    (∀ tasks c r, tasks w = some
        (executeOnce q.identity q.requestFingerprint q.operation.hotDurable retention) →
      (attemptMachine W H B F).Reachable ⟨s₀, tasks⟩ c → c.task w = some (.ret r) →
      ∃ o x l, Attempt F q retention w s₀ o x l r c.state) ∧
    (∀ r s, Part F w (executeOnce q.identity q.requestFingerprint q.operation.hotDurable retention)
        s₀ r s ↔ ∃ o x l, Attempt F q retention w s₀ o x l r s) ∧
      ∀ o x l r s, Attempt F q retention w s₀ o x l r s →
        Classified F q retention w s₀ o x l r s :=
  ⟨fun _ _ _ hw hr hend => reachable_attempt hw hr hend, fun _ _ => run_attempt,
    fun _ _ _ _ _ h => h.classified hi⟩

section Sample

def raisingJob : Request (effectLog Bool Bool) :=
  { sampleJob true with operation := ⟨.ret (.ok StoredResult.completion),
      .ret (.error (.other "ValueError" "domain validation failed"))⟩ }

theorem executeOnce_classified_sample :
    ∃ o x l, ∃ s : World Bool (deadHotStore Bool) (effectLog Bool Bool),
      Classified Failures.never raisingJob 60 true (World.initial 0 () ⟨[], fun _ => []⟩ fun _ => none) o x l
        (.error (.other "ValueError" "domain validation failed")) s := by
  have hi : Idle true (World.initial 0 () ⟨[], fun _ => []⟩ fun _ => none :
      World Bool (deadHotStore Bool) (effectLog Bool Bool)) := ⟨rfl, fun _ => rfl, rfl⟩
  have hrun : ∃ r s, Runs (attemptMachine Bool (deadHotStore Bool) (effectLog Bool Bool)
      Failures.never) true (executeOnce raisingJob.identity raisingJob.requestFingerprint
        raisingJob.operation.hotDurable 60) (World.initial 0 () ⟨[], fun _ => []⟩ fun _ => none) r s ∧
      r = .error (.other "ValueError" "domain validation failed") := by
    refine Runs.exists_call (.ok ()) ⟨Or.inl ⟨rfl, rfl⟩, trivial⟩ ?_
    refine Runs.exists_call (.ok (0 : Int)) ⟨⟨rfl, rfl⟩, trivial⟩ ?_
    refine Runs.exists_call (.ok none) ⟨⟨rfl, Or.inl rfl⟩, trivial⟩ ?_
    refine Runs.exists_call (.ok ()) ⟨Or.inl ⟨rfl, rfl⟩, fun _ => rfl⟩ ?_
    refine Runs.exists_call (.ok ()) ⟨Or.inl ⟨rfl, rfl⟩, trivial⟩ ?_
    refine Runs.exists_call (.ok ()) ⟨⟨rfl, Or.inl rfl⟩, trivial⟩ ?_
    exact ⟨_, _, .ret _ _, rfl⟩
  obtain ⟨r, s, hrun, rfl⟩ := hrun
  obtain ⟨o, x, l, h⟩ := ((executeOnce_classified hi).2.1 _ s).1 hrun.among
  exact ⟨o, x, l, s, (executeOnce_classified hi).2.2 o x l _ s h⟩

end Sample
end ProfileService.Idempotency
