import ProfileService.Idempotency.Durability

/-!
# The durable execution keeps effects and records together
-/

namespace ProfileService.Idempotency
open Library Library.Machine Application

variable {W : Type} [DecidableEq W] {H : HotStore W} {B : Business W} {F : Failures}
  {job : W → Request B} {before : IdempotencyKey → List (Version W DurableRecord)}
  {w : W} {s : World W H B} {α : Type}

abbrev Holds (F : Failures) (job : W → Request B)
    (before : IdempotencyKey → List (Version W DurableRecord)) (w : W)
    (Q : Except Exn α → World W H B → Prop) (x : Code (dbSig B) Exn α) (s : World W H B) : Prop :=
  Safe (dbRely F) (Consistent job before) w Q x s

omit [DecidableEq W] in
theorem translated_call (o : (dbSig B).Op) :
    translated (.call o .ret : Code (dbSig B) Exn ((dbSig B).Reply o)) =
      .call o fun r => .ret (r.mapError Exn.leavingUow) := by
  unfold translated
  rw [Code.tryCatch_def, Code.onOutcome_call]
  congr 1
  funext r
  cases r <;> rfl

theorem holds_translated {o : (dbSig B).Op} {Q : Except Exn ((dbSig B).Reply o) → World W H B → Prop}
    (h : ∀ s₁, Frame w s s₁ → Consistent job before s₁ → ∀ r s₂, dbExec F w o s₁ r s₂ →
      Consistent job before s₂ ∧ ∀ s₃, Frame w s₂ s₃ → Q (r.mapError Exn.leavingUow) s₃) :
    Holds F job before w Q (translated (.call o .ret)) s := by
  rw [translated_call]
  intro s₁ hr hi r s₂ he
  obtain ⟨hi₂, hq⟩ := h s₁ hr hi r s₂ he
  exact ⟨hi₂, fun s₃ hr₃ _ => hq s₃ hr₃⟩

theorem holds_leaveUow {r : Except Exn α} {Q : Except Exn α → World W H B → Prop}
    (hin : s.inTransaction w = true)
    (hcommit : ∀ a, r = .ok a → ∀ s', Frame w s s' → Consistent job before s' →
      Consistent job before (s'.commit w) ∧ ∀ s'', Frame w (s'.commit w) s'' → Q r s'')
    (herror : ∀ e s', s'.inTransaction w = false → Q (.error e) s') :
    Holds F job before w Q (leaveUow r) s := by
  have hended : ∀ e s₂ s₃, s₂.inTransaction w = false → Frame w s₂ s₃ → Q (.error e) s₃ :=
    fun e s₂ s₃ h hf => herror e s₃ (hf.inTransaction.trans h)
  cases r with
  | ok a =>
    refine Safe.bind (P := fun r' s' => match r' with
      | .ok _ => ∀ s'', Frame w s' s'' → Q (.ok a) s''
      | .error e => Q (.error e) s') (holds_translated fun s₁ hr hi r' s₂ he => ?_)
      (fun _ s' hq _ s'' hr _ => hq s'' hr) (fun e s' hq => hq)
    have ht : s₁.inTransaction w = true := hr.inTransaction.trans hin
    obtain ⟨hic, hq⟩ := hcommit a rfl s₁ hr hi
    simp only [dbExec, ht, if_true] at he
    rcases he with ⟨rfl, rfl⟩ | ⟨e, -, rfl, rfl | rfl⟩
    · exact ⟨hic, fun s₃ hf s₄ hf' => hq s₄ (hf.trans hf')⟩
    · exact ⟨hic, fun s₃ hf => hended _ _ s₃ (by simp [World.commit]) hf⟩
    · exact ⟨hi.rollback ht, fun s₃ hf => hended _ _ s₃ (by simp [World.rollback]) hf⟩
  | error e =>
    refine Safe.bind (P := fun _ s' => s'.inTransaction w = false)
      (holds_translated fun s₁ hr hi r' s₂ he => ?_)
      (fun _ s' hq _ s'' hr _ => hended _ _ s'' hq hr) (fun e' s' hq => herror e' s' hq)
    have ht : s₁.inTransaction w = true := hr.inTransaction.trans hin
    simp only [dbExec, ht, if_true] at he
    obtain ⟨rfl, -⟩ := he
    exact ⟨hi.rollback ht, fun s₃ hf => hf.inTransaction.trans (by simp [World.rollback])⟩

theorem holds_withUow {body : Code (dbSig B) Exn α} {P Q : Except Exn α → World W H B → Prop}
    (hidle : s.inTransaction w = false)
    (hbody : ∀ s₁, Frame w s s₁ → Clean w (s₁.begin w) →
      Holds F job before w P body (s₁.begin w))
    (hin : ∀ r s', P r s' → s'.inTransaction w = true)
    (hcommit : ∀ a s', P (.ok a) s' → Consistent job before s' →
      Consistent job before (s'.commit w) ∧ ∀ s'', Frame w (s'.commit w) s'' → Q (.ok a) s'')
    (herror : ∀ e s', s'.inTransaction w = false → Q (.error e) s') :
    Holds F job before w Q (withUow body) s := by
  refine Safe.bind (P := fun r s' => match r with
    | .ok _ => Holds F job before w P body s'
    | .error _ => s'.inTransaction w = false) (holds_translated fun s₁ hr hi r s₂ he => ?_)
    (fun _ s' hx _ => ?_) (fun e s' hq => herror e s' hq)
  · have ht : s₁.inTransaction w = false := hr.inTransaction.trans hidle
    simp only [dbExec, ht, Bool.false_eq_true, if_false] at he
    rcases he with ⟨rfl, rfl⟩ | ⟨e, -, rfl, rfl⟩
    · exact ⟨hi.begin, fun s₃ hf => (hbody s₁ hr (hi.begin_clean ht)).rely hf⟩
    · exact ⟨hi, fun s₃ hf => hf.inTransaction.trans ht⟩
  · refine hx.onOutcome fun r s₁ hp => Safe.of_rely fun s₂ hf hi₂ => ?_
    refine holds_leaveUow (hin r s₂ (hp s₂ hf hi₂)) (fun a hr s₃ hf' hi₃ => ?_) herror
    subst hr
    exact hcommit a s₃ (hp s₃ (hf.trans hf') hi₃) hi₃

def IdempotencyResult.completed? : IdempotencyResult → Option CompletedIdempotencyResult
  | .executed completed | .replay completed => some completed
  | .conflict | .inProgress => none

theorem decideExisting_completed {fp : Digest} {existing c : CompletedIdempotencyResult}
    {now : Instant} {result : IdempotencyResult}
    (h : decideExisting fp existing now = some result) (hc : result.completed? = some c) :
    c = existing ∧ existing.requestFingerprint = fp ∧ now < existing.expiresAt := by
  unfold decideExisting at h
  by_cases hexp : existing.expiresAt ≤ now
  · simp [hexp] at h
  · by_cases hfp : existing.requestFingerprint = fp
    · simp only [hexp, hfp, ne_eq, not_true_eq_false, if_false, Option.some.injEq] at h
      subst h
      cases hc
      exact ⟨rfl, hfp, not_le.1 hexp⟩
    · simp only [hexp, hfp, ne_eq, not_false_eq_true, if_false, if_true, Option.some.injEq] at h
      subst h
      cases hc

theorem holds_utcNow {Q : Except Exn Instant → World W H B → Prop}
    (h : ∀ s₁ s₂, Frame w s s₁ → Frame w (s₁.readClock w) s₂ → Q (.ok s₁.now) s₂) :
    Holds F job before w Q utcNow s := by
  intro s₁ hr hi r s₂ he
  obtain ⟨rfl, rfl⟩ := he
  exact ⟨hi.readClock, fun s₃ hr₃ _ => h s₁ s₃ hr hr₃⟩

theorem Clean.readClock (h : Clean w s) : Clean w (s.readClock w) := { h with }

/-- A read-only transaction, and whether `w` has installed a record before it. -/
structure Reading (p : Prop) (w : W) (s : World W H B) : Prop extends Clean w s where
  fresh : p → Fresh w s

theorem Reading.frame {p : Prop} {s' : World W H B} (h : Reading p w s)
    (hf : Frame w s s') : Reading p w s' :=
  ⟨h.toClean.frame hf, fun hp => (h.fresh hp).frame hf⟩

theorem Reading.readClock {p : Prop} (h : Reading p w s) :
    Reading p w (s.readClock w) := { h with }

theorem Reading.fresh_commit {p : Prop} (h : Reading p w s) (hp : p) :
    Fresh w (s.commit w) := by
  intro c hc hcw k
  rcases List.mem_cons.1 hc with rfl | hc
  · exact h.own k
  · exact h.fresh hp c hc hcw k

def Stored (k : IdempotencyKey) (completed : CompletedIdempotencyResult) (s : World W H B) : Prop :=
  ∃ v ∈ (s.records k).versions, v.row.completed = completed

theorem Stored.frame {k : IdempotencyKey} {completed : CompletedIdempotencyResult}
    {s' : World W H B} (h : Stored k completed s) (hf : Frame w s s') : Stored k completed s' := by
  obtain ⟨v, hv, hc⟩ := h
  exact ⟨v, (hf.records k).grows.subset hv, hc⟩

theorem Stored.readClock {k : IdempotencyKey} {completed : CompletedIdempotencyResult}
    (h : Stored k completed s) : Stored k completed (s.readClock w) := h

theorem Stored.commit {k : IdempotencyKey} {completed : CompletedIdempotencyResult}
    (h : Stored k completed s) : Stored k completed (s.commit w) := by
  obtain ⟨v, hv, hc⟩ := h
  exact ⟨v, Row.versions_suffix_commit.subset hv, hc⟩

theorem Stored.of_written {k : IdempotencyKey} {completed : CompletedIdempotencyResult}
    {row : DurableRecord} (ho : (s.records k).own w = some row) (hrow : row.completed = completed) :
    Stored k completed (s.commit w) := by
  refine ⟨⟨some w, row⟩, ?_, hrow⟩
  simp [World.commit, Row.commit_of_own ho]

/-- A completed result that some committed record of the identity carries. -/
def Backed (k : IdempotencyKey) (requestFingerprint : Digest)
    (completed : CompletedIdempotencyResult) (s : World W H B) : Prop :=
  Stored k completed s ∧ completed.requestFingerprint = requestFingerprint

theorem Backed.frame {k : IdempotencyKey} {fp : Digest} {c : CompletedIdempotencyResult}
    {s s' : World W H B} (h : Backed k fp c s) (hf : Frame w s s') : Backed k fp c s' := by
  exact ⟨h.1.frame hf, h.2⟩

theorem holds_getCompleted {k : IdempotencyKey} {p : Prop} (hs : Reading p w s) :
    Holds F job before w (fun r s' => Reading p w s' ∧
      ∀ completed, r = .ok (some completed) → Stored k completed s') (getCompleted k) s := by
  refine Safe.bind (P := fun r s' => Reading p w s' ∧ ∃ now, r = .ok now)
    (holds_utcNow fun s₁ s₂ hr hr₂ => ⟨(hs.frame hr).readClock.frame hr₂, _, rfl⟩)
    (fun now s' hp _ => ?_) (fun e s' hp => ?_)
  · intro s₁ hr hi r s₂ he
    obtain ⟨rfl, he⟩ := he
    have hread : Reading p w s₂ := hp.1.frame hr
    refine ⟨hi, fun s₃ hr₃ _ => ⟨hread.frame hr₃, fun completed hc => ?_⟩⟩
    rcases he with rfl | ⟨e, -, rfl⟩
    · rw [Row.visible_of_not_own (hread.own k)] at hc
      have hrow : ∃ row, (s₂.records k).committed = some row ∧ row.completed = completed := by
        simp only [Except.map, Except.ok.injEq, Option.map_eq_some_iff,
          Option.filter_eq_some_iff] at hc
        obtain ⟨row, ⟨hrow, -⟩, hcomp⟩ := hc
        exact ⟨row, hrow, hcomp⟩
      obtain ⟨row, hrow, hcomp⟩ := hrow
      obtain ⟨v, hv, rfl⟩ := Option.map_eq_some_iff.1 hrow
      exact Stored.frame ⟨v, List.mem_of_mem_head? hv, hcomp⟩ hr₃
    · cases hc
  · obtain ⟨-, now, hr⟩ := hp
    cases hr

/-- A lookup finds only what a committed row carries, and installs nothing. -/
structure Found (k : IdempotencyKey) (fp : Digest) (p : Prop) (w : W)
    (r : Except Exn (Option IdempotencyResult)) (s : World W H B) : Prop where
  idle : s.inTransaction w = false
  fresh : ∀ found, r = .ok found → p → Fresh w s
  backed : ∀ result completed, r = .ok (some result) → result.completed? = some completed →
    Backed k fp completed s

omit [DecidableEq W] in
theorem Found.error {k : IdempotencyKey} {fp : Digest} {p : Prop} {e : Exn}
    (h : s.inTransaction w = false) : Found k fp p w (.error e) s where
  idle := h
  fresh := by
    intro found hr
    cases hr
  backed := by
    intro result completed hr
    cases hr

theorem holds_findExisting_ {k : IdempotencyKey} {fp : Digest} {p : Prop}
    (hs : s.inTransaction w = false) (hfresh : p → Fresh w s) :
    Holds F job before w (Found k fp p w) (findExisting_ k fp) s := by
  refine Safe.bind (P := fun r s' => s'.inTransaction w = false ∧ ∀ found, r = .ok found →
      (p → Fresh w s') ∧ ∀ completed, found = some completed → Stored k completed s')
    (holds_withUow (P := fun r s' => Reading p w s' ∧
      ∀ completed, r = .ok (some completed) → Stored k completed s') hs
      (fun s₁ hr hc => holds_getCompleted ⟨hc, fun hp => ((hfresh hp).frame hr).begin⟩)
      (fun r s' hp => hp.1.inTransaction) (fun found s' hp hi => ?_)
      (fun e s' h => ⟨h, fun _ hc => by cases hc⟩))
    (fun found s' hp hi => ?_)
    (fun e s' hp => .error hp.1)
  · refine ⟨hi.commit hp.1.inTransaction fun _ => hp.1.staged, fun s'' hf => ⟨?_, ?_⟩⟩
    · exact hf.inTransaction.trans (by simp [World.commit])
    · intro found' hfound
      cases hfound
      exact ⟨fun h => (hp.1.fresh_commit h).frame hf,
        fun completed hc => ((hp.2 completed (by rw [hc])).commit).frame hf⟩
  · obtain ⟨hidle, hfound⟩ := hp
    obtain ⟨hfresh', hstored⟩ := hfound found rfl
    cases found with
    | none =>
      exact fun s'' hf _ => ⟨hf.inTransaction.trans hidle, fun _ _ h => (hfresh' h).frame hf,
        fun _ _ hr => by cases hr⟩
    | some existing =>
      refine Safe.bind (P := fun _ s'' => s''.inTransaction w = false ∧ (p → Fresh w s'') ∧
          Stored k existing s'')
        (holds_utcNow fun s₁ s₂ hr hr₂ => ⟨?_, ?_, ?_⟩) (fun now s₁ hp₁ _ s₂ hf _ => ?_)
        (fun e s'' hq => .error hq.1)
      · exact hr₂.inTransaction.trans (hr.inTransaction.trans hidle)
      · exact fun h => ((hfresh' h).frame hr).readClock.frame hr₂
      · exact ((hstored existing rfl).frame hr).readClock.frame hr₂
      · refine ⟨hf.inTransaction.trans hp₁.1, fun _ _ h => (hp₁.2.1 h).frame hf, ?_⟩
        intro result c hres hc
        obtain ⟨rfl, hfp, -⟩ := decideExisting_completed (Except.ok.inj hres) hc
        exact ⟨hp₁.2.2.frame hf, hfp⟩

theorem holds_operation {x y : Code (stmtSig B) Exn α} {b₀ : B.State} (hown : Fresh w s)
    (ht : s.inTransaction w = true) (ho : ∀ k, (s.records k).own w = none)
    (hran : ∀ r b, Ran w x s.business r b → Ran w y b₀ r b) :
    Holds F job before w (fun r s' => Fresh w s' ∧ s'.inTransaction w = true ∧
      (∀ k, (s'.records k).own w = none) ∧ Ran w y b₀ r s'.business) (x.lift (stmtInDb B)) s := by
  induction x generalizing s with
  | ret r =>
    intro s' hf hi
    exact ⟨hown.frame hf, hf.inTransaction.trans ht, fun k => (hf.records k).own.trans (ho k),
      hran r _ (.frame hf.business (.ret r _))⟩
  | call o k ih =>
    intro s₁ hf hi r s₂ he
    have hown₁ : Fresh w s₁ := hown.frame hf
    have ht₁ : s₁.inTransaction w = true := hf.inTransaction.trans ht
    have ho₁ : ∀ k, (s₁.records k).own w = none := fun k => (hf.records k).own.trans (ho k)
    cases o with
    | clock =>
      obtain ⟨rfl, rfl⟩ := he
      refine ⟨hi.readClock, ih _ hown₁ ht₁ ho₁ fun r b h => ?_⟩
      exact hran r b (.frame hf.business (.clock _ h))
    | stmt o =>
      simp only [stmtInDb, dbMachine, dbExec, ht₁, if_true] at he
      obtain ⟨b, hexec, rfl⟩ := he
      have hrun : ∀ r' b', Ran w (k r) b r' b' → Ran w y b₀ r' b' := fun r' b' h =>
        hran r' b' (.frame hf.business (.stmt hexec h))
      refine ⟨hi.stmt ht₁ ho₁ hexec, ?_⟩
      cases r with
      | ok a => exact ih (.ok a) hown₁ ht₁ ho₁ hrun
      | error e => exact ih (.error e) hown₁ ht₁ ho₁ hrun

/-- The operation has run, and the transaction holds what it staged but no record. -/
structure Ready (job : W → Request B) (w : W) (completed : CompletedIdempotencyResult)
    (s : World W H B) : Prop where
  fresh : Fresh w s
  inTransaction : s.inTransaction w = true
  own : ∀ k, (s.records k).own w = none
  record : ∀ row : DurableRecord, row.completed = completed →
    OwnRecord (job w) w (B.staged w s.business) row

theorem Ready.frame {completed : CompletedIdempotencyResult} {s' : World W H B}
    (h : Ready job w completed s) (hf : Frame w s s') : Ready job w completed s' where
  fresh := h.fresh.frame hf
  inTransaction := hf.inTransaction.trans h.inTransaction
  own k := (hf.records k).own.trans (h.own k)
  record row hrow := by
    rw [B.staged_frame hf.business]
    exact h.record row hrow

theorem Ready.readClock {completed : CompletedIdempotencyResult} (h : Ready job w completed s) :
    Ready job w completed (s.readClock w) := { h with }

def Written (w : W) (k : IdempotencyKey) (completed : CompletedIdempotencyResult)
    (s : World W H B) : Prop :=
  ∃ row, (s.records k).own w = some row ∧ row.completed = completed

theorem Written.frame {k : IdempotencyKey} {completed : CompletedIdempotencyResult}
    {s' : World W H B} (h : Written w k completed s) (hf : Frame w s s') :
    Written w k completed s' := by
  obtain ⟨row, hown, hrow⟩ := h
  exact ⟨row, (hf.records k).own.trans hown, hrow⟩

/-- The upsert keeps the invariant because the row is the worker's own and fresh. -/
theorem upsert_consistent {completed : CompletedIdempotencyResult} {row : DurableRecord}
    {r : Except Exn Bool} {s' : World W H B} (h : Ready job w completed s)
    (hi : Consistent job before s) (hrow : row.completed = completed) (hage : row.createdAt ≤ s.now)
    (he : dbExec F w (.upsertRecord (job w).identity row) s r s') :
    Consistent job before s' ∧ s'.inTransaction w = true ∧
      (r = .ok true → Written w (job w).identity completed s') := by
  simp only [dbExec, h.inTransaction, if_true] at he
  have hwrite (hfree : (s.records (job w).identity).Free w)
      (hexp : Succeeds ((s.records (job w).identity).visible w) row) :
      Consistent job before (s.writeRecord w (job w).identity row) ∧
        (s.writeRecord w (job w).identity row).inTransaction w = true ∧
        Written w (job w).identity completed (s.writeRecord w (job w).identity row) := by
    refine ⟨hi.write h.inTransaction h.own hfree hexp hage (h.record row hrow) h.fresh,
      h.inTransaction, row, ?_, hrow⟩
    simp [World.writeRecord]
  rcases he with ⟨hfree, he⟩ | ⟨e, -, rfl, rfl⟩
  · cases hv : (s.records (job w).identity).visible w with
    | none =>
      rw [hv] at he hwrite
      obtain ⟨-, rfl⟩ := he
      obtain ⟨hc, ht, hw⟩ := hwrite hfree (fun o ho => by cases ho)
      exact ⟨hc, ht, fun _ => hw⟩
    | some old =>
      rw [hv] at he hwrite
      by_cases hle : old.completed.expiresAt ≤ row.createdAt
      · simp only [hle, if_true] at he
        obtain ⟨-, rfl⟩ := he
        obtain ⟨hc, ht, hw⟩ := hwrite hfree (fun o ho => by cases ho; exact hle)
        exact ⟨hc, ht, fun _ => hw⟩
      · simp only [hle, if_false] at he
        obtain ⟨rfl, rfl⟩ := he
        exact ⟨hi, h.inTransaction, fun hr => by cases hr⟩
  · exact ⟨hi, h.inTransaction, fun hr => by cases hr⟩

theorem holds_tryAddCompleted {completed : CompletedIdempotencyResult}
    (hs : Ready job w completed s) :
    Holds F job before w (fun r s' => s'.inTransaction w = true ∧
      (r = .ok true → Written w (job w).identity completed s'))
      (tryAddCompleted (job w).identity completed) s := by
  refine Safe.bind (P := fun r s' => ∃ now, r = .ok now ∧ now ≤ s'.now ∧ Ready job w completed s')
    (holds_utcNow fun s₁ s₂ hr hr₂ => ⟨s₁.now, rfl, hr₂.now, (hs.frame hr).readClock.frame hr₂⟩)
    (fun now s₁ hp _ => ?_) (fun e s' hp => ?_)
  · obtain ⟨_, hnow, hle, hready⟩ := hp
    cases hnow
    split
    · rename_i hlt
      intro s₂ hf hi r s₃ he
      obtain ⟨hi₃, ht, hw⟩ := upsert_consistent (hready.frame hf) hi rfl (le_trans hle hf.now) he
      exact ⟨hi₃, fun s₄ hf₄ _ => ⟨hf₄.inTransaction.trans ht, fun hr => (hw hr).frame hf₄⟩⟩
    · exact fun s₂ hf _ => ⟨hf.inTransaction.trans hready.inTransaction, fun h => by cases h⟩
  · obtain ⟨now, hr, -⟩ := hp
    cases hr

theorem holds_executeInTransaction {retention : Nat} (hfresh : Fresh w s) (hs : Clean w s) :
    Holds F job before w (fun r s' => s'.inTransaction w = true ∧ ∀ completed, r = .ok completed →
      completed.requestFingerprint = (job w).requestFingerprint ∧
      Written w (job w).identity completed s')
      (executeInTransaction (job w).identity (job w).requestFingerprint (job w).operation.hotDurable
        retention) s := by
  refine Safe.bind (holds_operation (y := (job w).operation.hotDurable) hfresh hs.inTransaction
    hs.own fun _ _ h => h) (fun stored s₁ hp _ => ?_)
    (fun e s' hp => ⟨hp.2.1, fun c hc => by cases hc⟩)
  obtain ⟨hfresh₁, ht₁, ho₁, hran⟩ := hp
  have hready : ∀ expiresAt : Deadline, Ready job w
      (stored.completed (job w).requestFingerprint expiresAt) s₁ := fun expiresAt =>
    ⟨hfresh₁, ht₁, ho₁, fun row hrow => ⟨s.business, s₁.business, stored, expiresAt, hs.staged, hran,
      rfl, hrow⟩⟩
  refine Safe.bind (P := fun r s' => (∃ now, r = .ok now) ∧ s'.inTransaction w = true ∧
      ∀ expiresAt : Deadline, Ready job w
        (stored.completed (job w).requestFingerprint expiresAt) s')
    (holds_utcNow fun s₂ s₃ hr hr₂ => ⟨⟨_, rfl⟩, hr₂.inTransaction.trans (hr.inTransaction.trans ht₁),
      fun x => ((hready x).frame hr).readClock.frame hr₂⟩)
    (fun now s₂ hp _ => ?_) (fun e s' hp => ?_)
  · show Holds F job before w _ (Code.onReturn _ (deadlineAfter now retention)) s₂
    cases deadlineAfter now retention with
    | error e =>
      exact fun s₃ hf _ => ⟨hf.inTransaction.trans hp.2.1, fun c hc => by cases hc⟩
    | ok expiresAt =>
      refine Safe.bind (holds_tryAddCompleted (hp.2.2 expiresAt)) (fun added s₃ hq _ => ?_)
        (fun e s' hq => ⟨hq.1, fun c hc => by cases hc⟩)
      cases added with
      | true =>
        intro s₄ hf _
        refine ⟨hf.inTransaction.trans hq.1, fun c hc => ?_⟩
        cases hc
        exact ⟨rfl, (hq.2 rfl).frame hf⟩
      | false => exact fun s₄ hf _ => ⟨hf.inTransaction.trans hq.1, fun c hc => by cases hc⟩
  · obtain ⟨⟨now, hr⟩, -⟩ := hp
    cases hr

/-- What the durable execution leaves: no open transaction, and a completed result
only if a committed record of the request carries it. -/
def Answered (q : Request B) (w : W) (r : Except Exn IdempotencyResult) (s : World W H B) : Prop :=
  s.inTransaction w = false ∧ ∀ result completed, r = .ok result →
    result.completed? = some completed → Backed q.identity q.requestFingerprint completed s

omit [DecidableEq W] in
theorem Answered.error {q : Request B} {e : Exn} (h : s.inTransaction w = false) :
    Answered q w (.error e) s := ⟨h, fun _ _ hr => by cases hr⟩

theorem Answered.frame {q : Request B} {r : Except Exn IdempotencyResult} {s' : World W H B}
    (h : Answered q w r s) (hf : Frame w s s') : Answered q w r s' :=
  ⟨hf.inTransaction.trans h.1, fun result c hr hc => (h.2 result c hr hc).frame hf⟩

omit [DecidableEq W] in
theorem Found.answered {q : Request B} {p : Prop} {result : IdempotencyResult}
    (h : Found q.identity q.requestFingerprint p w (.ok (some result)) s) :
    Answered q w (.ok result) s := by
  refine ⟨h.idle, fun result' c hr hc => ?_⟩
  cases hr
  exact h.backed result c rfl hc

theorem holds_resolveRace {e : Exn} (hs : s.inTransaction w = false) :
    Holds F job before w (Answered (job w) w)
      (resolveRace (job w).identity (job w).requestFingerprint e) s := by
  refine Safe.bind (holds_findExisting_ (p := False) hs False.elim) (fun found s₁ hp _ => ?_)
    (fun e s' hp => .error hp.idle)
  cases found with
  | some winner => exact fun s₂ hf _ => hp.answered.frame hf
  | none => exact fun s₂ hf _ => .error (hf.inTransaction.trans hp.idle)

theorem holds_executeOnce_ {retention : Nat} (hfresh : Fresh w s)
    (hs : s.inTransaction w = false) :
    Holds F job before w (Answered (job w) w)
      (executeOnce_ (job w).identity (job w).requestFingerprint (job w).operation.hotDurable
        retention) s := by
  refine Safe.bind (holds_findExisting_ (p := True) hs fun _ => hfresh) (fun found s₁ hp _ => ?_)
    (fun e s' hp => .error hp.idle)
  cases found with
  | some existing => exact fun s₂ hf _ => hp.answered.frame hf
  | none =>
    have hfresh₁ := hp.fresh none rfl trivial
    refine Safe.onOutcome (P := fun r s' => s'.inTransaction w = false ∧ ∀ completed,
        r = .ok completed → Backed (job w).identity (job w).requestFingerprint completed s')
      (holds_withUow hp.idle (fun s₂ hr hc => holds_executeInTransaction (hfresh₁.frame hr).begin hc)
        (fun r s' hq => hq.1) (fun completed s' hq hi => ?_) (fun e s' h => ⟨h, fun _ hc => by cases hc⟩))
      (fun r s₂ hq => Safe.of_rely fun s₃ hf hi₃ => ?_)
    · obtain ⟨hfp, row, hown, hrow⟩ := hq.2 completed rfl
      refine ⟨hi.commit hq.1 fun hnone => ?_, fun s'' hf => ⟨?_, fun c hc => ?_⟩⟩
      · rw [hnone] at hown
        cases hown
      · exact hf.inTransaction.trans (by simp [World.commit])
      · cases hc
        exact ⟨(Stored.of_written hown hrow).frame hf, hfp⟩
    · obtain ⟨hidle, hbacked⟩ := hq s₃ hf hi₃
      cases r with
      | ok completed =>
        refine fun s₄ hf₄ _ => ⟨hf₄.inTransaction.trans hidle, fun result c hr hc => ?_⟩
        cases hr
        cases hc
        exact (hbacked completed rfl).frame hf₄
      | error e =>
        show Holds F job before w _ (if e.isRaceError then _ else _) s₃
        split
        · exact holds_resolveRace hidle
        · exact fun s₄ hf₄ _ => .error (hf₄.inTransaction.trans hidle)

theorem holds_unavailableAs {message : String} {x : Code (dbSig B) Exn α}
    {Q : Except Exn α → World W H B → Prop} (hx : Holds F job before w Q x s)
    (hQ : ∀ e e' s', Q (.error e) s' → Q (.error e') s')
    (hstable : ∀ e s' s'', Q (.error e) s' → Frame w s' s'' → Q (.error e) s'') :
    Holds F job before w Q (unavailableAs message x) s := by
  refine Safe.tryCatch hx (fun a s' h => h) (fun e s' h _ => ?_)
  split
  · exact fun s'' hf _ => hstable _ _ s'' (hQ _ _ s' h) hf
  · exact fun s'' hf _ => hstable _ s' s'' h hf

theorem holds_executeOnce (hfresh : Fresh w s) (hs : s.inTransaction w = false) :
    Holds F job before w (Answered (job w) w)
      (executeOnce (job w).identity (job w).requestFingerprint (job w).operation.hotDurable
        (job w).policy.retentionSeconds) s := by
  unfold executeOnce
  split
  · exact fun s' hf _ => .error (hf.inTransaction.trans hs)
  · exact holds_unavailableAs (holds_executeOnce_ hfresh hs) (fun _ _ _ h => .error h.1)
      fun _ _ _ h hf => h.frame hf

theorem holds_findExisting (hs : s.inTransaction w = false) :
    Holds F job before w (Found (job w).identity (job w).requestFingerprint False w)
      (findExisting (job w).identity (job w).requestFingerprint) s :=
  holds_unavailableAs (holds_findExisting_ hs False.elim)
    (fun _ _ _ h => .error h.idle) fun _ _ _ h hf => .error (hf.inTransaction.trans h.idle)

end ProfileService.Idempotency
