import ProfileService.Idempotency.DurableExecution

/-!
# One attempt of the durable execution

`execute_once` taken apart: its first lookup, the business transaction with the
operation in it, and the lookup after a lost race, with whatever the other workers do
in between. A commit that carries a record is assumed to answer.
-/

namespace ProfileService.Idempotency
open Library Library.Machine Application

variable {W : Type} [DecidableEq W] {H : HotStore W} {B : Business W} {F : Failures} {w u : W}
  {s s' s'' : World W H B} {α : Type}

/-- What the others leave to `w`; none of their commits is its own. -/
structure Apart (w : W) (s s' : World W H B) : Prop extends Frame w s s' where
  others : ∃ new, s'.log = new ++ s.log ∧ ∀ c ∈ new, c.worker ≠ w

theorem Apart.of_log (hf : Frame w s s') (hlog : s'.log = s.log) : Apart w s s' :=
  { hf with others := ⟨[], hlog, fun _ hc => absurd hc List.not_mem_nil⟩ }

theorem Apart.refl (w : W) (s : World W H B) : Apart w s s := .of_log (Frame.refl w s) rfl

theorem Apart.trans (h : Apart w s s') (h' : Apart w s' s'') : Apart w s s'' where
  toFrame := h.toFrame.trans h'.toFrame
  others := by
    obtain ⟨new, hnew, hother⟩ := h.others
    obtain ⟨new', hnew', hother'⟩ := h'.others
    refine ⟨new' ++ new, by rw [hnew', hnew, List.append_assoc], fun c hc => ?_⟩
    rcases List.mem_append.1 hc with hc | hc
    · exact hother' c hc
    · exact hother c hc

theorem DbStep.apart (h : DbStep u s s') (hw : w ≠ u) : Apart w s s' := by
  have hf : Frame w s s' := h.frame hw
  cases h with
  | commit ht =>
    refine { hf with others := ⟨[_], rfl, fun c hc => ?_⟩ }
    rw [List.mem_singleton.1 hc]
    exact hw.symm
  | same => exact .of_log hf rfl
  | readClock => exact .of_log hf rfl
  | begin ht => exact .of_log hf rfl
  | rollback ht => exact .of_log hf rfl
  | write k row ht hfree hexpired => exact .of_log hf rfl
  | stmt o r b ht hexec => exact .of_log hf rfl

theorem WorldEnv.apart (h : WorldEnv s s') (w : W) : Apart w s s' := by
  have hf : Frame w s s' := h.frame w
  cases h with
  | tick now h => exact .of_log hf rfl
  | hot h he => exact .of_log hf rfl
  | beat v hb r h hw hrun he => exact .of_log hf rfl

theorem crash_apart (s : World W H B) (hw : w ≠ u) : Apart w s (s.crash u) := by
  refine .of_log (crash_frame s hw) ?_
  unfold World.crash
  split <;> rfl

/-- A commit that carries a record answers. -/
def CommitAnswers (w : W) : (o : DbOp B) → World W H B → Except Exn ((dbSig B).Reply o) → Prop
  | .commit, s, r => (∃ k row, (s.records k).own w = some row) → r = .ok ()
  | _, _, _ => True

/-- The world of the transactional execution without failing commits of a record. -/
def attemptMachine (W : Type) [DecidableEq W] (H : HotStore W) (B : Business W) (F : Failures) :
    Machine (dbSig B) Exn W (World W H B) where
  exec w o s r s' := dbExec F w o s r s' ∧ CommitAnswers w o s r
  env := WorldEnv
  crash w s s' := F.crash ∧ s' = s.crash w

def attemptRely (F : Failures) : (attemptMachine W H B F).Rely where
  rel := Apart
  refl := Apart.refl
  trans := Apart.trans
  exec h hw := (dbExec_step h.1).apart hw
  env h := h.apart _
  crash := by
    rintro t u s s' ⟨-, rfl⟩ hw
    exact crash_apart s hw

abbrev Part (F : Failures) (w : W) (x : Code (dbSig B) Exn α) (s : World W H B)
    (r : Except Exn α) (s' : World W H B) : Prop :=
  RunsAmong (attemptRely F) w x s r s'

def recordResult (identity : IdempotencyKey) (requestFingerprint : Digest) (retentionSeconds : Nat)
    (stored : StoredResult) : Code (dbSig B) Exn CompletedIdempotencyResult := do
  let now ← utcNow
  let expiresAt ← .ret (deadlineAfter now retentionSeconds)
  let completed := stored.completed requestFingerprint expiresAt
  let added ← tryAddCompleted identity completed
  if added then return completed else throw .concurrentWinnerCommitted

omit [DecidableEq W] in
theorem executeInTransaction_eq (identity : IdempotencyKey) (fp : Digest)
    (operation : Code (stmtSig B) Exn StoredResult) (retention : Nat) :
    executeInTransaction identity fp operation retention =
      operation.lift (stmtInDb B) >>= recordResult identity fp retention := rfl

/-- The exception a unit of work ends with when its body raised `e`. -/
def exitError (e : Exn) : Except Exn Unit → Exn
  | .ok _ => e.leavingUow
  | .error e' => e'.leavingUow

/-- The business transaction: how the operation ended, how the rollback ended if there
was one, and what the transaction gave. -/
inductive Transaction (F : Failures) (q : Request B) (retention : Nat) (w : W) (s : World W H B) :
    Option (Except Exn StoredResult) → Option (Except Exn Unit) →
      Except Exn CompletedIdempotencyResult → World W H B → Prop where
  | unbegun {e s'} (hbegin : Part F w (translated (.call .begin .ret)) s (.error e) s') :
      Transaction F q retention w s none none (.error e) s'
  | committed {stored completed s₁ s₂ s₃ s'}
      (hbegin : Part F w (translated (.call .begin .ret)) s (.ok ()) s₁)
      (hoperation : Part F w (q.operation.hotDurable.lift (stmtInDb B)) s₁ (.ok stored) s₂)
      (hrecord : Part F w (recordResult q.identity q.requestFingerprint retention stored) s₂
        (.ok completed) s₃)
      (hcommit : Part F w (translated (.call .commit .ret)) s₃ (.ok ()) s') :
      Transaction F q retention w s (some (.ok stored)) none (.ok completed) s'
  | uncommitted {stored completed e s₁ s₂ s₃ s'}
      (hbegin : Part F w (translated (.call .begin .ret)) s (.ok ()) s₁)
      (hoperation : Part F w (q.operation.hotDurable.lift (stmtInDb B)) s₁ (.ok stored) s₂)
      (hrecord : Part F w (recordResult q.identity q.requestFingerprint retention stored) s₂
        (.ok completed) s₃)
      (hcommit : Part F w (translated (.call .commit .ret)) s₃ (.error e) s') :
      Transaction F q retention w s (some (.ok stored)) none (.error e) s'
  | raised {e x s₁ s₂ s'} (hbegin : Part F w (translated (.call .begin .ret)) s (.ok ()) s₁)
      (hoperation : Part F w (q.operation.hotDurable.lift (stmtInDb B)) s₁ (.error e) s₂)
      (hrollback : Part F w (.call .rollback .ret) s₂ x s') :
      Transaction F q retention w s (some (.error e)) (some x) (.error (exitError e x)) s'
  | unrecorded {stored e x s₁ s₂ s₃ s'}
      (hbegin : Part F w (translated (.call .begin .ret)) s (.ok ()) s₁)
      (hoperation : Part F w (q.operation.hotDurable.lift (stmtInDb B)) s₁ (.ok stored) s₂)
      (hrecord : Part F w (recordResult q.identity q.requestFingerprint retention stored) s₂
        (.error e) s₃)
      (hrollback : Part F w (.call .rollback .ret) s₃ x s') :
      Transaction F q retention w s (some (.ok stored)) (some x) (.error (exitError e x)) s'

def persistenceAs (message : String) : Exn → Exn
  | .persistenceUnavailable => .idempotencyUnavailable message
  | e => e

def leavingExecution : Exn → Exn :=
  persistenceAs "Durable execution unavailable; commit outcome may be unknown"

/-- What a lost race ends with, by what the lookup after it gave. -/
def raceAnswer (raceError : Exn) : Except Exn (Option IdempotencyResult) →
    Except Exn IdempotencyResult
  | .ok (some winner) => .ok winner
  | .ok none => .error (lostRace raceError)
  | .error e => .error e

/-- `execute_once` from beginning to end: how the operation ended if it ran, how the
rollback ended and what the second lookup gave if they happened, and the outcome. -/
inductive Attempt (F : Failures) (q : Request B) (retention : Nat) (w : W) (s : World W H B) :
    Option (Except Exn StoredResult) → Option (Except Exn Unit) →
      Option (Except Exn (Option IdempotencyResult)) → Except Exn IdempotencyResult →
        World W H B → Prop where
  | refused {s' : World W H B} (hretention : retention = 0) (hs : Apart w s s') :
      Attempt F q retention w s none none none
        (.error (.other "ValueError" "retention_seconds must be positive")) s'
  | lookupRaised {e s'} (hretention : retention ≠ 0)
      (hlookup : Part F w (findExisting_ q.identity q.requestFingerprint) s (.error e) s') :
      Attempt F q retention w s none none none (.error (leavingExecution e)) s'
  | existing {result s'} (hretention : retention ≠ 0)
      (hlookup : Part F w (findExisting_ q.identity q.requestFingerprint) s (.ok (some result)) s') :
      Attempt F q retention w s none none none (.ok result) s'
  | executed {o completed s₁ s'} (hretention : retention ≠ 0)
      (hlookup : Part F w (findExisting_ q.identity q.requestFingerprint) s (.ok none) s₁)
      (hbody : Transaction F q retention w s₁ o none (.ok completed) s') :
      Attempt F q retention w s o none none (.ok (.executed completed)) s'
  | raised {o x e s₁ s'} (hretention : retention ≠ 0)
      (hlookup : Part F w (findExisting_ q.identity q.requestFingerprint) s (.ok none) s₁)
      (hbody : Transaction F q retention w s₁ o x (.error e) s') (hrace : e.isRaceError = false) :
      Attempt F q retention w s o x none (.error (leavingExecution e)) s'
  | raced {o x e l s₁ s₂ s'} (hretention : retention ≠ 0)
      (hlookup : Part F w (findExisting_ q.identity q.requestFingerprint) s (.ok none) s₁)
      (hbody : Transaction F q retention w s₁ o x (.error e) s₂) (hrace : e.isRaceError = true)
      (hagain : Part F w (findExisting_ q.identity q.requestFingerprint) s₂ l s') :
      Attempt F q retention w s o x (some l) ((raceAnswer e l).mapError leavingExecution) s'

/-! ### Every run is an attempt -/

theorem part_translated {o : (dbSig B).Op} {r : Except Exn ((dbSig B).Reply o)} :
    Part F w (translated (.call o .ret)) s r s' ↔
      ∃ x, Part F w (.call o .ret) s x s' ∧ r = x.mapError Exn.leavingUow := by
  rw [translated_call]
  refine runsAmong_call.trans ⟨?_, ?_⟩
  · rintro ⟨s₁, x, s₂, hs, he, hr⟩
    obtain ⟨rfl, hend⟩ := runsAmong_ret.1 hr
    exact ⟨x, .call hs he (.ret x hend), rfl⟩
  · rintro ⟨x, hx, rfl⟩
    obtain ⟨s₁, x', s₂, hs, he, hr⟩ := runsAmong_call.1 hx
    obtain ⟨rfl, hend⟩ := runsAmong_ret.1 hr
    exact ⟨s₁, x, s₂, hs, he, .ret _ hend⟩

theorem part_return {a : α} {x : Code (dbSig B) Exn Unit} {r : Except Exn α} :
    Part F w (x >>= fun _ => (return a)) s r s' ↔
      (Part F w x s (.ok ()) s' ∧ r = .ok a) ∨ ∃ e, Part F w x s (.error e) s' ∧ r = .error e := by
  refine runsAmong_bind.trans (or_congr ⟨?_, ?_⟩ Iff.rfl)
  · rintro ⟨⟨⟩, s₁, hx, hr⟩
    obtain ⟨rfl, hend⟩ := runsAmong_ret.1 hr
    exact ⟨hx.after hend, rfl⟩
  · rintro ⟨hx, rfl⟩
    exact ⟨(), s', hx, .ret _ (Apart.refl w s')⟩

theorem part_rollback {e : Exn} {r : Except Exn α} :
    Part F w (leaveUow (.error e : Except Exn α)) s r s' ↔
      ∃ x, Part F w (.call .rollback .ret) s x s' ∧ r = .error (exitError e x) := by
  refine (runsAmong_bind (x := translated (.call .rollback .ret))
    (f := fun _ => throw e.leavingUow)).trans ⟨?_, ?_⟩
  · rintro (⟨⟨⟩, s₁, hx, hr⟩ | ⟨e', hx, rfl⟩)
    · obtain ⟨x, hrollback, hok⟩ := part_translated.1 hx
      obtain ⟨rfl, hend⟩ := runsAmong_ret.1 hr
      refine ⟨x, hrollback.after hend, ?_⟩
      cases x with
      | ok _ => rfl
      | error e'' => cases hok
    · obtain ⟨x, hrollback, herror⟩ := part_translated.1 hx
      cases x with
      | ok _ => cases herror
      | error e'' =>
        cases herror
        exact ⟨_, hrollback, rfl⟩
  · rintro ⟨x, hx, rfl⟩
    cases x with
    | ok _ =>
      exact .inl ⟨(), s', part_translated.2 ⟨_, hx, rfl⟩, .ret _ (Apart.refl w s')⟩
    | error e' => exact .inr ⟨_, part_translated.2 ⟨_, hx, rfl⟩, rfl⟩

theorem run_transaction {q : Request B} {retention : Nat}
    {r : Except Exn CompletedIdempotencyResult} :
    Part F w (withUow (executeInTransaction q.identity q.requestFingerprint q.operation.hotDurable
        retention)) s r s' ↔
      ∃ o x, Transaction F q retention w s o x r s' := by
  rw [executeInTransaction_eq]
  constructor
  · intro h
    rcases runsAmong_bind.1 h with ⟨⟨⟩, s₁, hbegin, hbody⟩ | ⟨e, hbegin, rfl⟩
    · obtain ⟨a, s₃, hinside, hexit⟩ := runsAmong_onOutcome.1 hbody
      rcases runsAmong_bind.1 hinside with ⟨stored, s₂, hoperation, hrecord⟩ | ⟨e, hoperation, rfl⟩
      · cases a with
        | ok completed =>
          rcases part_return.1 hexit with ⟨hcommit, rfl⟩ | ⟨e, hcommit, rfl⟩
          · exact ⟨_, _, .committed hbegin hoperation hrecord hcommit⟩
          · exact ⟨_, _, .uncommitted hbegin hoperation hrecord hcommit⟩
        | error e =>
          obtain ⟨x, hrollback, rfl⟩ := part_rollback.1 hexit
          exact ⟨_, _, .unrecorded hbegin hoperation hrecord hrollback⟩
      · obtain ⟨x, hrollback, rfl⟩ := part_rollback.1 hexit
        exact ⟨_, _, .raised hbegin hoperation hrollback⟩
    · exact ⟨_, _, .unbegun hbegin⟩
  · rintro ⟨o, x, h⟩
    cases h with
    | unbegun hbegin => exact runsAmong_bind.2 (.inr ⟨_, hbegin, rfl⟩)
    | committed hbegin hoperation hrecord hcommit =>
      exact runsAmong_bind.2 (.inl ⟨(), _, hbegin, runsAmong_onOutcome.2 ⟨_, _,
        runsAmong_bind.2 (.inl ⟨_, _, hoperation, hrecord⟩), part_return.2 (.inl ⟨hcommit, rfl⟩)⟩⟩)
    | uncommitted hbegin hoperation hrecord hcommit =>
      exact runsAmong_bind.2 (.inl ⟨(), _, hbegin, runsAmong_onOutcome.2 ⟨_, _,
        runsAmong_bind.2 (.inl ⟨_, _, hoperation, hrecord⟩),
        part_return.2 (.inr ⟨_, hcommit, rfl⟩)⟩⟩)
    | raised hbegin hoperation hrollback =>
      exact runsAmong_bind.2 (.inl ⟨(), _, hbegin, runsAmong_onOutcome.2 ⟨_, _,
        runsAmong_bind.2 (.inr ⟨_, hoperation, rfl⟩), part_rollback.2 ⟨_, hrollback, rfl⟩⟩⟩)
    | unrecorded hbegin hoperation hrecord hrollback =>
      exact runsAmong_bind.2 (.inl ⟨(), _, hbegin, runsAmong_onOutcome.2 ⟨_, _,
        runsAmong_bind.2 (.inl ⟨_, _, hoperation, hrecord⟩), part_rollback.2 ⟨_, hrollback, rfl⟩⟩⟩)

theorem part_unavailableAs {message : String} {x : Code (dbSig B) Exn α} {r : Except Exn α} :
    Part F w (unavailableAs message x) s r s' ↔
      ∃ a, Part F w x s a s' ∧ r = a.mapError (persistenceAs message) := by
  refine runsAmong_onOutcome.trans ⟨?_, ?_⟩
  · rintro ⟨a, s₁, hx, hr⟩
    cases a with
    | ok a =>
      obtain ⟨rfl, hend⟩ := runsAmong_ret.1 hr
      exact ⟨.ok a, hx.after hend, rfl⟩
    | error e =>
      have hend : r = .error (persistenceAs message e) ∧ Apart w s₁ s' := by
        cases e <;> exact runsAmong_ret.1 hr
      exact ⟨.error e, hx.after hend.2, hend.1⟩
  · rintro ⟨a, hx, rfl⟩
    refine ⟨a, s', hx, ?_⟩
    cases a with
    | ok a => exact .ret _ (Apart.refl w s')
    | error e => cases e <;> exact .ret _ (Apart.refl w s')

theorem part_resolveRace {identity : IdempotencyKey} {fp : Digest} {e : Exn}
    {r : Except Exn IdempotencyResult} :
    Part F w (resolveRace identity fp e) s r s' ↔
      ∃ l, Part F w (findExisting_ identity fp) s l s' ∧ r = raceAnswer e l := by
  refine runsAmong_bind.trans ⟨?_, ?_⟩
  · rintro (⟨found, s₁, hlookup, hr⟩ | ⟨e', hlookup, rfl⟩)
    · cases found with
      | some winner =>
        obtain ⟨rfl, hend⟩ := runsAmong_ret.1 hr
        exact ⟨_, hlookup.after hend, rfl⟩
      | none =>
        obtain ⟨rfl, hend⟩ := runsAmong_ret.1 hr
        exact ⟨_, hlookup.after hend, rfl⟩
    · exact ⟨_, hlookup, rfl⟩
  · rintro ⟨l, hlookup, rfl⟩
    cases l with
    | error e' => exact .inr ⟨e', hlookup, rfl⟩
    | ok found =>
      refine .inl ⟨found, s', hlookup, ?_⟩
      cases found <;> exact .ret _ (Apart.refl w s')

/-- The runs of `execute_once` are the attempts. -/
theorem run_attempt {q : Request B} {retention : Nat} {r : Except Exn IdempotencyResult} :
    Part F w (executeOnce q.identity q.requestFingerprint q.operation.hotDurable retention) s r s' ↔
      ∃ o x l, Attempt F q retention w s o x l r s' := by
  by_cases hretention : retention = 0
  · rw [executeOnce, if_pos hretention]
    constructor
    · intro h
      obtain ⟨rfl, hs⟩ := runsAmong_ret.1 h
      exact ⟨_, _, _, .refused hretention hs⟩
    · rintro ⟨o, x, l, h⟩
      cases h with
      | refused _ hs => exact .ret _ hs
      | lookupRaised hne _ => exact absurd hretention hne
      | existing hne _ => exact absurd hretention hne
      | executed hne _ _ => exact absurd hretention hne
      | raised hne _ _ _ => exact absurd hretention hne
      | raced hne _ _ _ _ => exact absurd hretention hne
  · rw [executeOnce, if_neg hretention]
    refine part_unavailableAs.trans ⟨?_, ?_⟩
    · rintro ⟨a, h, rfl⟩
      rcases runsAmong_bind.1 h with ⟨found, s₁, hlookup, hrest⟩ | ⟨e, hlookup, rfl⟩
      · cases found with
        | some result =>
          obtain ⟨rfl, hend⟩ := runsAmong_ret.1 hrest
          exact ⟨_, _, _, .existing hretention (hlookup.after hend)⟩
        | none =>
          obtain ⟨b, s₂, hbody, hend⟩ := runsAmong_onOutcome.1 hrest
          cases b with
          | ok completed =>
            obtain ⟨rfl, hs⟩ := runsAmong_ret.1 hend
            obtain ⟨o, x, htransaction⟩ := run_transaction.1 (hbody.after hs)
            cases htransaction with
            | committed hbegin hoperation hrecord hcommit =>
              exact ⟨_, _, _, .executed hretention hlookup
                (.committed hbegin hoperation hrecord hcommit)⟩
          | error e =>
            change Part F w (if e.isRaceError then resolveRace q.identity q.requestFingerprint e
              else throw e) s₂ a s' at hend
            by_cases hrace : e.isRaceError = true
            · rw [if_pos hrace] at hend
              obtain ⟨l, hagain, rfl⟩ := part_resolveRace.1 hend
              obtain ⟨o, x, htransaction⟩ := run_transaction.1 hbody
              exact ⟨_, _, _, .raced hretention hlookup htransaction hrace hagain⟩
            · rw [if_neg hrace] at hend
              obtain ⟨rfl, hs⟩ := runsAmong_ret.1 hend
              obtain ⟨o, x, htransaction⟩ := run_transaction.1 (hbody.after hs)
              exact ⟨_, _, _, .raised hretention hlookup htransaction (Bool.eq_false_iff.2 hrace)⟩
      · exact ⟨_, _, _, .lookupRaised hretention hlookup⟩
    · rintro ⟨o, x, l, h⟩
      cases h with
      | refused heq _ => exact absurd heq hretention
      | lookupRaised _ hlookup => exact ⟨_, runsAmong_bind.2 (.inr ⟨_, hlookup, rfl⟩), rfl⟩
      | existing _ hlookup =>
        exact ⟨_, runsAmong_bind.2 (.inl ⟨_, _, hlookup, .ret _ (Apart.refl w s')⟩), rfl⟩
      | executed _ hlookup hbody =>
        exact ⟨.ok (.executed _), runsAmong_bind.2 (.inl ⟨_, _, hlookup, runsAmong_onOutcome.2
          ⟨_, _, run_transaction.2 ⟨_, _, hbody⟩, .ret _ (Apart.refl w s')⟩⟩), rfl⟩
      | raised _ hlookup hbody hrace =>
        refine ⟨.error _, runsAmong_bind.2 (.inl ⟨_, _, hlookup, runsAmong_onOutcome.2
          ⟨_, _, run_transaction.2 ⟨_, _, hbody⟩, ?_⟩⟩), rfl⟩
        simp only [hrace, Bool.false_eq_true, if_false]
        exact .ret _ (Apart.refl w s')
      | raced _ hlookup hbody hrace hagain =>
        refine ⟨raceAnswer _ _, runsAmong_bind.2 (.inl ⟨_, _, hlookup, runsAmong_onOutcome.2
          ⟨_, _, run_transaction.2 ⟨_, _, hbody⟩, ?_⟩⟩), rfl⟩
        simp only [hrace, if_true]
        exact part_resolveRace.2 ⟨_, hagain, rfl⟩

end ProfileService.Idempotency
