import ProfileService.Library.Completion
import ProfileService.Idempotency.Attempt

/-!
# Executions one after another

What the durable execution does when it is alone and the database does not fail, with handlers
of which only the outcome is known.
-/

namespace ProfileService.Idempotency
open Library Library.Machine Application

/-- A handler of the kind `i` was called, and so it ended. -/
abbrev Invocation {ι : Type} (ResultT : ι → Type) := (i : ι) × Except Exn (ResultT i)

/-- The calls of handlers, newest first, those of them that are committed, and those of the open
transaction of each worker. -/
structure Invocations (W : Type) {ι : Type} (ResultT : ι → Type) where
  made : List (Invocation ResultT)
  committed : List (W × List (Invocation ResultT))
  staged : W → List (Invocation ResultT)

section
variable {W ι : Type} [DecidableEq W] (ResultT : ι → Type)

/-- Handlers of any kinds and with any outcomes. -/
def handlerCalls (W : Type) [DecidableEq W] : Business W where
  State := Invocations W ResultT
  Op := Invocation ResultT
  Reply o := ResultT o.1
  Staged := List (Invocation ResultT)
  exec w o b r b' := r = o.2 ∧ b' =
    { b with made := o :: b.made, staged := Function.update b.staged w (o :: b.staged w) }
  commit w b := { b with
    committed := (w, b.staged w) :: b.committed
    staged := Function.update b.staged w [] }
  rollback w b := { b with staged := Function.update b.staged w [] }
  staged w b := b.staged w
  nothing := []
  committed b := b.committed
  frame w b b' := b'.staged w = b.staged w
  committed_exec := by
    rintro w o b r b' ⟨-, rfl⟩
    rfl
  committed_commit _ _ := rfl
  committed_rollback _ _ := rfl
  staged_commit w b := by simp
  staged_rollback w b := by simp
  staged_frame h := h
  frame_refl _ _ := rfl
  frame_trans h h' := h'.trans h
  frame_exec := by
    rintro w v o b r b' ⟨-, rfl⟩ hw
    simp [hw]
  frame_commit b hw := by simp [hw]
  frame_rollback b hw := by simp [hw]

end

/-- The calls that are committed. -/
def Invocations.lasting {W ι : Type} {ResultT : ι → Type} (b : Invocations W ResultT) :
    List (Invocation ResultT) :=
  b.committed.flatMap Prod.snd

variable {W ι : Type} [DecidableEq W] {ResultT : ι → Type} {H : HotStore W} {w : W}
  {s s' s'' : World W H (handlerCalls ResultT W)} {k : IdempotencyKey} {fp : Digest} {α : Type}

/-- No worker has a transaction open. -/
structure Rested (s : World W H (handlerCalls ResultT W)) : Prop where
  inTransaction : ∀ w, s.inTransaction w = false
  own : ∀ k w, (s.records k).own w = none
  staged : ∀ w, s.business.staged w = []

def newest (s : World W H (handlerCalls ResultT W)) (k : IdempotencyKey) : Option DurableRecord :=
  (s.records k).committed

/-- Nobody is left in a transaction, the handlers of `ran` have been called, those of `kept` to
stay, and the newest records are `records`. -/
structure Done (ran kept : List (Invocation ResultT)) (records : IdempotencyKey → Option DurableRecord)
    (s s' : World W H (handlerCalls ResultT W)) : Prop extends Rested s' where
  now : s'.now = s.now
  made : s'.business.made = ran ++ s.business.made
  lasting : s'.business.lasting = kept ++ s.business.lasting
  newest : newest s' = records

/-- Nothing else has happened. -/
structure After (ran kept : List (Invocation ResultT)) (records : IdempotencyKey → Option DurableRecord)
    (s s' : World W H (handlerCalls ResultT W)) : Prop extends Done ran kept records s s' where
  hot : s'.hot = s.hot
  heartbeat : s'.heartbeat = s.heartbeat

abbrev Looked (s s' : World W H (handlerCalls ResultT W)) : Prop := After [] [] (newest s) s s'

variable {ran kept : List (Invocation ResultT)} {records : IdempotencyKey → Option DurableRecord}

theorem Looked.readClock (h : Looked s s') : Looked s (s'.readClock w) :=
  ⟨⟨⟨h.inTransaction, h.own, h.staged⟩, h.now, h.made, h.lasting, h.newest⟩, h.hot, h.heartbeat⟩

theorem Done.after_looked (h' : Done ran kept records s' s'') (h : Looked s s') :
    Done ran kept records s s'' where
  toRested := h'.toRested
  now := h'.now.trans h.now
  made := by rw [h'.made, h.made, List.nil_append]
  lasting := by rw [h'.lasting, h.lasting, List.nil_append]
  newest := h'.newest

theorem Done.looked (h : Done ran kept records s s') (h' : Looked s' s'') :
    Done ran kept records s s'' where
  toRested := h'.toRested
  now := h'.now.trans h.now
  made := by rw [h'.made, h.made, List.nil_append]
  lasting := by rw [h'.lasting, h.lasting, List.nil_append]
  newest := h'.newest.trans h.newest

theorem After.after_looked (h' : After ran kept records s' s'') (h : Looked s s') :
    After ran kept records s s'' :=
  ⟨h'.toDone.after_looked h, h'.hot.trans h.hot, h'.heartbeat.trans h.heartbeat⟩

theorem After.looked (h : After ran kept records s s') (h' : Looked s' s'') :
    After ran kept records s s'' :=
  ⟨h.toDone.looked h', h'.hot.trans h.hot, h'.heartbeat.trans h.heartbeat⟩

/-! ### The unit of work -/

/-- Every worker is as `a` says when one more is. -/
theorem update_rest {β : Type} {f : W → β} {a : β} (h : ∀ v, f v = a) (w v : W) :
    Function.update f w a v = a := by
  rw [Function.update_apply]
  split
  · rfl
  · exact h v

abbrev soloDb (W : Type) [DecidableEq W] (H : HotStore W) (ResultT : ι → Type) :
    Machine (dbSig (handlerCalls ResultT W)) Exn W (World W H (handlerCalls ResultT W)) :=
  dbMachine W H (handlerCalls ResultT W) Failures.never

theorem ensures_utcNow : Ensures (soloDb W H ResultT) w
    (fun r s' => r = .ok s.now ∧ s' = s.readClock w) utcNow s :=
  ensures_of_exec (fun _ _ => Iff.rfl) ⟨rfl, rfl⟩

theorem ensures_begin (h : s.inTransaction w = false) : Ensures (soloDb W H ResultT) w
    (fun r s' => r = .ok () ∧ s' = s.begin w) (translated (.call .begin .ret)) s := by
  have hexec : ∀ r s', (soloDb W H ResultT).exec w .begin s r s' ↔ r = .ok () ∧ s' = s.begin w := by
    intro r s'
    show (if s.inTransaction w then _ else _) ↔ _
    rw [h]
    simp [Failures.never]
  exact ensures_of_exec hexec ⟨rfl, rfl⟩

theorem ensures_commit (h : s.inTransaction w = true) : Ensures (soloDb W H ResultT) w
    (fun r s' => r = .ok () ∧ s' = s.commit w) (translated (.call .commit .ret)) s := by
  have hexec : ∀ r s', (soloDb W H ResultT).exec w .commit s r s' ↔ r = .ok () ∧ s' = s.commit w := by
    intro r s'
    show (if s.inTransaction w then _ else _) ↔ _
    rw [h]
    simp [Failures.never]
  exact ensures_of_exec hexec ⟨rfl, rfl⟩

theorem ensures_rollback (h : s.inTransaction w = true) : Ensures (soloDb W H ResultT) w
    (fun r s' => r = .ok () ∧ s' = s.rollback w) (translated (.call .rollback .ret)) s := by
  have hexec : ∀ r s', (soloDb W H ResultT).exec w .rollback s r s' ↔ r = .ok () ∧ s' = s.rollback w := by
    intro r s'
    show (if s.inTransaction w then _ else _) ↔ _
    rw [h]
    simp [Failures.never, and_comm]
  exact ensures_of_exec hexec ⟨rfl, rfl⟩

/-- A unit of work commits what its body leaves, or rolls it back. -/
theorem ensures_withUow {P Q : Except Exn α → World W H (handlerCalls ResultT W) → Prop}
    {body : Code (dbSig (handlerCalls ResultT W)) Exn α} (h : s.inTransaction w = false)
    (hbody : Ensures (soloDb W H ResultT) w P body (s.begin w))
    (hin : ∀ r s', P r s' → s'.inTransaction w = true)
    (hok : ∀ a s', P (.ok a) s' → Q (.ok a) (s'.commit w))
    (herror : ∀ e s', P (.error e) s' → Q (.error e.leavingUow) (s'.rollback w)) :
    Ensures (soloDb W H ResultT) w Q (withUow body) s := by
  refine (ensures_begin h).bind (fun a s₁ hs₁ => ?_) fun e s₁ hs₁ => by cases hs₁.1
  obtain ⟨-, rfl⟩ := hs₁
  refine hbody.onOutcome fun r s₂ hp => ?_
  have ht := hin r s₂ hp
  cases r with
  | ok a =>
    refine (ensures_commit ht).bind (fun _ s₃ hs₃ => ?_) fun e s₃ hs₃ => by cases hs₃.1
    obtain ⟨-, rfl⟩ := hs₃
    exact hok a s₂ hp
  | error e =>
    refine (ensures_rollback ht).bind (fun _ s₃ hs₃ => ?_) fun e s₃ hs₃ => by cases hs₃.1
    obtain ⟨-, rfl⟩ := hs₃
    exact herror e s₂ hp

/-! ### The lookup -/

/-- A transaction that only read. -/
theorem Rested.looked (h : Rested s) : Looked s (((s.begin w).readClock w).commit w) where
  inTransaction v := by
    show Function.update (Function.update s.inTransaction w true) w false v = false
    rw [Function.update_idem]
    exact update_rest h.inTransaction w v
  own k v := by
    show ((s.records k).commit w).own v = none
    rw [Row.commit_of_not_own (h.own k w)]
    exact h.own k v
  staged := update_rest h.staged w
  now := rfl
  hot := rfl
  heartbeat := rfl
  made := rfl
  lasting := by
    show ((w, s.business.staged w) :: s.business.committed).flatMap Prod.snd = _
    rw [h.staged w]
    rfl
  newest := by
    funext k
    show ((s.records k).commit w).committed = _
    rw [Row.commit_of_not_own (h.own k w)]
    rfl

theorem ensures_lookup (h : Rested s) : Ensures (soloDb W H ResultT) w
    (fun r s' => r = .ok (((newest s k).filter fun row => s.now < row.completed.expiresAt).map
      DurableRecord.completed) ∧ Looked s s') (withUow (getCompleted k)) s := by
  refine ensures_withUow (P := fun r s' =>
    r = .ok (((newest s k).filter fun row => s.now < row.completed.expiresAt).map
      DurableRecord.completed) ∧ s' = (s.begin w).readClock w) (h.inTransaction w) ?_ ?_ ?_ ?_
  · refine ensures_utcNow.bind (fun now s₁ hs₁ => ?_) fun e s₁ hs₁ => by cases hs₁.1
    obtain ⟨hnow, rfl⟩ := hs₁
    obtain rfl := Except.ok.inj hnow
    have hexec : ∀ r s', (soloDb W H ResultT).exec w (.selectRecord k s.now)
        ((s.begin w).readClock w) r s' ↔
        r = .ok ((newest s k).filter fun row => s.now < row.completed.expiresAt) ∧
          s' = (s.begin w).readClock w := by
      intro r s'
      show (s' = _ ∧ (r = .ok (((s.records k).visible w).filter _) ∨ _)) ↔ _
      rw [Row.visible_of_not_own (h.own k w)]
      simp only [Failures.never, false_and, exists_false, or_false]
      exact and_comm
    exact ensures_of_exec hexec ⟨rfl, rfl⟩
  · rintro r s' ⟨-, rfl⟩
    simp [World.readClock, World.begin]
  · rintro a s' ⟨ha, rfl⟩
    exact ⟨ha, h.looked⟩
  · rintro e s' ⟨he, -⟩
    cases he

/-- What the newest record of `k` means for `fp` now. -/
def known (k : IdempotencyKey) (fp : Digest) (s : World W H (handlerCalls ResultT W)) :
    Option IdempotencyResult :=
  (newest s k).bind fun row => decideExisting fp row.completed s.now

theorem known_eq (h : Looked s s') : known k fp s' = known k fp s := by
  unfold known
  rw [h.newest, h.now]

theorem ensures_findExisting (h : Rested s) : Ensures (soloDb W H ResultT) w
    (fun r s' => r = .ok (known k fp s) ∧ Looked s s') (findExisting_ k fp) s := by
  refine (ensures_lookup h).bind (fun found s₁ hs₁ => ?_) fun e s₁ hs₁ => by cases hs₁.1
  obtain ⟨hfound, hlooked⟩ := hs₁
  obtain rfl := Except.ok.inj hfound
  unfold known
  cases hrow : newest s k with
  | none => exact ⟨rfl, hlooked⟩
  | some row =>
    by_cases hlive : s.now < row.completed.expiresAt
    · simp only [Option.filter_some, decide_eq_true hlive, if_true, Option.map_some,
        Option.bind_some]
      refine ensures_utcNow.bind (fun now s₂ hs₂ => ?_) fun e s₂ hs₂ => by cases hs₂.1
      obtain ⟨hnow, rfl⟩ := hs₂
      obtain rfl := Except.ok.inj hnow
      rw [hlooked.now]
      exact ⟨rfl, hlooked.readClock⟩
    · have hnone : decideExisting fp row.completed s.now = none := if_pos (not_lt.1 hlive)
      simp only [Option.filter_some, decide_eq_false hlive, Option.bind_some, hnone]
      exact ⟨rfl, hlooked⟩

/-! ### The transaction of an operation -/

/-- The operation calls a handler once, which is the invocation `o`, and gives `result`. -/
def CallsOnce (o : Invocation ResultT) (result : Except Exn StoredResult)
    (operation : Code (stmtSig (handlerCalls ResultT W)) Exn StoredResult) : Prop :=
  ∃ rest, operation = .call (.stmt o) rest ∧ rest o.2 = .ret result

/-- In the transaction of `w` the handler was called, and `written` is the record written. -/
structure Working (w : W) (o : Invocation ResultT) (written : Option (IdempotencyKey × DurableRecord))
    (s s' : World W H (handlerCalls ResultT W)) : Prop where
  now : s'.now = s.now
  hot : s'.hot = s.hot
  heartbeat : s'.heartbeat = s.heartbeat
  inTransaction : s'.inTransaction = Function.update s.inTransaction w true
  made : s'.business.made = o :: s.business.made
  committed : s'.business.committed = s.business.committed
  staged : s'.business.staged = Function.update s.business.staged w [o]
  records : s'.records = written.elim s.records fun p =>
    Function.update s.records p.1 ((s.records p.1).write w p.2)

theorem Working.inTx {o : Invocation ResultT} {written : Option (IdempotencyKey × DurableRecord)}
    (h : Working w o written s s') : s'.inTransaction w = true := by
  rw [h.inTransaction, Function.update_self]

theorem Working.readClock {o : Invocation ResultT}
    {written : Option (IdempotencyKey × DurableRecord)} (h : Working w o written s s') :
    Working w o written s (s'.readClock w) :=
  ⟨h.now, h.hot, h.heartbeat, h.inTransaction, h.made, h.committed, h.staged, h.records⟩

theorem Working.rollback {o : Invocation ResultT} (hq : Rested s) (h : Working w o none s s') :
    After [o] [] (newest s) s (s'.rollback w) where
  inTransaction v := by
    show Function.update s'.inTransaction w false v = false
    rw [h.inTransaction, Function.update_idem]
    exact update_rest hq.inTransaction w v
  own k v := by
    show ((s'.records k).rollback w).own v = none
    rw [h.records]
    show ((s.records k).rollback w).own v = none
    rw [Row.rollback_of_not_own (hq.own k w)]
    exact hq.own k v
  staged v := by
    show Function.update s'.business.staged w [] v = []
    rw [h.staged, Function.update_idem]
    exact update_rest hq.staged w v
  now := h.now
  hot := h.hot
  heartbeat := h.heartbeat
  made := h.made
  lasting := congrArg (List.flatMap Prod.snd) h.committed
  newest := by
    funext k
    show ((s'.records k).rollback w).committed = _
    rw [h.records]
    show ((s.records k).rollback w).committed = _
    rw [Row.rollback_of_not_own (hq.own k w)]
    rfl

theorem Working.commit {o : Invocation ResultT} {row : DurableRecord} (hq : Rested s)
    (h : Working w o (some (k, row)) s s') :
    After [o] [o] (Function.update (newest s) k (some row)) s (s'.commit w) := by
  have hrecords : ∀ k', (s'.commit w).records k' =
      if k' = k then ⟨⟨some w, row⟩ :: (s.records k).versions, none⟩ else s.records k' := by
    intro k'
    show (s'.records k').commit w = _
    rw [h.records]
    show (Function.update s.records k ((s.records k).write w row) k').commit w = _
    rw [Function.update_apply]
    split
    · exact Row.commit_of_own Row.own_write_self
    · exact Row.commit_of_not_own (hq.own k' w)
  refine ⟨⟨⟨fun v => ?_, fun k' v => ?_, fun v => ?_⟩, h.now, h.made, ?_, ?_⟩, h.hot, h.heartbeat⟩
  · show Function.update s'.inTransaction w false v = false
    rw [h.inTransaction, Function.update_idem]
    exact update_rest hq.inTransaction w v
  · rw [hrecords]
    split
    · rfl
    · exact hq.own k' v
  · show Function.update s'.business.staged w [] v = []
    rw [h.staged, Function.update_idem]
    exact update_rest hq.staged w v
  · show ((w, s'.business.staged w) :: s'.business.committed).flatMap Prod.snd = _
    rw [h.staged, h.committed, Function.update_self]
    rfl
  · funext k'
    show ((s'.commit w).records k').committed = _
    rw [hrecords, Function.update_apply]
    split
    · rfl
    · rfl

theorem Rested.free (h : Rested s) (k : IdempotencyKey) (w : W) : (s.records k).Free w := by
  intro v row hp
  have hnone := h.own k v
  rw [Row.own_eq_some.2 hp] at hnone
  cases hnone

theorem ensures_operation {o : Invocation ResultT} {result : Except Exn StoredResult}
    {operation : Code (stmtSig (handlerCalls ResultT W)) Exn StoredResult} (hq : Rested s)
    (h : CallsOnce o result operation) : Ensures (soloDb W H ResultT) w
      (fun r s' => r = result ∧ Working w o none s s')
      (operation.lift (stmtInDb (handlerCalls ResultT W))) (s.begin w) := by
  obtain ⟨rest, rfl, hrest⟩ := h
  let called : World W H (handlerCalls ResultT W) := { s.begin w with
    business := { s.business with
      made := o :: s.business.made
      staged := Function.update s.business.staged w (o :: s.business.staged w) } }
  have hexec : ∀ r s', (soloDb W H ResultT).exec w (.stmt o) (s.begin w) r s' ↔
      r = o.2 ∧ s' = called := by
    intro r s'
    have ht : (s.begin w).inTransaction w = true := Function.update_self ..
    show (if (s.begin w).inTransaction w then _ else _) ↔ _
    rw [ht, if_pos rfl]
    constructor
    · rintro ⟨b, ⟨rfl, rfl⟩, rfl⟩
      exact ⟨rfl, rfl⟩
    · rintro ⟨rfl, rfl⟩
      exact ⟨_, ⟨rfl, rfl⟩, rfl⟩
  refine ensures_of_exec hexec ?_
  have hid : (o.2.map ((stmtInDb (handlerCalls ResultT W)).reply (.stmt o))) = o.2 := by
    cases o.2 <;> rfl
  rw [hid, hrest]
  refine ⟨rfl, rfl, rfl, rfl, rfl, rfl, rfl, ?_, rfl⟩
  show Function.update s.business.staged w (o :: s.business.staged w) = _
  rw [hq.staged w]

theorem expired_of_unknown {old : DurableRecord} (h : known k fp s = none)
    (hold : newest s k = some old) : old.completed.expiresAt ≤ s.now := by
  unfold known at h
  rw [hold, Option.bind_some] at h
  unfold decideExisting at h
  split at h
  · assumption
  · split at h
    · cases h
    · cases h

theorem upsert_exec {row : DurableRecord} {r : Except Exn Bool} (ht : s.inTransaction w = true)
    (hfree : (s.records k).Free w)
    (hold : ∀ old, (s.records k).visible w = some old →
      old.completed.expiresAt ≤ row.createdAt) :
    dbExec Failures.never w (.upsertRecord k row) s r s' ↔
      r = .ok true ∧ s' = s.writeRecord w k row := by
  simp only [dbExec, ht, if_true, Failures.never, false_and, exists_false, or_false, hfree,
    true_and]
  cases hv : (s.records k).visible w with
  | none => exact Iff.rfl
  | some old =>
    simp only [if_pos (hold old hv)]
    exact Iff.rfl

theorem ensures_tryAddCompleted {o : Invocation ResultT} {completed : CompletedIdempotencyResult}
    (hq : Rested s) (hunknown : known k fp s = none) (hw : Working w o none s s')
    (hlives : s.now < completed.expiresAt) : Ensures (soloDb W H ResultT) w
      (fun r s'' => r = .ok true ∧
        ∃ row : DurableRecord, row.completed = completed ∧ Working w o (some (k, row)) s s'')
      (tryAddCompleted k completed) s' := by
  refine ensures_utcNow.bind (fun now s₁ hs₁ => ?_) fun e s₁ hs₁ => by cases hs₁.1
  obtain ⟨hnow, rfl⟩ := hs₁
  obtain rfl := Except.ok.inj hnow
  rw [hw.now, dif_pos hlives]
  let row : DurableRecord := ⟨completed, s.now, s.now, le_refl _, hlives⟩
  have hrecords : (s'.readClock w).records k = s.records k := by
    show s'.records k = _
    rw [hw.records]
    rfl
  have hfree : ((s'.readClock w).records k).Free w := hrecords ▸ hq.free k w
  have hexec : ∀ r s'', (soloDb W H ResultT).exec w (.upsertRecord k row) (s'.readClock w) r s'' ↔
      r = .ok true ∧ s'' = (s'.readClock w).writeRecord w k row := by
    refine fun r s'' => upsert_exec hw.inTx hfree fun old hold => ?_
    rw [hrecords, Row.visible_of_not_own (hq.own k w)] at hold
    exact expired_of_unknown hunknown hold
  refine ensures_of_exec hexec ⟨rfl, row, rfl, hw.now, hw.hot, hw.heartbeat, hw.inTransaction,
    hw.made, hw.committed, hw.staged, ?_⟩
  show Function.update s'.records k ((s'.records k).write w row) = _
  rw [hw.records]
  rfl

theorem deadlineAfter_lt {now : Instant} {retention : Nat} {d : Deadline} (hpos : 0 < retention)
    (h : deadlineAfter now retention = .ok d) : now < d.1 := by
  have hseconds : 0 < seconds retention := by
    unfold seconds
    omega
  rw [deadlineAfter_eq h]
  exact lt_add_of_pos_right now hseconds

/-- What is kept of an operation that ended with `result` at `now`, and until when. -/
def retained (result : Except Exn StoredResult) (now : Instant) (retention : Nat) :
    Except Exn (StoredResult × Deadline) := do
  let stored ← result
  let deadline ← deadlineAfter now retention
  return (stored, deadline)

theorem retained_deadline {result : Except Exn StoredResult} {now : Instant} {retention : Nat}
    {stored : StoredResult} {deadline : Deadline}
    (h : retained result now retention = .ok (stored, deadline)) :
    deadlineAfter now retention = .ok deadline := by
  cases result with
  | error e => cases h
  | ok stored' =>
    cases hdeadline : deadlineAfter now retention with
    | error e =>
      rw [retained, hdeadline] at h
      cases h
    | ok d =>
      rw [retained, hdeadline] at h
      cases h
      rfl

/-- How the transaction of an operation ends that called its handler once. -/
inductive Transacted (k : IdempotencyKey) (fp : Digest) (o : Invocation ResultT)
    (s s' : World W H (handlerCalls ResultT W)) :
    Except Exn (StoredResult × Deadline) → Except Exn CompletedIdempotencyResult → Prop where
  | failed (e : Exn) (h : After [o] [] (newest s) s s') :
      Transacted k fp o s s' (.error e) (.error e.leavingUow)
  | kept (stored : StoredResult) (deadline : Deadline) (row : DurableRecord)
      (hrow : row.completed = stored.completed fp deadline)
      (h : After [o] [o] (Function.update (newest s) k (some row)) s s') :
      Transacted k fp o s s' (.ok (stored, deadline)) (.ok row.completed)

theorem ensures_executeInTransaction {o : Invocation ResultT} {result : Except Exn StoredResult}
    {operation : Code (stmtSig (handlerCalls ResultT W)) Exn StoredResult} {retention : Nat}
    (hq : Rested s) (hunknown : known k fp s = none) (hpos : 0 < retention)
    (h : CallsOnce o result operation) : Ensures (soloDb W H ResultT) w
      (fun r s' => Transacted k fp o s s' (retained result s.now retention) r)
      (withUow (executeInTransaction k fp operation retention)) s := by
  refine ensures_withUow (P := fun r s' =>
    (∃ e, r = .error e ∧ retained result s.now retention = .error e ∧ Working w o none s s') ∨
    ∃ stored deadline row, retained result s.now retention = .ok (stored, deadline) ∧
      row.completed = stored.completed fp deadline ∧ r = .ok row.completed ∧
      Working w o (some (k, row)) s s') (hq.inTransaction w) ?_ ?_ ?_ ?_
  · refine (ensures_operation hq h).bind (fun stored s₁ hs₁ => ?_) fun e s₁ hs₁ =>
      .inl ⟨e, rfl, by rw [← hs₁.1]; rfl, hs₁.2⟩
    obtain ⟨rfl, hworking⟩ := hs₁
    refine ensures_utcNow.bind (fun now s₂ hs₂ => ?_) fun e s₂ hs₂ => by cases hs₂.1
    obtain ⟨hnow, rfl⟩ := hs₂
    obtain rfl := Except.ok.inj hnow
    rw [hworking.now]
    cases hdeadline : deadlineAfter s.now retention with
    | error e =>
      refine .inl ⟨e, rfl, ?_, hworking.readClock⟩
      rw [retained, hdeadline]
      rfl
    | ok d =>
      refine (ensures_tryAddCompleted hq hunknown hworking.readClock
        (deadlineAfter_lt hpos hdeadline)).bind (fun added s₃ hs₃ => ?_) fun e s₃ hs₃ => by
          cases hs₃.1
      obtain ⟨hadded, row, hrow, hwritten⟩ := hs₃
      obtain rfl := Except.ok.inj hadded
      refine .inr ⟨stored, d, row, ?_, hrow, by rw [hrow], hwritten⟩
      rw [retained, hdeadline]
      rfl
  · rintro r s' (⟨e, -, -, hworking⟩ | ⟨stored, d, row, -, -, -, hworking⟩)
    · exact hworking.inTx
    · exact hworking.inTx
  · rintro a s' (⟨e, he, -⟩ | ⟨stored, d, row, hretained, hrow, ha, hworking⟩)
    · cases he
    · obtain rfl := Except.ok.inj ha
      rw [hretained]
      exact .kept stored d row hrow (hworking.commit hq)
  · rintro e s' (⟨e', he, hretained, hworking⟩ | ⟨stored, d, row, -, -, he, -⟩)
    · obtain rfl := Except.error.inj he
      rw [hretained]
      exact .failed e (hworking.rollback hq)
    · cases he

/-! ### The durable execution -/

/-- What the durable execution makes of an exception of its operation. -/
def raisedAs (e : Exn) : Exn := leavingExecution (lostRace e.leavingUow)

/-- What the durable execution of an operation that calls its handler once gives. -/
inductive ExecutedOnce (k : IdempotencyKey) (fp : Digest) (o : Invocation ResultT)
    (kept : Except Exn (StoredResult × Deadline)) (s s' : World W H (handlerCalls ResultT W)) :
    Except Exn IdempotencyResult → Prop where
  | known (result : IdempotencyResult) (hknown : known k fp s = some result)
      (h : Done [] [] (newest s) s s') : ExecutedOnce k fp o kept s s' (.ok result)
  | failed (hunknown : Idempotency.known k fp s = none) (e : Exn) (he : kept = .error e)
      (h : Done [o] [] (newest s) s s') :
      ExecutedOnce k fp o kept s s' (.error (raisedAs e))
  | kept (hunknown : Idempotency.known k fp s = none) (stored : StoredResult) (deadline : Deadline)
      (row : DurableRecord) (hkept : kept = .ok (stored, deadline))
      (hrow : row.completed = stored.completed fp deadline)
      (h : Done [o] [o] (Function.update (newest s) k (some row)) s s') :
      ExecutedOnce k fp o kept s s' (.ok (.executed row.completed))

theorem ensures_unavailableAs {P : Except Exn α → World W H (handlerCalls ResultT W) → Prop}
    {message : String} {x : Code (dbSig (handlerCalls ResultT W)) Exn α}
    (h : Ensures (soloDb W H ResultT) w P x s) : Ensures (soloDb W H ResultT) w
      (fun r s' => ∃ a, P a s' ∧ r = a.mapError (persistenceAs message)) (unavailableAs message x)
      s := by
  refine h.onOutcome fun a s' ha => ?_
  cases a with
  | ok a => exact ⟨.ok a, ha, rfl⟩
  | error e => cases e <;> exact ⟨.error _, ha, rfl⟩

theorem ensures_resolveRace {e : Exn} (hq : Rested s) (hunknown : known k fp s = none) :
    Ensures (soloDb W H ResultT) w (fun r s' => r = .error (lostRace e) ∧ Looked s s')
      (resolveRace k fp e) s := by
  refine (ensures_findExisting hq).bind (fun found s₁ hs₁ => ?_) fun e' s₁ hs₁ => by cases hs₁.1
  obtain ⟨hfound, hlooked⟩ := hs₁
  rw [hunknown] at hfound
  obtain rfl := Except.ok.inj hfound
  exact ⟨rfl, hlooked⟩

theorem lostRace_of_not_race {e : Exn} (h : e.isRaceError = false) : lostRace e = e := by
  cases e with
  | concurrentWinnerCommitted => cases h
  | _ => rfl

theorem ensures_executeOnce {o : Invocation ResultT} {result : Except Exn StoredResult}
    {operation : Code (stmtSig (handlerCalls ResultT W)) Exn StoredResult} {retention : Nat}
    (hq : Rested s) (hpos : 0 < retention) (h : CallsOnce o result operation) :
    Ensures (soloDb W H ResultT) w (fun r s' =>
      ExecutedOnce k fp o (retained result s.now retention) s s' r ∧ s'.hot = s.hot ∧
        s'.heartbeat = s.heartbeat) (executeOnce k fp operation retention) s := by
  rw [executeOnce, if_neg hpos.ne']
  have hinner : Ensures (soloDb W H ResultT) w (fun r s' =>
      ExecutedOnce k fp o (retained result s.now retention) s s' (r.mapError leavingExecution) ∧
        s'.hot = s.hot ∧ s'.heartbeat = s.heartbeat)
      (executeOnce_ k fp operation retention) s := by
    refine (ensures_findExisting hq).bind (fun found s₁ hs₁ => ?_) fun e s₁ hs₁ => by cases hs₁.1
    obtain ⟨hfound, hlooked⟩ := hs₁
    obtain rfl := Except.ok.inj hfound
    cases hknown : known k fp s with
    | some result => exact ⟨.known result hknown hlooked.toDone, hlooked.hot, hlooked.heartbeat⟩
    | none =>
      have hunknown : known k fp s₁ = none := (known_eq hlooked).trans hknown
      refine (ensures_executeInTransaction hlooked.toRested hunknown hpos h).onOutcome
        fun r s₂ htransacted => ?_
      rw [hlooked.now] at htransacted
      generalize hkept : retained result s.now retention = kept at htransacted ⊢
      cases htransacted with
      | kept stored deadline row hrow hafter =>
        rw [hlooked.newest] at hafter
        have hdone := hafter.after_looked hlooked
        exact ⟨.kept hknown stored deadline row rfl hrow hdone.toDone, hdone.hot, hdone.heartbeat⟩
      | failed e hafter =>
        rw [hlooked.newest] at hafter
        have hfailed := hafter.after_looked hlooked
        cases hrace : e.leavingUow.isRaceError with
        | false =>
          simp only [hrace, Bool.false_eq_true, if_false]
          refine ⟨?_, hfailed.hot, hfailed.heartbeat⟩
          rw [← lostRace_of_not_race hrace]
          exact .failed hknown e rfl hfailed.toDone
        | true =>
          simp only [hrace, if_true]
          have hstill : known k fp s₂ = none := by
            unfold known
            rw [hfailed.newest, hfailed.now]
            exact hknown
          refine (ensures_resolveRace hfailed.toRested hstill).mono fun r s₃ hs₃ => ?_
          obtain ⟨rfl, hlast⟩ := hs₃
          have hend := hfailed.looked hlast
          exact ⟨.failed hknown e rfl hend.toDone, hend.hot, hend.heartbeat⟩
  refine (ensures_unavailableAs hinner).mono fun r s' hr => ?_
  obtain ⟨a, ha, rfl⟩ := hr
  exact ha

end ProfileService.Idempotency
