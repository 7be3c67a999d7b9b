import ProfileService.Idempotency.Coordinator
import ProfileService.Idempotency.Frame

/-!
# One transaction, one record

`Consistent` ties the committed effects, the commits of the run and the versions
of every record row together. Every database await keeps it, and the durable
execution commits an operation's effect only together with its own record.
-/

namespace ProfileService.Idempotency
open Library Library.Machine Application

/-- The arguments of one `IdempotencyCoordinator.execute`. -/
structure Request {W : Type} (B : Business W) where
  identity : IdempotencyKey
  requestFingerprint : Digest
  operation : Operation B
  policy : IdempotencyPolicy
  leaseToken : Token

variable {W : Type} {B : Business W}

def Request.code (q : Request B) : Code (sig B) Exn CompletedIdempotencyResult :=
  execute q.identity q.requestFingerprint q.operation q.policy q.leaseToken

/-- A complete run of an operation inside the transaction of `w`: its own statements
and clock readings, with the steps of the others in between. -/
inductive Ran (w : W) {α : Type} :
    Code (stmtSig B) Exn α → B.State → Except Exn α → B.State → Prop where
  | ret (r : Except Exn α) (b : B.State) : Ran w (.ret r) b r b
  | clock {k b a b'} (now : Instant) (hk : Ran w (k (.ok now)) b a b') :
      Ran w (.call .clock k) b a b'
  | stmt {o k b r b₁ a b'} (hexec : B.exec w o b r b₁) (hk : Ran w (k r) b₁ a b') :
      Ran w (.call (.stmt o) k) b a b'
  | frame {x b b₁ a b'} (hf : B.frame w b b₁) (hx : Ran w x b₁ a b') : Ran w x b a b'

theorem Ran.of_ret {w : W} {α : Type} {r a : Except Exn α} {b b' : B.State}
    (h : Ran w (.ret r) b a b') : a = r := by
  generalize hx : (Code.ret r : Code (stmtSig B) Exn α) = x at h
  induction h with
  | ret r' b =>
    cases hx
    rfl
  | clock now hk ih => cases hx
  | stmt hexec hk ih => cases hx
  | frame hf hx' ih => exact ih hx

theorem Ran.bind_ok {w : W} {α β : Type} {x : Code (stmtSig B) Exn α}
    {f : α → Code (stmtSig B) Exn β} {b b' : B.State} {r : β}
    (h : Ran w (x >>= f) b (.ok r) b') : ∃ a b₁, Ran w (f a) b₁ (.ok r) b' := by
  generalize hy : x >>= f = y at h
  generalize hr : (Except.ok r : Except Exn β) = r' at h
  induction h generalizing x with
  | frame _ _ ih => exact ih hy hr
  | ret r' b =>
    subst hr
    cases x with
    | call o k => cases hy
    | ret r₀ =>
      cases r₀ with
      | error e => cases hy
      | ok a =>
        have hfa : f a = .ret (.ok r) := hy
        exact ⟨a, b, hfa ▸ .ret _ b⟩
  | @clock k b r' b' now hk ih =>
    cases x with
    | call o k' =>
      cases hy
      exact ih rfl hr
    | ret r₀ =>
      cases r₀ with
      | error e => cases hy
      | ok a =>
        have hfa : f a = .call .clock k := hy
        subst hr
        exact ⟨a, b, hfa ▸ .clock now hk⟩
  | @stmt o k b r₁ b₁ r' b' hexec hk ih =>
    cases x with
    | call o' k' =>
      cases hy
      exact ih rfl hr
    | ret r₀ =>
      cases r₀ with
      | error e => cases hy
      | ok a =>
        have hfa : f a = .call (.stmt o) k := hy
        subst hr
        exact ⟨a, b, hfa ▸ .stmt hexec hk⟩

/-- `row` is the record of the request `q` that worker `w` executed: it carries what
one complete run of the operation returned, and `staged` is what that run wrote
since the beginning of its transaction. -/
def OwnRecord (q : Request B) (w : W) (staged : B.Staged) (row : DurableRecord) : Prop :=
  ∃ b₀ b₁ stored, ∃ expiresAt : Deadline, B.staged w b₀ = B.nothing ∧
    Ran w q.operation.hotDurable b₀ (.ok stored) b₁ ∧ B.staged w b₁ = staged ∧
    row.completed = stored.completed q.requestFingerprint expiresAt

/-- The record versions the commits of a run installed for an identity. -/
def installs (k : IdempotencyKey) (log : List (Commit W B)) : List (Version W DurableRecord) :=
  log.filterMap fun c => (c.installed k).map fun row => ⟨some c.worker, row⟩

/-- A commit without a record committed no effect; a record it installed is the
committing request's own, and so is the effect. -/
structure CommitOk (job : W → Request B) (c : Commit W B) : Prop where
  own : ∀ k row, c.installed k = some row → k = (job c.worker).identity ∧
    row.createdAt ≤ c.instant ∧ OwnRecord (job c.worker) c.worker c.staged row
  recorded : (∀ k, c.installed k = none) → c.staged = B.nothing

/-- `before` are the versions of each record row before the run. -/
structure Consistent {H : HotStore W} (job : W → Request B)
    (before : IdempotencyKey → List (Version W DurableRecord)) [DecidableEq W]
    (s : World W H B) : Prop where
  idle : ∀ w, s.inTransaction w = false → B.staged w s.business = B.nothing ∧
    ∀ k, (s.records k).own w = none
  lawful : ∀ k, Row.Lawful Succeeds (s.records k)
  pending : ∀ k w row, (s.records k).pending = some (w, row) → k = (job w).identity ∧
    row.createdAt ≤ s.now ∧ OwnRecord (job w) w (B.staged w s.business) row ∧
    ∀ c ∈ s.log, c.worker = w → ∀ k', c.installed k' = none
  commits : ∀ c ∈ s.log, CommitOk job c
  versions : ∀ k, (s.records k).versions = installs k s.log ++ before k
  once : s.log.Pairwise fun d c => c.worker = d.worker → (∃ k, (c.installed k).isSome) →
    ∀ k, d.installed k = none

variable [DecidableEq W] {H : HotStore W} {job : W → Request B}
  {before : IdempotencyKey → List (Version W DurableRecord)} {s s' : World W H B} {w : W}

structure Clean (w : W) (s : World W H B) : Prop where
  inTransaction : s.inTransaction w = true
  own : ∀ k, (s.records k).own w = none
  staged : B.staged w s.business = B.nothing

/-- No commit of `w` has installed a record. -/
def Fresh (w : W) (s : World W H B) : Prop :=
  ∀ c ∈ s.log, c.worker = w → ∀ k, c.installed k = none

theorem Clean.frame (h : Clean w s) (hf : Frame w s s') : Clean w s' where
  inTransaction := hf.inTransaction.trans h.inTransaction
  own k := (hf.records k).own.trans (h.own k)
  staged := (B.staged_frame hf.business).trans h.staged

theorem Fresh.frame (h : Fresh w s) (hf : Frame w s s') : Fresh w s' :=
  fun c hc hw => h c (hf.ownLog c hc hw) hw

theorem Fresh.readClock (h : Fresh w s) : Fresh w (s.readClock w) := h

theorem Fresh.begin (h : Fresh w s) : Fresh w (s.begin w) := h

namespace Consistent

theorem readClock (h : Consistent job before s) : Consistent job before (s.readClock w) :=
  { h with }

theorem begin (h : Consistent job before s) : Consistent job before (s.begin w) := by
  refine { h with idle := fun u hu => h.idle u ?_ }
  by_cases huw : u = w
  · subst huw
    simp [World.begin] at hu
  · simpa [World.begin, huw] using hu

theorem begin_clean (h : Consistent job before s) (hw : s.inTransaction w = false) :
    Clean w (s.begin w) where
  inTransaction := by simp [World.begin]
  own := (h.idle w hw).2
  staged := (h.idle w hw).1

theorem idle_end (h : Consistent job before s) {s' : World W H B} (hf : ∀ u, u ≠ w → Frame u s s')
    (hstaged : B.staged w s'.business = B.nothing) (hown : ∀ k, (s'.records k).own w = none)
    (u : W) (hu : s'.inTransaction u = false) :
    B.staged u s'.business = B.nothing ∧ ∀ k, (s'.records k).own u = none := by
  by_cases huw : u = w
  · subst huw
    exact ⟨hstaged, hown⟩
  · have hfu := hf u huw
    have hold := h.idle u (hfu.inTransaction ▸ hu)
    refine ⟨(B.staged_frame hfu.business).trans hold.1, fun k => ?_⟩
    exact ((hfu.records k).own).trans (hold.2 k)

theorem pending_of_frame (h : Consistent job before s) {s' : World W H B}
    (hf : ∀ u, u ≠ w → Frame u s s') {k : IdempotencyKey} {u : W} {row : DurableRecord} (hu : u ≠ w)
    (hp : (s'.records k).pending = some (u, row)) : k = (job u).identity ∧
      row.createdAt ≤ s'.now ∧ OwnRecord (job u) u (B.staged u s'.business) row ∧
      ∀ c ∈ s'.log, c.worker = u → ∀ k', c.installed k' = none := by
  have hfu := hf u hu
  have hown : (s.records k).own u = some row := by
    rw [← (hfu.records k).own]
    exact Row.own_eq_some.2 hp
  obtain ⟨hk, hage, hrec, hfresh⟩ := h.pending k u row (Row.own_eq_some.1 hown)
  refine ⟨hk, le_trans hage hfu.now, ?_, Fresh.frame hfresh hfu⟩
  rw [B.staged_frame hfu.business]
  exact hrec

theorem rollback (h : Consistent job before s) (ht : s.inTransaction w = true) :
    Consistent job before (s.rollback w) := by
  have hf : ∀ u, u ≠ w → Frame u s (s.rollback w) := fun u hu => (DbStep.rollback ht).frame hu
  refine { h with idle := ?_, lawful := fun k => (h.lawful k).rollback, pending := ?_, versions := ?_ }
  · exact h.idle_end hf (B.staged_rollback w _) fun k => Row.own_rollback_self
  · intro k u row hp
    by_cases hu : u = w
    · subst hu
      have hnone : ((s.rollback u).records k).own u = none := Row.own_rollback_self
      rw [Row.own_eq_some.2 hp] at hnone
      cases hnone
    · exact h.pending_of_frame hf hu hp
  · intro k
    exact Row.rollback_versions.trans (h.versions k)

/-- A transaction may commit when it wrote nothing or a record of its own. -/
theorem commit (h : Consistent job before s) (ht : s.inTransaction w = true)
    (hw : (∀ k, (s.records k).own w = none) → B.staged w s.business = B.nothing) :
    Consistent job before (s.commit w) := by
  have hf : ∀ u, u ≠ w → Frame u s (s.commit w) := fun u hu => (DbStep.commit ht).frame hu
  have hpending : ∀ k row, (s.records k).own w = some row → _ := fun k row ho =>
    h.pending k w row (Row.own_eq_some.1 ho)
  refine ⟨?_, fun k => (h.lawful k).commit, ?_, ?_, ?_, ?_⟩
  · exact h.idle_end hf (B.staged_commit w _) fun k => Row.own_commit_self
  · intro k u row hp
    by_cases hu : u = w
    · subst hu
      have hnone : ((s.commit u).records k).own u = none := Row.own_commit_self
      rw [Row.own_eq_some.2 hp] at hnone
      cases hnone
    · exact h.pending_of_frame hf hu hp
  · intro c hc
    rcases List.mem_cons.1 hc with rfl | hc
    · refine ⟨fun k row ho => ?_, hw⟩
      obtain ⟨hk, hage, hrec, -⟩ := hpending k row ho
      exact ⟨hk, hage, hrec⟩
    · exact h.commits c hc
  · intro k
    show ((s.records k).commit w).versions = _
    cases ho : (s.records k).own w with
    | none => simp [World.commit, installs, Row.commit_of_not_own ho, ho, h.versions k]
    | some row => simp [World.commit, installs, Row.commit_of_own ho, ho, h.versions k]
  · refine List.pairwise_cons.2 ⟨fun c hc hcw hinst k => ?_, h.once⟩
    by_contra hne
    obtain ⟨row, hrow⟩ := Option.ne_none_iff_exists'.1 hne
    obtain ⟨k', hk'⟩ := hinst
    have hnone := (hpending k row hrow).2.2.2 c hc hcw k'
    simp [hnone] at hk'

/-- A record may be written by the first complete run of the operation. -/
theorem write (h : Consistent job before s) {row : DurableRecord} (ht : s.inTransaction w = true)
    (hown : ∀ k, (s.records k).own w = none) (hfree : (s.records (job w).identity).Free w)
    (hexpired : Succeeds ((s.records (job w).identity).visible w) row) (hage : row.createdAt ≤ s.now)
    (hrec : OwnRecord (job w) w (B.staged w s.business) row) (hfresh : Fresh w s) :
    Consistent job before (s.writeRecord w (job w).identity row) := by
  have hf : ∀ u, u ≠ w → Frame u s (s.writeRecord w (job w).identity row) :=
    fun u hu => (DbStep.write _ row ht hfree hexpired).frame hu
  rw [Row.visible_of_not_own (hown _)] at hexpired
  refine { h with idle := ?_, lawful := ?_, pending := ?_, versions := ?_ }
  · intro u hu
    have huw : u ≠ w := by
      rintro rfl
      rw [show (s.writeRecord u (job u).identity row).inTransaction u = s.inTransaction u from rfl,
        ht] at hu
      cases hu
    exact ⟨(h.idle u hu).1, fun k => ((hf u huw).records k).own.trans ((h.idle u hu).2 k)⟩
  · intro k
    by_cases hk : k = (job w).identity
    · subst hk
      simpa [World.writeRecord] using (h.lawful _).write hexpired
    · simpa [World.writeRecord, hk] using h.lawful k
  · intro k u row' hp
    by_cases hu : u = w
    · subst hu
      by_cases hk : k = (job u).identity
      · subst hk
        have hrow : row = row' := by simpa [World.writeRecord, Row.write] using hp
        subst hrow
        exact ⟨rfl, hage, hrec, hfresh⟩
      · have hp' : (s.records k).pending = some (u, row') := by
          simpa [World.writeRecord, hk] using hp
        rw [← Row.own_eq_some, hown k] at hp'
        cases hp'
    · exact h.pending_of_frame hf hu hp
  · intro k
    by_cases hk : k = (job w).identity
    · subst hk
      simpa [World.writeRecord] using h.versions _
    · simpa [World.writeRecord, hk] using h.versions k

theorem stmt (h : Consistent job before s) {o : B.Op} {r : Except Exn (B.Reply o)} {b : B.State}
    (ht : s.inTransaction w = true) (hown : ∀ k, (s.records k).own w = none)
    (hexec : B.exec w o s.business r b) : Consistent job before { s with business := b } := by
  have hf : ∀ u, u ≠ w → Frame u s { s with business := b } :=
    fun u hu => (DbStep.stmt o r b ht hexec).frame hu
  refine { h with idle := ?_, pending := ?_ }
  · intro u hu
    have huw : u ≠ w := by
      rintro rfl
      exact absurd ht (by simp [show s.inTransaction u = false from hu])
    exact ⟨(B.staged_frame (hf u huw).business).trans (h.idle u hu).1, (h.idle u hu).2⟩
  · intro k u row hp
    by_cases hu : u = w
    · subst hu
      have ho : (s.records k).own u = some row := Row.own_eq_some.2 hp
      rw [hown k] at ho
      cases ho
    · exact h.pending_of_frame hf hu hp

theorem setHot (h : Consistent job before s) (hot : H.State) :
    Consistent job before { s with hot := hot } := { h with }

theorem setHeartbeat (h : Consistent job before s) (hb : Option Heartbeat) :
    Consistent job before (s.setHeartbeat w hb) := { h with }

theorem env (h : Consistent job before s) (he : WorldEnv s s') : Consistent job before s' := by
  cases he with
  | tick now hle =>
    refine { h with pending := fun k u row hp => ?_ }
    obtain ⟨hk, hage, hrest⟩ := h.pending k u row hp
    exact ⟨hk, le_trans hage hle, hrest⟩
  | hot hs _ => exact h.setHot hs
  | beat u hb r hs _ _ _ => exact (h.setHot hs).setHeartbeat _

theorem crash (h : Consistent job before s) : Consistent job before (s.crash w) := by
  unfold World.crash
  split
  · rename_i ht
    exact (h.rollback ht).setHeartbeat none
  · exact h.setHeartbeat none

end Consistent
end ProfileService.Idempotency
