import ProfileService.Idempotency.ClaimedExecution
import ProfileService.Idempotency.DurableExecution
import ProfileService.Idempotency.Ownership

/-!
# The discipline of a lease

What one claimed execution does with its lease in every schedule of its two tasks, and
when a cancellation from outside reaches its caller.
-/

namespace ProfileService.Idempotency
open Library Library.Machine Application

namespace Claimed

variable {q : Call} {s s' s'' : State} {α : Type}

/-- What the steps of the heartbeat leave to the execution. -/
structure BeatFrame (s s' : State) : Prop where
  stop : s'.stop = s.stop
  cancelRequested : s'.cancelRequested = s.cancelRequested
  outcome : s'.outcome = s.outcome
  seenLost : s'.seenLost = s.seenLost
  clockRead : s'.clockRead = s.clockRead
  cancelledAt : s'.cancelledAt = s.cancelledAt
  ended : s.beat.done = true → s' = s
  issued : ∃ renewals, s'.issued = renewals ++ s.issued ∧ ∀ i ∈ renewals, i.call.ends = false

theorem BeatFrame.refl (s : State) : BeatFrame s s :=
  ⟨rfl, rfl, rfl, rfl, rfl, rfl, fun _ => rfl, [], rfl, fun _ hi => absurd hi List.not_mem_nil⟩

theorem BeatFrame.trans (h : BeatFrame s s') (h' : BeatFrame s' s'') : BeatFrame s s'' where
  stop := h'.stop.trans h.stop
  cancelRequested := h'.cancelRequested.trans h.cancelRequested
  outcome := h'.outcome.trans h.outcome
  seenLost := h'.seenLost.trans h.seenLost
  clockRead := h'.clockRead.trans h.clockRead
  cancelledAt := h'.cancelledAt.trans h.cancelledAt
  ended hd := by
    obtain rfl := h.ended hd
    exact h'.ended hd
  issued := by
    obtain ⟨new, hnew, hends⟩ := h.issued
    obtain ⟨new', hnew', hends'⟩ := h'.issued
    refine ⟨new' ++ new, by rw [hnew', hnew, List.append_assoc], fun i hi => ?_⟩
    rcases List.mem_append.1 hi with hi | hi
    · exact hends' i hi
    · exact hends i hi

theorem BeatStep.frame (h : BeatStep q s s') : BeatFrame s s' := by
  have hr := BeatFrame.refl s
  cases h with
  | start h hs => exact { hr with ended := fun hd => by rw [h] at hd; cases hd }
  | wake h hs =>
    refine { hr with
      ended := fun hd => by rw [h] at hd; cases hd
      issued := ⟨[_], rfl, fun i hi => ?_⟩ }
    rw [List.mem_singleton.1 hi]
    rfl
  | renewed h hs => exact { hr with ended := fun hd => by rw [h] at hd; cases hd }
  | stopped h hs => exact { hr with ended := fun hd => by rw [h] at hd; cases hd }
  | sleepRaised h => exact { hr with ended := fun hd => by rw [h] at hd; cases hd }
  | notRenewed answer h htrue hraised =>
    exact { hr with ended := fun hd => by rw [h] at hd; cases hd }
  | cancelled h hc => exact { hr with ended := fun hd => by rw [h] at hd; cases hd }

def rely (q : Call) : (machine q).Rely where
  rel _ := BeatFrame
  refl _ := BeatFrame.refl
  trans := BeatFrame.trans
  exec _ hw := absurd rfl hw
  env h := h.frame
  crash h := h.elim

/-- Neither `complete` nor `release` has been called. -/
def Unended (s : State) : Prop := ∀ i ∈ s.issued, i.call.ends = false

def Completes (c : HotCall) (completed : CompletedIdempotencyResult) : Prop :=
  ∃ k token ttl, c = .complete k token completed ttl

def Releases (c : HotCall) : Prop := ∃ k token, c = .release k token

/-- The lease is given up at most once, by publishing a completed result or by releasing
without one, not at all once it was seen lost, and after a cancellation only where the
join swallowed it. -/
structure Discipline (s : State) : Prop where
  once : (s.issued.countP fun i => i.call.ends) ≤ 1
  complete : ∀ i ∈ s.issued, ∀ completed, Completes i.call completed →
    ∃ result, s.outcome = some (.ok result) ∧ result.completed? = some completed
  release : ∀ i ∈ s.issued, Releases i.call → (∃ e, s.outcome = some (.error e)) ∨
    ∃ result, s.outcome = some (.ok result) ∧ result.completed? = none
  lost : s.seenLost = true → Unended s
  late : ∀ i ∈ s.issued, i.late = true → ∀ completed, Completes i.call completed →
    s.cancelledAt = some .join

/-- No result is published after the cancellation. -/
def Unpublished (s : State) : Prop :=
  ∀ i ∈ s.issued, i.late = true → ∀ completed, ¬ Completes i.call completed

theorem Unended.frame (h : Unended s) (hf : BeatFrame s s') : Unended s' := by
  obtain ⟨new, hnew, hends⟩ := hf.issued
  intro i hi
  rw [hnew] at hi
  rcases List.mem_append.1 hi with hi | hi
  · exact hends i hi
  · exact h i hi

theorem Completes.ends {c : HotCall} {completed : CompletedIdempotencyResult}
    (h : Completes c completed) : c.ends = true := by
  obtain ⟨k, token, ttl, rfl⟩ := h
  rfl

theorem Releases.ends {c : HotCall} (h : Releases c) : c.ends = true := by
  obtain ⟨k, token, rfl⟩ := h
  rfl

theorem Unended.discipline (h : Unended s) : Discipline s where
  once := by
    have hzero : (s.issued.countP fun i => i.call.ends) = 0 :=
      List.countP_eq_zero.2 fun i hi => by rw [h i hi]; exact Bool.false_ne_true
    omega
  complete i hi completed hc := absurd hc.ends (by rw [h i hi]; exact Bool.false_ne_true)
  release i hi hr := absurd hr.ends (by rw [h i hi]; exact Bool.false_ne_true)
  lost _ := h
  late i hi _ completed hc := absurd hc.ends (by rw [h i hi]; exact Bool.false_ne_true)

theorem Discipline.frame (h : Discipline s) (hf : BeatFrame s s') : Discipline s' := by
  obtain ⟨new, hnew, hends⟩ := hf.issued
  have hold : ∀ i ∈ s'.issued, i.call.ends = true → i ∈ s.issued := by
    intro i hi he
    rw [hnew] at hi
    rcases List.mem_append.1 hi with hi | hi
    · rw [hends i hi] at he
      cases he
    · exact hi
  refine ⟨?_, fun i hi completed hc => ?_, fun i hi hr => ?_, fun hlost => ?_,
    fun i hi hlate completed hc => ?_⟩
  · have hzero : (new.countP fun i => i.call.ends) = 0 :=
      List.countP_eq_zero.2 fun i hi => by rw [hends i hi]; exact Bool.false_ne_true
    rw [hnew, List.countP_append, hzero, Nat.zero_add]
    exact h.once
  · rw [hf.outcome]
    exact h.complete i (hold i hi hc.ends) completed hc
  · rw [hf.outcome]
    exact h.release i (hold i hi hr.ends) hr
  · exact (h.lost (hf.seenLost ▸ hlost)).frame hf
  · rw [hf.cancelledAt]
    exact h.late i (hold i hi hc.ends) hlate completed hc

theorem Unended.issue {c : HotCall} {a : Option (Except Exn Bool)} (h : Unended s)
    (hlost : s.seenLost = false)
    (hcomplete : ∀ completed, Completes c completed →
      (∃ result, s.outcome = some (.ok result) ∧ result.completed? = some completed) ∧
        (s.cancelledAt = none ∨ s.cancelledAt = some .join))
    (hrelease : Releases c → (∃ e, s.outcome = some (.error e)) ∨
      ∃ result, s.outcome = some (.ok result) ∧ result.completed? = none) :
    Discipline (s.issue c a) where
  once := by
    have hzero : (s.issued.countP fun i => i.call.ends) = 0 :=
      List.countP_eq_zero.2 fun i hi => by rw [h i hi]; exact Bool.false_ne_true
    show (List.countP _ (_ :: s.issued)) ≤ 1
    rw [List.countP_cons, hzero]
    split <;> omega
  complete i hi completed hc := by
    rcases List.mem_cons.1 hi with rfl | hi
    · exact (hcomplete completed hc).1
    · exact absurd hc.ends (by rw [h i hi]; exact Bool.false_ne_true)
  release i hi hr := by
    rcases List.mem_cons.1 hi with rfl | hi
    · exact hrelease hr
    · exact absurd hr.ends (by rw [h i hi]; exact Bool.false_ne_true)
  lost hseen := absurd hseen (by
    rw [show (s.issue c a).seenLost = s.seenLost from rfl, hlost]
    exact Bool.false_ne_true)
  late i hi hlate completed hc := by
    rcases List.mem_cons.1 hi with rfl | hi
    · rcases (hcomplete completed hc).2 with hnone | hjoin
      · rw [show s.cancelledAt.isSome = false by rw [hnone]; rfl] at hlate
        cases hlate
      · exact hjoin
    · exact absurd hc.ends (by rw [h i hi]; exact Bool.false_ne_true)

/-- A cancellation that arrives while the only such call is awaited comes after it. -/
theorem Discipline.cancel {c : HotCall} {a : Option (Except Exn Bool)} (h : Unended s)
    (hd : Discipline (s.issue c a)) (hnone : s.cancelledAt = none) (p : Point) :
    Discipline { s.issue c a with cancelledAt := some p } where
  once := hd.once
  complete := hd.complete
  release := hd.release
  lost := hd.lost
  late i hi hlate completed hc := by
    rcases List.mem_cons.1 hi with rfl | hi
    · rw [show s.cancelledAt.isSome = false by rw [hnone]; rfl] at hlate
      cases hlate
    · exact absurd hc.ends (by rw [h i hi]; exact Bool.false_ne_true)

def Call.complete (q : Call) (completed : CompletedIdempotencyResult) : HotCall :=
  .complete q.identity q.leaseToken completed q.policy.hotResultTtlSeconds

/-! ### One execution -/

/-- `x` keeps the discipline in every schedule of the heartbeat and ends with `Q`. -/
abbrev Keeps (q : Call) (Q : Except Exn α → State → Prop) (x : Code claimedSig Exn α)
    (s : State) : Prop :=
  Safe (rely q) Discipline () Q x s

/-- The `try` statement is left, and the heartbeat still has to be joined. -/
inductive Tried (s : State) : Except Exn IdempotencyResult → Prop where
  | returned (result) (hout : s.outcome = some (.ok result)) (hunended : Unended s)
      (hseen : s.seenLost = false) (hc : s.cancelledAt = none) : Tried s (.ok result)
  | raised (e e₀) (hout : s.outcome = some (.error e₀))
      (hc : (s.cancelledAt = none ∧ e = e₀) ∨
        (e = .cancelled ∧ ∃ p, s.cancelledAt = some p ∧ p ≠ .join ∧
          (p = .operation → e₀ = .cancelled))) : Tried s (.error e)

inductive Stopped (s : State) : Except Exn IdempotencyResult → Prop where
  | returned (result) (hout : s.outcome = some (.ok result)) (hunended : Unended s)
      (hseen : s.seenLost = false) (hc : s.cancelledAt = none ∨ s.cancelledAt = some .join)
      (hstop : s.stop = true) (hdone : s.beat.done = true) : Stopped s (.ok result)
  | raised (e e₀) (hout : s.outcome = some (.error e₀))
      (hc : ((s.cancelledAt = none ∨ s.cancelledAt = some .join) ∧ e = e₀) ∨
        (e = .cancelled ∧ ∃ p, s.cancelledAt = some p ∧ p ≠ .join ∧
          (p = .operation → e₀ = .cancelled)))
      (hstop : s.stop = true) (hdone : s.beat.done = true) : Stopped s (.error e)

def answered (outcome : Except Exn IdempotencyResult) (now : Instant) :
    Except Exn CompletedIdempotencyResult :=
  outcome.bind fun result => evaluated result now

structure Settled (q : Call) (r : Except Exn CompletedIdempotencyResult) (s : State) : Prop where
  stopped : s.stop = true
  joined : s.beat.done = true
  durable : q.policy.mode = .hotDurable → (∀ p, s.cancelledAt = some p → p = .operation) →
    ∃ outcome, s.outcome = some outcome ∧ r = answered outcome s.clockRead
  hotOnly : q.policy.mode = .hotOnly → ∀ completed, r = .ok completed →
    ∃ i ∈ s.issued, Completes i.call completed ∧ i.answer = some (.ok true)
  cancelled : ∀ p, s.cancelledAt = some p →
    ((r = .error .cancelled ∧ Unpublished s) ↔
      (p ≠ .join ∨ s.outcome = some (.error .cancelled)))

theorem Tried.frame {r : Except Exn IdempotencyResult} (h : Tried s r) (hf : BeatFrame s s') :
    Tried s' r := by
  cases h with
  | returned result hout hunended hseen hc =>
    exact .returned result (hf.outcome.trans hout) (hunended.frame hf) (hf.seenLost.trans hseen)
      (hf.cancelledAt.trans hc)
  | raised e e₀ hout hc => exact .raised e e₀ (hf.outcome.trans hout) (by rw [hf.cancelledAt]; exact hc)

theorem Stopped.frame {r : Except Exn IdempotencyResult} (h : Stopped s r) (hf : BeatFrame s s') :
    Stopped s' r := by
  have hdone : s.beat.done = true := by cases h <;> assumption
  obtain rfl := hf.ended hdone
  exact h

theorem Discipline.unpublished (h : Discipline s) {e : Exn} (hout : s.outcome = some (.error e)) :
    Unpublished s := by
  intro i hi _ completed hc
  obtain ⟨result, hresult, -⟩ := h.complete i hi completed hc
  rw [hout] at hresult
  cases hresult

theorem keeps_leaseLost {P : Except Exn Bool → State → Prop} (hs : Unended s)
    (h : ∀ s₁, BeatFrame s s₁ → ∀ s₂,
      BeatFrame { s₁ with seenLost := s₁.seenLost || s₁.lostLease } s₂ → P (.ok s₁.lostLease) s₂) :
    Keeps q P leaseLost s := by
  intro s₁ hf hi r s₂ he
  obtain ⟨rfl, rfl⟩ := he
  have hun : Unended { s₁ with seenLost := s₁.seenLost || s₁.lostLease } := fun i hi =>
    hs.frame hf i hi
  exact ⟨hun.discipline, fun s₃ hf₃ _ => h s₁ hf s₃ hf₃⟩

/-- A release is answered, or cut short by the cancellation. -/
theorem keeps_release {P : Except Exn Unit → State → Prop} (hs : Unended s)
    (hseen : s.seenLost = false) (hout : (∃ e, s.outcome = some (.error e)) ∨
      ∃ result, s.outcome = some (.ok result) ∧ result.completed? = none)
    (hok : ∀ s₁, BeatFrame s s₁ → ∀ a s₂, BeatFrame
      (s₁.issue (.release q.identity q.leaseToken) a) s₂ → P (.ok ()) s₂)
    (hcancelled : s.cancelledAt = none → ∀ s₁, BeatFrame s s₁ → ∀ a s₂, BeatFrame
      { s₁.issue (.release q.identity q.leaseToken) a with cancelledAt := some .release } s₂ →
        P (.error .cancelled) s₂) :
    Keeps q P release_ s := by
  intro s₁ hf hi r s₂ he
  have hdiscipline : ∀ a, Discipline (s₁.issue (.release q.identity q.leaseToken) a) := by
    intro a
    apply (hs.frame hf).issue (hf.seenLost.trans hseen)
    · rintro completed ⟨k, token, ttl, hc⟩
      cases hc
    · intro _
      rw [hf.outcome]
      exact hout
  rcases he with ⟨hanswer, rfl⟩ | ⟨hnone, rfl, rfl⟩
  · refine ⟨hdiscipline _, ?_⟩
    cases hanswer with
    | answered b => exact fun s₃ hf₃ _ => hok s₁ hf _ s₃ hf₃
    | unavailable message => exact fun s₃ hf₃ _ => hok s₁ hf _ s₃ hf₃
  · exact ⟨.cancel (hs.frame hf) (hdiscipline _) hnone _,
      fun s₃ hf₃ _ => hcancelled (hf.cancelledAt ▸ hnone) s₁ hf _ s₃ hf₃⟩

/-- With the heartbeat joined nothing but the execution itself changes the state. -/
theorem keeps_complete {P : Except Exn Unit → State → Prop}
    {completed : CompletedIdempotencyResult} (hs : Unended s) (hdone : s.beat.done = true)
    (hseen : s.seenLost = false)
    (hout : ∃ result, s.outcome = some (.ok result) ∧ result.completed? = some completed)
    (hc : s.cancelledAt = none ∨ s.cancelledAt = some .join)
    (hpublished : P (.ok ()) (s.issue (q.complete completed) (some (.ok true))))
    (hdegraded : ∀ a, q.policy.mode ≠ .hotOnly → P (.ok ()) (s.issue (q.complete completed) a))
    (hfatal : ∀ a message, q.policy.mode = .hotOnly →
      P (.error (.idempotencyUnavailable message)) (s.issue (q.complete completed) a))
    (hcancelled : s.cancelledAt = none → ∀ a, P (.error .cancelled)
      { s.issue (q.complete completed) a with cancelledAt := some .complete }) :
    Keeps q P (complete_ q.policy completed) s := by
  intro s₁ hf hi r s₂ he
  obtain rfl : s₁ = s := BeatFrame.ended hf hdone
  have hdiscipline : ∀ a, Discipline (s₁.issue (q.complete completed) a) := by
    intro a
    apply hs.issue hseen
    · rintro c ⟨k, token, ttl, hcall⟩
      cases hcall
      exact ⟨hout, hc⟩
    · rintro ⟨k, token, hc⟩
      cases hc
  have hret : ∀ (r : Except Exn Unit) (s₂ : State), s₂.beat.done = true → P r s₂ →
      Keeps q P (.ret r) s₂ := by
    intro r s₂ hd hp s₃ hf₃ _
    obtain rfl : s₃ = s₂ := BeatFrame.ended hf₃ hd
    exact hp
  rcases he with ⟨hanswer, rfl⟩ | ⟨hnone, rfl, rfl⟩
  · refine ⟨hdiscipline _, ?_⟩
    cases hanswer with
    | answered b =>
      show Keeps q P (if (!b) = true ∧ q.policy.mode = .hotOnly then _ else _) _
      by_cases hmode : q.policy.mode = .hotOnly
      · cases b with
        | true => exact hret _ _ hdone hpublished
        | false =>
          rw [if_pos ⟨rfl, hmode⟩]
          exact hret _ _ hdone (hfatal _ _ hmode)
      · rw [if_neg fun h => hmode h.2]
        exact hret _ _ hdone (hdegraded _ hmode)
    | unavailable message =>
      show Keeps q P (if q.policy.mode = .hotOnly then _ else _) _
      by_cases hmode : q.policy.mode = .hotOnly
      · rw [if_pos hmode]
        exact hret _ _ hdone (hfatal _ _ hmode)
      · rw [if_neg hmode]
        exact hret _ _ hdone (hdegraded _ hmode)
  · exact ⟨.cancel hs (hdiscipline _) hnone _, hret _ _ hdone (hcancelled hnone _)⟩

/-- What the `except` raises once the release has ended with `r`. -/
def released (e : Exn) : Except Exn Unit → Exn
  | .ok _ => e
  | .error e' => e'

theorem keeps_abandonClaim {e : Exn} (hs : Unended s) (hseen : s.seenLost = false)
    (hout : s.outcome = some (.error e))
    (hc : s.cancelledAt = none ∨ (e = .cancelled ∧ s.cancelledAt = some .operation)) :
    Keeps q (fun r s => Tried s r) (abandonClaim e) s := by
  have hraised : ∀ s', s'.outcome = s.outcome → s'.cancelledAt = s.cancelledAt →
      Tried s' (.error e : Except Exn IdempotencyResult) := by
    intro s' hout' hc'
    refine .raised e e (hout'.trans hout) ?_
    rw [hc']
    rcases hc with hnone | ⟨rfl, hat⟩
    · exact .inl ⟨hnone, rfl⟩
    · exact .inr ⟨rfl, .operation, hat, (by simp), fun _ => rfl⟩
  unfold abandonClaim
  apply Safe.bind (P := fun r s' => ∃ lost, r = .ok lost ∧ Unended s' ∧ s'.seenLost = lost ∧
    s'.outcome = s.outcome ∧ s'.cancelledAt = s.cancelledAt)
  · apply keeps_leaseLost hs
    intro s₁ hf s₂ hf₂
    refine ⟨s₁.lostLease, rfl, fun i hi => ?_, ?_, hf₂.outcome.trans hf.outcome,
      hf₂.cancelledAt.trans hf.cancelledAt⟩
    · have hun : Unended { s₁ with seenLost := s₁.seenLost || s₁.lostLease } := fun i hi =>
        hs.frame hf i hi
      exact hun.frame hf₂ i hi
    · rw [hf₂.seenLost]
      show (s₁.seenLost || s₁.lostLease) = s₁.lostLease
      rw [hf.seenLost, hseen, Bool.false_or]
  · rintro lost s' ⟨_, hlost, hun, hseen', hout', hc'⟩ _
    cases hlost
    cases lost with
    | true =>
      intro s₂ hf _
      exact hraised s₂ (hf.outcome.trans hout') (hf.cancelledAt.trans hc')
    | false =>
      apply Safe.bind (P := fun r s₂ => Tried s₂ (.error (released e r)))
      · apply keeps_release hun hseen' (.inl ⟨e, hout'.trans hout⟩)
        · intro s₁ hf a s₂ hf₂
          exact hraised s₂ (hf₂.outcome.trans (hf.outcome.trans hout'))
            (hf₂.cancelledAt.trans (hf.cancelledAt.trans hc'))
        · intro hnone s₁ hf a s₂ hf₂
          exact .raised .cancelled e (hf₂.outcome.trans (hf.outcome.trans (hout'.trans hout)))
            (.inr ⟨rfl, .release, hf₂.cancelledAt, (by simp), (by simp)⟩)
      · exact fun _ s₂ htried _ s₃ hf _ => htried.frame hf
      · exact fun e' s₂ htried => htried
  · rintro e' s' ⟨_, hlost, -⟩
    cases hlost

theorem keeps_operation (hs : Unended s) (hseen : s.seenLost = false)
    (hnone : s.cancelledAt = none) :
    Keeps q (fun r s => Tried s r) (tryCatch (.call .execute .ret) abandonClaim) s := by
  intro s₁ hf hi r s₂ he
  have hun : Unended s₁ := hs.frame hf
  have hseen₁ : s₁.seenLost = false := hf.seenLost.trans hseen
  have hnone₁ : s₁.cancelledAt = none := hf.cancelledAt.trans hnone
  rcases he with ⟨-, rfl⟩ | ⟨-, rfl, rfl⟩
  · have hun₂ : Unended { s₁ with outcome := some r } := hun
    refine ⟨hun₂.discipline, ?_⟩
    cases r with
    | ok result =>
      intro s₃ hf₃ _
      exact .returned result hf₃.outcome (hun₂.frame hf₃) (hf₃.seenLost.trans hseen₁)
        (hf₃.cancelledAt.trans hnone₁)
    | error e => exact keeps_abandonClaim hun₂ hseen₁ rfl (.inl hnone₁)
  · have hun₂ : Unended
        { s₁ with outcome := some (.error .cancelled), cancelledAt := some .operation } := hun
    exact ⟨hun₂.discipline, keeps_abandonClaim hun₂ hseen₁ rfl (.inr ⟨rfl, rfl⟩)⟩

theorem Tried.stopped {r : Except Exn IdempotencyResult} (h : Tried s r) (hstop : s.stop = true)
    (hdone : s.beat.done = true) : Stopped s r := by
  cases h with
  | returned result hout hunended hseen hc =>
    exact .returned result hout hunended hseen (.inl hc) hstop hdone
  | raised e e₀ hout hc =>
    refine .raised e e₀ hout ?_ hstop hdone
    rcases hc with ⟨hnone, he⟩ | hc
    · exact .inl ⟨.inl hnone, he⟩
    · exact .inr hc

theorem Tried.cancelledJoin {r : Except Exn IdempotencyResult} (h : Tried s r)
    (hstop : s.stop = true) (hdone : s.beat.done = true) (hnone : s.cancelledAt = none) :
    Stopped { s with cancelledAt := some .join } r := by
  cases h with
  | returned result hout hunended hseen hc =>
    exact .returned result hout hunended hseen (.inr rfl) hstop hdone
  | raised e e₀ hout hc =>
    refine .raised e e₀ hout (.inl ⟨.inr rfl, ?_⟩) hstop hdone
    rcases hc with ⟨_, he⟩ | ⟨_, p, hp, _, _⟩
    · exact he
    · rw [hnone] at hp
      cases hp

/-- The join swallows the cancellation of the heartbeat, and one of its own. -/
theorem keeps_stopHeartbeat {r : Except Exn IdempotencyResult} (h : Tried s r) :
    Keeps q (fun stopped s => stopped = .ok () ∧ Stopped s r) stopHeartbeat_ s := by
  intro s₁ hf hi stopped s₂ he
  obtain ⟨rfl, rfl⟩ := he
  have htried : Tried { s₁ with stop := true, cancelRequested := !s₁.beat.done } r := by
    cases h.frame hf with
    | returned result hout hunended hseen hc => exact .returned result hout hunended hseen hc
    | raised e e₀ hout hc => exact .raised e e₀ hout hc
  refine ⟨⟨hi.once, hi.complete, hi.release, hi.lost, hi.late⟩,
    fun s₃ hf₃ hi₃ joined s₄ he => ?_⟩
  have hstop : s₃.stop = true := hf₃.stop
  obtain ⟨hdone, ⟨rfl, rfl⟩ | ⟨hnone, -, rfl, rfl⟩⟩ := he
  · refine ⟨hi₃, ?_⟩
    have hret : ∀ s', BeatFrame s₄ s' → Stopped s' r := fun s' hf' =>
      ((htried.frame hf₃).stopped hstop hdone).frame hf'
    by_cases hb : s₄.beat = .ended true
    · rw [if_pos hb]
      exact fun s' hf' _ => ⟨rfl, hret s' hf'⟩
    · rw [if_neg hb]
      exact fun s' hf' _ => ⟨rfl, hret s' hf'⟩
  · refine ⟨⟨hi₃.once, hi₃.complete, hi₃.release, hi₃.lost, fun _ _ _ _ _ => rfl⟩,
      fun s' hf' _ => ⟨rfl, ?_⟩⟩
    exact ((htried.frame hf₃).cancelledJoin hstop hdone hnone).frame hf'

theorem keeps_evaluateResult {P : Except Exn CompletedIdempotencyResult → State → Prop}
    {result : IdempotencyResult} (hdone : s.beat.done = true)
    (hanswer : ∀ now, P (evaluated result now) { s with clockRead := now })
    (hnone : result.completed? = none → P (evaluated result 0) s) :
    Keeps q P (evaluateResult result) s := by
  have hclock : Keeps q P (.call .clock fun now => .ret (now.bind (evaluated result))) s := by
    intro s₁ hf hi r s₂ he
    obtain rfl : s₁ = s := BeatFrame.ended hf hdone
    obtain ⟨now, rfl, rfl⟩ := he
    refine ⟨⟨hi.once, hi.complete, hi.release, hi.lost, hi.late⟩, fun s₃ hf₃ _ => ?_⟩
    obtain rfl : s₃ = _ := BeatFrame.ended hf₃ hdone
    exact hanswer now
  have hread : result.completed? = none → Keeps q P (.ret (evaluated result 0)) s := by
    intro hcompleted s₁ hf _
    obtain rfl : s₁ = s := BeatFrame.ended hf hdone
    exact hnone hcompleted
  cases result with
  | executed completed => exact hclock
  | replay completed => exact hclock
  | conflict => exact hread rfl
  | inProgress => exact hread rfl

theorem evaluated_ne_cancelled (result : IdempotencyResult) (now : Instant) :
    evaluated result now ≠ .error .cancelled := by
  cases result with
  | executed completed =>
    simp only [evaluated]
    split <;> simp
  | replay completed =>
    simp only [evaluated]
    split <;> simp
  | conflict => simp [evaluated]
  | inProgress => simp [evaluated]

/-- The operation returned, and no cancellation or one swallowed at the join. -/
structure Returned (q : Call) (result : IdempotencyResult) (s : State) : Prop where
  out : s.outcome = some (.ok result)
  stop : s.stop = true
  done : s.beat.done = true
  cancelled : s.cancelledAt = none ∨ s.cancelledAt = some .join

theorem Returned.not_kept {result : IdempotencyResult} (h : Returned q result s) {p : Point}
    (hp : s.cancelledAt = some p) : ¬ (p ≠ .join ∨ s.outcome = some (.error .cancelled)) := by
  rintro (hjoin | hout)
  · rcases h.cancelled with hnone | hat
    · rw [hnone] at hp
      cases hp
    · rw [hat] at hp
      cases hp
      exact hjoin rfl
  · rw [h.out] at hout
    cases hout

theorem Returned.settled {result : IdempotencyResult} (h : Returned q result s)
    (hhot : q.policy.mode = .hotOnly → ∀ completed, evaluated result s.clockRead = .ok completed →
      ∃ i ∈ s.issued, Completes i.call completed ∧ i.answer = some (.ok true)) :
    Settled q (evaluated result s.clockRead) s where
  stopped := h.stop
  joined := h.done
  durable _ _ := ⟨.ok result, h.out, rfl⟩
  hotOnly := hhot
  cancelled p hp := by
    constructor
    · rintro ⟨hr, -⟩
      exact absurd hr (evaluated_ne_cancelled _ _)
    · intro hkept
      exact absurd hkept (h.not_kept hp)

theorem Returned.settled_unavailable {result : IdempotencyResult} (h : Returned q result s)
    (hmode : q.policy.mode = .hotOnly) (message : String) :
    Settled q (.error (.idempotencyUnavailable message)) s where
  stopped := h.stop
  joined := h.done
  durable hdurable := by
    rw [hmode] at hdurable
    cases hdurable
  hotOnly _ completed hr := by cases hr
  cancelled p hp := by
    constructor
    · rintro ⟨hr, -⟩
      cases hr
    · intro hkept
      exact absurd hkept (h.not_kept hp)

theorem settled_cancelled {p : Point} (hstop : s.stop = true) (hdone : s.beat.done = true)
    (hat : s.cancelledAt = some p) (hjoin : p ≠ .join) (hoperation : p ≠ .operation)
    (hun : Unpublished s) : Settled q (.error .cancelled) s where
  stopped := hstop
  joined := hdone
  durable _ honly := absurd (honly p hat) hoperation
  hotOnly _ completed hr := by cases hr
  cancelled p' hp' := by
    rw [hat] at hp'
    cases hp'
    exact ⟨fun _ => .inl hjoin, fun _ => ⟨rfl, hun⟩⟩

theorem Stopped.settled {e : Exn} (h : Stopped s (.error e)) (hd : Discipline s) :
    Settled q (.error e) s := by
  cases h with
  | raised _ e₀ hout hc hstop hdone =>
    refine ⟨hstop, hdone, fun _ honly => ⟨.error e₀, hout, ?_⟩, fun _ completed hr => (by cases hr),
      fun p hp => ?_⟩
    · rcases hc with ⟨_, rfl⟩ | ⟨rfl, p, hat, _, hoperation⟩
      · rfl
      · rw [hoperation (honly p hat)]
        rfl
    · rcases hc with ⟨hnone | hat, rfl⟩ | ⟨rfl, p', hat, hjoin, -⟩
      · rw [hnone] at hp
        cases hp
      · rw [hat] at hp
        cases hp
        constructor
        · rintro ⟨hr, -⟩
          cases hr
          exact .inr hout
        · rintro (hjoin | hcancelled)
          · exact absurd rfl hjoin
          · rw [hout] at hcancelled
            cases hcancelled
            exact ⟨rfl, hd.unpublished hout⟩
      · rw [hat] at hp
        cases hp
        exact ⟨fun _ => .inl hjoin, fun _ => ⟨rfl, hd.unpublished hout⟩⟩

theorem evaluated_ok {result : IdempotencyResult} {now : Instant}
    {completed : CompletedIdempotencyResult} (h : evaluated result now = .ok completed) :
    result.completed? = some completed := by
  have hunexpired : ∀ c : CompletedIdempotencyResult, (if c.expiresAt ≤ now then
      .error (.idempotencyUnavailable "Replay lifetime expired before response")
      else .ok c : Except Exn CompletedIdempotencyResult) = .ok completed →
      some c = some completed := by
    intro c hc
    split at hc
    · cases hc
    · cases hc
      rfl
  cases result with
  | executed c => exact hunexpired c h
  | replay c => exact hunexpired c h
  | conflict => cases h
  | inProgress => cases h

/-- The last hot call of an execution that returned is over. -/
inductive Published (q : Call) (result : IdempotencyResult) : Except Exn Unit → State → Prop where
  | returned {s : State} (h : Returned q result s) (hhot : q.policy.mode = .hotOnly → ∀ completed,
      result.completed? = some completed →
        ∃ i ∈ s.issued, Completes i.call completed ∧ i.answer = some (.ok true)) :
      Published q result (.ok ()) s
  | raised {s : State} (e : Exn) (h : Settled q (.error e) s) : Published q result (.error e) s

theorem Unended.unpublished (h : Unended s) : Unpublished s := by
  intro i hi _ completed hc
  have he := hc.ends
  rw [h i hi] at he
  cases he

theorem keeps_completed {result : IdempotencyResult} {completed : CompletedIdempotencyResult}
    (hun : Unended s) (hseen : s.seenLost = false) (h : Returned q result s)
    (hcompleted : result.completed? = some completed) :
    Keeps q (Published q result) (complete_ q.policy completed) s := by
  have hissued : ∀ a, Returned q result (s.issue (q.complete completed) a) := fun a =>
    ⟨h.out, h.stop, h.done, h.cancelled⟩
  apply keeps_complete hun h.done hseen ⟨result, h.out, hcompleted⟩ h.cancelled
  · refine .returned (hissued _) fun _ c hc => ?_
    obtain rfl : completed = c := Option.some.inj (hcompleted.symm.trans hc)
    exact ⟨_, List.mem_cons_self, ⟨_, _, _, rfl⟩, rfl⟩
  · exact fun a hmode => .returned (hissued a) fun hhot => absurd hhot hmode
  · exact fun a message hmode => .raised _ ((hissued a).settled_unavailable hmode message)
  · intro hnone a
    refine .raised _ (settled_cancelled h.stop h.done rfl (by simp) (by simp) fun i hi hlate => ?_)
    rcases List.mem_cons.1 hi with rfl | hi
    · rw [show s.cancelledAt.isSome = false by rw [hnone]; rfl] at hlate
      cases hlate
    · exact hun.unpublished i hi hlate

theorem keeps_released {result : IdempotencyResult} (hun : Unended s) (hseen : s.seenLost = false)
    (h : Returned q result s) (hnone : result.completed? = none) :
    Keeps q (Published q result) release_ s := by
  have hnotCompleted : ∀ c, result.completed? = some c → False := by
    intro c hc
    rw [hnone] at hc
    cases hc
  apply keeps_release hun hseen (.inr ⟨result, h.out, hnone⟩)
  · intro s₁ hf a s₂ hf₂
    obtain rfl : s₁ = s := hf.ended h.done
    obtain rfl : s₂ = _ := hf₂.ended h.done
    exact .returned ⟨h.out, h.stop, h.done, h.cancelled⟩ fun _ c hc => (hnotCompleted c hc).elim
  · intro _ s₁ hf a s₂ hf₂
    obtain rfl : s₁ = s := hf.ended h.done
    obtain rfl : s₂ = _ := hf₂.ended h.done
    refine .raised _ (settled_cancelled h.stop h.done rfl (by simp) (by simp) fun i hi hlate => ?_)
    rcases List.mem_cons.1 hi with rfl | hi
    · rintro completed ⟨k, token, ttl, hc⟩
      cases hc
    · exact hun.unpublished i hi hlate

/-- What is left once the heartbeat is joined. -/
theorem keeps_publish {result : IdempotencyResult} (hun : Unended s) (hseen : s.seenLost = false)
    (h : Returned q result s) : Keeps q (Settled q) (publish q.policy result) s := by
  have hanswer : ∀ s', Returned q result s' → (∀ now, q.policy.mode = .hotOnly → ∀ completed,
      evaluated result now = .ok completed →
        ∃ i ∈ s'.issued, Completes i.call completed ∧ i.answer = some (.ok true)) →
      Keeps q (Settled q) (evaluateResult result) s' := by
    intro s' h' hhot
    apply keeps_evaluateResult h'.done
    · intro now
      have hnow : Returned q result { s' with clockRead := now } :=
        ⟨h'.out, h'.stop, h'.done, h'.cancelled⟩
      exact hnow.settled (hhot now)
    · intro hnone
      have hzero : evaluated result 0 = evaluated result s'.clockRead := by
        cases result with
        | executed completed => cases hnone
        | replay completed => cases hnone
        | conflict => rfl
        | inProgress => rfl
      rw [hzero]
      exact h'.settled (hhot _)
  have hdegraded : ∀ s', Returned q result s' → q.policy.mode ≠ .hotOnly →
      Keeps q (Settled q) (evaluateResult result) s' := fun s' h' hmode =>
    hanswer s' h' fun _ hhot => absurd hhot hmode
  unfold publish
  apply Safe.bind (P := fun r s' => ∃ lost, r = .ok lost ∧ s'.seenLost = lost ∧ Unended s' ∧
    Returned q result s')
  · apply keeps_leaseLost hun
    intro s₁ hf s₂ hf₂
    obtain rfl : s₁ = s := hf.ended h.done
    obtain rfl : s₂ = _ := hf₂.ended h.done
    refine ⟨_, rfl, ?_, hun, h.out, h.stop, h.done, h.cancelled⟩
    show (s₁.seenLost || s₁.lostLease) = s₁.lostLease
    rw [hseen, Bool.false_or]
  · rintro lost s' ⟨_, hlost, hseen', hun', h'⟩ _
    cases hlost
    cases lost with
    | true =>
      by_cases hmode : q.policy.mode = .hotOnly
      · simp only [hmode, if_true]
        intro s₂ hf _
        obtain rfl : s₂ = s' := BeatFrame.ended hf h'.done
        exact h'.settled_unavailable hmode _
      · simp only [hmode, if_true, if_false]
        exact hdegraded s' h' hmode
    | false =>
      have hcomplete : ∀ completed, result.completed? = some completed →
          Keeps q (Settled q) (complete_ q.policy completed >>= fun _ => evaluateResult result)
            s' := by
        intro completed hcompleted
        apply Safe.bind (P := Published q result) (keeps_completed hun' hseen' h' hcompleted)
        · rintro _ s₂ h₂ _
          cases h₂ with
          | returned h₂ hhot =>
            refine hanswer s₂ h₂ fun now hmode c hc => ?_
            have hsame : some completed = some c := hcompleted.symm.trans (evaluated_ok hc)
            cases hsame
            obtain ⟨i, hi, hcall, ha⟩ := hhot hmode completed hcompleted
            exact ⟨i, hi, hcall, ha⟩
        · rintro e s₂ h₂
          cases h₂ with
          | raised _ hsettled => exact hsettled
      have hrelease : result.completed? = none →
          Keeps q (Settled q) (release_ >>= fun _ => evaluateResult result) s' := by
        intro hnone
        apply Safe.bind (P := Published q result) (keeps_released hun' hseen' h' hnone)
        · rintro _ s₂ h₂ _
          cases h₂ with
          | returned h₂ _ =>
            refine hanswer s₂ h₂ fun now _ c hc => ?_
            rw [evaluated_ok hc] at hnone
            cases hnone
        · rintro e s₂ h₂
          cases h₂ with
          | raised _ hsettled => exact hsettled
      cases result with
      | executed completed => exact hcomplete completed rfl
      | replay completed => exact hcomplete completed rfl
      | conflict => exact hrelease rfl
      | inProgress => exact hrelease rfl
  · rintro e s' ⟨_, hlost, -⟩
    cases hlost

/-- The whole execution. -/
theorem keeps_executeClaimed : Keeps q (Settled q) (executeClaimed q.policy) State.initial := by
  have hun : Unended State.initial := fun i hi => absurd hi List.not_mem_nil
  unfold executeClaimed
  apply Safe.bind (P := fun r s => Stopped s r ∧ Discipline s)
  · apply Safe.mono_inv (P := fun r s => Stopped s r) ?_ fun r s hd hstopped => ⟨hstopped, hd⟩
    unfold Code.andFinally
    apply Safe.onOutcome (keeps_operation hun rfl rfl)
    intro r s htried
    apply Safe.of_rely
    intro s₁ hf hi
    apply Safe.onOutcome (keeps_stopHeartbeat (htried s₁ hf hi))
    intro stopped s₂ hstopped
    apply Safe.of_rely
    intro s₃ hf₃ hi₃
    obtain ⟨rfl, hs₃⟩ := hstopped s₃ hf₃ hi₃
    exact fun s₄ hf₄ _ => hs₃.frame hf₄
  · rintro result s ⟨hstopped, -⟩ _
    cases hstopped with
    | returned _ hout hunended hseen hc hstop hdone =>
      exact keeps_publish hunended hseen ⟨hout, hstop, hdone, hc⟩
  · rintro e s ⟨hstopped, hd⟩
    exact hstopped.settled hd

/-! ### Every schedule -/

variable {c c' : Config claimedSig Exn Unit State CompletedIdempotencyResult}

theorem Reachable.allSafe (h : (machine q).Reachable (start q) c) :
    AllSafe (rely q) Discipline (fun _ => Settled q) c := by
  apply reachable_safe (fun s s' hd hs => hd.frame (BeatStep.frame hs)) (fun _ _ _ _ h => False.elim h)
    (c := start q) ?_ h
  have hun : Unended State.initial := fun i hi => absurd hi List.not_mem_nil
  refine ⟨hun.discipline, fun t x hx => ?_⟩
  cases hx
  exact keeps_executeClaimed

theorem ended_final (hdone : c.state.beat.done = true) {r} (hend : c.task () = some (.ret r))
    (h : (machine q).Reachable c c') : c'.state = c.state ∧ c'.task () = some (.ret r) := by
  induction h with
  | refl => exact ⟨rfl, hend⟩
  | tail _ hs ih =>
    obtain ⟨hstate, htask⟩ := ih
    cases hs with
    | act ht =>
      rw [htask] at ht
      cases ht
    | env he =>
      rw [← hstate] at hdone
      exact ⟨(he.frame.ended hdone).trans hstate, htask⟩
    | crash _ hc => exact hc.elim

theorem Reachable.running (h : (machine q).Reachable (start q) c) : ∃ x, c.task () = some x := by
  induction h with
  | refl => exact ⟨_, rfl⟩
  | tail _ hs ih =>
    cases hs with
    | @act t o k r s' ht he =>
      exact ⟨k r, by simp⟩
    | env _ => exact ih
    | crash _ hc => exact hc.elim

theorem beat_can_end (s : State) (task : Unit → Option (Code claimedSig Exn
    CompletedIdempotencyResult)) :
    ∃ s', s'.beat.done = true ∧ (machine q).Reachable ⟨s, task⟩ ⟨s', task⟩ := by
  have hrenewing : ∀ s : State, s.beat = .renewing →
      ∃ s', s'.beat.done = true ∧ (machine q).Reachable ⟨s, task⟩ ⟨s', task⟩ := fun s hb =>
    ⟨{ s with beat := .ended false, lostLease := true }, rfl,
      .single (.env (BeatStep.notRenewed (.ok false) hb (by simp) (by simp)))⟩
  have hsleeping : ∀ s : State, s.beat = .sleeping →
      ∃ s', s'.beat.done = true ∧ (machine q).Reachable ⟨s, task⟩ ⟨s', task⟩ := fun s hb =>
    ⟨{ s with beat := .ended false, lostLease := true }, rfl,
      .single (.env (BeatStep.sleepRaised hb))⟩
  cases hb : s.beat with
  | created =>
    cases hs : s.stop with
    | false =>
      obtain ⟨s', hdone, hr⟩ := hsleeping { s with beat := .sleeping } rfl
      exact ⟨s', hdone, .head (.env (BeatStep.start hb hs)) hr⟩
    | true =>
      exact ⟨{ s with beat := .ended false }, rfl,
        .single (.env (BeatStep.stopped (by rw [hb]; rfl) hs))⟩
  | sleeping => exact hsleeping s hb
  | renewing => exact hrenewing s hb
  | ended cancelled => exact ⟨s, by rw [hb]; rfl, .refl⟩

/-- And so can the execution, whatever it still has to do. -/
theorem can_end (x : Code claimedSig Exn CompletedIdempotencyResult) (s : State)
    (task : Unit → Option (Code claimedSig Exn CompletedIdempotencyResult))
    (hx : task () = some x) :
    ∃ c' r, (machine q).Reachable ⟨s, task⟩ c' ∧ c'.task () = some (.ret r) := by
  induction x generalizing s task with
  | ret r => exact ⟨_, r, .refl, hx⟩
  | call o k ih =>
    have hnext : ∀ (s : State) r s', exec q o s r s' →
        ∃ c' r, (machine q).Reachable ⟨s, task⟩ c' ∧ c'.task () = some (.ret r) := by
      intro s r s' he
      obtain ⟨c', r', hr, hend⟩ := ih r s' (Function.update task () (some (k r)))
        (Function.update_self _ _ _)
      exact ⟨c', r', .head (.act hx he) hr, hend⟩
    cases o with
    | execute => exact hnext s _ _ (.inl ⟨.inr ⟨.error .cancelled, 0, rfl⟩, rfl⟩)
    | lost => exact hnext s _ _ ⟨rfl, rfl⟩
    | stop => exact hnext s _ _ ⟨rfl, rfl⟩
    | join =>
      obtain ⟨s', hdone, hr⟩ := beat_can_end (q := q) s task
      obtain ⟨c', r', hr', hend⟩ := hnext s' _ _ ⟨hdone, .inl ⟨rfl, rfl⟩⟩
      exact ⟨c', r', hr.trans hr', hend⟩
    | release => exact hnext s _ _ (.inl ⟨.answered true, rfl⟩)
    | complete completed => exact hnext s _ _ (.inl ⟨.answered true, rfl⟩)
    | clock => exact hnext s _ _ ⟨0, rfl, rfl⟩

/-- The lease discipline of one claimed execution, in every schedule of its two tasks and
for every answer of the hot store. -/
theorem lease_disciplined (h : (machine q).Reachable (start q) c) :
    Discipline c.state ∧ ∀ r, c.task () = some (.ret r) →
      c.state.beat.done = true ∧
      (∀ c', (machine q).Reachable c c' → c'.state.issued = c.state.issued) ∧
      (q.policy.mode = .hotDurable → (∀ p, c.state.cancelledAt = some p → p = .operation) →
        ∃ outcome, c.state.outcome = some outcome ∧ r = answered outcome c.state.clockRead) ∧
      (q.policy.mode = .hotOnly → ∀ completed, r = .ok completed →
        ∃ i ∈ c.state.issued, Completes i.call completed ∧ i.answer = some (.ok true)) := by
  have hsafe := Reachable.allSafe h
  refine ⟨hsafe.inv, fun r hend => ?_⟩
  have hsettled := hsafe.outcome hend
  refine ⟨hsettled.joined, fun c' h' => ?_, hsettled.durable, hsettled.hotOnly⟩
  rw [(ended_final hsettled.joined hend h').1]

/-- What the caller and the hot store see of a cancellation from outside, delivered at
`p`: it is kept unless it arrives at the join of an execution whose operation was not
cancelled already. The execution can always end. -/
theorem cancellation_kept_iff (h : (machine q).Reachable (start q) c) {p : Point}
    (hp : c.state.cancelledAt = some p) :
    (∃ c' r, (machine q).Reachable c c' ∧ c'.task () = some (.ret r)) ∧
    (p ≠ .join ∨ c.state.outcome = some (.error .cancelled) → Unpublished c.state) ∧
      ∀ r, c.task () = some (.ret r) →
        ((r = .error .cancelled ∧ Unpublished c.state ∧ c.state.stop = true ∧
            c.state.beat.done = true) ↔
          (p ≠ .join ∨ c.state.outcome = some (.error .cancelled))) := by
  have hsafe := Reachable.allSafe h
  refine ⟨?_, ?_, ?_⟩
  · obtain ⟨x, hx⟩ := Reachable.running h
    exact can_end x c.state c.task hx
  · rintro (hjoin | hout)
    · intro i hi hlate completed hc
      have hat := hsafe.inv.late i hi hlate completed hc
      rw [hp] at hat
      exact hjoin (Option.some.inj hat)
    · exact hsafe.inv.unpublished hout
  · intro r hend
    have hsettled := hsafe.outcome hend
    rw [← hsettled.cancelled p hp]
    constructor
    · rintro ⟨hr, hun, -⟩
      exact ⟨hr, hun⟩
    · rintro ⟨hr, hun⟩
      exact ⟨hr, hun, hsettled.stopped, hsettled.joined⟩

/-! ### A cancellation that is lost -/

def sampleCall : Call where
  identity := sampleKey
  requestFingerprint := sampleFingerprint
  leaseToken := 0
  policy := samplePolicy .hotDurable

/-- Its state after a cancellation at the join of the heartbeat, and after it has
published and returned its result all the same. -/
def sampleJoined : State where
  beat := .ended true
  stop := true
  cancelRequested := true
  lostLease := false
  issued := []
  outcome := some (.ok (.executed sampleCompleted))
  seenLost := false
  clockRead := 0
  cancelledAt := some .join

def samplePublished : State :=
  sampleJoined.issue (sampleCall.complete sampleCompleted) (some (.ok true))

theorem step_exec {o : claimedSig.Op} {k r} (h : exec q o s r s') :
    Step (machine q) (⟨s, fun _ => some (.call o k)⟩ :
      Config claimedSig Exn Unit State CompletedIdempotencyResult) ⟨s', fun _ => some (k r)⟩ := by
  have hupdate : Function.update (fun _ : Unit => some (Code.call o k)) () (some (k r)) =
      fun _ => some (k r) := by
    funext t
    cases t
    rfl
  rw [← hupdate]
  exact .act (t := ()) rfl h

theorem sample_reachable : (machine sampleCall).Reachable (start sampleCall)
    ⟨samplePublished, fun _ => some (.ret (.ok sampleCompleted))⟩ := by
  refine .head (.env (BeatStep.start rfl rfl)) ?_
  refine .head (step_exec (o := .execute) (r := .ok (.executed sampleCompleted))
    (.inl ⟨.inl rfl, rfl⟩)) ?_
  refine .head (step_exec (o := .stop) ⟨rfl, rfl⟩) ?_
  refine .head (.env (BeatStep.cancelled rfl rfl)) ?_
  refine .head (step_exec (o := .join) ⟨rfl, .inr ⟨rfl, rfl, rfl, rfl⟩⟩) ?_
  refine .head (step_exec (o := .lost) ⟨rfl, rfl⟩) ?_
  refine .head (step_exec (o := .complete sampleCompleted) (r := .ok true)
    (.inl ⟨.answered true, rfl⟩)) ?_
  exact .single (step_exec (o := .clock) ⟨0, rfl, rfl⟩)

theorem samplePublished_late : ¬ Unpublished samplePublished := by
  intro hun
  exact hun _ List.mem_cons_self rfl sampleCompleted ⟨_, _, _, rfl⟩

theorem lease_disciplined_sample : samplePublished.beat.done = true ∧
    ∀ c', (machine sampleCall).Reachable ⟨samplePublished, fun _ => some (.ret (.ok sampleCompleted))⟩ c' →
      c'.state.issued = samplePublished.issued := by
  obtain ⟨-, hended⟩ := lease_disciplined sample_reachable
  obtain ⟨hdone, hfinal, -, -⟩ := hended _ rfl
  exact ⟨hdone, hfinal⟩

theorem cancellation_kept_iff_sample :
    ¬ ((.ok sampleCompleted : Except Exn CompletedIdempotencyResult) = .error .cancelled ∧
      Unpublished samplePublished ∧ samplePublished.stop = true ∧
      samplePublished.beat.done = true) := by
  intro hkept
  obtain ⟨-, -, hiff⟩ := cancellation_kept_iff sample_reachable (p := .join) rfl
  rcases (hiff _ rfl).1 hkept with hjoin | hout
  · exact hjoin rfl
  · cases hout

theorem cancellation_lost : ∃ c, (machine sampleCall).Reachable (start sampleCall) c ∧
    c.state.cancelledAt = some .join ∧ c.task () = some (.ret (.ok sampleCompleted)) ∧
    ¬ Unpublished c.state := by
  exact ⟨_, sample_reachable, rfl, rfl, samplePublished_late⟩

end Claimed
end ProfileService.Idempotency
