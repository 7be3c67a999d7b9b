import ProfileService.Library.Implementation
import ProfileService.Idempotency.Durability
import ProfileService.Idempotency.RedisHotStore
import ProfileService.Resilience.CircuitBreaker

/-!
# `CircuitBreakingHotStore`

The hot store as the container provides it: every call goes through the breaker of its
process (`circuit_breaking_hot_store.py`, `circuit_breaker.py:154-210`). The sections under
the lock await nothing, so a call is two steps: its admission, and the call of the inner
store with the section that follows it.
-/

set_option linter.unusedSectionVars false

namespace ProfileService.Idempotency
open Library Library.Machine Application
open Resilience (System)

inductive Caller (W : Type) where
  | worker (w : W)
  | heartbeat (w : W)
  deriving DecidableEq

/-- The world with a breaker in every process. A call is known by its caller and a number of
its own; `beats w` is the one by which the heartbeat of `w` awaits a renewal. -/
structure Guarded (P W T : Type) (H : HotStore W) (B : Business W) where
  world : World W H B
  breakers : P → System T (Caller W × Nat)
  beats : W → Option Nat

section Signatures
variable {W : Type} (B : Business W)

inductive GuardedOp where
  | enter (c : HotCall)
  | inner (c : HotCall) (call : Nat)
  | stopHeartbeat
  | other (o : Op B)

/-- An admission answers the number of the call, `none` for a `CircuitBreakerError`. -/
def guardedSig : Signature where
  Op := GuardedOp B
  Reply
    | .enter _ => Option Nat
    | .inner c _ => c.Reply
    | .stopHeartbeat => Unit
    | .other o => (sig B).Reply o

variable {B}

def circuitOpen : Exn :=
  .idempotencyUnavailable "Предохранитель горячего хранилища находится в состоянии OPEN"

def guardedCall (c : HotCall) : Code (guardedSig B) Exn c.Reply :=
  (.call (.enter c) .ret : Code (guardedSig B) Exn (Option Nat)) >>= fun
    | none => throw circuitOpen
    | some call => .call (.inner c call) .ret

def guarded : (o : Op B) → Code (guardedSig B) Exn ((sig B).Reply o)
  | .hot c => guardedCall c
  | .stopHeartbeat => .call .stopHeartbeat .ret
  | .startHeartbeat identity token leaseSeconds =>
    .call (.other (.startHeartbeat identity token leaseSeconds)) .ret
  | .leaseLost => .call (.other .leaseLost) .ret
  | .db o => .call (.other (.db o)) .ret

/-- How the breaker sees the outcome of the inner call: without an `is_failure` of its own,
every exception counts. -/
def outcomeOf {α : Type} : Except Exn α → Resilience.Outcome
  | .ok _ => .success
  | .error .cancelled => .cancelled
  | .error _ => .failure

end Signatures

section Machine
variable {P W T : Type} [DecidableEq P] [DecidableEq W] [Zero T] [Sub T] [LinearOrder T]
  {H : HotStore W} {B : Business W}

def Guarded.setBreaker (p : P) (system : System T (Caller W × Nat)) (s : Guarded P W T H B) :
    Guarded P W T H B :=
  { s with breakers := Function.update s.breakers p system }

def Guarded.initial (started : T) (s : World W H B) : Guarded P W T H B :=
  ⟨s, fun _ => .init started, fun _ => none⟩

/-- The renewal a heartbeat awaits is answered, and the heartbeat goes on or ends. -/
def BeatAnswered (cfg : Resilience.Config T) (process : W → P) (w : W) (r : Except Exn Bool)
    (s s' : Guarded P W T H B) : Prop :=
  ∃ hb call hot system, s.world.heartbeat w = some hb ∧ hb.ended = false ∧
    s.beats w = some call ∧
    H.exec w s.world.now (.renew hb.identity hb.token hb.leaseSeconds) s.world.hot r hot ∧
    Resilience.Step cfg (s.breakers (process w)) (.finish (.heartbeat w, call) (outcomeOf r)) system ∧
    s' = { s.setBreaker (process w) system with
      world := ({ s.world with hot := hot } : World W H B).setHeartbeat w (some (hb.afterRenew r))
      beats := Function.update s.beats w none }

/-- One await. A heartbeat that is stopped while it awaits a renewal is cancelled there. -/
def guardedExec (cfg : Resilience.Config T) (process : W → P) (F : Failures) (w : W) :
    (o : GuardedOp B) → Guarded P W T H B → Except Exn ((guardedSig B).Reply o) →
      Guarded P W T H B → Prop
  | .enter _, s, r, s' => ∃ call system, s' = s.setBreaker (process w) system ∧
      ((Resilience.Step cfg (s.breakers (process w)) (.enter (.worker w, call)) system ∧
          r = .ok (some call)) ∨
        (Resilience.Step cfg (s.breakers (process w)) (.refuse (.worker w, call)) system ∧
          r = .ok none))
  | .inner c call, s, r, s' => ∃ hot system, H.exec w s.world.now c s.world.hot r hot ∧
      Resilience.Step cfg (s.breakers (process w)) (.finish (.worker w, call) (outcomeOf r)) system ∧
      s' = { s.setBreaker (process w) system with world := { s.world with hot := hot } }
  | .stopHeartbeat, s, r, s' => ∃ s₁ world,
      (s.beats w = none ∧ s₁ = s ∨ BeatAnswered cfg process w (.error .cancelled) s s₁) ∧
      opExec F w .stopHeartbeat s₁.world r world ∧ s' = { s₁ with world := world }
  | .other o, s, r, s' => ∃ world, opExec F w o s.world r world ∧ s' = { s with world := world }

/-- The steps of no worker. The breakers have a clock of their own. -/
inductive GuardedEnv (cfg : Resilience.Config T) (process : W → P) :
    Guarded P W T H B → Guarded P W T H B → Prop where
  | tick (s : Guarded P W T H B) (now : Instant) (h : s.world.now ≤ now) :
      GuardedEnv cfg process s { s with world := { s.world with now := now } }
  | hot (s : Guarded P W T H B) (h : H.State) (he : H.env s.world.now s.world.hot h) :
      GuardedEnv cfg process s { s with world := { s.world with hot := h } }
  | monotonic (s : Guarded P W T H B) (p : P) (system : System T (Caller W × Nat))
      (hs : Resilience.Step cfg (s.breakers p) .tick system) :
      GuardedEnv cfg process s (s.setBreaker p system)
  | beatEnter (s : Guarded P W T H B) (w : W) (hb : Heartbeat) (call : Nat)
      (system : System T (Caller W × Nat)) (hw : s.world.heartbeat w = some hb)
      (hrun : hb.ended = false) (hidle : s.beats w = none)
      (hs : Resilience.Step cfg (s.breakers (process w)) (.enter (.heartbeat w, call)) system) :
      GuardedEnv cfg process s { s.setBreaker (process w) system with
        beats := Function.update s.beats w (some call) }
  | beatRefused (s : Guarded P W T H B) (w : W) (hb : Heartbeat) (call : Nat)
      (system : System T (Caller W × Nat)) (hw : s.world.heartbeat w = some hb)
      (hrun : hb.ended = false) (hidle : s.beats w = none)
      (hs : Resilience.Step cfg (s.breakers (process w)) (.refuse (.heartbeat w, call)) system) :
      GuardedEnv cfg process s { s.setBreaker (process w) system with
        world := s.world.setHeartbeat w (some (hb.afterRenew (.error circuitOpen))) }
  | beatAnswered (s s' : Guarded P W T H B) (w : W) (r : Except Exn Bool)
      (h : BeatAnswered cfg process w r s s') : GuardedEnv cfg process s s'

def Guarded.crash (w : W) (s : Guarded P W T H B) : Guarded P W T H B :=
  { s with world := s.world.crash w, beats := Function.update s.beats w none }

def guardedMachine (cfg : Resilience.Config T) (process : W → P) (H : HotStore W) (B : Business W)
    (F : Failures) : Library.Machine (guardedSig B) Exn W (Guarded P W T H B) where
  exec := guardedExec cfg process F
  env := GuardedEnv cfg process
  crash w s s' := F.crash ∧ s' = s.crash w

end Machine

/-! ### Redis behind a breaker -/

namespace Redis
variable {W : Type} {R : RedisClient} {w : W} {now : Instant} {c : HotCall}
  {h h' h₀ : Redis W} {r : Except Exn c.Reply}

/-- The same keys and the same executed scripts; every message on its way is also on its way
in the other server. -/
structure Within (h h₀ : Redis W) : Prop where
  entries : h₀.entries = h.entries
  served : h₀.served = h.served
  inflight : h.inflight.Sublist h₀.inflight

theorem Within.serve (hw : Within h h₀) (awaited : Bool) :
    Within (h.serve R w awaited now c) (h₀.serve R w awaited now c) := by
  have hanswer : h₀.answer R now c = h.answer R now c := by
    unfold answer
    rw [hw.entries]
  refine ⟨?_, ?_, hw.inflight⟩
  · simp only [Redis.serve, hanswer, hw.entries]
  · simp only [Redis.serve, hanswer, hw.served]

theorem Within.exec (hw : Within h h₀) (he : redisExec R w now c h r h') :
    ∃ h₀', redisExec R w now c h₀ r h₀' ∧ Within h' h₀' := by
  have hanswer : h₀.answer R now c = h.answer R now c := by
    unfold answer
    rw [hw.entries]
  unfold redisExec at he ⊢
  split at he
  · rename_i hvalid
    simp only [if_pos hvalid]
    rcases he with ⟨rfl, rfl⟩ | ⟨e, hfault, rfl, rfl⟩
    · exact ⟨_, .inl ⟨by rw [hanswer], rfl⟩, hw.serve true⟩
    · exact ⟨_, .inr ⟨e, hfault, rfl, rfl⟩, hw.entries, hw.served, hw.inflight.cons_cons _⟩
  · rename_i hinvalid
    obtain ⟨rfl, rfl⟩ := he
    simp only [if_neg hinvalid]
    exact ⟨h₀, ⟨trivial, rfl⟩, hw⟩

theorem Within.refused (hw : Within h h₀) (hvalid : c.Valid) :
    ∃ h₀', redisExec R w now c h₀ (.error circuitOpen) h₀' ∧ Within h h₀' := by
  refine ⟨{ h₀ with inflight := (w, c) :: h₀.inflight }, ?_, hw.entries, hw.served,
    hw.inflight.cons _⟩
  unfold redisExec
  rw [if_pos hvalid]
  exact .inr ⟨circuitOpen, .inr ⟨_, rfl⟩, rfl, rfl⟩

theorem sublist_remove {α : Type} {l₁ l₂ l : List α} {x : α} (h : (l₁ ++ x :: l₂).Sublist l) :
    ∃ l₁' l₂', l = l₁' ++ x :: l₂' ∧ (l₁ ++ l₂).Sublist (l₁' ++ l₂') := by
  obtain ⟨k₁, k₂, rfl, h₁, h₂⟩ := List.append_sublist_iff.1 h
  obtain ⟨k₃, k₄, rfl, hx, h₄⟩ := List.cons_sublist_iff.1 h₂
  obtain ⟨k₅, k₆, rfl⟩ := List.append_of_mem hx
  refine ⟨k₁ ++ k₅, k₆ ++ k₄, by simp, ?_⟩
  rw [List.append_assoc]
  exact h₁.append ((h₄.trans (List.sublist_append_right k₆ k₄)).trans
    (List.sublist_append_right k₅ _))

theorem Within.env (hw : Within h h₀) (he : RedisEnv R now h h') :
    ∃ h₀', RedisEnv R now h₀ h₀' ∧ Within h' h₀' := by
  cases he with
  | deliver w c l₁ l₂ hm =>
    have hsub := hw.inflight
    rw [hm] at hsub
    obtain ⟨l₁', l₂', hm', hrest⟩ := sublist_remove hsub
    have hremoved : Within ({ h with inflight := l₁ ++ l₂ } : Redis W)
        { h₀ with inflight := l₁' ++ l₂' } := ⟨hw.entries, hw.served, hrest⟩
    exact ⟨_, .deliver h₀ w c l₁' l₂' hm', hremoved.serve false⟩
  | evict key he =>
    refine ⟨_, .evict h₀ key he, ?_, hw.served, hw.inflight⟩
    simp only [Redis.evict, hw.entries]

theorem exec_enabled (c : HotCall) (h : Redis W) : ∃ r h', redisExec R w now c h r h' := by
  unfold redisExec
  split
  · exact ⟨_, _, .inl ⟨rfl, rfl⟩⟩
  · exact ⟨_, _, rfl, rfl⟩

theorem exec_cancelled (hvalid : c.Valid) (h : Redis W) :
    ∃ h', redisExec R w now c h (.error .cancelled) h' := by
  refine ⟨{ h with inflight := (w, c) :: h.inflight }, ?_⟩
  unfold redisExec
  rw [if_pos hvalid]
  exact .inr ⟨.cancelled, .inl rfl, rfl, rfl⟩

end Redis

/-! ### What a step leaves to the others -/

section Frame
variable {P W T : Type} [DecidableEq P] [DecidableEq W] [Zero T] [Sub T] [LinearOrder T]
  {cfg : Resilience.Config T} {process : W → P} {H : HotStore W} {B : Business W} {F : Failures}
  {s s' : Guarded P W T H B} {w v : W}

def callerOf : Resilience.Act (Caller W × Nat) → Option (Caller W)
  | .tick => none
  | .enter c => some c.1
  | .refuse c => some c.1
  | .finish c _ => some c.1

theorem step_calls {system system' : System T (Caller W × Nat)}
    {a : Resilience.Act (Caller W × Nat)} (hs : Resilience.Step cfg system a system')
    {caller : Caller W} (h : callerOf a ≠ some caller) (call : Nat) :
    system'.calls (caller, call) = system.calls (caller, call) := by
  have hne : ∀ c : Caller W × Nat, some c.1 ≠ some caller → (caller, call) ≠ c := by
    rintro c hc rfl
    exact hc rfl
  cases hs with
  | tick now hle => rfl
  | enter c ticket b hidle hbegin => exact Function.update_of_ne (hne c h) _ _
  | refuse c e b hidle hbegin => exact Function.update_of_ne (hne c h) _ _
  | finish c ticket outcome hrunning => exact Function.update_of_ne (hne c h) _ _

def Own (process : W → P) (w : W) (s s' : Guarded P W T H B) : Prop :=
  ∀ call, (s'.breakers (process w)).calls (.worker w, call) =
    (s.breakers (process w)).calls (.worker w, call)

theorem own_setBreaker {p : P} {system : System T (Caller W × Nat)}
    {a : Resilience.Act (Caller W × Nat)} (hs : Resilience.Step cfg (s.breakers p) a system)
    (h : callerOf a ≠ some (.worker w)) : Own process w s (s.setBreaker p system) := by
  intro call
  unfold Guarded.setBreaker
  by_cases hp : process w = p
  · subst hp
    dsimp only
    rw [Function.update_self]
    exact step_calls hs h call
  · dsimp only
    rw [Function.update_of_ne hp]

theorem worker_ne {u : W} (h : w ≠ u) : some (Caller.worker u) ≠ some (Caller.worker w) := by
  rintro hsome
  exact h (Caller.worker.inj (Option.some.inj hsome)).symm

theorem BeatAnswered.own {r : Except Exn Bool} (h : BeatAnswered cfg process v r s s') :
    Own process w s s' := by
  obtain ⟨hb, call, hot, system, -, -, -, -, hs, rfl⟩ := h
  exact own_setBreaker (s := s) hs (by simp [callerOf])

def guardedRely (cfg : Resilience.Config T) (process : W → P) (H : HotStore W) (B : Business W)
    (F : Failures) : Rely (guardedMachine cfg process H B F) where
  rel := Own process
  refl _ _ _ := rfl
  trans h h' call := (h' call).trans (h call)
  exec {t u o s r s'} he htu := by
    cases o with
    | enter c =>
      obtain ⟨call, system, rfl, ⟨hs, -⟩ | ⟨hs, -⟩⟩ := he
      · exact own_setBreaker hs (worker_ne htu)
      · exact own_setBreaker hs (worker_ne htu)
    | inner c call =>
      obtain ⟨hot, system, -, hs, rfl⟩ := he
      exact own_setBreaker (s := s) hs (worker_ne htu)
    | stopHeartbeat =>
      obtain ⟨s₁, world, ⟨-, rfl⟩ | hbeat, -, rfl⟩ := he
      · exact fun _ => rfl
      · exact hbeat.own
    | other o =>
      obtain ⟨world, -, rfl⟩ := he
      exact fun _ => rfl
  env he := by
    cases he with
    | tick now h => exact fun _ => rfl
    | hot h he => exact fun _ => rfl
    | monotonic p system hs => exact own_setBreaker hs (by simp [callerOf])
    | beatEnter w hb call system hw hrun hidle hs =>
      exact own_setBreaker (s := _) hs (by simp [callerOf])
    | beatRefused w hb call system hw hrun hidle hs =>
      exact own_setBreaker (s := _) hs (by simp [callerOf])
    | beatAnswered _ w r h => exact h.own
  crash hc _ := by
    obtain ⟨-, rfl⟩ := hc
    exact fun _ => rfl

end Frame

end ProfileService.Idempotency
