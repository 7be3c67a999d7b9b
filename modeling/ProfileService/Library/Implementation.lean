import ProfileService.Library.Coroutine

/-!
# Calls implemented by coroutines

A task of one machine whose calls are carried out by coroutines of another one. If the last
step of each of these coroutines does what the call does, and the steps before it are not
seen, every run of the implementation is one of the machine it implements.
-/

namespace ProfileService.Library
open Relation

variable {σ τ : Signature} {ε T S S' α β : Type}

def Code.AllCalls (p : σ.Op → Prop) : Code σ ε α → Prop
  | .ret _ => True
  | .call o k => p o ∧ ∀ r, (k r).AllCalls p

namespace Code

theorem AllCalls.imp {p q : σ.Op → Prop} {x : Code σ ε α} (hx : x.AllCalls p)
    (himp : ∀ o, p o → q o) : x.AllCalls q := by
  induction x with
  | ret r => trivial
  | call o k ih => exact ⟨himp o hx.1, fun r => ih r (hx.2 r)⟩

theorem AllCalls.onOutcome {p : σ.Op → Prop} {x : Code σ ε α} {f : Except ε α → Code σ ε β}
    (hx : x.AllCalls p) (hf : ∀ r, (f r).AllCalls p) : (x.onOutcome f).AllCalls p := by
  induction x with
  | ret r => exact hf r
  | call o k ih => exact ⟨hx.1, fun r => ih r (hx.2 r)⟩

theorem AllCalls.bind {p : σ.Op → Prop} {x : Code σ ε α} {f : α → Code σ ε β}
    (hx : x.AllCalls p) (hf : ∀ a, (f a).AllCalls p) : (x >>= f).AllCalls p := by
  rw [bind_def]
  apply hx.onOutcome
  intro r
  cases r with
  | ok a => exact hf a
  | error e => trivial

theorem allCalls_lift {ι : σ.Inclusion τ} {p : τ.Op → Prop} (hp : ∀ o, p (ι.op o))
    (x : Code σ ε α) : (x.lift ι).AllCalls p := by
  induction x with
  | ret r => trivial
  | call o k ih => exact ⟨hp o, fun r => ih _⟩

end Code

namespace Machine

def Enabled (M : Machine σ ε T S) (t : T) (o : σ.Op) (s : S) : Prop := ∃ r s', M.exec t o s r s'

/-- What `N` has left to do for the call `o` of `M`, wherever the others lead its state. No
step but the last is seen by a related state of `M`; the last one is the call, perhaps after
steps of no task. The implementation waits only where `M` does. -/
def Implements {N : Machine τ ε T S'} (R : Rely N) (M : Machine σ ε T S) (Sim : S' → S → Prop)
    (t : T) (o : σ.Op) : Code τ ε (σ.Reply o) → S' → Prop
  | .ret _, _ => False
  | .call p k, s => ∀ s₁ s₀, R.rel t s s₁ → Sim s₁ s₀ →
      (M.Enabled t o s₀ → N.Enabled t p s₁) ∧
      ∀ r s₂, N.exec t p s₁ r s₂ →
        (Sim s₂ s₀ ∧ Implements R M Sim t o (k r) s₂) ∨
        ∃ a s₀' s₀'', k r = .ret a ∧ ReflTransGen M.env s₀ s₀' ∧ M.exec t o s₀' a s₀'' ∧
          Sim s₂ s₀''

variable {M : Machine σ ε T S} {N : Machine τ ε T S'} {R : Rely N} {Sim : S' → S → Prop} {t : T}
  {p : σ.Op → Prop} {f : ∀ o : σ.Op, Code τ ε (σ.Reply o)}

theorem Implements.rely {o : σ.Op} {z : Code τ ε (σ.Reply o)} {s s' : S'}
    (h : Implements R M Sim t o z s) (hr : R.rel t s s') : Implements R M Sim t o z s' := by
  cases z with
  | ret r => exact h
  | call q k =>
    intro s₁ s₀ hr₁ hs
    exact h s₁ s₀ (R.trans hr hr₁) hs

inductive Follows (R : Rely N) (M : Machine σ ε T S) (Sim : S' → S → Prop) (p : σ.Op → Prop)
    (f : ∀ o : σ.Op, Code τ ε (σ.Reply o)) (t : T) (s : S') :
    Option (Code τ ε α) → Option (Code σ ε α) → Prop where
  | dead : Follows R M Sim p f t s none none
  | ended (r : Except ε α) : Follows R M Sim p f t s (some (.ret r)) (some (.ret r))
  | within {o : σ.Op} {k : Except ε (σ.Reply o) → Code σ ε α} {z : Code τ ε (σ.Reply o)}
      (hk : ∀ r, (k r).AllCalls p) (hz : Implements R M Sim t o z s) :
      Follows R M Sim p f t s (some (z.onOutcome fun r => (k r).expand f)) (some (.call o k))

theorem Follows.rely {y : Option (Code τ ε α)} {x : Option (Code σ ε α)} {s s' : S'}
    (h : Follows R M Sim p f t s y x) (hr : R.rel t s s') : Follows R M Sim p f t s' y x := by
  cases h with
  | dead => exact .dead
  | ended r => exact .ended r
  | within hk hz => exact .within hk (hz.rely hr)

theorem follows_expand (hf : ∀ o s, p o → Implements R M Sim t o (f o) s) {x : Code σ ε α}
    (hx : x.AllCalls p) (s : S') : Follows R M Sim p f t s (some (x.expand f)) (some x) := by
  cases x with
  | ret r => exact .ended r
  | call o k => exact .within hx.2 (hf o s hx.1)

/-- Related states, and every task beside the one it stands for. -/
structure Simulates (R : Rely N) (M : Machine σ ε T S) (Sim : S' → S → Prop) (p : σ.Op → Prop)
    (f : ∀ o : σ.Op, Code τ ε (σ.Reply o)) (c : Config τ ε T S' α) (c₀ : Config σ ε T S α) :
    Prop where
  state : Sim c.state c₀.state
  task : ∀ t, Follows R M Sim p f t c.state (c.task t) (c₀.task t)

theorem reachable_of_env [DecidableEq T] {s s' : S} {task : T → Option (Code σ ε α)}
    (h : ReflTransGen M.env s s') : M.Reachable ⟨s, task⟩ ⟨s', task⟩ := by
  induction h with
  | refl => exact .refl
  | tail _ he ih => exact ih.tail (.env he)

section Run
variable [DecidableEq T]

theorem Simulates.moved {c : Config τ ε T S' α} {c₀ : Config σ ε T S α} {s' : S'} {s₀' : S}
    {y : Option (Code τ ε α)} {x : Option (Code σ ε α)} (h : Simulates R M Sim p f c c₀)
    (hsim : Sim s' s₀') (hothers : ∀ u, u ≠ t → R.rel u c.state s')
    (ht : Follows R M Sim p f t s' y x) :
    Simulates R M Sim p f ⟨s', Function.update c.task t y⟩ ⟨s₀', Function.update c₀.task t x⟩ where
  state := hsim
  task u := by
    dsimp only
    by_cases hu : u = t
    · subst hu
      rw [Function.update_self, Function.update_self]
      exact ht
    · rw [Function.update_of_ne hu, Function.update_of_ne hu]
      exact (h.task u).rely (hothers u hu)

variable (hf : ∀ t o s, p o → Implements R M Sim t o (f o) s)
  (henv : ∀ s s₀ s', Sim s s₀ → N.env s s' → ∃ s₀', ReflTransGen M.env s₀ s₀' ∧ Sim s' s₀')
  (hcrash : ∀ t s s₀ s', Sim s s₀ → N.crash t s s' → ∃ s₀', M.crash t s₀ s₀' ∧ Sim s' s₀')

include hf henv hcrash in
theorem Simulates.step {c c' : Config τ ε T S' α} {c₀ : Config σ ε T S α}
    (h : Simulates R M Sim p f c c₀) (hs : Step N c c') :
    ∃ c₀', M.Reachable c₀ c₀' ∧ Simulates R M Sim p f c' c₀' := by
  cases hs with
  | @act t q k' r s' htask hexec =>
    have ht := h.task t
    rw [htask] at ht
    generalize hx : c₀.task t = x at ht
    generalize hy : (some (.call q k') : Option (Code τ ε α)) = y at ht
    cases ht with
    | dead => cases hy
    | ended r => cases hy
    | @within o k z hk hz =>
      cases z with
      | ret a => exact hz.elim
      | call q' kz =>
        cases hy
        rcases (hz c.state c₀.state (R.refl t _) h.state).2 r s' hexec with
          ⟨hsim, hrest⟩ | ⟨a, s₁, s₂, hret, hsteps, hcall, hsim⟩
        · have hmoved := h.moved hsim (fun u hu => R.exec hexec hu)
            (.within (f := f) hk hrest)
          rw [← hx, Function.update_eq_self] at hmoved
          exact ⟨_, .refl, hmoved⟩
        · refine ⟨_, (reachable_of_env hsteps).tail (.act hx hcall),
            h.moved hsim (fun u hu => R.exec hexec hu) ?_⟩
          dsimp only
          rw [hret]
          exact follows_expand (hf t) (hk a) s'
  | @env s' he =>
    obtain ⟨s₀', hsteps, hsim⟩ := henv _ _ _ h.state he
    exact ⟨⟨s₀', c₀.task⟩, reachable_of_env hsteps, hsim, fun u => (h.task u).rely (R.env he)⟩
  | @crash t q k' s' htask hc =>
    obtain ⟨s₀', hcrashed, hsim⟩ := hcrash _ _ _ _ h.state hc
    have ht := h.task t
    rw [htask] at ht
    generalize hx : c₀.task t = x at ht
    generalize hy : (some (.call q k') : Option (Code τ ε α)) = y at ht
    cases ht with
    | dead => cases hy
    | ended r => cases hy
    | within hk hz =>
      exact ⟨_, .single (.crash hx hcrashed), h.moved hsim (fun u hu => R.crash hc hu) .dead⟩

include hf henv hcrash in
/-- Every run of the implementation is one of the machine it implements. -/
theorem Reachable.simulated {task : T → Option (Code σ ε α)} {s : S'} {s₀ : S}
    {c : Config τ ε T S' α} (htask : ∀ t x, task t = some x → x.AllCalls p) (hsim : Sim s s₀)
    (hr : N.Reachable ⟨s, fun t => (task t).map (Code.expand f)⟩ c) :
    ∃ c₀, M.Reachable ⟨s₀, task⟩ c₀ ∧ Simulates R M Sim p f c c₀ := by
  induction hr with
  | refl =>
    refine ⟨⟨s₀, task⟩, .refl, hsim, fun t => ?_⟩
    show Follows R M Sim p f t s ((task t).map (Code.expand f)) (task t)
    cases h : task t with
    | none => exact .dead
    | some x => exact follows_expand (hf t) (htask t x h) s
  | tail _ hs ih =>
    obtain ⟨c₀, hr₀, hsimulates⟩ := ih
    obtain ⟨c₀', hsteps, hnext⟩ := hsimulates.step hf henv hcrash hs
    exact ⟨c₀', hr₀.trans hsteps, hnext⟩

end Run

theorem Simulates.outcome {c : Config τ ε T S' α} {c₀ : Config σ ε T S α}
    (h : Simulates R M Sim p f c c₀) (r : Except ε α) :
    c.task t = some (.ret r) ↔ c₀.task t = some (.ret r) := by
  have hfollows := h.task t
  generalize c.task t = y at hfollows ⊢
  generalize c₀.task t = x at hfollows ⊢
  cases hfollows with
  | dead => exact ⟨nofun, nofun⟩
  | ended r' =>
    rw [Option.some.injEq, Option.some.injEq, Code.ret.injEq, Code.ret.injEq]
  | @within o k z hk hz =>
    cases z with
    | ret a => exact hz.elim
    | call q kz => exact ⟨nofun, nofun⟩

/-- The implementation of a call waits only where the call does. -/
theorem Simulates.enabled {c : Config τ ε T S' α} {c₀ : Config σ ε T S α}
    (h : Simulates R M Sim p f c c₀) {q : τ.Op} {k : Except ε (τ.Reply q) → Code τ ε α}
    (ht : c.task t = some (.call q k)) : ∃ o k₀, c₀.task t = some (.call o k₀) ∧
      (M.Enabled t o c₀.state → N.Enabled t q c.state) := by
  have hfollows := h.task t
  rw [ht] at hfollows
  generalize hy : (some (.call q k) : Option (Code τ ε α)) = y at hfollows
  generalize c₀.task t = x at hfollows ⊢
  cases hfollows with
  | dead => cases hy
  | ended r => cases hy
  | @within o k₀ z hk hz =>
    cases z with
    | ret a => exact hz.elim
    | call q' kz =>
      cases hy
      exact ⟨o, k₀, rfl, (hz c.state c₀.state (R.refl t _) h.state).1⟩

theorem Reachable.exists_act [DecidableEq T] {c : Config σ ε T S α} {P : Config σ ε T S α → Prop}
    {t : T} {o : σ.Op} {k : Except ε (σ.Reply o) → Code σ ε α} {s' : S}
    (htask : c.task t = some (.call o k)) (r : Except ε (σ.Reply o)) (hexec : M.exec t o c.state r s')
    (h : ∃ c', M.Reachable ⟨s', Function.update c.task t (some (k r))⟩ c' ∧ P c') :
    ∃ c', M.Reachable c c' ∧ P c' := by
  obtain ⟨c', hr, hp⟩ := h
  exact ⟨c', .head (.act htask hexec) hr, hp⟩

/-- What every step keeps holds of every reachable state. -/
theorem Reachable.invariant [DecidableEq T] {I : S → Prop} {c c' : Config σ ε T S α}
    (hexec : ∀ t o s r s', I s → M.exec t o s r s' → I s')
    (henv : ∀ s s', I s → M.env s s' → I s')
    (hcrash : ∀ t s s', I s → M.crash t s s' → I s') (h : I c.state) (hr : M.Reachable c c') :
    I c'.state := by
  induction hr with
  | refl => exact h
  | tail _ hs ih =>
    cases hs with
    | act htask he => exact hexec _ _ _ _ _ ih he
    | env he => exact henv _ _ ih he
    | crash htask hc => exact hcrash _ _ _ ih hc

end Machine
end ProfileService.Library
