import ProfileService.Library.Coroutine

/-!
# Tasks that run alone

What a task does when nobody else takes a step: `Ensures` says that it ends, and how, whatever
its calls answer.
-/

namespace ProfileService.Library.Machine

variable {σ τ : Signature} {ε T S α β : Type} {M : Machine σ ε T S} {N : Machine τ ε T S} {t : T}

/-- Run by `t` from `s` with nobody in between, `x` ends, and always with `Q`. -/
def Ensures (M : Machine σ ε T S) (t : T) (Q : Except ε α → S → Prop) : Code σ ε α → S → Prop
  | .ret r, s => Q r s
  | .call o k, s => (∃ r s', M.exec t o s r s') ∧
      ∀ r s', M.exec t o s r s' → Ensures M t Q (k r) s'

variable {P Q : Except ε α → S → Prop} {x : Code σ ε α} {s : S}

@[simp] theorem ensures_ret {r : Except ε α} : Ensures M t Q (.ret r) s ↔ Q r s := Iff.rfl

theorem ensures_call {o : σ.Op} {k : Except ε (σ.Reply o) → Code σ ε α} :
    Ensures M t Q (.call o k) s ↔ (∃ r s', M.exec t o s r s') ∧
      ∀ r s', M.exec t o s r s' → Ensures M t Q (k r) s' := Iff.rfl

/-- A call with one answer. -/
theorem ensures_of_exec {o : σ.Op} {k : Except ε (σ.Reply o) → Code σ ε α}
    {a : Except ε (σ.Reply o)} {s₁ : S} (hexec : ∀ r s', M.exec t o s r s' ↔ r = a ∧ s' = s₁)
    (hk : Ensures M t Q (k a) s₁) : Ensures M t Q (.call o k) s := by
  refine ensures_call.2 ⟨⟨a, s₁, (hexec a s₁).2 ⟨rfl, rfl⟩⟩, fun r s' he => ?_⟩
  obtain ⟨rfl, rfl⟩ := (hexec r s').1 he
  exact hk

theorem Ensures.mono (h : Ensures M t P x s) (himp : ∀ r s', P r s' → Q r s') :
    Ensures M t Q x s := by
  induction x generalizing s with
  | ret r => exact himp r s h
  | call o k ih => exact ⟨h.1, fun r s' he => ih r (h.2 r s' he)⟩

theorem Ensures.onOutcome {Q : Except ε β → S → Prop} {f : Except ε α → Code σ ε β}
    (h : Ensures M t P x s) (hf : ∀ r s', P r s' → Ensures M t Q (f r) s') :
    Ensures M t Q (x.onOutcome f) s := by
  induction x generalizing s with
  | ret r => exact hf r s h
  | call o k ih => exact ⟨h.1, fun r s' he => ih r (h.2 r s' he)⟩

theorem Ensures.bind {Q : Except ε β → S → Prop} {f : α → Code σ ε β} (h : Ensures M t P x s)
    (hok : ∀ a s', P (.ok a) s' → Ensures M t Q (f a) s')
    (herror : ∀ e s', P (.error e) s' → Q (.error e) s') : Ensures M t Q (x >>= f) s := by
  rw [Code.bind_def]
  refine h.onOutcome fun r s' hp => ?_
  cases r with
  | ok a => exact hok a s' hp
  | error e => exact herror e s' hp

/-- What a task ensures in a machine it ensures where a larger one runs its calls. -/
theorem Ensures.lift (ι : σ.Inclusion τ)
    (hexec : ∀ o s r s', N.exec t (ι.op o) s r s' → M.exec t o s (r.map (ι.reply o)) s')
    (hrun : ∀ o s r s', M.exec t o s r s' → ∃ r' s'', N.exec t (ι.op o) s r' s'')
    (h : Ensures M t Q x s) : Ensures N t Q (x.lift ι) s := by
  induction x generalizing s with
  | ret r => exact h
  | call o k ih =>
    refine ensures_call.2 ⟨?_, fun r s' he => ih _ (h.2 _ s' (hexec o s r s' he))⟩
    obtain ⟨r, s', he⟩ := h.1
    exact hrun o s r s' he

theorem Ensures.exists_runs (h : Ensures M t Q x s) : ∃ r s', Runs M t x s r s' := by
  induction x generalizing s with
  | ret r => exact ⟨r, s, .ret r s⟩
  | call o k ih =>
    obtain ⟨⟨r, s₁, he⟩, hk⟩ := h
    obtain ⟨a, s', hrun⟩ := ih r (hk r s₁ he)
    exact ⟨a, s', .call he hrun⟩

theorem Runs.onOutcome {f : Except ε α → Code σ ε β} {r : Except ε α} {a : Except ε β} {s' s'' : S}
    (hx : Runs M t x s r s') (hf : Runs M t (f r) s' a s'') : Runs M t (x.onOutcome f) s a s'' := by
  induction hx with
  | ret r s => exact hf
  | call hexec _ ih => exact .call hexec (ih hf)

theorem Runs.bind {f : α → Code σ ε β} {v : α} {a : Except ε β} {s' s'' : S}
    (hx : Runs M t x s (.ok v) s') (hf : Runs M t (f v) s' a s'') : Runs M t (x >>= f) s a s'' :=
  hx.onOutcome hf

theorem Ensures.of_runs {r : Except ε α} {s' : S} (h : Ensures M t Q x s)
    (hr : Runs M t x s r s') : Q r s' := by
  induction hr with
  | ret r s => exact h
  | call hexec _ ih => exact ih (h.2 _ _ hexec)

end ProfileService.Library.Machine
