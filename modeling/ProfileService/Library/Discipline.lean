import ProfileService.Library.Implementation

/-!
# Coroutines under a discipline

A discipline says at which stage a call may be made, and which stage it leads to when it
returns or raises. A coroutine obeys it from a stage on if each of its calls is made at a
stage that permits it, whatever the answers.
-/

namespace ProfileService.Library
variable {σ τ : Signature} {ε Stage α β : Type}

structure Discipline (σ : Signature) (ε Stage : Type) where
  permits : Stage → σ.Op → Prop
  next : Stage → (o : σ.Op) → Except ε (σ.Reply o) → Stage

/-- The calls of a smaller signature obey where those they become do. -/
structure Discipline.Agrees (D : Discipline σ ε Stage) (ι : σ.Inclusion τ)
    (E : Discipline τ ε Stage) : Prop where
  permits : ∀ stage o, D.permits stage o → E.permits stage (ι.op o)
  next : ∀ stage o r, E.next stage (ι.op o) r = D.next stage o (r.map (ι.reply o))

namespace Code
variable {D : Discipline σ ε Stage} {x : Code σ ε α} {stage : Stage}
  {Q : Except ε α → Stage → Prop} {Q' : Except ε β → Stage → Prop}

/-- Every call is permitted, and `Q` holds of the outcome and the last stage. -/
def Obeys (D : Discipline σ ε Stage) (Q : Except ε α → Stage → Prop) : Code σ ε α → Stage → Prop
  | .ret r, stage => Q r stage
  | .call o k, stage => D.permits stage o ∧ ∀ r, (k r).Obeys D Q (D.next stage o r)

namespace Obeys

theorem imp {Q₁ : Except ε α → Stage → Prop} (h : x.Obeys D Q stage)
    (himp : ∀ r stage, Q r stage → Q₁ r stage) : x.Obeys D Q₁ stage := by
  induction x generalizing stage with
  | ret r => exact himp r stage h
  | call o k ih => exact ⟨h.1, fun r => ih r (h.2 r)⟩

theorem onOutcome {f : Except ε α → Code σ ε β} (h : x.Obeys D Q stage)
    (hf : ∀ r stage, Q r stage → (f r).Obeys D Q' stage) : (x.onOutcome f).Obeys D Q' stage := by
  induction x generalizing stage with
  | ret r => exact hf r stage h
  | call o k ih => exact ⟨h.1, fun r => ih r (h.2 r)⟩

theorem bind {f : α → Code σ ε β} (h : x.Obeys D Q stage)
    (hf : ∀ a stage, Q (.ok a) stage → (f a).Obeys D Q' stage)
    (he : ∀ e stage, Q (.error e) stage → Q' (.error e) stage) : (x >>= f).Obeys D Q' stage := by
  refine h.onOutcome fun r stage hr => ?_
  cases r with
  | ok a => exact hf a stage hr
  | error e => exact he e stage hr

theorem tryCatch {Q₁ : Except ε α → Stage → Prop} {f : ε → Code σ ε α} (h : x.Obeys D Q stage)
    (hok : ∀ a stage, Q (.ok a) stage → Q₁ (.ok a) stage)
    (hf : ∀ e stage, Q (.error e) stage → (f e).Obeys D Q₁ stage) :
    (tryCatch x f : Code σ ε α).Obeys D Q₁ stage := by
  refine h.onOutcome fun r stage hr => ?_
  cases r with
  | ok a => exact hok a stage hr
  | error e => exact hf e stage hr

theorem lift {E : Discipline τ ε Stage} {ι : σ.Inclusion τ} (h : x.Obeys D Q stage)
    (hagrees : D.Agrees ι E) : (x.lift ι).Obeys E Q stage := by
  induction x generalizing stage with
  | ret r => exact h
  | call o k ih =>
    refine ⟨hagrees.permits stage o h.1, fun r => ?_⟩
    rw [hagrees.next]
    exact ih _ (h.2 _)

theorem of_steady
    (h : x.AllCalls fun o => ∀ stage, D.permits stage o ∧ ∀ r, D.next stage o r = stage) :
    x.Obeys D (fun _ last => last = stage) stage := by
  induction x with
  | ret r => rfl
  | call o k ih =>
    refine ⟨(h.1 stage).1, fun r => ?_⟩
    rw [(h.1 stage).2]
    exact ih r (h.2 r)

end Obeys
end Code
end ProfileService.Library
