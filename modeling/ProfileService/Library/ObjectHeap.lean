import Mathlib.Logic.Function.Basic

/-!
# Mutable objects

References to objects of one type, and procedures over them: a procedure that raises
leaves the objects as they were when it raised.
-/

namespace ProfileService.Library

/-- The objects by their references; those from `next` on are not there yet. -/
structure ObjectHeap (α : Type) where
  object : Nat → α
  next : Nat

abbrev Procedure (ε α β : Type) := EStateM ε (ObjectHeap α) β

namespace ObjectHeap
variable {ε α β : Type} {heap heap₁ heap₂ : ObjectHeap α} {ref : Nat}

def load (ref : Nat) : Procedure ε α α := fun heap => .ok (heap.object ref) heap

def allocate (a : α) : Procedure ε α Nat := fun heap =>
  .ok heap.next ⟨Function.update heap.object heap.next a, heap.next + 1⟩

def replaceState (target source : Nat) : Procedure ε α Unit := fun heap =>
  .ok () ⟨Function.update heap.object target (heap.object source), heap.next⟩

def raise : Except ε β → Procedure ε α β
  | .ok b => fun heap => .ok b heap
  | .error e => fun heap => .error e heap

def Kept (heap heap' : ObjectHeap α) : Prop :=
  heap.next ≤ heap'.next ∧ ∀ ref < heap.next, heap'.object ref = heap.object ref

/-- Every object that was there is as it was, but for one, which is now `a`. -/
def KeptBut (ref : Nat) (a : α) (heap heap' : ObjectHeap α) : Prop :=
  heap.next ≤ heap'.next ∧ heap'.object ref = a ∧
    ∀ other < heap.next, other ≠ ref → heap'.object other = heap.object other

@[simp] theorem load_bind (f : α → Procedure ε α β) :
    (load ref >>= f) heap = f (heap.object ref) heap := rfl

@[simp] theorem raise_ok_bind {γ : Type} (b : β) (f : β → Procedure ε α γ) :
    (raise (.ok b) >>= f) heap = f b heap := rfl

@[simp] theorem raise_error_bind {γ : Type} (e : ε) (f : β → Procedure ε α γ) :
    (raise (.error e) >>= f) heap = .error e heap := rfl

@[simp] theorem allocate_bind (a : α) (f : Nat → Procedure ε α β) :
    (allocate a >>= f) heap =
      f heap.next ⟨Function.update heap.object heap.next a, heap.next + 1⟩ := rfl

theorem bind_ok {γ : Type} {x : Procedure ε α β} {f : β → Procedure ε α γ} {b : β}
    (h : x heap = .ok b heap₁) : (x >>= f) heap = f b heap₁ := by
  show EStateM.bind x f heap = _
  rw [EStateM.bind, h]

theorem bind_error {γ : Type} {x : Procedure ε α β} {f : β → Procedure ε α γ} {e : ε}
    (h : x heap = .error e heap₁) : (x >>= f) heap = .error e heap₁ := by
  show EStateM.bind x f heap = _
  rw [EStateM.bind, h]

theorem Kept.refl (heap : ObjectHeap α) : Kept heap heap := ⟨Nat.le_refl _, fun _ _ => rfl⟩

theorem Kept.trans (h : Kept heap heap₁) (h' : Kept heap₁ heap₂) : Kept heap heap₂ := by
  refine ⟨Nat.le_trans h.1 h'.1, fun ref href => ?_⟩
  rw [h'.2 ref (Nat.lt_of_lt_of_le href h.1), h.2 ref href]

theorem kept_allocate (heap : ObjectHeap α) (a : α) :
    Kept heap ⟨Function.update heap.object heap.next a, heap.next + 1⟩ := by
  refine ⟨Nat.le_succ _, fun ref href => ?_⟩
  exact Function.update_of_ne (Nat.ne_of_lt href) a heap.object

theorem Kept.then_but {a : α} (h : Kept heap heap₁) (h' : KeptBut ref a heap₁ heap₂) :
    KeptBut ref a heap heap₂ := by
  refine ⟨Nat.le_trans h.1 h'.1, h'.2.1, fun other hother hne => ?_⟩
  rw [h'.2.2 other (Nat.lt_of_lt_of_le hother h.1) hne, h.2 other hother]

theorem allocated_object (heap : ObjectHeap α) (a : α) :
    ObjectHeap.object ⟨Function.update heap.object heap.next a, heap.next + 1⟩ heap.next = a :=
  Function.update_self ..

theorem keptBut_replaceState (heap : ObjectHeap α) (target source : Nat) :
    KeptBut target (heap.object source) heap
      ⟨Function.update heap.object target (heap.object source), heap.next⟩ := by
  refine ⟨Nat.le_refl _, Function.update_self .., fun other _ hne => ?_⟩
  exact Function.update_of_ne hne _ heap.object

end ObjectHeap
end ProfileService.Library
