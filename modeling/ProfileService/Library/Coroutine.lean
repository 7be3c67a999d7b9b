import Mathlib.Logic.Relation
import Mathlib.Logic.Function.Basic

/-!
# Coroutines that raise, and their interleavings

A coroutine is a tree of awaited calls. Every call answers a value or raises,
and the coroutine ends with a value or an exception. `Machine` says what one
call does to a shared state; `Machine.Step` interleaves any number of tasks
call by call; `Safe` is the rely/guarantee assertion on one task, and
`Machine.reachable_safe` composes the assertions of all tasks.
-/

namespace ProfileService.Library

/-- The calls a coroutine may await and the type each of them answers. -/
structure Signature where
  Op : Type
  Reply : Op → Type

/-- A coroutine over `σ` that raises `ε` or returns `α`. -/
inductive Code (σ : Signature) (ε α : Type) where
  | ret (r : Except ε α)
  | call (o : σ.Op) (k : Except ε (σ.Reply o) → Code σ ε α)

namespace Code
variable {σ τ : Signature} {ε α β γ : Type}

/-- Continue with the outcome of a coroutine, whether it returned or raised. -/
def onOutcome : Code σ ε α → (Except ε α → Code σ ε β) → Code σ ε β
  | .ret r, f => f r
  | .call o k, f => .call o fun r => (k r).onOutcome f

def onReturn (f : α → Code σ ε β) : Except ε α → Code σ ε β
  | .ok a => f a
  | .error e => .ret (.error e)

def onRaise (h : ε → Code σ ε α) : Except ε α → Code σ ε α
  | .ok a => .ret (.ok a)
  | .error e => h e

instance : Monad (Code σ ε) where
  pure a := .ret (.ok a)
  bind x f := x.onOutcome (onReturn f)

instance : MonadExceptOf ε (Code σ ε) where
  throw e := .ret (.error e)
  tryCatch x h := x.onOutcome (onRaise h)

/-- `try: x finally: f`: an exception of `f` replaces the outcome of `x`. -/
def andFinally (x : Code σ ε α) (f : Code σ ε Unit) : Code σ ε α :=
  x.onOutcome fun r => f.onOutcome (onReturn fun _ => .ret r)

theorem bind_def (x : Code σ ε α) (f : α → Code σ ε β) :
    (x >>= f) = x.onOutcome (onReturn f) := rfl

theorem tryCatch_def (x : Code σ ε α) (h : ε → Code σ ε α) :
    (tryCatch x h : Code σ ε α) = x.onOutcome (onRaise h) := rfl

@[simp] theorem onOutcome_ret (r : Except ε α) (f : Except ε α → Code σ ε β) :
    (Code.ret r : Code σ ε α).onOutcome f = f r := rfl

@[simp] theorem onOutcome_call (o : σ.Op) (k : Except ε (σ.Reply o) → Code σ ε α)
    (f : Except ε α → Code σ ε β) :
    (Code.call o k).onOutcome f = .call o fun r => (k r).onOutcome f := rfl

@[simp] theorem onReturn_ok (f : α → Code σ ε β) (a : α) :
    onReturn f (.ok a : Except ε α) = f a := rfl

@[simp] theorem onReturn_error (f : α → Code σ ε β) (e : ε) :
    onReturn f (.error e : Except ε α) = .ret (.error e) := rfl

@[simp] theorem onRaise_ok (h : ε → Code σ ε α) (a : α) :
    onRaise h (.ok a : Except ε α) = .ret (.ok a) := rfl

@[simp] theorem onRaise_error (h : ε → Code σ ε α) (e : ε) :
    onRaise h (.error e : Except ε α) = h e := rfl

theorem onOutcome_assoc (x : Code σ ε α) (f : Except ε α → Code σ ε β)
    (g : Except ε β → Code σ ε γ) :
    (x.onOutcome f).onOutcome g = x.onOutcome fun r => (f r).onOutcome g := by
  induction x with
  | ret r => rfl
  | call o k ih =>
    simp only [onOutcome_call]
    congr 1
    funext r
    exact ih r

theorem bind_assoc (x : Code σ ε α) (f : α → Code σ ε β) (g : β → Code σ ε γ) :
    ((x >>= f) >>= g) = x >>= fun a => f a >>= g := by
  rw [bind_def, bind_def, bind_def, onOutcome_assoc]
  congr 1
  funext r
  cases r <;> rfl

end Code

/-- A signature read inside a larger one: the call it becomes and how the
larger signature's answer is read back. -/
structure Signature.Inclusion (σ τ : Signature) where
  op : σ.Op → τ.Op
  reply : ∀ o, τ.Reply (op o) → σ.Reply o

/-- A coroutine of the smaller signature run inside the larger one. -/
def Code.lift {σ τ : Signature} {ε α : Type} (ι : σ.Inclusion τ) : Code σ ε α → Code τ ε α
  | .ret r => .ret r
  | .call o k => .call (ι.op o) fun r => (k (r.map (ι.reply o))).lift ι

/-- A coroutine with every call replaced by the coroutine it stands for. -/
def Code.expand {σ τ : Signature} {ε α : Type} (f : ∀ o : σ.Op, Code τ ε (σ.Reply o)) :
    Code σ ε α → Code τ ε α
  | .ret r => .ret r
  | .call o k => (f o).onOutcome fun r => (k r).expand f

theorem Code.expand_onOutcome {σ τ : Signature} {ε α β : Type}
    (f : ∀ o : σ.Op, Code τ ε (σ.Reply o)) (x : Code σ ε α) (g : Except ε α → Code σ ε β) :
    (x.onOutcome g).expand f = (x.expand f).onOutcome fun r => (g r).expand f := by
  induction x with
  | ret r => rfl
  | call o k ih =>
    simp only [onOutcome_call, expand, onOutcome_assoc]
    congr 1
    funext r
    exact ih r

theorem Code.onOutcome_ret_right {σ : Signature} {ε α : Type} (x : Code σ ε α) :
    x.onOutcome .ret = x := by
  induction x with
  | ret r => rfl
  | call o k ih =>
    rw [onOutcome_call]
    congr 1
    funext r
    exact ih r

theorem Code.expand_call {σ τ : Signature} {ε : Type} (f : ∀ o : σ.Op, Code τ ε (σ.Reply o))
    (o : σ.Op) : (Code.call o .ret : Code σ ε (σ.Reply o)).expand f = f o :=
  onOutcome_ret_right (f o)

theorem Code.expand_bind {σ τ : Signature} {ε α β : Type} (f : ∀ o : σ.Op, Code τ ε (σ.Reply o))
    (x : Code σ ε α) (g : α → Code σ ε β) :
    (x >>= g).expand f = x.expand f >>= fun a => (g a).expand f := by
  rw [bind_def, expand_onOutcome, bind_def]
  congr 1
  funext r
  cases r <;> rfl

/-- The meaning of calls on a shared state `S` for tasks named by `T`: `exec` is
one call of one task, `env` a step no task takes, `crash` what the death of a
task leaves behind. -/
structure Machine (σ : Signature) (ε T S : Type) where
  exec : T → (o : σ.Op) → S → Except ε (σ.Reply o) → S → Prop
  env : S → S → Prop
  crash : T → S → S → Prop

/-- The shared state and what each task still has to do (`none`: it died). -/
structure Config (σ : Signature) (ε T S α : Type) where
  state : S
  task : T → Option (Code σ ε α)

namespace Machine
variable {σ : Signature} {ε T S α β : Type}

inductive Step [DecidableEq T] (M : Machine σ ε T S) : Config σ ε T S α → Config σ ε T S α → Prop where
  | act {c : Config σ ε T S α} {t : T} {o : σ.Op} {k r s'} (htask : c.task t = some (.call o k))
      (hexec : M.exec t o c.state r s') :
      Step M c ⟨s', Function.update c.task t (some (k r))⟩
  | env {c : Config σ ε T S α} {s'} (henv : M.env c.state s') : Step M c ⟨s', c.task⟩
  | crash {c : Config σ ε T S α} {t : T} {o : σ.Op} {k s'} (htask : c.task t = some (.call o k))
      (hcrash : M.crash t c.state s') :
      Step M c ⟨s', Function.update c.task t none⟩

def Reachable [DecidableEq T] (M : Machine σ ε T S) : Config σ ε T S α → Config σ ε T S α → Prop :=
  Relation.ReflTransGen (Step M)

/-- What task `t` may assume of every step that is not its own. -/
structure Rely (M : Machine σ ε T S) where
  rel : T → S → S → Prop
  refl : ∀ t s, rel t s s
  trans : ∀ {t s₁ s₂ s₃}, rel t s₁ s₂ → rel t s₂ s₃ → rel t s₁ s₃
  exec : ∀ {t u o s r s'}, M.exec u o s r s' → t ≠ u → rel t s s'
  env : ∀ {t s s'}, M.env s s' → rel t s s'
  crash : ∀ {t u s s'}, M.crash u s s' → t ≠ u → rel t s s'

/-- `Safe R I t Q x s`: from `s`, under any interference `R` allows `t` to see,
every call of `x` keeps the invariant `I`, and an outcome satisfies `Q` from
the moment it is there. -/
def Safe {M : Machine σ ε T S} (R : Rely M) (I : S → Prop) (t : T)
    (Q : Except ε α → S → Prop) : Code σ ε α → S → Prop
  | .ret r, s => ∀ s', R.rel t s s' → I s' → Q r s'
  | .call o k, s => ∀ s₁, R.rel t s s₁ → I s₁ → ∀ r s₂, M.exec t o s₁ r s₂ →
      I s₂ ∧ Safe R I t Q (k r) s₂

variable {M : Machine σ ε T S} {R : Rely M} {I : S → Prop} {t : T}

theorem Safe.rely {Q : Except ε α → S → Prop} {x : Code σ ε α} {s s' : S}
    (h : Safe R I t Q x s) (hr : R.rel t s s') : Safe R I t Q x s' := by
  cases x with
  | ret r => exact fun s₁ h₁ hi => h s₁ (R.trans hr h₁) hi
  | call o k => exact fun s₁ h₁ hi r s₂ hx => h s₁ (R.trans hr h₁) hi r s₂ hx

theorem Safe.of_rely {Q : Except ε α → S → Prop} {x : Code σ ε α} {s : S}
    (h : ∀ s', R.rel t s s' → I s' → Safe R I t Q x s') : Safe R I t Q x s := by
  cases x with
  | ret r => exact fun s' hr hi => h s' hr hi s' (R.refl t s') hi
  | call o k => exact fun s' hr hi => h s' hr hi s' (R.refl t s') hi

/-- The sequence rule: what follows starts from an outcome that satisfies `P`
whatever the others do before its first call. -/
theorem Safe.onOutcome {P : Except ε α → S → Prop} {Q : Except ε β → S → Prop}
    {x : Code σ ε α} {f : Except ε α → Code σ ε β} {s : S} (hx : Safe R I t P x s)
    (hf : ∀ r s', (∀ s'', R.rel t s' s'' → I s'' → P r s'') → Safe R I t Q (f r) s') :
    Safe R I t Q (x.onOutcome f) s := by
  induction x generalizing s with
  | ret r => exact hf r s hx
  | call o k ih =>
    intro s₁ hr hi r s₂ he
    have hk := hx s₁ hr hi r s₂ he
    exact ⟨hk.1, ih r hk.2⟩

theorem Safe.bind {P : Except ε α → S → Prop} {Q : Except ε β → S → Prop}
    {x : Code σ ε α} {f : α → Code σ ε β} {s : S} (hx : Safe R I t P x s)
    (hok : ∀ a s', P (.ok a) s' → I s' → Safe R I t Q (f a) s')
    (herror : ∀ e s', P (.error e) s' → Q (.error e) s') : Safe R I t Q (x >>= f) s := by
  rw [Code.bind_def]
  refine hx.onOutcome fun r s' hp => ?_
  cases r with
  | ok a => exact Safe.of_rely fun s'' hr hi => hok a s'' (hp s'' hr hi) hi
  | error e => exact fun s'' hr hi => herror e s'' (hp s'' hr hi)

theorem Safe.tryCatch {P Q : Except ε α → S → Prop} {x : Code σ ε α} {h : ε → Code σ ε α} {s : S}
    (hx : Safe R I t P x s) (hok : ∀ a s', P (.ok a) s' → Q (.ok a) s')
    (herror : ∀ e s', P (.error e) s' → I s' → Safe R I t Q (h e) s') :
    Safe R I t Q (MonadExcept.tryCatch x h : Code σ ε α) s := by
  refine Safe.onOutcome (f := Code.onRaise h) hx fun r s' hp => ?_
  cases r with
  | ok a => exact fun s'' hr hi => hok a s'' (hp s'' hr hi)
  | error e => exact Safe.of_rely fun s'' hr hi => herror e s'' (hp s'' hr hi) hi

theorem Safe.mono {P Q : Except ε α → S → Prop} {x : Code σ ε α} {s : S}
    (hx : Safe R I t P x s) (h : ∀ r s', P r s' → Q r s') : Safe R I t Q x s := by
  induction x generalizing s with
  | ret r => exact fun s' hr hi => h r s' (hx s' hr hi)
  | call o k ih =>
    intro s₁ hr hi r s₂ he
    have hk := hx s₁ hr hi r s₂ he
    exact ⟨hk.1, ih r hk.2⟩

theorem Safe.mono_inv {P Q : Except ε α → S → Prop} {x : Code σ ε α} {s : S}
    (hx : Safe R I t P x s) (h : ∀ r s', I s' → P r s' → Q r s') : Safe R I t Q x s := by
  induction x generalizing s with
  | ret r => exact fun s' hr hi => h r s' hi (hx s' hr hi)
  | call o k ih =>
    intro s₁ hr hi r s₂ he
    have hk := hx s₁ hr hi r s₂ he
    exact ⟨hk.1, ih r hk.2⟩

theorem Safe.congr_inv {J : S → Prop} {Q : Except ε α → S → Prop} {x : Code σ ε α} {s : S}
    (hx : Safe R I t Q x s) (h : ∀ s, I s ↔ J s) : Safe R J t Q x s := by
  have hsame : I = J := funext fun s => propext (h s)
  exact hsame ▸ hx

theorem Safe.and_inv {J : S → Prop} {Q : Except ε α → S → Prop} {x : Code σ ε α} {s : S}
    (hx : Safe R I t Q x s) (hJ : ∀ o s r s', M.exec t o s r s' → I s → J s → J s') :
    Safe R (fun s => I s ∧ J s) t Q x s := by
  induction x generalizing s with
  | ret r => exact fun s' hr hi => hx s' hr hi.1
  | call o k ih =>
    intro s₁ hr hi r s₂ he
    have hk := hx s₁ hr hi.1 r s₂ he
    exact ⟨⟨hk.1, hJ o s₁ r s₂ he hi.1 hi.2⟩, ih r hk.2⟩

/-- So may one that the calls keep while a fact `K` of the task alone lasts. -/
theorem Safe.and_inv_while {J K : S → Prop} {Q : Except ε α → S → Prop} {x : Code σ ε α} {s : S}
    (hx : Safe R I t Q x s) (hs : K s) (hrel : ∀ s s', R.rel t s s' → K s → K s')
    (hcall : ∀ o s r s', M.exec t o s r s' → I s → J s → K s → J s' ∧ K s') :
    Safe R (fun s => I s ∧ J s) t Q x s := by
  induction x generalizing s with
  | ret r => exact fun s' hr hi => hx s' hr hi.1
  | call o k ih =>
    intro s₁ hr hi r s₂ he
    have hk := hx s₁ hr hi.1 r s₂ he
    obtain ⟨hj, hs₂⟩ := hcall o s₁ r s₂ he hi.1 hi.2 (hrel s s₁ hr hs)
    exact ⟨⟨hk.1, hj⟩, ih r hk.2 hs₂⟩

theorem Safe.carry {K : S → Prop} {Q : Except ε α → S → Prop} {x : Code σ ε α} {s : S}
    (hx : Safe R I t Q x s) (hs : K s) (hrel : ∀ s s', R.rel t s s' → K s → K s')
    (hcall : ∀ o s r s', M.exec t o s r s' → K s → K s') :
    Safe R I t (fun r s => Q r s ∧ K s) x s := by
  induction x generalizing s with
  | ret r => exact fun s' hr hi => ⟨hx s' hr hi, hrel s s' hr hs⟩
  | call o k ih =>
    intro s₁ hr hi r s₂ he
    have hk := hx s₁ hr hi r s₂ he
    exact ⟨hk.1, ih r hk.2 (hcall o s₁ r s₂ he (hrel s s₁ hr hs))⟩

theorem Safe.and {J : S → Prop} {P Q : Except ε α → S → Prop} {x : Code σ ε α} {s : S}
    (hp : Safe R I t P x s) (hq : Safe R J t Q x s) :
    Safe R (fun s => I s ∧ J s) t (fun r s => P r s ∧ Q r s) x s := by
  induction x generalizing s with
  | ret r => exact fun s' hr hi => ⟨hp s' hr hi.1, hq s' hr hi.2⟩
  | call o k ih =>
    intro s₁ hr hi r s₂ he
    have hk := hp s₁ hr hi.1 r s₂ he
    have hk' := hq s₁ hr hi.2 r s₂ he
    exact ⟨⟨hk.1, hk'.1⟩, ih r hk.2 hk'.2⟩

def Raises (E : ε → S → Prop) (r : Except ε α) (s : S) : Prop := ∀ e, r = .error e → E e s

theorem raises_ok {E : ε → S → Prop} (a : α) (s : S) : Raises E (.ok a : Except ε α) s :=
  fun _ h => by cases h

theorem raises_error {E : ε → S → Prop} {e : ε} {s : S} (h : E e s) :
    Raises E (.error e : Except ε α) s :=
  fun _ he => by cases he; exact h

theorem Safe.bind_raises {E : ε → S → Prop} {x : Code σ ε α} {f : α → Code σ ε β} {s : S}
    (hx : Safe R I t (Raises E) x s) (hf : ∀ a s', I s' → Safe R I t (Raises E) (f a) s') :
    Safe R I t (Raises E) (x >>= f) s :=
  hx.bind (fun a s' _ hi => hf a s' hi) fun e _ h => raises_error (h e rfl)

theorem Safe.bind_ret {P : Except ε α → S → Prop} {Q : Except ε β → S → Prop} {x : Code σ ε α}
    {g : α → Except ε β} {s : S} (hx : Safe R I t P x s)
    (hok : ∀ a s', I s' → P (.ok a) s' → Q (g a) s')
    (herror : ∀ e s', I s' → P (.error e) s' → Q (.error e) s') :
    Safe R I t Q (x >>= fun a => .ret (g a)) s := by
  rw [Code.bind_def]
  refine hx.onOutcome fun r s' hp => ?_
  cases r with
  | ok a => exact fun s'' hr hi => hok a s'' hi (hp s'' hr hi)
  | error e => exact fun s'' hr hi => herror e s'' hi (hp s'' hr hi)

/-- A coroutine that is safe in one machine is safe where a larger one runs it. -/
theorem Safe.lift {τ : Signature} {N : Machine τ ε T S} {R' : Rely N} (ι : σ.Inclusion τ)
    (hrel : ∀ s s', R'.rel t s s' → R.rel t s s')
    (hexec : ∀ o s r s', N.exec t (ι.op o) s r s' → M.exec t o s (r.map (ι.reply o)) s')
    {Q : Except ε α → S → Prop} {x : Code σ ε α} {s : S} (hx : Safe R I t Q x s) :
    Safe R' I t Q (x.lift ι) s := by
  induction x generalizing s with
  | ret r => exact fun s' hr hi => hx s' (hrel _ _ hr) hi
  | call o k ih =>
    intro s₁ hr hi r s₂ he
    have hk := hx s₁ (hrel _ _ hr) hi _ s₂ (hexec o s₁ r s₂ he)
    exact ⟨hk.1, ih _ hk.2⟩

structure AllSafe (R : Rely M) (I : S → Prop) (Q : T → Except ε α → S → Prop)
    (c : Config σ ε T S α) : Prop where
  inv : I c.state
  task : ∀ t x, c.task t = some x → Safe R I t (Q t) x c.state

theorem AllSafe.step [DecidableEq T] {Q : T → Except ε α → S → Prop} {c c' : Config σ ε T S α}
    (henv : ∀ s s', I s → M.env s s' → I s') (hcrash : ∀ t s s', I s → M.crash t s s' → I s')
    (h : AllSafe R I Q c) (hs : Step M c c') : AllSafe R I Q c' := by
  cases hs with
  | @act t o k r s' htask hexec =>
    have hk := h.task t _ htask c.state (R.refl t _) h.inv r s' hexec
    refine ⟨hk.1, fun u x hu => ?_⟩
    by_cases hut : u = t
    · subst hut
      have hx : k r = x := by simpa using hu
      exact hx ▸ hk.2
    · have hu' : c.task u = some x := by simpa [hut] using hu
      exact (h.task u x hu').rely (R.exec hexec hut)
  | env he => exact ⟨henv _ _ h.inv he, fun u x hu => (h.task u x hu).rely (R.env he)⟩
  | @crash t o k s' htask hc =>
    refine ⟨hcrash _ _ _ h.inv hc, fun u x hu => ?_⟩
    by_cases hut : u = t
    · subst hut
      simp at hu
    · have hu' : c.task u = some x := by simpa [hut] using hu
      exact (h.task u x hu').rely (R.crash hc hut)

/-- The composition rule: tasks that are safe at the start keep the invariant in
every interleaving, and every outcome satisfies its task's postcondition. -/
theorem reachable_safe [DecidableEq T] {Q : T → Except ε α → S → Prop} {c c' : Config σ ε T S α}
    (henv : ∀ s s', I s → M.env s s' → I s') (hcrash : ∀ t s s', I s → M.crash t s s' → I s')
    (h : AllSafe R I Q c) (hr : M.Reachable c c') : AllSafe R I Q c' := by
  induction hr with
  | refl => exact h
  | tail _ hs ih => exact ih.step henv hcrash hs

theorem AllSafe.outcome {Q : T → Except ε α → S → Prop} {c : Config σ ε T S α}
    (h : AllSafe R I Q c) {t : T} {r : Except ε α} (ht : c.task t = some (.ret r)) :
    Q t r c.state :=
  h.task t _ ht c.state (R.refl t _) h.inv

/-- A run of one task with no step of anybody else in between. -/
inductive Runs (M : Machine σ ε T S) (t : T) : Code σ ε α → S → Except ε α → S → Prop where
  | ret (r : Except ε α) (s : S) : Runs M t (.ret r) s r s
  | call {o : σ.Op} {k : Except ε (σ.Reply o) → Code σ ε α} {s r s' a s''}
      (hexec : M.exec t o s r s') (hk : Runs M t (k r) s' a s'') : Runs M t (.call o k) s a s''

@[simp] theorem runs_ret {r a : Except ε α} {s s' : S} :
    Runs M t (.ret r : Code σ ε α) s a s' ↔ a = r ∧ s' = s := by
  constructor
  · intro h
    cases h
    exact ⟨rfl, rfl⟩
  · rintro ⟨rfl, rfl⟩
    exact .ret _ _

theorem Runs.exists_call {o : σ.Op} {k : Except ε (σ.Reply o) → Code σ ε α} {s s' : S}
    {P : Except ε α → S → Prop} (r : Except ε (σ.Reply o)) (hexec : M.exec t o s r s')
    (h : ∃ a s'', Runs M t (k r) s' a s'' ∧ P a s'') :
    ∃ a s'', Runs M t (.call o k) s a s'' ∧ P a s'' := by
  obtain ⟨a, s'', hk, hp⟩ := h
  exact ⟨a, s'', .call hexec hk, hp⟩

/-- A run of one task is one of the interleavings. -/
theorem Runs.reachable [DecidableEq T] {x : Code σ ε α} {s s' : S} {r : Except ε α}
    (h : Runs M t x s r s') {task : T → Option (Code σ ε α)} (ht : task t = some x) :
    M.Reachable ⟨s, task⟩ ⟨s', Function.update task t (some (.ret r))⟩ := by
  induction h generalizing task with
  | ret r s =>
    rw [← ht, Function.update_eq_self]
    exact .refl
  | @call o k s r s₁ a s₂ hexec _ ih =>
    have hstep : Step M ⟨s, task⟩ ⟨s₁, Function.update task t (some (k r))⟩ := .act ht hexec
    have hrest := ih (Function.update_self t (some (k r)) task)
    rw [Function.update_idem] at hrest
    exact .head hstep hrest

/-- A run of one task among others: before each of its calls, and at its end, the
others may do whatever `R` lets the task see. -/
inductive RunsAmong (R : Rely M) (t : T) : Code σ ε α → S → Except ε α → S → Prop where
  | ret (r : Except ε α) {s s' : S} (hrel : R.rel t s s') : RunsAmong R t (.ret r) s r s'
  | call {o : σ.Op} {k : Except ε (σ.Reply o) → Code σ ε α} {s s₁ r s₂ a s'} (hrel : R.rel t s s₁)
      (hexec : M.exec t o s₁ r s₂) (hk : RunsAmong R t (k r) s₂ a s') :
      RunsAmong R t (.call o k) s a s'

@[simp] theorem runsAmong_ret {r a : Except ε α} {s s' : S} :
    RunsAmong R t (.ret r : Code σ ε α) s a s' ↔ a = r ∧ R.rel t s s' := by
  constructor
  · intro h
    cases h with
    | ret _ hrel => exact ⟨rfl, hrel⟩
  · rintro ⟨rfl, hrel⟩
    exact .ret _ hrel

theorem runsAmong_call {o : σ.Op} {k : Except ε (σ.Reply o) → Code σ ε α} {s s' : S}
    {a : Except ε α} :
    RunsAmong R t (.call o k) s a s' ↔
      ∃ s₁ r s₂, R.rel t s s₁ ∧ M.exec t o s₁ r s₂ ∧ RunsAmong R t (k r) s₂ a s' := by
  constructor
  · intro h
    cases h with
    | call hrel hexec hk => exact ⟨_, _, _, hrel, hexec, hk⟩
  · rintro ⟨s₁, r, s₂, hrel, hexec, hk⟩
    exact .call hrel hexec hk

theorem RunsAmong.rely {x : Code σ ε α} {s₀ s s' : S} {a : Except ε α} (hrel : R.rel t s₀ s)
    (h : RunsAmong R t x s a s') : RunsAmong R t x s₀ a s' := by
  cases h with
  | ret _ hrel' => exact .ret _ (R.trans hrel hrel')
  | call hrel' hexec hk => exact .call (R.trans hrel hrel') hexec hk

theorem RunsAmong.after {x : Code σ ε α} {s s' s'' : S} {a : Except ε α}
    (h : RunsAmong R t x s a s') (hrel : R.rel t s' s'') : RunsAmong R t x s a s'' := by
  induction h with
  | ret _ hrel' => exact .ret _ (R.trans hrel' hrel)
  | call hrel' hexec _ ih => exact .call hrel' hexec (ih hrel)

theorem Runs.among {x : Code σ ε α} {s s' : S} {a : Except ε α} (h : Runs M t x s a s') :
    RunsAmong R t x s a s' := by
  induction h with
  | ret r s => exact .ret r (R.refl t s)
  | @call o k s r s₁ a s₂ hexec _ ih => exact .call (R.refl t s) hexec ih

/-- A run of a composition is a run of its first part and one of the rest. -/
theorem runsAmong_onOutcome {x : Code σ ε α} {f : Except ε α → Code σ ε β} {s s'' : S}
    {b : Except ε β} :
    RunsAmong R t (x.onOutcome f) s b s'' ↔
      ∃ a s', RunsAmong R t x s a s' ∧ RunsAmong R t (f a) s' b s'' := by
  induction x generalizing s with
  | ret r =>
    constructor
    · intro h
      exact ⟨r, s, .ret r (R.refl t s), h⟩
    · rintro ⟨a, s', hx, hf⟩
      obtain ⟨rfl, hrel⟩ := runsAmong_ret.1 hx
      exact hf.rely hrel
  | call o k ih =>
    simp only [Code.onOutcome_call, runsAmong_call]
    constructor
    · rintro ⟨s₁, r, s₂, hrel, hexec, hk⟩
      obtain ⟨a, s', hx, hf⟩ := (ih r).1 hk
      exact ⟨a, s', ⟨s₁, r, s₂, hrel, hexec, hx⟩, hf⟩
    · rintro ⟨a, s', ⟨s₁, r, s₂, hrel, hexec, hx⟩, hf⟩
      exact ⟨s₁, r, s₂, hrel, hexec, (ih r).2 ⟨a, s', hx, hf⟩⟩

theorem runsAmong_bind {x : Code σ ε α} {f : α → Code σ ε β} {s s'' : S} {b : Except ε β} :
    RunsAmong R t (x >>= f) s b s'' ↔
      (∃ a s', RunsAmong R t x s (.ok a) s' ∧ RunsAmong R t (f a) s' b s'') ∨
        ∃ e, RunsAmong R t x s (.error e) s'' ∧ b = .error e := by
  rw [Code.bind_def, runsAmong_onOutcome]
  constructor
  · rintro ⟨a, s', hx, hf⟩
    cases a with
    | ok a => exact .inl ⟨a, s', hx, hf⟩
    | error e =>
      obtain ⟨rfl, hrel⟩ := runsAmong_ret.1 hf
      exact .inr ⟨e, hx.after hrel, rfl⟩
  · rintro (⟨a, s', hx, hf⟩ | ⟨e, hx, rfl⟩)
    · exact ⟨.ok a, s', hx, hf⟩
    · exact ⟨.error e, s'', hx, .ret _ (R.refl t s'')⟩

theorem Step.runsAmong [DecidableEq T] {c c' : Config σ ε T S α} (hs : Step M c c')
    {y : Code σ ε α} (hy : c'.task t = some y) {a : Except ε α} {s' : S}
    (h : RunsAmong R t y c'.state a s') :
    ∃ x, c.task t = some x ∧ RunsAmong R t x c.state a s' := by
  cases hs with
  | @act u o k r s₁ htask hexec =>
    change Function.update c.task u (some (k r)) t = some y at hy
    by_cases hu : t = u
    · subst hu
      rw [Function.update_self] at hy
      cases hy
      exact ⟨_, htask, .call (R.refl t _) hexec h⟩
    · rw [Function.update_of_ne hu] at hy
      exact ⟨y, hy, h.rely (R.exec hexec hu)⟩
  | env he => exact ⟨y, hy, h.rely (R.env he)⟩
  | @crash u o k s₁ htask hc =>
    change Function.update c.task u none t = some y at hy
    by_cases hu : t = u
    · subst hu
      rw [Function.update_self] at hy
      cases hy
    · rw [Function.update_of_ne hu] at hy
      exact ⟨y, hy, h.rely (R.crash hc hu)⟩

theorem Reachable.runsAmong [DecidableEq T] {c c' : Config σ ε T S α} (hr : M.Reachable c c')
    {a : Except ε α} (hend : c'.task t = some (.ret a)) :
    ∃ x, c.task t = some x ∧ RunsAmong R t x c.state a c'.state := by
  induction hr using Relation.ReflTransGen.head_induction_on with
  | refl => exact ⟨_, hend, .ret a (R.refl t _)⟩
  | head hs _ ih =>
    obtain ⟨y, hy, hrun⟩ := ih
    exact Step.runsAmong hs hy hrun

end Machine
end ProfileService.Library
