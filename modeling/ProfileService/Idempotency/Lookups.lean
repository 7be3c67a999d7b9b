import ProfileService.Idempotency.Escapes

/-!
# What a lookup has seen

A lookup reads the newest record committed until then. What it found is about that moment of
the log, and stays true of that moment whatever is committed later.
-/

namespace ProfileService.Idempotency
open Library Library.Machine Application Domain

variable {W : Type} [DecidableEq W] {H : HotStore W} {B : Business W} {F : Failures}
  {w : W} {s s' : World W H B} {α : Type} {I K : World W H B → Prop}
  {before : IdempotencyKey → List (Version W DurableRecord)} {k : IdempotencyKey}
  {seen : List (Commit W B) → Prop} {found : Option CompletedIdempotencyResult}

/-! ### Records and log -/

/-- The records are those of before the run and those that its commits installed. -/
def Logged (before : IdempotencyKey → List (Version W DurableRecord)) (s : World W H B) : Prop :=
  ∀ k, (s.records k).versions = installs k s.log ++ before k

theorem Logged.commit (h : Logged before s) : Logged before (s.commit w) := by
  intro k
  show ((s.records k).commit w).versions = _
  have hinstalls : installs k (s.commit w).log =
      (((s.records k).own w).map fun row => ⟨some w, row⟩).toList ++ installs k s.log := by
    cases ho : (s.records k).own w with
    | none => exact List.filterMap_cons_none (congrArg (Option.map _) ho)
    | some row => exact List.filterMap_cons_some (congrArg (Option.map _) ho)
  rw [hinstalls]
  cases ho : (s.records k).own w with
  | none =>
    rw [Row.commit_of_not_own ho]
    exact h k
  | some row =>
    rw [Row.commit_of_own ho]
    show ⟨some w, row⟩ :: (s.records k).versions = _
    rw [h k]
    rfl

omit [DecidableEq W] in
theorem Logged.writeRecord {row : DurableRecord} (h : Logged before s) :
    Logged before (s.writeRecord w k row) := by
  intro k'
  by_cases hk : k' = k
  · subst hk
    simpa [World.writeRecord] using h k'
  · simpa [World.writeRecord, hk] using h k'

theorem Logged.step (h : Logged before s) (hs : DbStep w s s') : Logged before s' := by
  cases hs with
  | same => exact h
  | readClock => exact h
  | begin _ => exact h
  | commit _ => exact h.commit
  | rollback _ => exact fun k => Row.rollback_versions.trans (h k)
  | write k row _ _ _ => exact h.writeRecord
  | stmt _ _ _ _ _ => exact h

theorem Logged.env (h : Logged before s) (he : WorldEnv s s') : Logged before s' := by
  cases he <;> exact h

theorem Logged.crash (h : Logged before s) : Logged before (s.crash w) := by
  unfold World.crash
  split
  · rename_i ht
    have hrolled : Logged before (s.rollback w) := h.step (.rollback ht)
    exact hrolled
  · exact h

/-- A fact that neither the others nor the database calls of `w` undo. -/
structure Enduring (w : W) (K : World W H B → Prop) : Prop where
  frame : ∀ {s s'}, Frame w s s' → K s → K s'
  step : ∀ {s s'}, DbStep w s s' → K s → K s'

/-- There was a moment, of which `seen` holds, when no live record of the identity was there
but `found`. -/
def Consulted (k : IdempotencyKey) (before : IdempotencyKey → List (Version W DurableRecord))
    (seen : List (Commit W B) → Prop) (found : Option CompletedIdempotencyResult)
    (s : World W H B) : Prop :=
  ∃ past, past <:+ s.log ∧ seen past ∧ ∀ v, (installs k past ++ before k).head? = some v →
    v.row.completed.expiresAt ≤ s.now ∨ found = some v.row.completed

omit [DecidableEq W] in
theorem Consulted.later (h : Consulted k before seen found s) (hlog : s.log <:+ s'.log)
    (hnow : s.now ≤ s'.now) : Consulted k before seen found s' := by
  obtain ⟨past, hpast, hseen, hrecord⟩ := h
  exact ⟨past, hpast.trans hlog, hseen, fun v hv =>
    (hrecord v hv).imp_left fun hexpired => le_trans hexpired hnow⟩

theorem Consulted.enduring :
    Enduring w (fun s : World W H B => Consulted k before seen found s) where
  frame hf h := h.later hf.log hf.now
  step hs h := h.later hs.log (le_of_eq hs.now.symm)

/-! ### A unit of work -/

section Quiet
variable (C : QuietContract F w I)

include C

theorem safe_withUow {body : Code (dbSig B) Exn α} {Q : α → World W H B → Prop}
    (hK : Enduring w K) (hQ : ∀ a, Enduring w (Q a)) (hs : K s)
    (hbody : ∀ s', Begun w I s' → K s' →
      Safe (dbRely F) I w (fun r s' => ∀ a, r = .ok a → Q a s') body s') :
    Safe (dbRely F) I w (fun r s' => ∀ a, r = .ok a → Q a s') (withUow body) s := by
  have hbegin : Safe (dbRely F) I w (fun r s' => ∀ u, r = .ok u → Begun w I s')
      (translated (.call .begin .ret)) s := by
    refine escapes_translated C rfl rfl fun s₁ _ hi r s₂ he s₃ hf₃ u hu => ?_
    cases r with
    | error e => cases hu
    | ok _ =>
      simp only [dbExec] at he
      split at he
      · obtain ⟨he, -⟩ := he
        cases he
      · rename_i ht
        rcases he with ⟨-, rfl⟩ | ⟨e, -, he, -⟩
        · exact ⟨s₁, hi, eq_false_of_ne_true ht, hf₃⟩
        · cases he
  have hkept : Safe (dbRely F) I w (fun r s' => (∀ u, r = .ok u → Begun w I s') ∧ K s')
      (translated (.call .begin .ret)) s :=
    hbegin.carry hs (fun _ _ hf => hK.frame hf) fun _ _ _ _ he => hK.step (dbExec_step he)
  refine hkept.bind (fun _ s' hp _ => ?_) fun e s' _ a ha => by cases ha
  refine (hbody s' (hp.1 _ rfl) hp.2).onOutcome fun r s₁ hr => Safe.of_rely fun s₂ hf hi => ?_
  have hleave : ∀ o : DbOp B, DbOp.isStmt o = false → DbOp.isUpsert o = false →
      Safe (dbRely F) I w (fun _ _ => True) (translated (.call o .ret)) s₂ :=
    fun o ho hu => escapes_translated C ho hu fun _ _ _ _ _ _ _ _ => trivial
  cases r with
  | ok a =>
    have hq : Q a s₂ := hr s₂ hf hi a rfl
    refine ((hleave .commit rfl rfl).carry hq (fun _ _ hf => (hQ a).frame hf)
      fun _ _ _ _ he => (hQ a).step (dbExec_step he)).bind (fun _ s₃ hp₃ _ => ?_)
      fun e s₃ _ b hb => by cases hb
    intro s₄ hf₄ _ b hb
    obtain rfl := Except.ok.inj hb
    exact (hQ a).frame hf₄ hp₃.2
  | error e =>
    refine (hleave .rollback rfl rfl).bind (fun _ s₃ _ _ => ?_) fun e s₃ _ b hb => by cases hb
    intro s₄ _ _ b hb
    cases hb

/-! ### The lookup -/

variable (hlogged : ∀ s, I s → Logged before s) (hK : Enduring w K)
  (hseen : ∀ s, I s → K s → seen s.log)

include hK

theorem reads_utcNow (hs : K s) :
    Safe (dbRely F) I w (fun r s' => (∀ now, r = .ok now → now ≤ s'.now) ∧ K s') utcNow s := by
  intro s₁ hf hi r s₂ he
  obtain ⟨rfl, rfl⟩ := he
  refine ⟨C.db .readClock hi, fun s₃ hf₃ _ => ⟨fun now hnow => ?_, ?_⟩⟩
  · obtain rfl := Except.ok.inj hnow
    exact hf₃.now
  · exact hK.frame hf₃ (hK.step .readClock (hK.frame hf hs))

include hlogged hseen

theorem consults_getCompleted (hs : K s) (hown : (s.records k).own w = none) :
    Safe (dbRely F) I w (fun r s' => ∀ found, r = .ok found → Consulted k before seen found s')
      (getCompleted k) s := by
  refine Safe.bind (P := fun r s' => ((∀ now, r = .ok now → now ≤ s'.now) ∧ K s') ∧
      (s'.records k).own w = none) ?_ (fun now s₁ hp _ => ?_)
    fun e s₁ _ found hfound => by cases hfound
  · intro s₁ hf hi r s₂ he
    obtain ⟨hi₂, hret⟩ := reads_utcNow C hK hs s₁ hf hi r s₂ he
    refine ⟨hi₂, fun s₃ hf₃ hi₃ => ⟨hret s₃ hf₃ hi₃, ?_⟩⟩
    obtain ⟨-, rfl⟩ := he
    exact ((hf₃.records k).own).trans (((hf.records k).own).trans hown)
  · obtain ⟨⟨hnow, hk⟩, hown₁⟩ := hp
    intro s₂ hf hi r s₃ he
    obtain ⟨rfl, he⟩ := he
    refine ⟨hi, fun s₄ hf₄ _ found hfound => Consulted.enduring.frame hf₄ ?_⟩
    refine ⟨s₃.log, List.suffix_refl _, hseen s₃ hi (hK.frame hf hk), fun v hv => ?_⟩
    rw [← hlogged s₃ hi k] at hv
    have hown₃ : (s₃.records k).own w = none := ((hf.records k).own).trans hown₁
    have hcommitted : (s₃.records k).visible w = some v.row := by
      rw [Row.visible_of_not_own hown₃]
      exact congrArg (Option.map Version.row) hv
    rcases he with rfl | ⟨e, -, rfl⟩
    · by_cases hlive : now < v.row.completed.expiresAt
      · refine .inr ((Except.ok.inj hfound).symm.trans ?_)
        rw [hcommitted, Option.filter_some, if_pos (decide_eq_true hlive)]
        rfl
      · exact .inl (le_trans (not_lt.1 hlive) (le_trans (hnow now rfl) hf.now))
    · cases hfound

variable (hidle : ∀ s, I s → s.inTransaction w = false → (s.records k).own w = none)

include hidle

theorem consults_findExisting_ {fp : Digest} (hs : K s) :
    Safe (dbRely F) I w (fun r s' => r = .ok none → Consulted k before seen none s')
      (findExisting_ k fp) s := by
  refine (safe_withUow C hK (fun found => Consulted.enduring) hs fun s' hbegun hk =>
    consults_getCompleted C hlogged hK hseen hk ?_).bind (fun found s₁ hp _ => ?_)
    fun e s₁ _ h => by cases h
  · obtain ⟨s₀, hi, ht, hf⟩ := hbegun
    exact ((hf.records k).own).trans (hidle s₀ hi ht)
  · cases found with
    | none => exact fun s₂ hf _ _ => Consulted.enduring.frame hf (hp none rfl)
    | some existing =>
      refine (reads_utcNow C Consulted.enduring (hp _ rfl)).bind (fun now s₂ hq _ => ?_)
        fun e s₂ _ h => by cases h
      intro s₃ hf _ h
      obtain ⟨past, hpast, hpastSeen, hrecord⟩ := Consulted.enduring.frame hf hq.2
      refine ⟨past, hpast, hpastSeen, fun v hv => .inl ?_⟩
      rcases hrecord v hv with hexpired | hfound
      · exact hexpired
      · obtain rfl := Option.some.inj hfound
        have hdecided : decideExisting fp v.row.completed now = none := Except.ok.inj h
        unfold decideExisting at hdecided
        split at hdecided
        · rename_i hexpired
          exact le_trans hexpired (le_trans (hq.1 now rfl) hf.now)
        · split at hdecided <;> cases hdecided

/-- A lost race comes out as it is only where no live record was seen. -/
theorem missed_resolveRace {fp : Digest} {d : DomainError} (hs : K s) :
    RaisesDb F I w (fun _ s => Consulted k before seen none s)
      (resolveRace k fp (.domain d)) s := by
  have hlookup : Safe (dbRely F) I w (fun r s' => Raises (Escapes fun _ _ => False) r s' ∧
      (r = .ok none → Consulted k before seen none s')) (findExisting_ k fp) s :=
    ((raisesDb_findExisting_ C).and (consults_findExisting_ C hlogged hK hseen hidle hs)).congr_inv
      fun s => and_self_iff
  refine hlookup.bind (fun found s₁ hp _ => ?_) fun e s₁ hp => raises_error ?_
  · cases found with
    | some winner => exact raisesDb_pure winner
    | none =>
      exact raisesDb_ret fun s₂ hf =>
        raises_error (.inr ⟨d, rfl, Consulted.enduring.frame hf (hp.2 rfl)⟩)
  · rcases hp.1 e rfl with h | ⟨_, _, hfalse⟩
    · exact .inl h
    · exact hfalse.elim

end Quiet
end ProfileService.Idempotency
