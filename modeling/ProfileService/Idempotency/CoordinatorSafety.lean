import ProfileService.Idempotency.DurableExecution

/-!
# The coordinator over the durable execution

What HOT_DURABLE mode needs of the hot store is a `HotContract`: an invariant
that its calls keep and a property of the results it replays. With it every
dispatch keeps `Consistent` and returns only results with that property.
-/

namespace ProfileService.Idempotency
open Library Library.Machine Application

variable {W : Type} [DecidableEq W] {H : HotStore W} {B : Business W} {F : Failures}
  {job : W → Request B} {before : IdempotencyKey → List (Version W DurableRecord)}
  {w : W} {s s' : World W H B} {α : Type}

/-- Every record version of `s` is still there in `s'`. -/
def Grown (s s' : World W H B) : Prop := ∀ k, (s.records k).versions <:+ (s'.records k).versions

omit [DecidableEq W] in
theorem Grown.refl (s : World W H B) : Grown s s := fun _ => List.suffix_refl _

omit [DecidableEq W] in
theorem Grown.trans {s'' : World W H B} (h : Grown s s') (h' : Grown s' s'') : Grown s s'' :=
  fun k => (h k).trans (h' k)

theorem Frame.grown (h : Frame w s s') : Grown s s' := fun k => (h.records k).grows

theorem DbStep.grown (h : DbStep w s s') : Grown s s' := by
  intro k
  cases h with
  | same => exact List.suffix_refl _
  | readClock => exact List.suffix_refl _
  | begin _ => exact List.suffix_refl _
  | commit _ => exact Row.versions_suffix_commit
  | rollback _ =>
    rw [show ((s.rollback w).records k).versions = (s.records k).versions from Row.rollback_versions]
  | write k' row _ _ _ =>
    by_cases hk : k = k'
    · subst hk
      simp [World.writeRecord]
    · simp [World.writeRecord, hk]
  | stmt _ _ _ _ _ => exact List.suffix_refl _

/-- The hot calls a dispatch of `q` makes: its claim and its release with its own
token, and the publication of a result with the property `good`. -/
inductive OwnCall (q : Request B) (good : CompletedIdempotencyResult → Prop) : HotCall → Prop where
  | claim : OwnCall q good
      (.claim q.identity q.requestFingerprint q.leaseToken q.policy.leaseSeconds)
  | complete (completed : CompletedIdempotencyResult) (h : good completed) : OwnCall q good
      (.complete q.identity q.leaseToken completed q.policy.hotResultTtlSeconds)
  | release : OwnCall q good (.release q.identity q.leaseToken)

/-- The hot-store side of the argument: an invariant, and what a replay is worth. -/
structure HotContract (F : Failures) (job : W → Request B)
    (before : IdempotencyKey → List (Version W DurableRecord)) (J : World W H B → Prop)
    (Good : W → CompletedIdempotencyResult → World W H B → Prop) : Prop where
  good_grown : ∀ {w c s s'}, Good w c s → Grown s s' → Good w c s'
  good_backed : ∀ {w c s}, Backed (job w).identity (job w).requestFingerprint c s → Good w c s
  db : ∀ {w s s'}, Consistent job before s → DbStep w s s' → J s → J s'
  call : ∀ {w s} {c : HotCall} {r h}, Consistent job before s → J s →
    OwnCall (job w) (fun completed => Good w completed s) c → H.exec w s.now c s.hot r h →
    J { s with hot := h }
  replay : ∀ {w s r h completed}, Consistent job before s → J s →
    H.exec w s.now (.claim (job w).identity (job w).requestFingerprint (job w).leaseToken
      (job w).policy.leaseSeconds) s.hot r h → r = .ok (.replay completed) →
    Good w completed { s with hot := h }
  heartbeat : ∀ {w s hb}, J s → J (s.setHeartbeat w hb)
  env : ∀ {s s'}, Consistent job before s → J s → WorldEnv s s' → J s'

variable {J : World W H B → Prop} {Good : W → CompletedIdempotencyResult → World W H B → Prop}

abbrev Keeps (F : Failures) (job : W → Request B)
    (before : IdempotencyKey → List (Version W DurableRecord)) (J : World W H B → Prop) (w : W)
    (Q : Except Exn α → World W H B → Prop) (x : Code (sig B) Exn α) (s : World W H B) : Prop :=
  Safe (rely F) (fun s => Consistent job before s ∧ J s) w Q x s

/-- What holds before the durable execution of `w` starts. -/
structure Start (w : W) (s : World W H B) : Prop where
  idle : s.inTransaction w = false
  fresh : Fresh w s

theorem Start.frame (h : Start w s) (hf : Frame w s s') : Start w s' :=
  ⟨hf.inTransaction.trans h.idle, h.fresh.frame hf⟩

/-- A normal return is good, and its lifetime outlasts the last clock reading. -/
def Returned (Good : W → CompletedIdempotencyResult → World W H B → Prop) (w : W)
    (r : Except Exn CompletedIdempotencyResult) (s : World W H B) : Prop :=
  ∀ completed, r = .ok completed → Good w completed s ∧ s.clockRead w < completed.expiresAt

def Decided (Good : W → CompletedIdempotencyResult → World W H B → Prop) (w : W)
    (result : IdempotencyResult) (s : World W H B) : Prop :=
  ∀ completed, result.completed? = some completed → Good w completed s

section
variable (C : HotContract F job before J Good)

include C

theorem Decided.grown {result : IdempotencyResult} (h : Decided Good w result s)
    (hg : Grown s s') : Decided Good w result s' :=
  fun completed hc => C.good_grown (h completed hc) hg

theorem Returned.frame {r : Except Exn CompletedIdempotencyResult} (h : Returned Good w r s)
    (hf : Frame w s s') : Returned Good w r s' := by
  intro completed hr
  obtain ⟨hg, hlt⟩ := h completed hr
  exact ⟨C.good_grown hg hf.grown, by rw [hf.clockRead]; exact hlt⟩

theorem keeps_lift {Q : Except Exn α → World W H B → Prop} {x : Code (dbSig B) Exn α}
    (hx : Holds F job before w Q x s) : Keeps F job before J w Q (x.lift (dbInSig B)) s := by
  have hj : Safe (dbRely F) (fun s => Consistent job before s ∧ J s) w Q x s :=
    hx.and_inv fun o s₁ r s₂ he hi hj => C.db hi (dbExec_step he) hj
  refine hj.lift (dbInSig B) (fun _ _ h => h) fun o s₁ r s₂ he => ?_
  cases r with
  | ok a => exact he
  | error e => exact he

theorem keeps_hot {c : HotCall} {Q : Except Exn c.Reply → World W H B → Prop}
    (hc : ∀ s₁, Frame w s s₁ → OwnCall (job w) (fun completed => Good w completed s₁) c)
    (h : ∀ s₁ r hot s₂, Frame w s s₁ → Consistent job before s₁ → J s₁ →
      H.exec w s₁.now c s₁.hot r hot → Frame w { s₁ with hot := hot } s₂ → Q r s₂) :
    Keeps F job before J w Q (.call (.hot c) .ret) s := by
  intro s₁ hf hi r s₂ he
  obtain ⟨hot, he, rfl⟩ := he
  refine ⟨⟨hi.1.setHot hot, C.call hi.1 hi.2 (hc s₁ hf) he⟩, fun s₃ hf₃ _ => ?_⟩
  exact h s₁ r hot s₃ hf hi.1 hi.2 he hf₃

omit C in
theorem keeps_leaseLost {Q : Except Exn Bool → World W H B → Prop}
    (h : ∀ s₁ lost, Frame w s s₁ → Q (.ok lost) s₁) : Keeps F job before J w Q leaseLost s := by
  intro s₁ hf hi r s₂ he
  obtain ⟨rfl, rfl⟩ := he
  exact ⟨hi, fun s₃ hf₃ _ => h s₃ _ (hf.trans hf₃)⟩

theorem keeps_release_ : Keeps F job before J w (fun _ s' => Grown s s')
    (release_ (job w).identity (job w).leaseToken) s := by
  refine Safe.onOutcome (P := fun _ s' => Grown s s')
    (keeps_hot C (fun _ _ => .release) fun s₁ r hot s₂ hf _ _ _ hf₂ => ?_) fun r s₁ hp => ?_
  · exact hf.grown.trans (hf₂.grown)
  · split
    all_goals exact fun s₂ hf hi => hp s₂ hf hi

theorem keeps_complete_ {completed : CompletedIdempotencyResult} (hgood : Good w completed s) :
    Keeps F job before J w (fun _ s' => Grown s s')
      (complete_ (job w).identity (job w).leaseToken completed (job w).policy) s := by
  refine Safe.onOutcome (P := fun _ s' => Grown s s')
    (keeps_hot C (fun s₁ hf => .complete _ (C.good_grown hgood hf.grown))
      fun s₁ r hot s₂ hf _ _ _ hf₂ => ?_) fun r s₁ hp => ?_
  · exact hf.grown.trans (hf₂.grown)
  · split
    · split
      all_goals exact fun s₂ hf hi => hp s₂ hf hi
    · exact fun s₂ hf hi => hp s₂ hf hi
    · split
      all_goals exact fun s₂ hf hi => hp s₂ hf hi

theorem keeps_evaluateResult {result : IdempotencyResult} (h : Decided Good w result s) :
    Keeps F job before J w (Returned Good w) (evaluateResult result) s := by
  have hclock : ∀ completed, result.completed? = some completed →
      Keeps F job before J w (fun r s' => Good w completed s' ∧ ∃ now, r = .ok now ∧
        s'.clockRead w = now) clockNow s := fun completed hc =>
    keeps_lift C (holds_utcNow fun s₁ s₂ hf hf₂ =>
      ⟨C.good_grown (h completed hc) (hf.grown.trans hf₂.grown), s₁.now, rfl,
        hf₂.clockRead.trans (by simp [World.readClock])⟩)
  have hok : ∀ completed now s₁, Good w completed s₁ → s₁.clockRead w = now →
      Keeps F job before J w (Returned Good w) (if completed.expiresAt ≤ now then
        throw (.idempotencyUnavailable "Replay lifetime expired before response")
        else return completed) s₁ := by
    intro completed now s₁ hg hnow
    split
    · exact fun s₂ _ _ c hc => by cases hc
    · rename_i hlive
      refine fun s₂ hf _ => Returned.frame C (fun c hc => ?_) hf
      cases hc
      exact ⟨hg, by rw [hnow]; exact not_le.1 hlive⟩
  cases result with
  | conflict => exact fun s₁ _ _ c hc => by cases hc
  | inProgress => exact fun s₁ _ _ c hc => by cases hc
  | executed completed | replay completed =>
    refine Safe.bind (hclock completed rfl) (fun now s₁ hp _ => ?_) (fun e s₁ hp c hc => by cases hc)
    obtain ⟨hg, _, hr, hnow⟩ := hp
    cases hr
    exact hok completed now s₁ hg hnow

theorem keeps_executeDurable (hs : Start w s) :
    Keeps F job before J w (fun r s' => ∀ result, r = .ok result → Decided Good w result s')
      (executeDurable (job w).identity (job w).requestFingerprint (job w).operation
        (job w).policy.retentionSeconds) s :=
  keeps_lift C ((holds_executeOnce hs.fresh hs.idle).mono fun _ _ hp result hr c hc =>
    C.good_backed (hp.2 result c hr hc))

theorem keeps_abandonClaim {e : Exn} {Q : Except Exn IdempotencyResult → World W H B → Prop}
    (hQ : ∀ e s', Q (.error e) s') :
    Keeps F job before J w Q (abandonClaim (job w).identity (job w).leaseToken e) s := by
  refine Safe.bind (P := fun _ _ => True) (keeps_leaseLost fun _ _ _ => trivial)
    (fun lost s₁ _ _ => ?_) (fun e s' _ => hQ e s')
  cases lost with
  | true => exact fun s₂ _ _ => hQ _ s₂
  | false =>
    exact Safe.bind (keeps_release_ C) (fun _ s₂ _ _ s₃ _ _ => hQ _ s₃) (fun e s' _ => hQ e s')

theorem keeps_publish {result : IdempotencyResult} (h : Decided Good w result s)
    (hmode : (job w).policy.mode = .hotDurable) :
    Keeps F job before J w (Returned Good w)
      (publish (job w).identity (job w).leaseToken (job w).policy result) s := by
  have herror : ∀ (e : Exn) (s' : World W H B), Returned Good w (.error e) s' :=
    fun e s' c hc => by cases hc
  refine Safe.bind (P := fun _ s' => Grown s s') (keeps_leaseLost fun s₁ _ hf => hf.grown)
    (fun lost s₁ hg _ => ?_) (fun e s' _ => herror e s')
  have h₁ : Decided Good w result s₁ := h.grown C hg
  have hthen : ∀ x : Code (sig B) Exn Unit, Keeps F job before J w (fun _ s' => Grown s₁ s') x s₁ →
      Keeps F job before J w (Returned Good w) (x >>= fun _ => evaluateResult result) s₁ :=
    fun x hx => Safe.bind hx (fun _ s₂ hg₂ _ => keeps_evaluateResult C (h₁.grown C hg₂))
      (fun e s' _ => herror e s')
  cases lost with
  | true =>
    simp only [if_true, hmode, reduceCtorEq, if_false]
    exact keeps_evaluateResult C h₁
  | false =>
    cases result with
    | executed completed => exact hthen _ (keeps_complete_ C (h₁ completed rfl))
    | replay completed => exact hthen _ (keeps_complete_ C (h₁ completed rfl))
    | conflict => exact hthen _ (keeps_release_ C)
    | inProgress => exact hthen _ (keeps_release_ C)

theorem keeps_resolveBusy {busy : IdempotencyResult} (hs : Start w s)
    (hbusy : busy.completed? = none) (hmode : (job w).policy.mode = .hotDurable) :
    Keeps F job before J w (Returned Good w)
      (resolveBusy (job w).identity (job w).requestFingerprint busy (job w).policy) s := by
  have herror : ∀ (e : Exn) (s' : World W H B), Returned Good w (.error e) s' :=
    fun e s' c hc => by cases hc
  have hnone : ∀ s', Decided Good w busy s' := fun s' c hc => by
    rw [hbusy] at hc
    cases hc
  simp only [resolveBusy, hmode, if_true]
  refine Safe.bind (keeps_lift C (holds_findExisting hs.idle)) (fun found s₁ hp _ => ?_)
    (fun e s' _ => herror e s')
  cases found with
  | none => exact keeps_evaluateResult C (hnone s₁)
  | some existing =>
    exact keeps_evaluateResult C fun c hc => C.good_backed (hp.backed existing c rfl hc)

theorem keeps_stopHeartbeat {Q : Except Exn Unit → World W H B → Prop}
    (h : ∀ s₁, Grown s s₁ → Q (.ok ()) s₁) :
    Keeps F job before J w Q (.call .stopHeartbeat .ret) s := by
  intro s₁ hf hi r s₂ he
  obtain ⟨rfl, rfl⟩ := he
  exact ⟨⟨hi.1.setHeartbeat _, C.heartbeat hi.2⟩, fun s₃ hf₃ _ => h s₃ (hf.grown.trans hf₃.grown)⟩

theorem keeps_executeClaimed (hs : Start w s) (hmode : (job w).policy.mode = .hotDurable) :
    Keeps F job before J w (Returned Good w)
      (executeClaimed (job w).identity (job w).requestFingerprint (job w).leaseToken
        (job w).operation (job w).policy) s := by
  have herror : ∀ (e : Exn) (s' : World W H B), Returned Good w (.error e) s' :=
    fun e s' c hc => by cases hc
  have hbody : ∀ s₁, Start w s₁ → Keeps F job before J w
      (fun r s' => ∀ result, r = .ok result → Decided Good w result s')
      (tryCatch (executeOperation (job w).identity (job w).requestFingerprint (job w).operation
        (job w).policy) (abandonClaim (job w).identity (job w).leaseToken)) s₁ := by
    intro s₁ hs₁
    simp only [executeOperation, hmode, if_true]
    exact Safe.tryCatch (keeps_executeDurable C hs₁) (fun _ _ h => h)
      (fun e s₂ _ _ => keeps_abandonClaim C fun _ _ _ hr => by cases hr)
  refine Safe.bind (P := fun _ s' => Start w s') (fun s₁ hf hi r s₂ he => ?_)
    (fun _ s₁ hs₁ _ => ?_) (fun e s' _ => herror e s')
  · obtain ⟨rfl, rfl⟩ := he
    have hs₂ : Start w (s₁.setHeartbeat w
        (some ⟨(job w).identity, (job w).leaseToken, (job w).policy.leaseSeconds, false, false⟩)) :=
      { hs.frame hf with }
    exact ⟨⟨hi.1.setHeartbeat _, C.heartbeat hi.2⟩, fun s₃ hf₃ _ => hs₂.frame hf₃⟩
  · -- the heartbeat is joined whatever the execution did; only a result goes on
    refine Safe.bind (P := fun r s' => ∀ result, r = .ok result → Decided Good w result s')
      (Safe.onOutcome (hbody s₁ hs₁) fun r s₂ hp => ?_)
      (fun result s₂ hp _ => keeps_publish C (hp result rfl) hmode) (fun e s' _ => herror e s')
    refine Safe.of_rely fun s₃ hf hi => ?_
    have hr := hp s₃ hf hi
    refine Safe.onOutcome (P := fun _ s' => Grown s₃ s') (keeps_stopHeartbeat C fun _ hg => hg)
      fun stopped s₄ hg => Safe.of_rely fun s₅ hf₅ hi₅ => ?_
    have hg₅ := hg s₅ hf₅ hi₅
    cases stopped with
    | ok _ => exact fun s₆ hf₆ _ result hres => (hr result hres).grown C (hg₅.trans hf₆.grown)
    | error e => exact fun s₆ _ _ result hres => by cases hres

/-- One dispatch in HOT_DURABLE mode. -/
theorem keeps_execute (hs : Start w s) (hmode : (job w).policy.mode = .hotDurable) :
    Keeps F job before J w (Returned Good w) (job w).code s := by
  have herror : ∀ (e : Exn) (s' : World W H B), Returned Good w (.error e) s' :=
    fun e s' c hc => by cases hc
  refine Safe.onOutcome (P := fun r s' => Start w s' ∧
      ∀ completed, r = .ok (.replay completed) → Good w completed s')
    (keeps_hot C (fun _ _ => .claim) fun s₁ r hot s₂ hf hi hj he hf₂ => ⟨?_, fun c hr => ?_⟩)
    (fun r s₁ hp => Safe.of_rely fun s₂ hf hi => ?_)
  · have hs₁ : Start w { s₁ with hot := hot } := { hs.frame hf with }
    exact hs₁.frame hf₂
  · exact C.good_grown (C.replay hi hj he hr) hf₂.grown
  · obtain ⟨hs₂, hreplay⟩ := hp s₂ hf hi
    cases r with
    | error e =>
      cases e with
      | idempotencyUnavailable message =>
        show Keeps F job before J w _ (if (job w).policy.mode = .hotOnly then _ else _) s₂
        rw [if_neg (by rw [hmode]; exact IdempotencyMode.noConfusion)]
        exact Safe.bind (keeps_executeDurable C hs₂)
          (fun result s₃ hq _ => keeps_evaluateResult C (hq result rfl)) (fun e s' _ => herror e s')
      | _ => exact fun s₃ _ _ => herror _ s₃
    | ok claim =>
      cases claim with
      | acquired => exact keeps_executeClaimed C hs₂ hmode
      | replay completed =>
        refine keeps_evaluateResult C fun c hc => ?_
        cases hc
        exact hreplay completed rfl
      | conflict => exact keeps_resolveBusy C hs₂ rfl hmode
      | inProgress => exact keeps_resolveBusy C hs₂ rfl hmode

/-- Any number of dispatches in any interleaving, with faults and deaths. -/
theorem keeps_reachable {c : Config (sig B) Exn W (World W H B) CompletedIdempotencyResult}
    {s₀ : World W H B} (hmode : ∀ w, (job w).policy.mode = .hotDurable)
    (h₀ : Consistent job before s₀) (hj : J s₀) (hstart : ∀ w, Start w s₀)
    (hr : (machine W H B F).Reachable ⟨s₀, fun w => some (job w).code⟩ c) :
    AllSafe (rely F) (fun s => Consistent job before s ∧ J s) (Returned Good) c := by
  refine reachable_safe (fun s₁ s₂ hi he => ⟨hi.1.env he, C.env hi.1 hi.2 he⟩) ?_
    ⟨⟨h₀, hj⟩, fun w x hx => ?_⟩ hr
  · rintro w s₁ s₂ hi ⟨-, rfl⟩
    refine ⟨hi.1.crash, ?_⟩
    unfold World.crash
    split
    · rename_i ht
      exact C.heartbeat (C.db hi.1 (.rollback ht) hi.2)
    · exact C.heartbeat hi.2
  · cases hx
    exact keeps_execute C (hstart w) (hmode w)

end
end ProfileService.Idempotency
