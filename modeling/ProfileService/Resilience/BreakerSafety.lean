import Mathlib
import ProfileService.Resilience.CircuitBreaker

/-!
# One probe at a time, and never wedged

The sections by what they can do to a breaker, the invariant of all runs, and
what it says about admissions.
-/

set_option linter.unusedSectionVars false

namespace ProfileService.Resilience

variable {T C : Type} [Zero T] [Sub T] [LinearOrder T] [DecidableEq C]
variable {cfg : Config T} {b : CircuitBreaker T C} {ticket : Ticket C} {now : T} {c : C}
  {outcome : Outcome}

/-! ### What a section can do -/

theorem checkState_cases (cfg : Config T) (now : T) (b : CircuitBreaker T C) :
    checkState_ cfg now b = b ∨
      ∃ openedAt, b.state = .opened ∧ b.openedAt = some openedAt ∧
        cfg.recoveryTimeout ≤ now - openedAt ∧
        checkState_ cfg now b = { b with state := .halfOpen } := by
  unfold checkState_
  split
  · rename_i openedAt hstate hopened
    split
    · rename_i helapsed
      exact .inr ⟨openedAt, hstate, hopened, helapsed, rfl⟩
    · exact .inl rfl
  · exact .inl rfl

theorem checkState_opened {openedAt : T} (hopened : b.openedAt = some openedAt)
    (h : (checkState_ cfg now b).state = .opened) : now - openedAt < cfg.recoveryTimeout := by
  by_contra hle
  have hle' : cfg.recoveryTimeout ≤ now - openedAt := not_lt.1 hle
  unfold checkState_ at h
  rw [hopened] at h
  cases hstate : b.state <;> simp [hstate, hle'] at h

theorem beginCall_cases (cfg : Config T) (c : C) (now : T) (b : CircuitBreaker T C) :
    let ready := checkState_ cfg now b
    (ready.state = .closed ∧ beginCall cfg c now b = (.ok ⟨ready.generation, none⟩, ready)) ∨
    (ready.state = .halfOpen ∧ ready.probeInProgress = false ∧
      beginCall cfg c now b = (.ok ⟨ready.generation, some c⟩,
        { ready with probeInProgress := true, probeToken := some c })) ∨
    (ready.state = .halfOpen ∧ ready.probeInProgress = true ∧
      beginCall cfg c now b = (.error .isProbing, ready)) ∨
    (ready.state = .opened ∧ beginCall cfg c now b = (.error (.isOpen (timeLeft cfg now ready)), ready)) := by
  intro ready
  unfold beginCall
  show _ ∨ _ ∨ _ ∨ _
  cases hstate : ready.state with
  | closed => exact .inl ⟨rfl, by simp only [ready, hstate]⟩
  | opened => exact .inr (.inr (.inr ⟨rfl, by simp only [ready, hstate]⟩))
  | halfOpen =>
    cases hprobe : ready.probeInProgress with
    | false => exact .inr (.inl ⟨rfl, rfl, by simp [ready, hstate, hprobe]⟩)
    | true => exact .inr (.inr (.inl ⟨rfl, rfl, by simp [ready, hstate, hprobe]⟩))

/-- The outcomes that count either way: `some true` for a counted failure. -/
def Outcome.counted : Outcome → Option Bool
  | .success | .uncounted => some false
  | .failure => some true
  | .cancelled | .classifierRaised | .baseException => none

theorem not_probe_of_closedCall (h : ticket.IsCurrentClosedCall b) : ¬ ticket.IsCurrentProbe b :=
  fun hp => hp.1 h.1

theorem not_release_of_closedCall (h : ticket.IsCurrentClosedCall b) : releaseProbe_ ticket b = b :=
  if_pos h.1

theorem finish_closedCall (h : ticket.IsCurrentClosedCall b) :
    finish cfg outcome now ticket b =
      match outcome.counted with
      | none => b
      | some false => { b with failureCount := 0 }
      | some true =>
        if cfg.failMax ≤ b.failureCount + 1 then trip_ now { b with failureCount := b.failureCount + 1 }
        else { b with failureCount := b.failureCount + 1 } := by
  have hprobe := not_probe_of_closedCall h
  cases outcome <;>
    simp [finish, Outcome.counted, handleSuccess_, handleFailure_, not_release_of_closedCall h, h,
      hprobe]

theorem finish_probe (h : ticket.IsCurrentProbe b) :
    finish cfg outcome now ticket b =
      match outcome.counted with
      | none => { b with probeInProgress := false, probeToken := none }
      | some false => ⟨.closed, 0, none, false, none, b.generation + 1⟩
      | some true => trip_ now { b with failureCount := b.failureCount + 1 } := by
  have hclosed : ¬ ticket.IsCurrentClosedCall b := fun hc => h.1 hc.1
  cases outcome <;>
    simp [finish, Outcome.counted, handleSuccess_, handleFailure_, releaseProbe_, h, hclosed, h.1,
      h.2.1, h.2.2]

theorem finish_stale (hprobe : ¬ ticket.IsCurrentProbe b) (hclosed : ¬ ticket.IsCurrentClosedCall b) :
    finish cfg outcome now ticket b = b := by
  have hrelease : releaseProbe_ ticket b = b := by
    unfold releaseProbe_
    split
    · rfl
    · rename_i hsome
      rw [if_neg fun hboth => hprobe ⟨hsome, hboth⟩]
  cases outcome <;> simp [finish, handleSuccess_, handleFailure_, hrelease, hprobe, hclosed]

/-! ### The invariant -/

structure Sound (cfg : Config T) (s : System T C) : Prop where
  progress : s.breaker.probeInProgress = s.breaker.probeToken.isSome
  probing : s.breaker.probeToken ≠ none → s.breaker.state = .halfOpen
  holder : ∀ c, s.breaker.probeToken = some c →
    ∃ ticket, s.calls c = .running ticket ∧ ticket.probeToken = some c
  held : ∀ c ticket, s.calls c = .running ticket → ticket.probeToken ≠ none →
    ticket.probeToken = some c ∧ s.breaker.probeToken = some c
  below : s.breaker.state = .closed → s.breaker.failureCount < cfg.failMax
  opened : s.breaker.state = .opened →
    ∃ t, s.breaker.openedAt = some t ∧ lastTrip s.events = some t
  elapsed : s.breaker.state ≠ .opened → ∀ t, lastTrip s.events = some t →
    cfg.recoveryTimeout ≤ s.now - t

variable {s s' : System T C} {a : Act C}

theorem sound_init (cfg : Config T) (now : T) : Sound cfg (System.init now : System T C) where
  progress := rfl
  probing h := absurd rfl h
  holder _ h := by cases h
  held _ _ h := by cases h
  below _ := cfg.failMax_pos
  opened h := by cases h
  elapsed _ _ h := by cases h

theorem Sound.checked (h : Sound cfg s) :
    Sound cfg { s with breaker := checkState_ cfg s.now s.breaker } := by
  rcases checkState_cases cfg s.now s.breaker with heq | ⟨t, hstate, hopened, helapsed, heq⟩
  · rw [heq]
    exact h
  · rw [heq]
    have hnone : s.breaker.probeToken = none := by
      by_contra hne
      have hhalf := h.probing hne
      rw [hstate] at hhalf
      cases hhalf
    obtain ⟨t', hopened', htrip⟩ := h.opened hstate
    have htt : t' = t := Option.some.inj (hopened'.symm.trans hopened)
    subst htt
    refine ⟨h.progress, fun _ => rfl, h.holder, h.held, (nomatch ·), (nomatch ·), ?_⟩
    intro _ u hu
    have hut : u = t' := Option.some.inj (hu.symm.trans htrip)
    rw [hut]
    exact helapsed

theorem Sound.setCall (h : Sound cfg s) (hidle : s.calls c = .idle) {status : CallStatus C}
    (hstatus : ∀ ticket, status = .running ticket → ticket.probeToken = none)
    {events : List (Event T C)} (hevents : lastTrip events = lastTrip s.events) :
    Sound cfg { s with calls := Function.update s.calls c status, events := events } := by
  refine ⟨h.progress, h.probing, fun d hd => ?_, fun d ticket hd hne => ?_, h.below,
    fun hs => ?_, fun hs t ht => ?_⟩
  · obtain ⟨ticket, hrun, htoken⟩ := h.holder d hd
    have hdc : d ≠ c := by
      rintro rfl
      rw [hidle] at hrun
      cases hrun
    exact ⟨ticket, by simpa [hdc] using hrun, htoken⟩
  · by_cases hdc : d = c
    · subst hdc
      have hrun : status = .running ticket := by simpa using hd
      exact absurd (hstatus ticket hrun) hne
    · exact h.held d ticket (by simpa [hdc] using hd) hne
  · obtain ⟨t, hopened, htrip⟩ := h.opened hs
    exact ⟨t, hopened, by rw [hevents, htrip]⟩
  · exact h.elapsed hs t (by rw [← hevents, ht])

theorem transition_same (now : T) (b : CircuitBreaker T C) {b' : CircuitBreaker T C}
    (h : b'.state = b.state) : transition now b b' = [] := by
  unfold transition
  rw [h]
  simp

theorem Sound.endCall (h : Sound cfg s) (hrun : s.calls c = .running ticket)
    (hnormal : ticket.probeToken = none) {b : CircuitBreaker T C} {events : List (Event T C)}
    (hprogress : b.probeInProgress = s.breaker.probeInProgress)
    (htoken : b.probeToken = s.breaker.probeToken) (hstate : b.state = s.breaker.state)
    (hopened : b.openedAt = s.breaker.openedAt)
    (hbelow : b.state = .closed → b.failureCount < cfg.failMax)
    (hevents : lastTrip events = lastTrip s.events) :
    Sound cfg { s with
      breaker := b
      calls := Function.update s.calls c .ended
      events := events } := by
  refine ⟨?_, fun hne => ?_, fun d hd => ?_, fun d ticket' hd hne => ?_, hbelow, fun hs => ?_,
    fun hs t ht => ?_⟩
  · show b.probeInProgress = b.probeToken.isSome
    rw [hprogress, htoken]
    exact h.progress
  · show b.state = .halfOpen
    rw [hstate]
    exact h.probing (by rwa [← htoken])
  · obtain ⟨ticket', hrun', htoken'⟩ := h.holder d (by rwa [← htoken])
    have hdc : d ≠ c := by
      rintro rfl
      rw [hrun] at hrun'
      cases hrun'
      rw [hnormal] at htoken'
      cases htoken'
    exact ⟨ticket', by simpa [hdc] using hrun', htoken'⟩
  · have hdc : d ≠ c := by
      rintro rfl
      simp at hd
    obtain ⟨hown, hcurrent⟩ := h.held d ticket' (by simpa [hdc] using hd) hne
    exact ⟨hown, htoken.trans hcurrent⟩
  · obtain ⟨t, ht, htrip⟩ := h.opened (hstate.symm.trans hs)
    exact ⟨t, hopened.trans ht, hevents.trans htrip⟩
  · exact h.elapsed (by rwa [← hstate]) t (hevents.symm.trans ht)

theorem Sound.normal (h : Sound cfg s) (hnone : s.breaker.probeToken = none) {d : C}
    {ticket : Ticket C} (hd : s.calls d = .running ticket) : ticket.probeToken = none := by
  by_contra hne
  have htoken := (h.held d ticket hd hne).2
  rw [hnone] at htoken
  cases htoken

/-- The breaker after a step that empties the probe slot: `c` was its holder or the
slot was empty before. -/
theorem sound_emptied {b : CircuitBreaker T C} {events : List (Event T C)} (h : Sound cfg s)
    (hslot : s.breaker.probeToken = none ∨ s.breaker.probeToken = some c)
    (hprogress : b.probeInProgress = false) (htoken : b.probeToken = none)
    (hbelow : b.state = .closed → b.failureCount < cfg.failMax)
    (hopened : b.state = .opened → ∃ t, b.openedAt = some t ∧ lastTrip events = some t)
    (helapsed : b.state ≠ .opened → ∀ t, lastTrip events = some t → cfg.recoveryTimeout ≤ s.now - t) :
    Sound cfg { s with
      breaker := b
      calls := Function.update s.calls c .ended
      events := events } := by
  refine ⟨?_, fun hne => absurd htoken hne, fun d hd => ?_, fun d ticket' hd hne => ?_, hbelow,
    hopened, helapsed⟩
  · show b.probeInProgress = b.probeToken.isSome
    rw [hprogress, htoken]
    rfl
  · have hnone := htoken.symm.trans hd
    cases hnone
  · have hdc : d ≠ c := by
      rintro rfl
      simp at hd
    have hcurrent := (h.held d ticket' (by simpa [hdc] using hd) hne).2
    rcases hslot with hnone | hc
    · rw [hnone] at hcurrent
      cases hcurrent
    · rw [hc] at hcurrent
      exact absurd (Option.some.inj hcurrent).symm hdc

theorem Sound.running (h : Sound cfg s) (hrun : s.calls c = .running ticket) :
    (ticket.IsCurrentProbe s.breaker ∧ s.breaker.probeToken = some c) ∨
      (ticket.probeToken = none ∧ ¬ ticket.IsCurrentProbe s.breaker) := by
  by_cases hnone : ticket.probeToken = none
  · exact .inr ⟨hnone, fun hp => hp.1 hnone⟩
  · obtain ⟨hown, hcurrent⟩ := h.held c ticket hrun hnone
    have hne : s.breaker.probeToken ≠ none := by
      rw [hcurrent]
      exact Option.some_ne_none c
    exact .inl ⟨⟨hnone, h.probing hne, hcurrent.trans hown.symm⟩, hcurrent⟩

theorem Sound.ends (h : Sound cfg s) (hrun : s.calls c = .running ticket) :
    Sound cfg { s with
      breaker := finish cfg outcome s.now ticket s.breaker
      calls := Function.update s.calls c .ended
      events := transition s.now s.breaker (finish cfg outcome s.now ticket s.breaker) ++
        .finished c outcome :: s.events } := by
  have hskip : lastTrip (.finished c outcome :: s.events) = lastTrip s.events := rfl
  rcases h.running hrun with ⟨hprobe, hcurrent⟩ | ⟨hnormal, hprobe⟩
  · have hhalf : s.breaker.state = .halfOpen := hprobe.2.1
    rw [finish_probe hprobe]
    cases hcounted : outcome.counted with
    | none =>
      rw [transition_same _ _ (by rfl)]
      refine sound_emptied h (.inr hcurrent) rfl rfl (fun hs => h.below hs) (fun hs => h.opened hs)
        fun hs => h.elapsed hs
    | some failed =>
      cases failed with
      | false =>
        have htransition : transition s.now s.breaker
            (⟨.closed, 0, none, false, none, s.breaker.generation + 1⟩ : CircuitBreaker T C) =
            [.closed] := by simp [transition, hhalf]
        simp only [htransition]
        refine sound_emptied h (.inr hcurrent) rfl rfl (fun _ => cfg.failMax_pos) (nomatch ·)
          fun _ => h.elapsed (by simp [hhalf])
      | true =>
        have htransition : transition s.now s.breaker
            (trip_ s.now { s.breaker with failureCount := s.breaker.failureCount + 1 }) =
            [.tripped s.now] := by simp [transition, trip_, hhalf]
        simp only [htransition]
        refine sound_emptied h (.inr hcurrent) rfl rfl (nomatch ·) (fun _ => ⟨s.now, rfl, rfl⟩)
          fun hs => absurd rfl hs
  · by_cases hclosed : ticket.IsCurrentClosedCall s.breaker
    · have hstate : s.breaker.state = .closed := hclosed.2.1
      have hslot : s.breaker.probeToken = none := by
        by_contra hne
        have hhalf := h.probing hne
        rw [hstate] at hhalf
        cases hhalf
      rw [finish_closedCall hclosed]
      cases hcounted : outcome.counted with
      | none =>
        rw [transition_same _ _ (by rfl)]
        exact h.endCall hrun hnormal rfl rfl rfl rfl h.below rfl
      | some failed =>
        cases failed with
        | false =>
          rw [transition_same _ _ (by rfl)]
          exact h.endCall hrun hnormal rfl rfl rfl rfl (fun _ => cfg.failMax_pos) rfl
        | true =>
          by_cases hmax : cfg.failMax ≤ s.breaker.failureCount + 1
          · simp only [hmax, if_true]
            have htransition : transition s.now s.breaker
                (trip_ s.now { s.breaker with failureCount := s.breaker.failureCount + 1 }) =
                [.tripped s.now] := by simp [transition, trip_, hstate]
            rw [htransition]
            refine sound_emptied h (.inl hslot) rfl rfl (nomatch ·) (fun _ => ⟨s.now, rfl, rfl⟩)
              fun hs => absurd rfl hs
          · simp only [hmax, if_false]
            rw [transition_same _ _ (by rfl)]
            exact h.endCall hrun hnormal rfl rfl rfl rfl (fun _ => Nat.lt_of_not_le hmax) rfl
    · rw [finish_stale hprobe hclosed, transition_same _ _ rfl]
      exact h.endCall hrun hnormal rfl rfl rfl rfl h.below rfl

theorem Sound.step [MonotoneSub T] (h : Sound cfg s) (hs : Step cfg s a s') :
    Sound cfg s' := by
  cases hs with
  | tick now hle =>
    exact { h with
      elapsed := fun hstate t ht => (h.elapsed hstate t ht).trans (MonotoneSub.sub_le_sub hle) }
  | enter c ticket b hidle hbegin =>
    have hready := h.checked
    rcases beginCall_cases cfg c s.now s.breaker with
      ⟨hstate, heq⟩ | ⟨hstate, hfree, heq⟩ | ⟨hstate, hbusy, heq⟩ | ⟨hstate, heq⟩
    · rw [heq] at hbegin
      cases hbegin
      refine hready.setCall hidle (fun ticket ht => ?_) rfl
      cases ht
      rfl
    · rw [heq] at hbegin
      cases hbegin
      have hnone : (checkState_ cfg s.now s.breaker).probeToken = none := by
        have hprogress := hready.progress
        rw [hfree] at hprogress
        simpa using hprogress.symm
      refine ⟨rfl, fun _ => hstate, fun d hd => ?_, fun d ticket hd hne => ?_, hready.below,
        hready.opened, hready.elapsed⟩
      · have hdc : c = d := Option.some.inj hd
        subst hdc
        exact ⟨_, Function.update_self .., rfl⟩
      · by_cases hdc : d = c
        · subst hdc
          have hticket : ⟨(checkState_ cfg s.now s.breaker).generation, some d⟩ = ticket := by
            simpa using hd
          rw [← hticket]
          exact ⟨rfl, rfl⟩
        · have hrun : s.calls d = .running ticket := by simpa [hdc] using hd
          exact absurd (hready.normal hnone hrun) hne
    · rw [heq] at hbegin
      cases hbegin
    · rw [heq] at hbegin
      cases hbegin
  | refuse c e b hidle hbegin =>
    have hb : b = checkState_ cfg s.now s.breaker := by
      rcases beginCall_cases cfg c s.now s.breaker with
        ⟨-, heq⟩ | ⟨-, -, heq⟩ | ⟨-, -, heq⟩ | ⟨-, heq⟩ <;> rw [heq] at hbegin <;> cases hbegin <;> rfl
    subst hb
    exact h.checked.setCall hidle (fun ticket ht => by cases ht) rfl
  | finish c ticket outcome hrun => exact h.ends hrun

theorem reachable_sound [MonotoneSub T] (h : Reachable cfg now s) : Sound cfg s := by
  induction h with
  | refl => exact sound_init cfg now
  | tail _ hs ih =>
    obtain ⟨a, ha⟩ := hs
    exact ih.step ha

/-! ### What it says -/

/-- At most one probe, entered only after the pause, and no state that refuses for ever. -/
structure OneProbe (cfg : Config T) (s : System T C) : Prop where
  token : s.breaker.probeInProgress = true ↔ s.breaker.probeToken ≠ none
  holder : s.breaker.probeInProgress = true ↔ ∃! c, ∃ ticket, s.calls c = .running ticket ∧
    ticket.probeToken ≠ none ∧ ticket.probeToken = s.breaker.probeToken
  halfOpen : s.breaker.probeInProgress = true → s.breaker.state = .halfOpen
  below : s.breaker.state = .closed → s.breaker.failureCount < cfg.failMax
  entered : ∀ c s', Step cfg s (.enter c) s' →
    (∀ t, lastTrip s.events = some t → cfg.recoveryTimeout ≤ s.now - t) ∧
    ∀ d ticket, s.calls d = .running ticket → ticket.probeToken = none
  admitted : (∀ c ticket, s.calls c ≠ .running ticket) →
    (∀ t, lastTrip s.events = some t → cfg.recoveryTimeout ≤ s.now - t) →
    ∀ c, s.calls c = .idle → (∃ s', Step cfg s (.enter c) s') ∧ ∀ s', ¬ Step cfg s (.refuse c) s'

theorem Sound.token (h : Sound cfg s) :
    s.breaker.probeInProgress = true ↔ s.breaker.probeToken ≠ none := by
  rw [h.progress, Option.isSome_iff_ne_none]

theorem Sound.oneHolder (h : Sound cfg s) :
    s.breaker.probeInProgress = true ↔ ∃! c, ∃ ticket, s.calls c = .running ticket ∧
      ticket.probeToken ≠ none ∧ ticket.probeToken = s.breaker.probeToken := by
  rw [h.token]
  constructor
  · intro hne
    obtain ⟨c, hc⟩ := Option.ne_none_iff_exists'.1 hne
    obtain ⟨ticket, hrun, hticket⟩ := h.holder c hc
    refine ⟨c, ⟨ticket, hrun, by simp [hticket], hticket.trans hc.symm⟩, ?_⟩
    rintro d ⟨ticket', hrun', hne', -⟩
    have hd := (h.held d ticket' hrun' hne').2
    exact Option.some.inj (hd.symm.trans hc)
  · rintro ⟨c, ⟨ticket, -, hne, heq⟩, -⟩
    rwa [← heq]

/-- An admission finds the breaker not open and the slot free. -/
theorem enter_ready (hs : Step cfg s (.enter c) s') :
    (checkState_ cfg s.now s.breaker).state ≠ .opened ∧
      ((checkState_ cfg s.now s.breaker).state = .halfOpen →
        (checkState_ cfg s.now s.breaker).probeInProgress = false) := by
  cases hs with
  | enter c ticket b hidle hbegin =>
    rcases beginCall_cases cfg c s.now s.breaker with
      ⟨hstate, heq⟩ | ⟨hstate, hfree, heq⟩ | ⟨-, -, heq⟩ | ⟨-, heq⟩
    · exact ⟨by simp [hstate], by simp [hstate]⟩
    · exact ⟨by simp [hstate], fun _ => hfree⟩
    · rw [heq] at hbegin
      cases hbegin
    · rw [heq] at hbegin
      cases hbegin

theorem Sound.entered (h : Sound cfg s) (hs : Step cfg s (.enter c) s') :
    (∀ t, lastTrip s.events = some t → cfg.recoveryTimeout ≤ s.now - t) ∧
      ∀ d ticket, s.calls d = .running ticket → ticket.probeToken = none := by
  obtain ⟨hopen, hfree⟩ := enter_ready hs
  have hready := h.checked
  refine ⟨fun t ht => hready.elapsed hopen t ht, fun d ticket hd => ?_⟩
  have hnone : (checkState_ cfg s.now s.breaker).probeToken = none := by
    by_contra hne
    have hbusy := hready.token.2 hne
    have hslot : (checkState_ cfg s.now s.breaker).probeInProgress = false :=
      hfree (hready.probing hne)
    rw [hslot] at hbusy
    cases hbusy
  exact hready.normal hnone hd

theorem Sound.admits (h : Sound cfg s) (hnobody : ∀ c ticket, s.calls c ≠ .running ticket)
    (hpause : ∀ t, lastTrip s.events = some t → cfg.recoveryTimeout ≤ s.now - t)
    (hidle : s.calls c = .idle) :
    (∃ s', Step cfg s (.enter c) s') ∧ ∀ s', ¬ Step cfg s (.refuse c) s' := by
  have hready := h.checked
  have hslot : (checkState_ cfg s.now s.breaker).probeInProgress ≠ true := by
    intro hbusy
    obtain ⟨d, hd⟩ := Option.ne_none_iff_exists'.1 (hready.token.1 hbusy)
    obtain ⟨ticket, hrun, -⟩ := hready.holder d hd
    exact hnobody d ticket hrun
  have hopen : (checkState_ cfg s.now s.breaker).state ≠ .opened := by
    intro hstate
    obtain ⟨t, hopened, htrip⟩ := hready.opened hstate
    have hbefore : s.breaker.openedAt = some t := by
      rcases checkState_cases cfg s.now s.breaker with heq | ⟨_, _, _, _, heq⟩
      · rwa [heq] at hopened
      · rw [heq] at hstate
        cases hstate
    exact absurd (hpause t htrip) (not_le.2 (checkState_opened hbefore hstate))
  rcases beginCall_cases cfg c s.now s.breaker with
    ⟨-, heq⟩ | ⟨-, -, heq⟩ | ⟨-, hbusy, -⟩ | ⟨hstate, -⟩
  · refine ⟨⟨_, .enter s c _ _ hidle heq⟩, fun s' hs => ?_⟩
    cases hs with
    | refuse c e b _ hbegin =>
      rw [heq] at hbegin
      cases hbegin
  · refine ⟨⟨_, .enter s c _ _ hidle heq⟩, fun s' hs => ?_⟩
    cases hs with
    | refuse c e b _ hbegin =>
      rw [heq] at hbegin
      cases hbegin
  · exact absurd hbusy hslot
  · exact absurd hstate hopen

/-- Every reachable breaker has at most one probe and can be used again. -/
theorem breaker_oneProbe [MonotoneSub T] (h : Reachable cfg now s) : OneProbe cfg s := by
  have hsound := reachable_sound h
  exact
    { token := hsound.token
      holder := hsound.oneHolder
      halfOpen := fun hbusy => hsound.probing (hsound.token.1 hbusy)
      below := hsound.below
      entered := fun _ _ hs => hsound.entered hs
      admitted := fun hnobody hpause _ hidle => hsound.admits hnobody hpause hidle }

section Sample

def sampleConfig : Config Int where
  failMax := 1
  recoveryTimeout := 30
  failMax_pos := Nat.zero_lt_one
  recoveryTimeout_pos := by decide

theorem sampleProbe : ∃ s : System Int Bool, Reachable sampleConfig 0 s ∧
    s.breaker = ⟨.halfOpen, 1, some 0, true, some true, 1⟩ ∧
    s.calls true = .running ⟨1, some true⟩ ∧
    s.events = [.admitted true, .tripped 0, .finished false .failure, .admitted false] := by
  have h₁ : Reachable sampleConfig 0 _ := .single ⟨_, .enter (.init 0) false _ _ rfl rfl⟩
  have h₂ := h₁.tail ⟨_, .finish _ false ⟨0, none⟩ .failure rfl⟩
  have h₃ := h₂.tail ⟨_, .tick _ 30 (by decide)⟩
  have h₄ := h₃.tail ⟨_, .enter _ true ⟨1, some true⟩ ⟨.halfOpen, 1, some 0, true, some true, 1⟩ rfl rfl⟩
  exact ⟨_, h₄, rfl, rfl, rfl⟩

theorem breaker_oneProbe_sample :
    ∃ s : System Int Bool, s.breaker.probeInProgress = true ∧ OneProbe sampleConfig s := by
  obtain ⟨s, hreachable, hbreaker, -⟩ := sampleProbe
  exact ⟨s, by rw [hbreaker], breaker_oneProbe hreachable⟩

end Sample
end ProfileService.Resilience
