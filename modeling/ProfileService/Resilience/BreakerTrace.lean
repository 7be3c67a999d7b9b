import ProfileService.Resilience.BreakerSafety

/-!
# The breaker as a function of its history

When the breaker opens and closes, told by the events alone: which calls were
admitted since it last did either, and how those of them ended.
-/

set_option linter.unusedSectionVars false

namespace ProfileService.Resilience

variable {T C : Type} [Zero T] [Sub T] [LinearOrder T] [DecidableEq C]
variable {cfg : Config T} {s s' : System T C} {a : Act C} {c : C} {ticket : Ticket C} {now : T}
  {outcome : Outcome}

/-- The call was admitted since the breaker last opened or closed. -/
def admittedNow (c : C) : List (Event T C) → Bool
  | [] => false
  | .tripped _ :: _ => false
  | .closed :: _ => false
  | .admitted d :: events => d = c || admittedNow c events
  | .finished .. :: events => admittedNow c events

/-- How the calls admitted in the current period ended, the last first: `true` for
a counted failure. What does not count either way is left out. -/
def outcomes : List (Event T C) → List Bool
  | [] => []
  | .tripped _ :: _ => []
  | .closed :: _ => []
  | .admitted _ :: events => outcomes events
  | .finished c outcome :: events =>
    if admittedNow c events then outcome.counted.toList ++ outcomes events else outcomes events

def streak (history : List Bool) : Nat := (history.takeWhile fun failed => failed).length

theorem take_eq_replicate (n : Nat) (history : List Bool) :
    history.take n = List.replicate n true ↔ n ≤ streak history := by
  induction n generalizing history with
  | zero => simp
  | succ n ih =>
    cases history with
    | nil => simp [streak, List.replicate_succ]
    | cons failed history =>
      cases failed with
      | false => simp [streak, List.replicate_succ]
      | true =>
        have hstreak : streak (true :: history) = streak history + 1 := by simp [streak]
        rw [List.take_succ_cons, List.replicate_succ, List.cons_inj_right, ih, hstreak]
        omega

/-! ### The invariant -/

structure Traced (s : System T C) : Prop where
  count : s.breaker.state = .closed → s.breaker.failureCount = streak (outcomes s.events)
  current : s.breaker.state = .closed → ∀ c ticket, s.calls c = .running ticket →
    ticket.probeToken = none →
    (s.breaker.generation = ticket.generation ↔ admittedNow c s.events = true)
  older : ∀ c ticket, s.calls c = .running ticket → ticket.probeToken = none →
    ticket.generation ≤ s.breaker.generation ∧
      (s.breaker.state ≠ .closed → ticket.generation < s.breaker.generation)

theorem traced_init (now : T) : Traced (System.init now : System T C) where
  count _ := rfl
  current _ _ _ h := by cases h
  older _ _ h := by cases h

theorem Traced.checked (h : Traced s) (cfg : Config T) :
    Traced { s with breaker := checkState_ cfg s.now s.breaker } := by
  rcases checkState_cases cfg s.now s.breaker with heq | ⟨t, hstate, -, -, heq⟩
  · rw [heq]
    exact h
  · rw [heq]
    have hne : s.breaker.state ≠ .closed := by simp [hstate]
    exact ⟨(nomatch ·), (nomatch ·), fun c ticket hrun hnormal =>
      ⟨(h.older c ticket hrun hnormal).1, fun _ => (h.older c ticket hrun hnormal).2 hne⟩⟩

theorem running_of_update {calls : C → CallStatus C} {status : CallStatus C} {d : C}
    {ticket' : Ticket C} (hd : Function.update calls c status d = .running ticket')
    (hstatus : ∀ t, status = .running t → t.probeToken ≠ none) (hnormal : ticket'.probeToken = none) :
    d ≠ c ∧ calls d = .running ticket' := by
  by_cases hdc : d = c
  · subst hdc
    have hrun : status = .running ticket' := by simpa using hd
    exact absurd hnormal (hstatus ticket' hrun)
  · exact ⟨hdc, by simpa [hdc] using hd⟩

theorem ended_not_running (t : Ticket C) : (CallStatus.ended : CallStatus C) = .running t →
    t.probeToken ≠ none := by
  intro h
  cases h

theorem Traced.endCall (h : Traced s) {b : CircuitBreaker T C}
    (hstate : b.state = s.breaker.state) (hgeneration : b.generation = s.breaker.generation)
    (hcount : b.state = .closed →
      b.failureCount = streak (outcomes (.finished c outcome :: s.events))) :
    Traced { s with
      breaker := b
      calls := Function.update s.calls c .ended
      events := .finished c outcome :: s.events } := by
  refine ⟨hcount, fun hs d ticket' hd hnormal => ?_, fun d ticket' hd hnormal => ?_⟩
  · obtain ⟨-, hrun⟩ := running_of_update hd ended_not_running hnormal
    show b.generation = ticket'.generation ↔ admittedNow d s.events = true
    rw [hgeneration]
    exact h.current (hstate.symm.trans hs) d ticket' hrun hnormal
  · obtain ⟨-, hrun⟩ := running_of_update hd ended_not_running hnormal
    obtain ⟨hle, hlt⟩ := h.older d ticket' hrun hnormal
    show ticket'.generation ≤ b.generation ∧ (b.state ≠ .closed → ticket'.generation < b.generation)
    rw [hstate, hgeneration]
    exact ⟨hle, hlt⟩

theorem Traced.newPeriod (h : Traced s) {b : CircuitBreaker T C} {events : List (Event T C)}
    (hgeneration : b.generation = s.breaker.generation + 1)
    (hcount : b.state = .closed → b.failureCount = 0)
    (houtcomes : outcomes events = []) (hadmitted : ∀ d, admittedNow d events = false) :
    Traced { s with
      breaker := b
      calls := Function.update s.calls c .ended
      events := events } := by
  refine ⟨fun hs => ?_, fun hs d ticket' hd hnormal => ?_, fun d ticket' hd hnormal => ?_⟩
  · show b.failureCount = streak (outcomes events)
    rw [hcount hs, houtcomes]
    rfl
  · obtain ⟨-, hrun⟩ := running_of_update hd ended_not_running hnormal
    obtain ⟨hle, -⟩ := h.older d ticket' hrun hnormal
    show b.generation = ticket'.generation ↔ admittedNow d events = true
    rw [hadmitted d, hgeneration]
    constructor
    · intro heq
      omega
    · intro hfalse
      cases hfalse
  · obtain ⟨-, hrun⟩ := running_of_update hd ended_not_running hnormal
    obtain ⟨hle, -⟩ := h.older d ticket' hrun hnormal
    show ticket'.generation ≤ b.generation ∧ (b.state ≠ .closed → ticket'.generation < b.generation)
    rw [hgeneration]
    exact ⟨by omega, fun _ => by omega⟩

theorem Traced.closedCall_iff (h : Traced s) (hrun : s.calls c = .running ticket)
    (hnormal : ticket.probeToken = none) (hstate : s.breaker.state = .closed) :
    ticket.IsCurrentClosedCall s.breaker ↔ admittedNow c s.events = true := by
  rw [← h.current hstate c ticket hrun hnormal]
  exact ⟨fun hc => hc.2.2, fun hg => ⟨hnormal, hstate, hg⟩⟩

theorem outcomes_current (hadmitted : admittedNow c s.events = true) :
    outcomes (.finished c outcome :: s.events) = outcome.counted.toList ++ outcomes s.events :=
  if_pos hadmitted

theorem outcomes_stale (hadmitted : admittedNow c s.events ≠ true) :
    outcomes (.finished c outcome :: s.events) = outcomes s.events := if_neg hadmitted

theorem Traced.ends (hsound : Sound cfg s) (h : Traced s) (hrun : s.calls c = .running ticket) :
    Traced { s with
      breaker := finish cfg outcome s.now ticket s.breaker
      calls := Function.update s.calls c .ended
      events := transition s.now s.breaker (finish cfg outcome s.now ticket s.breaker) ++
        .finished c outcome :: s.events } := by
  rcases hsound.running hrun with ⟨hprobe, -⟩ | ⟨hnormal, hprobe⟩
  · have hhalf : s.breaker.state = .halfOpen := hprobe.2.1
    rw [finish_probe hprobe]
    cases hcounted : outcome.counted with
    | none =>
      rw [transition_same _ _ (by rfl)]
      exact h.endCall rfl rfl fun hs => by
        have hclosed : s.breaker.state = .closed := hs
        rw [hhalf] at hclosed
        cases hclosed
    | some failed =>
      cases failed with
      | false =>
        have htransition : transition s.now s.breaker
            (⟨.closed, 0, none, false, none, s.breaker.generation + 1⟩ : CircuitBreaker T C) =
            [.closed] := by simp [transition, hhalf]
        simp only [htransition]
        exact h.newPeriod rfl (fun _ => rfl) rfl fun _ => rfl
      | true =>
        have htransition : transition s.now s.breaker
            (trip_ s.now { s.breaker with failureCount := s.breaker.failureCount + 1 }) =
            [.tripped s.now] := by simp [transition, trip_, hhalf]
        simp only [htransition]
        exact h.newPeriod rfl (fun hs => by cases hs) rfl fun _ => rfl
  · by_cases hclosed : ticket.IsCurrentClosedCall s.breaker
    · have hstate : s.breaker.state = .closed := hclosed.2.1
      have hadmitted := (h.closedCall_iff hrun hnormal hstate).1 hclosed
      have houtcomes : outcomes (.finished c outcome :: s.events) =
          outcome.counted.toList ++ outcomes s.events := outcomes_current hadmitted
      have hcount := h.count hstate
      rw [finish_closedCall hclosed]
      cases hcounted : outcome.counted with
      | none =>
        rw [transition_same _ _ (by rfl)]
        refine h.endCall rfl rfl fun _ => ?_
        rw [houtcomes, hcounted]
        exact hcount
      | some failed =>
        cases failed with
        | false =>
          rw [transition_same _ _ (by rfl)]
          refine h.endCall rfl rfl fun _ => ?_
          rw [houtcomes, hcounted]
          rfl
        | true =>
          by_cases hmax : cfg.failMax ≤ s.breaker.failureCount + 1
          · simp only [hmax, if_true]
            have htransition : transition s.now s.breaker
                (trip_ s.now { s.breaker with failureCount := s.breaker.failureCount + 1 }) =
                [.tripped s.now] := by simp [transition, trip_, hstate]
            rw [htransition]
            exact h.newPeriod rfl (fun hs => by cases hs) rfl fun _ => rfl
          · simp only [hmax, if_false]
            rw [transition_same _ _ (by rfl)]
            refine h.endCall rfl rfl fun _ => ?_
            rw [houtcomes, hcounted]
            simp [streak, hcount]
    · rw [finish_stale hprobe hclosed, transition_same _ _ rfl]
      refine h.endCall rfl rfl fun hstate => ?_
      have hadmitted := mt (h.closedCall_iff hrun hnormal hstate).2 hclosed
      rw [outcomes_stale hadmitted]
      exact h.count hstate

theorem Traced.step (hsound : Sound cfg s) (h : Traced s) (hs : Step cfg s a s') : Traced s' := by
  cases hs with
  | tick now hle => exact { h with }
  | enter c ticket b hidle hbegin =>
    have hready := h.checked cfg
    have hother : ∀ d ticket', s.calls d = .running ticket' → d ≠ c := by
      rintro d ticket' hd rfl
      rw [hidle] at hd
      cases hd
    rcases beginCall_cases cfg c s.now s.breaker with
      ⟨hstate, heq⟩ | ⟨hstate, hfree, heq⟩ | ⟨hstate, hbusy, heq⟩ | ⟨hstate, heq⟩
    · rw [heq] at hbegin
      cases hbegin
      refine ⟨hready.count, fun hs d ticket' hd hnormal => ?_, fun d ticket' hd hnormal => ?_⟩
      · by_cases hdc : d = c
        · subst hdc
          have hticket : ⟨(checkState_ cfg s.now s.breaker).generation, none⟩ = ticket' := by
            simpa using hd
          subst hticket
          simp [admittedNow]
        · have hrun : s.calls d = .running ticket' := by simpa [hdc] using hd
          have hcd : c ≠ d := Ne.symm hdc
          have hcurrent := hready.current hstate d ticket' hrun hnormal
          simpa [admittedNow, hcd] using hcurrent
      · by_cases hdc : d = c
        · subst hdc
          have hticket : ⟨(checkState_ cfg s.now s.breaker).generation, none⟩ = ticket' := by
            simpa using hd
          subst hticket
          exact ⟨Nat.le_refl _, fun hne => absurd hstate hne⟩
        · have hrun : s.calls d = .running ticket' := by simpa [hdc] using hd
          exact hready.older d ticket' hrun hnormal
    · rw [heq] at hbegin
      cases hbegin
      have hprobe : ∀ t, CallStatus.running ⟨(checkState_ cfg s.now s.breaker).generation, some c⟩ =
          .running t → t.probeToken ≠ none := by
        rintro t ht
        cases ht
        exact Option.some_ne_none c
      refine ⟨fun hs => ?_, fun hs => ?_, fun d ticket' hd hnormal => ?_⟩
      · have hclosed : (checkState_ cfg s.now s.breaker).state = .closed := hs
        rw [hstate] at hclosed
        cases hclosed
      · have hclosed : (checkState_ cfg s.now s.breaker).state = .closed := hs
        rw [hstate] at hclosed
        cases hclosed
      · obtain ⟨-, hrun⟩ := running_of_update hd hprobe hnormal
        exact hready.older d ticket' hrun hnormal
    · rw [heq] at hbegin
      cases hbegin
    · rw [heq] at hbegin
      cases hbegin
  | refuse c e b hidle hbegin =>
    have hb : b = checkState_ cfg s.now s.breaker := by
      rcases beginCall_cases cfg c s.now s.breaker with
        ⟨-, heq⟩ | ⟨-, -, heq⟩ | ⟨-, -, heq⟩ | ⟨-, heq⟩ <;> rw [heq] at hbegin <;> cases hbegin <;> rfl
    subst hb
    have hready := h.checked cfg
    refine ⟨hready.count, fun hs d ticket' hd hnormal => ?_, fun d ticket' hd hnormal => ?_⟩
    · obtain ⟨-, hrun⟩ := running_of_update hd ended_not_running hnormal
      exact hready.current hs d ticket' hrun hnormal
    · obtain ⟨-, hrun⟩ := running_of_update hd ended_not_running hnormal
      exact hready.older d ticket' hrun hnormal
  | finish c ticket outcome hrun => exact h.ends hsound hrun

theorem reachable_traced [MonotoneSub T] (h : Reachable cfg now s) : Traced s := by
  induction h with
  | refl => exact traced_init now
  | tail hr hs ih =>
    obtain ⟨a, ha⟩ := hs
    exact ih.step (reachable_sound hr) ha

/-! ### The transitions -/

/-- The breaker follows its history, and the calls of earlier periods count for nothing. -/
structure FollowsHistory (cfg : Config T) (s : System T C) : Prop where
  trips : ∀ c outcome s', Step cfg s (.finish c outcome) s' → s.breaker.state = .closed →
    (s'.breaker.state = .opened ↔ admittedNow c s.events = true ∧ outcome.counted = some true ∧
      (outcomes (.finished c outcome :: s.events)).take cfg.failMax =
        List.replicate cfg.failMax true)
  leaves_closed : ∀ a s', Step cfg s a s' → s.breaker.state = .closed →
    s'.breaker.state ≠ .closed → ∃ c outcome, a = .finish c outcome
  closes : ∀ a s', Step cfg s a s' → s.breaker.state = .halfOpen → s'.breaker.state = .closed →
    ∃ c outcome, a = .finish c outcome ∧ s.breaker.probeToken = some c ∧
      outcome.counted = some false
  reopens : ∀ a s', Step cfg s a s' → s.breaker.state = .halfOpen → s'.breaker.state = .opened →
    ∃ c outcome, a = .finish c outcome ∧ s.breaker.probeToken = some c ∧
      outcome.counted = some true
  probe : ∀ c outcome s', Step cfg s (.finish c outcome) s' → s.breaker.probeToken = some c →
    s'.breaker.state = match outcome.counted with
      | some false => .closed
      | some true => .opened
      | none => .halfOpen
  stale : ∀ c outcome s' ticket, Step cfg s (.finish c outcome) s' →
    s.calls c = .running ticket → ticket.probeToken = none → admittedNow c s.events = false →
    s'.breaker = s.breaker

theorem Traced.trips (hsound : Sound cfg s) (h : Traced s)
    (hs : Step cfg s (.finish c outcome) s') (hstate : s.breaker.state = .closed) :
    s'.breaker.state = .opened ↔ admittedNow c s.events = true ∧ outcome.counted = some true ∧
      (outcomes (.finished c outcome :: s.events)).take cfg.failMax =
        List.replicate cfg.failMax true := by
  cases hs with
  | finish _ ticket _ hrun =>
    show (finish cfg outcome s.now ticket s.breaker).state = .opened ↔ _
    have hprobe : ¬ ticket.IsCurrentProbe s.breaker := by
      intro hp
      have hhalf := hp.2.1
      rw [hstate] at hhalf
      cases hhalf
    have hnormal : ticket.probeToken = none := by
      rcases hsound.running hrun with ⟨hp, -⟩ | ⟨hn, -⟩
      · exact absurd hp hprobe
      · exact hn
    rw [take_eq_replicate]
    by_cases hclosed : ticket.IsCurrentClosedCall s.breaker
    · have hadmitted := (h.closedCall_iff hrun hnormal hstate).1 hclosed
      rw [finish_closedCall hclosed, outcomes_current hadmitted]
      have hcount := h.count hstate
      cases hcounted : outcome.counted with
      | none => simp [hstate]
      | some failed =>
        cases failed with
        | false => simp [hstate]
        | true =>
          have hstreak : streak ((some true).toList ++ outcomes s.events) =
              s.breaker.failureCount + 1 := by simp [streak, hcount]
          rw [hstreak]
          by_cases hmax : cfg.failMax ≤ s.breaker.failureCount + 1
          · simp [hmax, hadmitted, trip_]
          · simp [hmax, hstate]
    · have hadmitted := mt (h.closedCall_iff hrun hnormal hstate).2 hclosed
      rw [finish_stale hprobe hclosed]
      simp [hstate, hadmitted]

theorem checkState_state (cfg : Config T) (hstate : s.breaker.state ≠ .opened) :
    checkState_ cfg s.now s.breaker = s.breaker := by
  rcases checkState_cases cfg s.now s.breaker with heq | ⟨_, hopened, -, -, -⟩
  · exact heq
  · exact absurd hopened hstate

theorem step_state (hs : Step cfg s a s') (hstate : s.breaker.state ≠ .opened)
    (hmoved : s'.breaker.state ≠ s.breaker.state) : ∃ c outcome, a = .finish c outcome := by
  have hready := checkState_state cfg hstate
  cases hs with
  | tick now hle => exact absurd rfl hmoved
  | enter c ticket b hidle hbegin =>
    exfalso
    apply hmoved
    rcases beginCall_cases cfg c s.now s.breaker with
      ⟨-, heq⟩ | ⟨-, -, heq⟩ | ⟨-, -, heq⟩ | ⟨-, heq⟩ <;>
      rw [heq, hready] at hbegin <;> cases hbegin <;> rfl
  | refuse c e b hidle hbegin =>
    exfalso
    apply hmoved
    rcases beginCall_cases cfg c s.now s.breaker with
      ⟨-, heq⟩ | ⟨-, -, heq⟩ | ⟨-, -, heq⟩ | ⟨-, heq⟩ <;>
      rw [heq, hready] at hbegin <;> cases hbegin <;> rfl
  | finish c ticket outcome hrun => exact ⟨c, outcome, rfl⟩

theorem Sound.probe (h : Sound cfg s) (hs : Step cfg s (.finish c outcome) s')
    (hprobe : s.breaker.probeToken = some c) :
    s'.breaker.state = match outcome.counted with
      | some false => .closed
      | some true => .opened
      | none => .halfOpen := by
  cases hs with
  | finish _ ticket _ hrun =>
    obtain ⟨ticket', hrun', htoken⟩ := h.holder c hprobe
    have hticket : ticket' = ticket := by
      rw [hrun] at hrun'
      cases hrun'
      rfl
    subst hticket
    have hne : s.breaker.probeToken ≠ none := by simp [hprobe]
    have hcurrent : ticket'.IsCurrentProbe s.breaker :=
      ⟨by simp [htoken], h.probing hne, hprobe.trans htoken.symm⟩
    show (finish cfg outcome s.now ticket' s.breaker).state = _
    rw [finish_probe hcurrent]
    cases outcome.counted with
    | none => exact h.probing hne
    | some failed => cases failed <;> rfl

theorem Sound.moved_by_probe (h : Sound cfg s) (hs : Step cfg s a s')
    (hstate : s.breaker.state = .halfOpen) (hmoved : s'.breaker.state ≠ .halfOpen) :
    ∃ c outcome, a = .finish c outcome ∧ s.breaker.probeToken = some c ∧
      s'.breaker.state = match outcome.counted with
        | some false => .closed
        | some true => .opened
        | none => .halfOpen := by
  obtain ⟨c, outcome, rfl⟩ := step_state hs (by simp [hstate]) (by rwa [hstate])
  have hprobe : s.breaker.probeToken = some c := by
    cases hs with
    | finish _ ticket _ hrun =>
      rcases h.running hrun with ⟨-, hc⟩ | ⟨-, hprobe⟩
      · exact hc
      · have hclosed : ¬ ticket.IsCurrentClosedCall s.breaker := by
          intro hc
          have hs := hc.2.1
          rw [hstate] at hs
          cases hs
        exact absurd ((congrArg CircuitBreaker.state (finish_stale hprobe hclosed)).trans hstate) hmoved
  exact ⟨c, outcome, rfl, hprobe, h.probe hs hprobe⟩

theorem Traced.stale (h : Traced s) (hs : Step cfg s (.finish c outcome) s')
    (hrun : s.calls c = .running ticket) (hnormal : ticket.probeToken = none)
    (hadmitted : admittedNow c s.events = false) : s'.breaker = s.breaker := by
  cases hs with
  | finish _ ticket' _ hrun' =>
    have hticket : ticket' = ticket := by
      rw [hrun] at hrun'
      cases hrun'
      rfl
    subst hticket
    have hclosed : ¬ ticket'.IsCurrentClosedCall s.breaker := by
      intro hc
      have hnow := (h.closedCall_iff hrun hnormal hc.2.1).1 hc
      rw [hadmitted] at hnow
      cases hnow
    exact finish_stale (fun hp => hp.1 hnormal) hclosed

/-- Every transition of a reachable breaker is the one its history calls for. -/
theorem breaker_followsHistory [MonotoneSub T] (h : Reachable cfg now s) :
    FollowsHistory cfg s := by
  have hsound := reachable_sound h
  have htraced := reachable_traced h
  refine ⟨fun c outcome s' hs hstate => htraced.trips hsound hs hstate,
    fun a s' hs hstate hmoved => step_state hs (by simp [hstate]) (by rwa [hstate]),
    fun a s' hs hstate hclosed => ?_, fun a s' hs hstate hopened => ?_,
    fun c outcome s' hs hprobe => hsound.probe hs hprobe,
    fun c outcome s' ticket hs hrun hnormal hadmitted => htraced.stale hs hrun hnormal hadmitted⟩
  · obtain ⟨c, outcome, rfl, hprobe, hto⟩ := hsound.moved_by_probe hs hstate (by simp [hclosed])
    refine ⟨c, outcome, rfl, hprobe, ?_⟩
    rw [hclosed] at hto
    cases hcounted : outcome.counted with
    | none => simp [hcounted] at hto
    | some failed => cases failed <;> simp [hcounted] at hto ⊢
  · obtain ⟨c, outcome, rfl, hprobe, hto⟩ := hsound.moved_by_probe hs hstate (by simp [hopened])
    refine ⟨c, outcome, rfl, hprobe, ?_⟩
    rw [hopened] at hto
    cases hcounted : outcome.counted with
    | none => simp [hcounted] at hto
    | some failed => cases failed <;> simp [hcounted] at hto ⊢

theorem breaker_followsHistory_sample : ∃ s : System Int Bool,
    s.breaker.probeToken = some true ∧ FollowsHistory sampleConfig s := by
  obtain ⟨s, hreachable, hbreaker, -⟩ := sampleProbe
  exact ⟨s, by rw [hbreaker], breaker_followsHistory hreachable⟩

end ProfileService.Resilience
