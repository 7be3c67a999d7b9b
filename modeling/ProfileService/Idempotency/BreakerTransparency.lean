import ProfileService.Idempotency.ExactlyOnce
import ProfileService.Idempotency.GuardedHotStore
import ProfileService.Resilience.BreakerSafety

/-!
# A breaker is not seen

A run of the coordinator behind `CircuitBreakingHotStore` is a run on the plain hot store: a
refused call is one that failed on its way. What is proved of runs on the plain store holds
of the runs the container wires.
-/

set_option linter.unusedSectionVars false

namespace ProfileService.Idempotency
open Library Library.Machine Application
open Relation (ReflTransGen)
open Resilience (System)

/-! ### The plain store behind a guarded one -/

section Simulation
variable {P W T : Type} [DecidableEq P] [DecidableEq W] [Zero T] [Sub T] [LinearOrder T]
  {cfg : Resilience.Config T} {process : W → P} {R : RedisClient} {B : Business W} {F : Failures}
  {s s' : Guarded P W T (redisHotStore W R) B} {s₀ : World W (redisHotStore W R) B} {w : W}

/-- The world of a plain store that a guarded one stands for. -/
structure Shadows (process : W → P) (s : Guarded P W T (redisHotStore W R) B)
    (s₀ : World W (redisHotStore W R) B) : Prop where
  world : s₀ = { s.world with hot := s₀.hot }
  hot : Redis.Within s.world.hot s₀.hot
  leases : ∀ w hb, s.world.heartbeat w = some hb → 0 < hb.leaseSeconds
  beating : ∀ w call, s.beats w = some call → ∃ hb ticket, s.world.heartbeat w = some hb ∧
    hb.ended = false ∧
      (s.breakers (process w)).calls (.heartbeat w, call) = .running ticket
  fresh : ∀ caller p, ∃ n, ∀ call, n ≤ call → (s.breakers p).calls (caller, call) = .idle

def Op.Valid : Op B → Prop
  | .hot c => c.Valid
  | .startHeartbeat _ _ leaseSeconds => 0 < leaseSeconds
  | _ => True

/-- A call that settles the answer of a command, outside any transaction. -/
def Op.Settles : Op B → Prop
  | .hot c => c.Valid
  | .db .clock => True
  | .leaseLost => True
  | _ => False

theorem Op.Settles.valid {o : Op B} (h : o.Settles) : o.Valid := by
  cases o with
  | hot c => exact h
  | startHeartbeat k token leaseSeconds => exact h.elim
  | _ => trivial

theorem dbExec_setHot {H : HotStore W} {u u' : World W H B} {o : DbOp B}
    {r : Except Exn ((dbSig B).Reply o)} (h : dbExec F w o u r u') (hot : H.State) :
    dbExec F w o { u with hot := hot } r { u' with hot := hot } ∧ u'.hot = u.hot ∧
      u'.heartbeat = u.heartbeat := by
  cases ht : u.inTransaction w <;> cases o
  all_goals simp only [dbExec, ht, Bool.false_eq_true, if_false, if_true] at h ⊢
  case false.clock | true.clock =>
    obtain ⟨rfl, rfl⟩ := h
    exact ⟨⟨rfl, rfl⟩, rfl, rfl⟩
  case false.begin =>
    rcases h with ⟨rfl, rfl⟩ | ⟨e, he, rfl, rfl⟩
    · exact ⟨.inl ⟨rfl, rfl⟩, rfl, rfl⟩
    · exact ⟨.inr ⟨e, he, rfl, rfl⟩, rfl, rfl⟩
  case true.commit =>
    rcases h with ⟨rfl, rfl⟩ | ⟨e, he, rfl, rfl | rfl⟩
    · exact ⟨.inl ⟨rfl, rfl⟩, rfl, rfl⟩
    · exact ⟨.inr ⟨e, he, rfl, .inl rfl⟩, rfl, rfl⟩
    · exact ⟨.inr ⟨e, he, rfl, .inr rfl⟩, rfl, rfl⟩
  case true.rollback =>
    obtain ⟨rfl, hr⟩ := h
    exact ⟨⟨rfl, hr⟩, rfl, rfl⟩
  case false.selectRecord | true.selectRecord =>
    obtain ⟨rfl, hr⟩ := h
    exact ⟨⟨rfl, hr⟩, rfl, rfl⟩
  case true.upsertRecord k row =>
    rcases h with ⟨hfree, hold⟩ | ⟨e, he, rfl, rfl⟩
    · cases hv : (u.records k).visible w with
      | none =>
        simp only [hv] at hold ⊢
        obtain ⟨rfl, rfl⟩ := hold
        exact ⟨.inl ⟨hfree, rfl, rfl⟩, rfl, rfl⟩
      | some old =>
        simp only [hv] at hold ⊢
        split at hold
        · rename_i hexpired
          obtain ⟨rfl, rfl⟩ := hold
          exact ⟨.inl ⟨hfree, by rw [if_pos hexpired]; exact ⟨rfl, rfl⟩⟩, rfl, rfl⟩
        · rename_i hlive
          obtain ⟨rfl, rfl⟩ := hold
          exact ⟨.inl ⟨hfree, by rw [if_neg hlive]; exact ⟨rfl, rfl⟩⟩, rfl, rfl⟩
    · exact ⟨.inr ⟨e, he, rfl, rfl⟩, rfl, rfl⟩
  case true.stmt o =>
    obtain ⟨b, hb, rfl⟩ := h
    exact ⟨⟨b, hb, rfl⟩, rfl, rfl⟩
  all_goals
    obtain ⟨rfl, rfl⟩ := h
    exact ⟨⟨rfl, rfl⟩, rfl, rfl⟩

theorem Shadows.exists_hot (h : Shadows process s s₀) :
    ∃ hot, s₀ = { s.world with hot := hot } ∧ Redis.Within s.world.hot hot :=
  ⟨s₀.hot, h.world, h.hot⟩

theorem Shadows.setBreaker {p : P} {system : System T (Caller W × Nat)}
    {a : Resilience.Act (Caller W × Nat)} (h : Shadows process s s₀)
    (hs : Resilience.Step cfg (s.breakers p) a system)
    (ha : ∀ w call, s.beats w = some call → callerOf a ≠ some (.heartbeat w)) :
    Shadows process (s.setBreaker p system) s₀ where
  world := h.world
  hot := h.hot
  leases := h.leases
  beating w call hw := by
    obtain ⟨hb, ticket, hheartbeat, hrun, hrunning⟩ := h.beating w call hw
    refine ⟨hb, ticket, hheartbeat, hrun, ?_⟩
    unfold Guarded.setBreaker
    dsimp only
    by_cases hp : process w = p
    · subst hp
      rw [Function.update_self, step_calls hs (ha w call hw)]
      exact hrunning
    · rw [Function.update_of_ne hp]
      exact hrunning
  fresh caller q := by
    obtain ⟨n, hn⟩ := h.fresh caller q
    unfold Guarded.setBreaker
    dsimp only
    by_cases hq : q = p
    · subst hq
      rw [Function.update_self]
      have hmoved : ∀ c : Caller W × Nat, ∀ status, ∃ n', ∀ call, n' ≤ call →
          Function.update (s.breakers q).calls c status (caller, call) = .idle := by
        intro c status
        refine ⟨max n (c.2 + 1), fun call hcall => ?_⟩
        have hne : (caller, call) ≠ c := by
          rintro rfl
          simp at hcall
        rw [Function.update_of_ne hne]
        exact hn call (le_trans (le_max_left _ _) hcall)
      cases hs with
      | tick now hle => exact ⟨n, hn⟩
      | enter c ticket b hidle hbegin => exact hmoved c _
      | refuse c e b hidle hbegin => exact hmoved c _
      | finish c ticket outcome hrunning => exact hmoved c _
    · rw [Function.update_of_ne hq]
      exact ⟨n, hn⟩

theorem Shadows.setWorld {world : World W (redisHotStore W R) B} {hot : Redis W}
    (h : Shadows process s s₀) (hhot : Redis.Within world.hot hot)
    (hleases : ∀ w hb, world.heartbeat w = some hb → 0 < hb.leaseSeconds)
    (hbeats : ∀ w call, s.beats w = some call → ∃ hb, world.heartbeat w = some hb ∧
      hb.ended = false) :
    Shadows process { s with world := world } { world with hot := hot } where
  world := rfl
  hot := hhot
  leases := hleases
  beating w call hw := by
    obtain ⟨-, ticket, -, -, hrunning⟩ := h.beating w call hw
    obtain ⟨hb, hheartbeat, hrun⟩ := hbeats w call hw
    exact ⟨hb, ticket, hheartbeat, hrun, hrunning⟩
  fresh := h.fresh

theorem Shadows.sameBeats {world : World W (redisHotStore W R) B} {hot : Redis W}
    (h : Shadows process s s₀) (hhot : Redis.Within world.hot hot)
    (hsame : world.heartbeat = s.world.heartbeat) :
    Shadows process { s with world := world } { world with hot := hot } := by
  refine h.setWorld hhot (hsame ▸ h.leases) fun w call hw => ?_
  obtain ⟨hb, ticket, hheartbeat, hrun, -⟩ := h.beating w call hw
  exact ⟨hb, hsame ▸ hheartbeat, hrun⟩

theorem Shadows.setBeat {beat : Option Nat} (h : Shadows process s s₀)
    (hbeat : ∀ call, beat = some call → ∃ hb ticket, s.world.heartbeat w = some hb ∧
      hb.ended = false ∧ (s.breakers (process w)).calls (.heartbeat w, call) = .running ticket) :
    Shadows process { s with beats := Function.update s.beats w beat } s₀ where
  world := h.world
  hot := h.hot
  leases := h.leases
  beating u call hu := by
    dsimp only at hu ⊢
    by_cases huw : u = w
    · subst huw
      rw [Function.update_self] at hu
      exact hbeat call hu
    · rw [Function.update_of_ne huw] at hu
      exact h.beating u call hu
  fresh := h.fresh

abbrev CarriesOut (cfg : Resilience.Config T) (process : W → P) (F : Failures) (w : W) (o : Op B)
    (x : Code (guardedSig B) Exn ((sig B).Reply o)) (s : Guarded P W T (redisHotStore W R) B) :
    Prop :=
  Implements (guardedRely cfg process (redisHotStore W R) B F) (machine W (redisHotStore W R) B F)
    (Shadows process) w o x s

theorem Shadows.admission (h : Shadows process s s₀) (cfg : Resilience.Config T)
    (caller : Caller W) (p : P) :
    ∃ call system, Resilience.Step cfg (s.breakers p) (.enter (caller, call)) system ∨
      Resilience.Step cfg (s.breakers p) (.refuse (caller, call)) system := by
  obtain ⟨n, hn⟩ := h.fresh caller p
  have hidle := hn n (le_refl n)
  rcases hb : Resilience.beginCall cfg (caller, n) (s.breakers p).now (s.breakers p).breaker with
    ⟨e | ticket, b⟩
  · exact ⟨n, _, .inr (.refuse _ _ e b hidle hb)⟩
  · exact ⟨n, _, .inl (.enter _ _ ticket b hidle hb)⟩

/-- The inner call and the section that follows it are the call of the plain store. -/
theorem carriesOut_inner {c : HotCall} {call : Nat} {ticket : Resilience.Ticket (Caller W × Nat)}
    (hrunning : (s.breakers (process w)).calls (.worker w, call) = .running ticket) :
    CarriesOut cfg process F w (.hot c) (.call (.inner c call) .ret) s := by
  intro s₁ s₀ hown hsim
  have hrunning₁ : (s₁.breakers (process w)).calls (.worker w, call) = .running ticket :=
    (hown call).trans hrunning
  constructor
  · rintro -
    obtain ⟨r, hot, he⟩ := @Redis.exec_enabled W R w s₁.world.now c s₁.world.hot
    exact ⟨r, _, hot, _, he, .finish _ _ ticket (outcomeOf r) hrunning₁, rfl⟩
  · rintro r s₂ ⟨hot, system, he, hs, rfl⟩
    obtain ⟨hot₀, rfl, hwithin⟩ := hsim.exists_hot
    obtain ⟨hot₀', he₀, hwithin'⟩ := hwithin.exec he
    refine .inr ⟨r, _, _, rfl, .refl, ⟨hot₀', he₀, rfl⟩, ?_⟩
    have hstepped := hsim.setBreaker hs fun _ _ _ => by simp [callerOf]
    exact hstepped.sameBeats hwithin' rfl

theorem carriesOut_hot {c : HotCall} (hc : c.Valid) :
    CarriesOut cfg process F w (.hot c) (guardedCall c) s := by
  intro s₁ s₀ hown hsim
  constructor
  · rintro -
    obtain ⟨call, system, hs | hs⟩ := hsim.admission cfg (.worker w) (process w)
    · exact ⟨_, _, call, system, rfl, .inl ⟨hs, rfl⟩⟩
    · exact ⟨_, _, call, system, rfl, .inr ⟨hs, rfl⟩⟩
  · rintro r s₂ ⟨call, system, rfl, ⟨hs, rfl⟩ | ⟨hs, rfl⟩⟩
    · refine .inl ⟨hsim.setBreaker hs fun _ _ _ => by simp [callerOf], ?_⟩
      have hrunning : ∃ ticket, system.calls (.worker w, call) = .running ticket := by
        cases hs with
        | enter _ ticket b hidle hbegin => exact ⟨ticket, Function.update_self _ _ _⟩
      obtain ⟨ticket, hrunning⟩ := hrunning
      have hbreaker : (s₁.setBreaker (process w) system).breakers (process w) = system :=
        Function.update_self _ _ _
      rw [← hbreaker] at hrunning
      exact carriesOut_inner hrunning
    · obtain ⟨hot₀, rfl, hwithin⟩ := hsim.exists_hot
      obtain ⟨hot₀', he₀, hwithin'⟩ := hwithin.refused hc
      refine .inr ⟨.error circuitOpen, _, _, rfl, .refl, ⟨hot₀', he₀, rfl⟩, ?_⟩
      have hstepped := hsim.setBreaker hs fun _ _ _ => by simp [callerOf]
      exact hstepped.sameBeats hwithin' rfl

theorem heartbeat_of_ne {u : World W (redisHotStore W R) B} {hb : Option Heartbeat} {v : W}
    (h : v ≠ w) : (u.setHeartbeat w hb).heartbeat v = u.heartbeat v :=
  Function.update_of_ne h _ _

theorem heartbeat_cases {u : World W (redisHotStore W R) B} {hb : Option Heartbeat} {v : W}
    {hb' : Heartbeat} (h : (u.setHeartbeat w hb).heartbeat v = some hb') :
    hb = some hb' ∨ u.heartbeat v = some hb' := by
  by_cases hv : v = w
  · subst hv
    have hself : (u.setHeartbeat v hb).heartbeat v = hb := Function.update_self _ _ _
    exact .inl (hself.symm.trans h)
  · rw [heartbeat_of_ne hv] at h
    exact .inr h

theorem carriesOut_other {o : Op B}
    (hsame : ∀ (u u' : World W (redisHotStore W R) B) r, opExec F w o u r u' →
      ∀ hot : (redisHotStore W R).State,
        opExec F w o { u with hot := hot } r { u' with hot := hot } ∧ u'.hot = u.hot)
    (hbeats : ∀ (u u' : World W (redisHotStore W R) B) r, opExec F w o u r u' →
      ∀ v hb, u'.heartbeat v = some hb → u.heartbeat v = some hb ∨ 0 < hb.leaseSeconds)
    (hrun : ∀ (u u' : World W (redisHotStore W R) B) r, opExec F w o u r u' →
      ∀ v hb, u.heartbeat v = some hb → hb.ended = false →
        ∃ hb', u'.heartbeat v = some hb' ∧ hb'.ended = false) :
    CarriesOut cfg process F w o (.call (.other o) .ret) s := by
  intro s₁ s₀ hown hsim
  constructor
  · rintro ⟨r, u, he⟩
    obtain ⟨hot, rfl, -⟩ := hsim.exists_hot
    exact ⟨r, _, _, (hsame _ _ _ he s₁.world.hot).1, rfl⟩
  · rintro r s₂ ⟨world, he, rfl⟩
    obtain ⟨hot, rfl, hwithin⟩ := hsim.exists_hot
    obtain ⟨he₀, hhot⟩ := hsame _ _ _ he hot
    refine .inr ⟨r, _, _, rfl, .refl, he₀, hsim.setWorld (hhot ▸ hwithin) ?_ ?_⟩
    · intro v hb hv
      exact (hbeats _ _ _ he v hb hv).elim (hsim.leases v hb) id
    · intro v call hv
      obtain ⟨hb, -, hheartbeat, hended, -⟩ := hsim.beating v call hv
      exact hrun _ _ _ he v hb hheartbeat hended

theorem carriesOut_db {o : DbOp B} :
    CarriesOut cfg process F w (.db o) (.call (.other (.db o)) .ret) s := by
  refine carriesOut_other (fun u u' r he hot => ?_) (fun u u' r he v hb hv => ?_)
    fun u u' r he v hb hv hended => ?_
  · obtain ⟨he', hhot, -⟩ := dbExec_setHot he hot
    exact ⟨he', hhot⟩
  · obtain ⟨-, -, hheartbeat⟩ := dbExec_setHot he u.hot
    exact .inl (hheartbeat ▸ hv)
  · obtain ⟨-, -, hheartbeat⟩ := dbExec_setHot he u.hot
    exact ⟨hb, hheartbeat ▸ hv, hended⟩

theorem carriesOut_leaseLost :
    CarriesOut cfg process F w .leaseLost (.call (.other .leaseLost) .ret) s := by
  refine carriesOut_other (fun u u' r he hot => ?_) (fun u u' r he v hb hv => ?_)
    fun u u' r he v hb hv hended => ?_
  all_goals obtain ⟨rfl, rfl⟩ := he
  · exact ⟨⟨rfl, rfl⟩, rfl⟩
  · exact .inl hv
  · exact ⟨hb, hv, hended⟩

theorem carriesOut_startHeartbeat {identity : IdempotencyKey} {token : Token} {leaseSeconds : Nat}
    (hlease : 0 < leaseSeconds) :
    CarriesOut cfg process F w (.startHeartbeat identity token leaseSeconds)
      (.call (.other (.startHeartbeat identity token leaseSeconds)) .ret) s := by
  refine carriesOut_other (fun u u' r he hot => ?_) (fun u u' r he v hb hv => ?_)
    fun u u' r he v hb hv hended => ?_
  all_goals obtain ⟨rfl, rfl⟩ := he
  · exact ⟨⟨rfl, rfl⟩, rfl⟩
  · rcases heartbeat_cases hv with hnew | hold
    · cases hnew
      exact .inr hlease
    · exact .inl hold
  · by_cases hvw : v = w
    · subst hvw
      exact ⟨_, Function.update_self _ _ _, rfl⟩
    · exact ⟨hb, (heartbeat_of_ne hvw).trans hv, hended⟩

theorem Shadows.beatAnswered {r : Except Exn Bool} (h : Shadows process s s₀)
    (hbeat : BeatAnswered cfg process w r s s') :
    ∃ s₀', WorldEnv s₀ s₀' ∧ Shadows process s' s₀' ∧ s'.beats w = none := by
  obtain ⟨hb, call, hot, system, hw, hrun, hcall, he, hs, rfl⟩ := hbeat
  obtain ⟨hot₀, rfl, hwithin⟩ := h.exists_hot
  obtain ⟨hot₀', he₀, hwithin'⟩ := hwithin.exec he
  have hidle : Shadows process { s with beats := Function.update s.beats w none }
      { s.world with hot := hot₀ } := h.setBeat fun _ hnone => by cases hnone
  have hstepped := hidle.setBreaker (p := process w) hs fun v n hv => by
    dsimp only at hv
    have hvw : v ≠ w := by
      rintro rfl
      rw [Function.update_self] at hv
      cases hv
    intro hsome
    exact hvw (Caller.heartbeat.inj (Option.some.inj hsome)).symm
  have hplain : WorldEnv ({ s.world with hot := hot₀ } : World W (redisHotStore W R) B) _ :=
    @WorldEnv.beat W _ (redisHotStore W R) B _ w hb r hot₀' hw hrun he₀
  refine ⟨_, hplain, ?_, Function.update_self _ _ _⟩
  refine hstepped.setWorld hwithin' ?_ ?_
  · intro v hb' hv
    rcases heartbeat_cases hv with hnew | hold
    · cases hnew
      have hlease := h.leases w hb hw
      rcases r with e | lost
      · cases e <;> exact hlease
      · cases lost <;> exact hlease
    · exact h.leases v hb' hold
  · intro v n hv
    unfold Guarded.setBreaker at hv
    dsimp only at hv
    have hvw : v ≠ w := by
      rintro rfl
      rw [Function.update_self] at hv
      cases hv
    rw [Function.update_of_ne hvw] at hv
    obtain ⟨hb', -, hheartbeat, hended, -⟩ := h.beating v n hv
    exact ⟨hb', (heartbeat_of_ne hvw).trans hheartbeat, hended⟩

theorem Shadows.stopped {world : World W (redisHotStore W R) B} {r : Except Exn Unit}
    (h : Shadows process s s₀) (hidle : s.beats w = none)
    (he : opExec F w .stopHeartbeat s.world r world) :
    ∃ s₀', opExec F w .stopHeartbeat s₀ r s₀' ∧ Shadows process { s with world := world } s₀' := by
  obtain ⟨hot₀, rfl, hwithin⟩ := h.exists_hot
  obtain ⟨rfl, rfl⟩ := he
  refine ⟨_, ⟨rfl, rfl⟩, h.setWorld hwithin ?_ ?_⟩
  · intro v hb hv
    rcases heartbeat_cases hv with hnew | hsame
    · obtain ⟨old, hold, rfl⟩ := Option.map_eq_some_iff.1 hnew
      exact h.leases w old hold
    · exact h.leases v hb hsame
  · intro v call hv
    have hvw : v ≠ w := by
      rintro rfl
      rw [hidle] at hv
      cases hv
    obtain ⟨hb, -, hheartbeat, hended, -⟩ := h.beating v call hv
    exact ⟨hb, (heartbeat_of_ne hvw).trans hheartbeat, hended⟩

theorem carriesOut_stopHeartbeat :
    CarriesOut cfg process F w .stopHeartbeat (.call .stopHeartbeat .ret) s := by
  intro s₁ s₀ hown hsim
  constructor
  · rintro -
    cases hbeat : s₁.beats w with
    | none => exact ⟨_, _, s₁, _, .inl ⟨hbeat, rfl⟩, ⟨rfl, rfl⟩, rfl⟩
    | some call =>
      obtain ⟨hb, ticket, hheartbeat, hrun, hrunning⟩ := hsim.beating w call hbeat
      obtain ⟨hot, he⟩ := @Redis.exec_cancelled W R w s₁.world.now
        (.renew hb.identity hb.token hb.leaseSeconds) (hsim.leases w hb hheartbeat) s₁.world.hot
      exact ⟨_, _, _, _, .inr ⟨hb, call, hot, _, hheartbeat, hrun, hbeat, he,
        .finish _ _ ticket .cancelled hrunning, rfl⟩, ⟨rfl, rfl⟩, rfl⟩
  · rintro r s₂ ⟨s', world, ⟨hidle, rfl⟩ | hbeat, he, rfl⟩
    · obtain ⟨s₀', he₀, hstopped⟩ := hsim.stopped hidle he
      exact .inr ⟨r, s₀, s₀', rfl, .refl, he₀, hstopped⟩
    · obtain ⟨s₀', hplain, hsim', hidle⟩ := hsim.beatAnswered hbeat
      obtain ⟨s₀'', he₀, hstopped⟩ := hsim'.stopped hidle he
      exact .inr ⟨r, s₀', s₀'', rfl, .single hplain, he₀, hstopped⟩

theorem carriesOut (o : Op B) (s : Guarded P W T (redisHotStore W R) B) (ho : Op.Valid o) :
    CarriesOut cfg process F w o (guarded o) s := by
  cases o with
  | hot c => exact carriesOut_hot ho
  | startHeartbeat identity token leaseSeconds => exact carriesOut_startHeartbeat ho
  | leaseLost => exact carriesOut_leaseLost
  | stopHeartbeat => exact carriesOut_stopHeartbeat
  | db o => exact carriesOut_db

/-- What happens by itself happens to the plain world, or only to a breaker. -/
theorem Shadows.env (h : Shadows process s s₀) (he : GuardedEnv cfg process s s') :
    ∃ s₀', ReflTransGen WorldEnv s₀ s₀' ∧ Shadows process s' s₀' := by
  obtain ⟨hot₀, rfl, hwithin⟩ := h.exists_hot
  cases he with
  | tick now hle => exact ⟨_, .single (.tick _ now hle), h.sameBeats hwithin rfl⟩
  | hot hot he =>
    obtain ⟨hot₀', he₀, hwithin'⟩ := hwithin.env he
    exact ⟨_, .single (@WorldEnv.hot W _ (redisHotStore W R) B _ hot₀' he₀),
      h.sameBeats hwithin' rfl⟩
  | monotonic p system hs =>
    exact ⟨_, .refl, h.setBreaker hs fun _ _ _ => by simp [callerOf]⟩
  | beatEnter w hb call system hw hrun hidle hs =>
    have hnone : ∀ v n, s.beats v = some n →
        callerOf (.enter (.heartbeat w, call)) ≠ some (.heartbeat v) := by
      intro v n hv hsome
      obtain rfl := Caller.heartbeat.inj (Option.some.inj hsome)
      rw [hidle] at hv
      cases hv
    refine ⟨_, .refl, (h.setBreaker hs hnone).setBeat fun n hn => ?_⟩
    cases hn
    cases hs with
    | enter _ ticket b hfree hbegin =>
      refine ⟨hb, ticket, hw, hrun, ?_⟩
      unfold Guarded.setBreaker
      dsimp only
      rw [Function.update_self]
      exact Function.update_self _ _ _
  | beatRefused w hb call system hw hrun hidle hs =>
    have hnone : ∀ v n, s.beats v = some n → v ≠ w := by
      rintro v n hv rfl
      rw [hidle] at hv
      cases hv
    obtain ⟨hot₀', he₀, hwithin'⟩ := @Redis.Within.refused W R w s.world.now
      (.renew hb.identity hb.token hb.leaseSeconds) _ _ hwithin (h.leases w hb hw)
    have hplain : WorldEnv ({ s.world with hot := hot₀ } : World W (redisHotStore W R) B) _ :=
      @WorldEnv.beat W _ (redisHotStore W R) B _ w hb (.error circuitOpen) hot₀' hw hrun he₀
    have hstepped := h.setBreaker (p := process w) hs fun v n hv hsome =>
      hnone v n hv (Caller.heartbeat.inj (Option.some.inj hsome)).symm
    refine ⟨_, .single hplain, hstepped.setWorld hwithin' ?_ ?_⟩
    · intro v hb' hv
      rcases heartbeat_cases hv with hnew | hold
      · cases hnew
        exact h.leases w hb hw
      · exact h.leases v hb' hold
    · intro v n hv
      obtain ⟨hb', -, hheartbeat, hended, -⟩ := h.beating v n hv
      exact ⟨hb', (heartbeat_of_ne (hnone v n hv)).trans hheartbeat, hended⟩
  | beatAnswered _ w r hbeat =>
    obtain ⟨s₀', hplain, hsim, -⟩ := h.beatAnswered hbeat
    exact ⟨s₀', .single hplain, hsim⟩

theorem Shadows.crash (h : Shadows process s s₀) (w : W) :
    Shadows process (s.crash w) (s₀.crash w) := by
  obtain ⟨hot₀, rfl, hwithin⟩ := h.exists_hot
  have hcrash : ∀ u : World W (redisHotStore W R) B, (u.crash w).hot = u.hot ∧
      (u.crash w).heartbeat = Function.update u.heartbeat w none ∧
      ({ u with hot := hot₀ } : World W (redisHotStore W R) B).crash w =
        { u.crash w with hot := hot₀ } := by
    intro u
    unfold World.crash
    dsimp only
    split <;> exact ⟨rfl, rfl, rfl⟩
  obtain ⟨hhot, hheartbeat, heq⟩ := hcrash s.world
  have hidle : Shadows process { s with beats := Function.update s.beats w none }
      { s.world with hot := hot₀ } := h.setBeat fun _ hnone => by cases hnone
  have hcrashed : Redis.Within (s.world.crash w).hot hot₀ := hhot ▸ hwithin
  rw [heq]
  refine hidle.setWorld hcrashed ?_ ?_
  · intro v hb hv
    rw [hheartbeat] at hv
    by_cases hvw : v = w
    · subst hvw
      rw [Function.update_self] at hv
      cases hv
    · rw [Function.update_of_ne hvw] at hv
      exact h.leases v hb hv
  · intro v call hv
    dsimp only at hv
    by_cases hvw : v = w
    · subst hvw
      rw [Function.update_self] at hv
      cases hv
    · rw [Function.update_of_ne hvw] at hv
      obtain ⟨hb, -, hb', hended, -⟩ := h.beating v call hv
      refine ⟨hb, ?_, hended⟩
      rw [hheartbeat, Function.update_of_ne hvw]
      exact hb'

/-! ### What a coordinator asks of a store -/

section Requests
variable {identity : IdempotencyKey} {requestFingerprint : Digest} {leaseToken : Token}
  {operation : Operation B} {policy : IdempotencyPolicy}

theorem valid_lift {α : Type} (x : Code (dbSig B) Exn α) :
    (x.lift (dbInSig B)).AllCalls Op.Valid :=
  Code.allCalls_lift (fun _ => trivial) x

theorem settles_leaseLost : (leaseLost : Code (sig B) Exn Bool).AllCalls Op.Settles :=
  ⟨trivial, fun _ => trivial⟩

theorem settles_evaluateResult (result : IdempotencyResult) :
    (evaluateResult result : Code (sig B) Exn CompletedIdempotencyResult).AllCalls
      Op.Settles := by
  have hlive : ∀ completed : CompletedIdempotencyResult, (do
      let now ← clockNow
      if completed.expiresAt ≤ now then
        throw (.idempotencyUnavailable "Replay lifetime expired before response")
      else return completed : Code (sig B) Exn CompletedIdempotencyResult).AllCalls
        Op.Settles := by
    intro completed
    have hclock : (clockNow : Code (sig B) Exn Instant).AllCalls Op.Settles :=
      ⟨trivial, fun _ => trivial⟩
    refine hclock.bind fun now => ?_
    split <;> trivial
  cases result with
  | conflict => trivial
  | inProgress => trivial
  | executed completed => exact hlive completed
  | replay completed => exact hlive completed

theorem settles_release_ :
    (release_ identity leaseToken : Code (sig B) Exn Unit).AllCalls Op.Settles := by
  refine ⟨trivial, fun r => ?_⟩
  cases r with
  | ok released => trivial
  | error e => cases e <;> trivial

theorem settles_complete_ {completed : CompletedIdempotencyResult} :
    (complete_ identity leaseToken completed policy : Code (sig B) Exn Unit).AllCalls
      Op.Settles := by
  refine ⟨policy.hotResultTtlSeconds_pos, fun r => ?_⟩
  cases r with
  | ok published =>
    show (if _ then _ else _ : Code (sig B) Exn Unit).AllCalls Op.Settles
    split <;> trivial
  | error e =>
    cases e with
    | idempotencyUnavailable message =>
      show (if _ then _ else _ : Code (sig B) Exn Unit).AllCalls Op.Settles
      split <;> trivial
    | _ => trivial

theorem settles_publish {result : IdempotencyResult} :
    (publish identity leaseToken policy result : Code (sig B) Exn _).AllCalls Op.Settles := by
  refine settles_leaseLost.bind fun lost => ?_
  have hrest : ∀ x : Code (sig B) Exn Unit, x.AllCalls Op.Settles →
      (x >>= fun _ => evaluateResult result).AllCalls Op.Settles :=
    fun x hx => hx.bind fun _ => settles_evaluateResult result
  cases lost with
  | true =>
    by_cases hmode : policy.mode = .hotOnly
    · simp only [hmode, if_true]
      exact hrest _ trivial
    · simp only [hmode, if_true, if_false]
      exact settles_evaluateResult result
  | false =>
    cases result with
    | executed completed => exact hrest _ settles_complete_
    | replay completed => exact hrest _ settles_complete_
    | conflict => exact hrest _ settles_release_
    | inProgress => exact hrest _ settles_release_

theorem settles_abandonClaim (e : Exn) :
    (abandonClaim identity leaseToken e : Code (sig B) Exn IdempotencyResult).AllCalls
      Op.Settles := by
  refine settles_leaseLost.bind fun lost => ?_
  cases lost with
  | true => trivial
  | false => exact settles_release_.bind fun _ => trivial

theorem valid_evaluateResult (result : IdempotencyResult) :
    (evaluateResult result : Code (sig B) Exn CompletedIdempotencyResult).AllCalls Op.Valid :=
  (settles_evaluateResult result).imp fun _ => Op.Settles.valid

theorem valid_executeOperation :
    (executeOperation identity requestFingerprint operation policy).AllCalls Op.Valid := by
  unfold executeOperation
  split
  · exact valid_lift _
  · refine (valid_lift _).bind fun stored => (valid_lift utcNow).bind fun now => ?_
    refine Code.AllCalls.bind (x := .ret (deadlineAfter now policy.retentionSeconds)) trivial
      fun expiresAt => ?_
    trivial

theorem valid_executeClaimed :
    (executeClaimed identity requestFingerprint leaseToken operation policy).AllCalls Op.Valid := by
  refine ⟨policy.leaseSeconds_pos, fun started => ?_⟩
  cases started with
  | error e => trivial
  | ok _ =>
    have hbody : (tryCatch (executeOperation identity requestFingerprint operation policy)
        (abandonClaim identity leaseToken)).AllCalls Op.Valid := by
      refine valid_executeOperation.onOutcome fun r => ?_
      cases r with
      | ok result => trivial
      | error e => exact (settles_abandonClaim e).imp fun _ => Op.Settles.valid
    have hjoined : ((tryCatch (executeOperation identity requestFingerprint operation policy)
        (abandonClaim identity leaseToken)).andFinally (.call .stopHeartbeat .ret)).AllCalls
          Op.Valid := by
      refine hbody.onOutcome fun r => ⟨trivial, fun stopped => ?_⟩
      cases stopped <;> trivial
    exact hjoined.bind fun result => settles_publish.imp fun _ => Op.Settles.valid

theorem valid_resolveBusy {busy : IdempotencyResult} :
    (resolveBusy identity requestFingerprint busy policy : Code (sig B) Exn _).AllCalls
      Op.Valid := by
  unfold resolveBusy
  split
  · refine (valid_lift _).bind fun existing => ?_
    cases existing with
    | none => exact valid_evaluateResult busy
    | some result => exact valid_evaluateResult result
  · exact valid_evaluateResult busy

theorem valid_execute :
    (execute identity requestFingerprint operation policy leaseToken).AllCalls Op.Valid := by
  refine Code.AllCalls.onOutcome ⟨policy.leaseSeconds_pos, fun _ => trivial⟩ fun r => ?_
  cases r with
  | ok claim =>
    cases claim with
    | acquired => exact valid_executeClaimed
    | replay completed => exact valid_evaluateResult (.replay completed)
    | conflict => exact valid_resolveBusy
    | inProgress => exact valid_resolveBusy
  | error e =>
    cases e with
    | idempotencyUnavailable message =>
      show (if _ then _ else _ : Code (sig B) Exn _).AllCalls Op.Valid
      split
      · trivial
      · exact (valid_lift _).bind fun result => valid_evaluateResult result
    | _ => trivial

end Requests

/-! ### The guarded store is a plain one -/

theorem reachable_setBreaker {started : T} {p : P} {system : System T (Caller W × Nat)}
    {a : Resilience.Act (Caller W × Nat)}
    (h : ∀ q, Resilience.Reachable cfg started (s.breakers q))
    (hs : Resilience.Step cfg (s.breakers p) a system) (q : P) :
    Resilience.Reachable cfg started ((s.setBreaker p system).breakers q) := by
  unfold Guarded.setBreaker
  dsimp only
  by_cases hq : q = p
  · subst hq
    rw [Function.update_self]
    exact (h q).tail ⟨a, hs⟩
  · rw [Function.update_of_ne hq]
    exact h q

theorem reachable_beatAnswered {started : T} {r : Except Exn Bool}
    (h : ∀ q, Resilience.Reachable cfg started (s.breakers q))
    (hbeat : BeatAnswered cfg process w r s s') (q : P) :
    Resilience.Reachable cfg started (s'.breakers q) := by
  obtain ⟨hb, call, hot, system, -, -, -, -, hs, rfl⟩ := hbeat
  exact reachable_setBreaker h hs q

theorem reachable_breakers {started : T} {α : Type}
    {c c' : Library.Config (guardedSig B) Exn W (Guarded P W T (redisHotStore W R) B) α}
    (h : ∀ q, Resilience.Reachable cfg started (c.state.breakers q))
    (hr : (guardedMachine cfg process (redisHotStore W R) B F).Reachable c c') :
    ∀ q, Resilience.Reachable cfg started (c'.state.breakers q) := by
  refine Reachable.invariant
    (I := fun s => ∀ q, Resilience.Reachable cfg started (s.breakers q)) ?_ ?_ ?_ h hr
  · intro w o s r s' hi he
    cases o with
    | enter c =>
      obtain ⟨call, system, rfl, ⟨hs, -⟩ | ⟨hs, -⟩⟩ := he
      · exact reachable_setBreaker hi hs
      · exact reachable_setBreaker hi hs
    | inner c call =>
      obtain ⟨hot, system, -, hs, rfl⟩ := he
      exact reachable_setBreaker hi hs
    | stopHeartbeat =>
      obtain ⟨s₁, world, ⟨-, rfl⟩ | hbeat, -, rfl⟩ := he
      · exact hi
      · have hanswered := reachable_beatAnswered hi hbeat
        exact hanswered
    | other o =>
      obtain ⟨world, -, rfl⟩ := he
      exact hi
  · intro s s' hi he
    cases he with
    | tick now hle => exact hi
    | hot hot he => exact hi
    | monotonic p system hs => exact reachable_setBreaker hi hs
    | beatEnter w hb call system hw hrun hidle hs => exact reachable_setBreaker hi hs
    | beatRefused w hb call system hw hrun hidle hs => exact reachable_setBreaker hi hs
    | beatAnswered _ w r hbeat => exact reachable_beatAnswered hi hbeat
  · rintro w s s' hi ⟨-, rfl⟩
    exact hi

/-- What a run behind breakers has to do with one that has none. -/
structure Transparent {α : Type} (cfg : Resilience.Config T) (process : W → P) (F : Failures)
    (started : T)
    (c : Library.Config (guardedSig B) Exn W (Guarded P W T (redisHotStore W R) B) α)
    (c₀ : Library.Config (sig B) Exn W (World W (redisHotStore W R) B) α) : Prop where
  outcomes : ∀ w r, c.task w = some (.ret r) ↔ c₀.task w = some (.ret r)
  world : c₀.state = { c.state.world with hot := c₀.state.hot }
  hot : Redis.Within c.state.world.hot c₀.state.hot
  progress : ∀ w o k, c.task w = some (.call o k) → ∃ o₀ k₀, c₀.task w = some (.call o₀ k₀) ∧
    ((machine W (redisHotStore W R) B F).Enabled w o₀ c₀.state →
      (guardedMachine cfg process (redisHotStore W R) B F).Enabled w o c.state)
  breakers : ∀ p, Resilience.Reachable cfg started (c.state.breakers p)

/-- The tasks of a coordinator's kind, from a world without heartbeats. -/
theorem tasks_transparent {α : Type} {started : T} {task : W → Code (sig B) Exn α}
    {c : Library.Config (guardedSig B) Exn W (Guarded P W T (redisHotStore W R) B) α}
    (htask : ∀ w, (task w).AllCalls Op.Valid) (hidle : ∀ w, s₀.heartbeat w = none)
    (hr : (guardedMachine cfg process (redisHotStore W R) B F).Reachable
      ⟨.initial started s₀, fun w => some ((task w).expand guarded)⟩ c) :
    ∃ c₀, (machine W (redisHotStore W R) B F).Reachable ⟨s₀, fun w => some (task w)⟩ c₀ ∧
      Transparent cfg process F started c c₀ := by
  have hsim : Shadows process (Guarded.initial started s₀) s₀ := by
    refine ⟨rfl, ⟨rfl, rfl, .refl _⟩, fun w hb h => ?_, fun w call h => ?_,
      fun caller p => ⟨0, fun call _ => rfl⟩⟩
    · have hnone : s₀.heartbeat w = some hb := h
      rw [hidle w] at hnone
      cases hnone
    · cases h
  have hvalid : ∀ w x, (fun w => some (task w)) w = some x → x.AllCalls Op.Valid := by
    rintro w x ⟨⟩
    exact htask w
  have hcrash : ∀ w (s : Guarded P W T (redisHotStore W R) B) s₀ s', Shadows process s s₀ →
      (guardedMachine cfg process (redisHotStore W R) B F).crash w s s' →
      ∃ s₀', (machine W (redisHotStore W R) B F).crash w s₀ s₀' ∧ Shadows process s' s₀' := by
    rintro w s s₀ s' h ⟨hdies, rfl⟩
    exact ⟨s₀.crash w, ⟨hdies, rfl⟩, h.crash w⟩
  obtain ⟨c₀, hr₀, hsimulates⟩ := Reachable.simulated
    (R := guardedRely cfg process (redisHotStore W R) B F) (fun w o s ho => carriesOut o s ho)
    (fun s s₀ s' h he => h.env he) hcrash hvalid hsim hr
  have hnew : ∀ p, Resilience.Reachable cfg started
      ((Guarded.initial started s₀ : Guarded P W T _ B).breakers p) := fun p => ReflTransGen.refl
  have hbreakers := reachable_breakers hnew hr
  exact ⟨c₀, hr₀, fun w r => hsimulates.outcome r, hsimulates.state.world, hsimulates.state.hot,
    fun w o k hw => hsimulates.enabled hw, hbreakers⟩

/-- Any number of executions behind the breakers of any processes, in any interleaving: they
have the outcomes, the database and the keys of a run without breakers, in which a refused
call is one that failed on its way. No breaker makes a task wait, and each does what the
calls of its process make it do. -/
theorem breaker_transparent {started : T} {now : Instant} {business : B.State}
    {stored : IdempotencyKey → Option DurableRecord} {job : W → Request B}
    {c : Library.Config (guardedSig B) Exn W (Guarded P W T (redisHotStore W R) B)
      CompletedIdempotencyResult}
    (hr : (guardedMachine cfg process (redisHotStore W R) B F).Reachable
      ⟨.initial started (World.initial now (Redis.empty : Redis W) business stored),
        fun w => some ((job w).code.expand guarded)⟩ c) :
    ∃ c₀, (machine W (redisHotStore W R) B F).Reachable
        ⟨World.initial now (Redis.empty : Redis W) business stored, fun w => some (job w).code⟩ c₀ ∧
      Transparent cfg process F started c c₀ :=
  tasks_transparent (fun _ => valid_execute) (fun _ => rfl) hr

end Simulation

section Sample

noncomputable def sampleWorld : World Bool (redisHotStore Bool (sampleClient true)) (effectLog Bool Bool) :=
  World.initial 0 Redis.empty ⟨[], fun _ => []⟩ fun _ => none

/-- Two requests of one process: the first claim fails and opens the breaker, the second one
is refused. -/
theorem sampleRefusal : ∃ c, (guardedMachine Resilience.sampleConfig (fun _ : Bool => ())
      (redisHotStore Bool (sampleClient true)) (effectLog Bool Bool) Failures.any).Reachable
    ⟨.initial 0 sampleWorld, fun w => some ((sampleJob w).code.expand guarded)⟩ c ∧
    (c.state.breakers ()).breaker.state = .opened ∧ c.state.world.hot.inflight.length = 1 := by
  refine Reachable.exists_act (t := true) rfl (.ok (some 0))
    ⟨0, _, rfl, .inl ⟨.enter _ _ _ _ rfl rfl, rfl⟩⟩ ?_
  refine Reachable.exists_act (t := true) rfl (.error unavailable)
    ⟨_, _, .inr ⟨_, .inr ⟨"", rfl⟩, rfl, rfl⟩, .finish _ _ _ _ rfl, rfl⟩ ?_
  refine Reachable.exists_act (t := false) rfl (.ok none)
    ⟨0, _, rfl, .inr ⟨.refuse _ _ _ _ rfl rfl, rfl⟩⟩ ?_
  exact ⟨_, .refl, rfl, rfl⟩

theorem breaker_transparent_sample :
    ∃ (c : Library.Config (guardedSig (effectLog Bool Bool)) Exn Bool
        (Guarded Unit Bool Int (redisHotStore Bool (sampleClient true)) (effectLog Bool Bool))
        CompletedIdempotencyResult)
      (c₀ : Library.Config (sig (effectLog Bool Bool)) Exn Bool _ CompletedIdempotencyResult),
      (c.state.breakers ()).breaker.state = .opened ∧
        (machine Bool (redisHotStore Bool (sampleClient true)) (effectLog Bool Bool)
          Failures.any).Reachable ⟨sampleWorld, fun w => some (sampleJob w).code⟩ c₀ ∧
        Transparent Resilience.sampleConfig (fun _ => ()) Failures.any 0 c c₀ := by
  obtain ⟨c, hr, hopened, -⟩ := sampleRefusal
  obtain ⟨c₀, hr₀, htransparent⟩ := breaker_transparent hr
  exact ⟨c, c₀, hopened, hr₀, htransparent⟩

end Sample
end ProfileService.Idempotency
