import Mathlib.Algebra.Order.Group.Defs
import Mathlib.Logic.Function.Basic
import Mathlib.Logic.Relation

/-!
# Circuit breaker (`infrastructure/resilience/circuit_breaker.py`)

The sections under the lock contain no suspension, so each is one function on
the breaker. `System` runs any number of overlapping calls: a call is admitted
or refused in one step and ends in another; `events` records what happened.
-/

namespace ProfileService.Resilience

inductive CircuitState where
  | closed
  | opened
  | halfOpen
  deriving DecidableEq, Repr

/-- `CircuitBreakerError`, by the message it is given. -/
inductive CircuitBreakerError (T : Type) where
  | isOpen (timeLeft : T)
  | isProbing

inductive Outcome where
  | success
  | failure
  | uncounted
  | classifierRaised
  | cancelled
  | baseException
  deriving DecidableEq, Repr

/-- The fields of a breaker; the `object()` a call `c : C` makes is `c` itself. -/
structure CircuitBreaker (T C : Type) where
  state : CircuitState
  failureCount : Nat
  openedAt : Option T
  probeInProgress : Bool
  probeToken : Option C
  generation : Nat

/-- The locals of an admitted call. -/
structure Ticket (C : Type) where
  generation : Nat
  probeToken : Option C

/-- Later readings of a clock do not give a smaller difference to an earlier one; all that is asked
of the difference, which may be exact or rounded. -/
class MonotoneSub (T : Type) [Sub T] [LE T] : Prop where
  sub_le_sub : ∀ {now later openedAt : T}, now ≤ later → now - openedAt ≤ later - openedAt

instance {T : Type} [AddCommGroup T] [LinearOrder T] [IsOrderedAddMonoid T] : MonotoneSub T where
  sub_le_sub h := sub_le_sub_right h _

section Breaker
variable {T C : Type} [Zero T] [Sub T] [LinearOrder T] [DecidableEq C]

structure Config (T : Type) [Zero T] [LT T] where
  failMax : Nat
  recoveryTimeout : T
  failMax_pos : 0 < failMax
  recoveryTimeout_pos : 0 < recoveryTimeout

def CircuitBreaker.init : CircuitBreaker T C := ⟨.closed, 0, none, false, none, 0⟩

def checkState_ (cfg : Config T) (now : T) (b : CircuitBreaker T C) : CircuitBreaker T C :=
  match b.state, b.openedAt with
  | .opened, some openedAt =>
    if cfg.recoveryTimeout ≤ now - openedAt then { b with state := .halfOpen } else b
  | _, _ => b

def trip_ (now : T) (b : CircuitBreaker T C) : CircuitBreaker T C :=
  { b with
    state := .opened
    openedAt := some now
    probeInProgress := false
    probeToken := none
    generation := b.generation + 1 }

/-- `probe_token is not None` and it is the token of the unfinished probe. -/
def Ticket.IsCurrentProbe (ticket : Ticket C) (b : CircuitBreaker T C) : Prop :=
  ticket.probeToken ≠ none ∧ b.state = .halfOpen ∧ b.probeToken = ticket.probeToken

/-- A normal call of the current closed period. -/
def Ticket.IsCurrentClosedCall (ticket : Ticket C) (b : CircuitBreaker T C) : Prop :=
  ticket.probeToken = none ∧ b.state = .closed ∧ b.generation = ticket.generation

instance (ticket : Ticket C) (b : CircuitBreaker T C) : Decidable (ticket.IsCurrentProbe b) :=
  inferInstanceAs (Decidable (_ ∧ _ ∧ _))

instance (ticket : Ticket C) (b : CircuitBreaker T C) : Decidable (ticket.IsCurrentClosedCall b) :=
  inferInstanceAs (Decidable (_ ∧ _ ∧ _))

def handleSuccess_ (ticket : Ticket C) (b : CircuitBreaker T C) : CircuitBreaker T C :=
  if ticket.IsCurrentProbe b then
    { state := .closed
      failureCount := 0
      openedAt := none
      probeInProgress := false
      probeToken := none
      generation := b.generation + 1 }
  else if ticket.IsCurrentClosedCall b then { b with failureCount := 0 }
  else b

def handleFailure_ (cfg : Config T) (now : T) (ticket : Ticket C) (b : CircuitBreaker T C) :
    CircuitBreaker T C :=
  if ¬ ticket.IsCurrentProbe b ∧ ¬ ticket.IsCurrentClosedCall b then b
  else
    let counted := { b with failureCount := b.failureCount + 1 }
    if ticket.IsCurrentClosedCall b then
      if cfg.failMax ≤ counted.failureCount then trip_ now counted else counted
    else trip_ now counted

def releaseProbe_ (ticket : Ticket C) (b : CircuitBreaker T C) : CircuitBreaker T C :=
  if ticket.probeToken = none then b
  else if b.state = .halfOpen ∧ b.probeToken = ticket.probeToken then
    { b with probeInProgress := false, probeToken := none }
  else b

/-- What an open breaker reports; an `opened_at` of zero counts as unset. -/
def timeLeft (cfg : Config T) (now : T) (b : CircuitBreaker T C) : T :=
  let openedAt := (b.openedAt.filter (· ≠ 0)).getD now
  max (cfg.recoveryTimeout - (now - openedAt)) 0

/-- The first locked section of `call`. -/
def beginCall (cfg : Config T) (c : C) (now : T) (b : CircuitBreaker T C) :
    Except (CircuitBreakerError T) (Ticket C) × CircuitBreaker T C :=
  let b := checkState_ cfg now b
  match b.state with
  | .opened => (.error (.isOpen (timeLeft cfg now b)), b)
  | .halfOpen =>
    if b.probeInProgress then (.error .isProbing, b)
    else (.ok ⟨b.generation, some c⟩, { b with probeInProgress := true, probeToken := some c })
  | .closed => (.ok ⟨b.generation, none⟩, b)

/-- What `call` does with the outcome of the wrapped function. -/
def finish (cfg : Config T) (outcome : Outcome) (now : T) (ticket : Ticket C)
    (b : CircuitBreaker T C) : CircuitBreaker T C :=
  match outcome with
  | .success | .uncounted => handleSuccess_ ticket b
  | .failure => handleFailure_ cfg now ticket b
  | .cancelled | .classifierRaised | .baseException => releaseProbe_ ticket b

/-! ### Runs -/

inductive CallStatus (C : Type) where
  | idle
  | running (ticket : Ticket C)
  | ended

/-- What is seen from outside: calls that enter the wrapped function and leave it,
and the breaker opening and closing. -/
inductive Event (T C : Type) where
  | admitted (c : C)
  | finished (c : C) (outcome : Outcome)
  | tripped (instant : T)
  | closed

structure System (T C : Type) where
  breaker : CircuitBreaker T C
  now : T
  calls : C → CallStatus C
  events : List (Event T C)

def System.init (now : T) : System T C := ⟨.init, now, fun _ => .idle, []⟩

/-- The change of state between two sections, as an event. -/
def transition (now : T) (b b' : CircuitBreaker T C) : List (Event T C) :=
  if b.state ≠ .opened ∧ b'.state = .opened then [.tripped now]
  else if b.state ≠ .closed ∧ b'.state = .closed then [.closed]
  else []

inductive Act (C : Type) where
  | tick
  | enter (c : C)
  | refuse (c : C)
  | finish (c : C) (outcome : Outcome)

inductive Step (cfg : Config T) : System T C → Act C → System T C → Prop where
  | tick (s : System T C) (now : T) (h : s.now ≤ now) : Step cfg s .tick { s with now := now }
  | enter (s : System T C) (c : C) (ticket : Ticket C) (b : CircuitBreaker T C)
      (hidle : s.calls c = .idle) (hbegin : beginCall cfg c s.now s.breaker = (.ok ticket, b)) :
      Step cfg s (.enter c) { s with
        breaker := b
        calls := Function.update s.calls c (.running ticket)
        events := .admitted c :: s.events }
  | refuse (s : System T C) (c : C) (e : CircuitBreakerError T) (b : CircuitBreaker T C)
      (hidle : s.calls c = .idle) (hbegin : beginCall cfg c s.now s.breaker = (.error e, b)) :
      Step cfg s (.refuse c) { s with
        breaker := b
        calls := Function.update s.calls c .ended }
  | finish (s : System T C) (c : C) (ticket : Ticket C) (outcome : Outcome)
      (hrunning : s.calls c = .running ticket) :
      Step cfg s (.finish c outcome) { s with
        breaker := finish cfg outcome s.now ticket s.breaker
        calls := Function.update s.calls c .ended
        events := transition s.now s.breaker (finish cfg outcome s.now ticket s.breaker) ++
          .finished c outcome :: s.events }

def Reachable (cfg : Config T) (now : T) : System T C → Prop :=
  Relation.ReflTransGen (fun s s' => ∃ a, Step cfg s a s') (.init now)

def lastTrip : List (Event T C) → Option T
  | [] => none
  | .tripped instant :: _ => some instant
  | _ :: events => lastTrip events

end Breaker
end ProfileService.Resilience
