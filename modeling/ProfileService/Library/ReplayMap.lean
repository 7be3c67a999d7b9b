import Mathlib.Logic.Function.Basic
import Mathlib.Order.Lattice

/-!
# Replay maps

What is remembered of the outcomes kept under some keys: for which request each was kept, and
until when it is given again.
-/

namespace ProfileService.Library

structure Remembered (F V I : Type) where
  fingerprint : F
  kept : V
  deadline : I

def ReplayMap (K F V I : Type) := K → Option (Remembered F V I)

/-- What is to be done with a request. -/
inductive Verdict (V : Type) where
  | run
  | conflict
  | replay (kept : V)

namespace ReplayMap
variable {K F V I : Type} [DecidableEq K] [DecidableEq F] [LinearOrder I]

def empty : ReplayMap K F V I := fun _ => none

/-- Past its deadline an entry counts for nothing; until then it answers the request it was
kept for, and any other is in conflict with it. -/
def verdict (m : ReplayMap K F V I) (k : K) (fingerprint : F) (now : I) : Verdict V :=
  match m k with
  | none => .run
  | some e =>
    if e.deadline ≤ now then .run
    else if e.fingerprint = fingerprint then .replay e.kept else .conflict

def remember (m : ReplayMap K F V I) (k : K) (e : Remembered F V I) : ReplayMap K F V I :=
  Function.update m k (some e)

omit [DecidableEq F] [LinearOrder I] in
theorem remember_apply (m : ReplayMap K F V I) (k k' : K) (e : Remembered F V I) :
    m.remember k e k' = if k' = k then some e else m k' :=
  Function.update_apply m k (some e) k'

theorem verdict_remember (m : ReplayMap K F V I) (k : K) (e : Remembered F V I) (fingerprint : F)
    (now : I) : (m.remember k e).verdict k fingerprint now =
      if e.deadline ≤ now then .run
      else if e.fingerprint = fingerprint then .replay e.kept else .conflict := by
  rw [verdict, remember_apply, if_pos rfl]

end ReplayMap
end ProfileService.Library
