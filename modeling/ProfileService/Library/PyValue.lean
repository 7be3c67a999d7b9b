import Mathlib.Data.List.DropRight
import ProfileService.Library.Calendar
import ProfileService.Library.JsonKeys

/-!
# Python values

The values a pydantic model may dump in Python mode.
-/

namespace ProfileService.Library

/-- A `datetime`: its wall clock in microseconds since 1970-01-01T00:00, and the
offset its zone answers. -/
structure DateTime where
  wall : Int
  utcoffset : Option Int
  wall_representable : Representable wall
  utcoffset_lt : ∀ o, utcoffset = some o → -dayMicros < o ∧ o < dayMicros

def DateTime.instant (d : DateTime) : Int := d.wall - d.utcoffset.getD 0

/-- A `Decimal`; the coefficient has no leading zeros. -/
inductive Decimal where
  | finite (negative : Bool) (coefficient : Nat) (exponent : Int)
  | infinity (negative : Bool)
  | nan

/-- A `float`; a finite one is the text of its `repr`. -/
inductive PyFloat where
  | finite (x : FloatText)
  | infinity (negative : Bool)
  | nan

/-- A mapping's key is `none` when it is not a `str`; the members of a set stand in
the order of its iteration. -/
inductive Value where
  | none
  | bool (b : Bool)
  | int (n : Int)
  | str (s : Str)
  | float (x : PyFloat)
  | decimal (d : Decimal)
  | uuid (u : BitVec 128)
  | datetime (d : DateTime)
  | date (ordinal : Nat)
  | enum (value : Value)
  | mapping (entries : List (Option Str × Value))
  | sequence (items : List Value)
  | set (items : List Value)
  | other (typeName : String)

def Value.record (fields : List (Str × Value)) : Value :=
  .mapping (fields.map fun e => (some e.1, e.2))

def Value.optional {α : Type} (f : α → Value) : Option α → Value
  | .none => .none
  | some a => f a

def FloatText.zero : FloatText where
  text := "0.0".toList
  numeric := List.all_iff_forall_prop.1 (by decide)
  fractional := by decide

def FloatText.isZero (x : FloatText) : Bool := x.text = "0.0".toList ∨ x.text = "-0.0".toList

def rstrip (c : Char) (s : Str) : Str := s.rdropWhile (· = c)

/-- `format(d, "f")` of a finite `Decimal`: no digit is rounded away. -/
def formatFixed (negative : Bool) (coefficient : Nat) (exponent : Int) : Str :=
  let digits := Nat.toDigits 10 coefficient
  let sign := if negative then ['-'] else []
  if 0 ≤ exponent then sign ++ digits ++ List.replicate exponent.toNat '0'
  else
    let places := (-exponent).toNat
    let padded := List.replicate (places + 1 - digits.length) '0' ++ digits
    sign ++ padded.take (padded.length - places) ++ '.' :: padded.drop (padded.length - places)

end ProfileService.Library
