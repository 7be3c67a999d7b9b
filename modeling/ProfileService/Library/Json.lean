/-!
# JSON values

A Python `str` is the list of its code points, and a finite Python `float` is
the text `float.__repr__` gives it (equal texts, equal floats).
-/

namespace ProfileService.Library

/-- A Python `str` without lone surrogates. -/
abbrev Str := List Char

def numberChars : Str := "0123456789+-.e".toList

/-- `repr` of a finite float: never the text of an integer. -/
structure FloatText where
  text : Str
  numeric : ∀ c ∈ text, c ∈ numberChars
  fractional : '.' ∈ text ∨ 'e' ∈ text
  deriving DecidableEq

inductive Json where
  | null
  | bool (b : Bool)
  | int (n : Int)
  | float (x : FloatText)
  | str (s : Str)
  | arr (items : List Json)
  | obj (entries : List (Str × Json))

/-- The value of a key of an object; the last entry of a key counts. -/
def Json.get? (key : Str) : Json → Option Json
  | .obj entries => (entries.reverse.find? fun e => e.1 = key).map Prod.snd
  | _ => none

/-- Structural induction with the members of arrays and objects as a whole. -/
theorem Json.members_induction {P : Json → Prop} (null : P .null) (bool : ∀ b, P (.bool b))
    (int : ∀ n, P (.int n)) (float : ∀ x, P (.float x)) (str : ∀ s, P (.str s))
    (arr : ∀ items, (∀ j ∈ items, P j) → P (.arr items))
    (obj : ∀ entries : List (Str × Json), (∀ e ∈ entries, P e.2) → P (.obj entries)) (j : Json) :
    P j := by
  refine Json.rec (motive_1 := P) (motive_2 := fun items => ∀ j ∈ items, P j)
    (motive_3 := fun entries => ∀ e ∈ entries, P e.2) (motive_4 := fun e => P e.2)
    null bool int float str arr obj ?_ ?_ ?_ ?_ ?_ j
  · exact fun _ h => by cases h
  · intro j items hj hitems x hx
    rcases List.mem_cons.1 hx with rfl | hx
    · exact hj
    · exact hitems x hx
  · exact fun _ h => by cases h
  · intro e entries he hentries x hx
    rcases List.mem_cons.1 hx with rfl | hx
    · exact he
    · exact hentries x hx
  · exact fun _ _ h => h

end ProfileService.Library
