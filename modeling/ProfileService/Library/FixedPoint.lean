import Mathlib.Algebra.Field.Rat
import Mathlib.Algebra.Order.Field.Basic
import Mathlib.Data.Nat.Factorization.Basic
import Mathlib.Data.Rat.Cast.CharZero
import Mathlib.Tactic.FieldSimp
import ProfileService.Library.PyValue

/-!
# Fixed-point notation

The number a fixed-point text denotes, and what stripping the zeros at its end
leaves of it.
-/

namespace ProfileService.Library

/-- A sign, the digits before the point and the digits after it. -/
structure FixedPoint where
  negative : Bool
  whole : Str
  fraction : Str
  digits : ∀ c ∈ whole ++ fraction, c.isDigit = true

namespace FixedPoint

def sign (negative : Bool) : Str := if negative then ['-'] else []

/-- Without digits after it the point is left out. -/
def text (x : FixedPoint) : Str :=
  sign x.negative ++ x.whole ++ if x.fraction = [] then [] else '.' :: x.fraction

def value (x : FixedPoint) : ℚ :=
  (if x.negative then -1 else 1) * (Nat.ofDigitChars 10 (x.whole ++ x.fraction) 0 : ℚ) /
    10 ^ x.fraction.length

/-- No zero stands before the first digit of an integer, and none at the end of a fraction. -/
structure Plain (x : FixedPoint) : Prop where
  whole_ne_nil : x.whole ≠ []
  whole_head : x.whole = ['0'] ∨ x.whole.head? ≠ some '0'
  fraction_last : x.fraction.getLast? ≠ some '0'

end FixedPoint

def fixedValue (text : Str) : ℚ :=
  let negative := text.head? = some '-'
  let unsigned := if negative then text.tail else text
  let whole := unsigned.takeWhile (· ≠ '.')
  let fraction := (unsigned.dropWhile (· ≠ '.')).tail
  (if negative then -1 else 1) * (Nat.ofDigitChars 10 (whole ++ fraction) 0 : ℚ) /
    10 ^ fraction.length

def decimalValue (negative : Bool) (coefficient : Nat) (exponent : Int) : ℚ :=
  (if negative then -1 else 1) * (coefficient : ℚ) * (10 : ℚ) ^ exponent

theorem isDigit_ne_point {c : Char} (h : c.isDigit = true) : c ≠ '.' := by
  rintro rfl
  exact absurd h (by decide)

theorem isDigit_ne_dash {c : Char} (h : c.isDigit = true) : c ≠ '-' := by
  rintro rfl
  exact absurd h (by decide)

theorem span_point {whole rest : Str} (hwhole : ∀ c ∈ whole, c.isDigit = true)
    (hrest : rest = [] ∨ ∃ fraction, rest = '.' :: fraction) :
    (whole ++ rest).takeWhile (· ≠ '.') = whole ∧ (whole ++ rest).dropWhile (· ≠ '.') = rest := by
  induction whole with
  | nil =>
    rcases hrest with rfl | ⟨fraction, rfl⟩
    · exact ⟨rfl, rfl⟩
    · simp
  | cons c whole ih =>
    have hc : c ≠ '.' := isDigit_ne_point (hwhole c List.mem_cons_self)
    obtain ⟨htake, hdrop⟩ := ih fun d hd => hwhole d (List.mem_cons_of_mem c hd)
    constructor
    · rw [List.cons_append, List.takeWhile_cons_of_pos (by simpa using hc), htake]
    · rw [List.cons_append, List.dropWhile_cons_of_pos (by simpa using hc), hdrop]

theorem FixedPoint.fixedValue_text (x : FixedPoint) : fixedValue x.text = x.value := by
  obtain ⟨negative, whole, fraction, hdigits⟩ := x
  have hwhole : ∀ c ∈ whole, c.isDigit = true :=
    fun c hc => hdigits c (List.mem_append_left fraction hc)
  obtain ⟨rest, hrest⟩ : ∃ rest, rest = if fraction = [] then [] else '.' :: fraction := ⟨_, rfl⟩
  have hpoint : rest = [] ∨ ∃ fraction, rest = '.' :: fraction := by
    rw [hrest]
    split
    · exact .inl rfl
    · exact .inr ⟨fraction, rfl⟩
  have htail : rest.tail = fraction := by
    rw [hrest]
    split
    · next hnil => rw [hnil, List.tail_nil]
    · rfl
  obtain ⟨htake, hdrop⟩ := span_point hwhole hpoint
  have hunsigned : (whole ++ rest).head? ≠ some '-' := by
    intro hhead
    rcases List.mem_append.1 (List.mem_of_mem_head? hhead) with hmem | hmem
    · exact isDigit_ne_dash (hwhole _ hmem) rfl
    · rcases hpoint with hnil | ⟨fraction', hcons⟩
      · rw [hnil] at hmem
        cases hmem
      · cases whole with
        | nil =>
          rw [hcons] at hhead
          simp at hhead
        | cons c whole =>
          have hc : c = '-' := by simpa using hhead
          exact isDigit_ne_dash (hwhole c List.mem_cons_self) hc
  cases negative with
  | false =>
    have htext : FixedPoint.text ⟨false, whole, fraction, hdigits⟩ = whole ++ rest := by
      rw [hrest]
      rfl
    simp only [fixedValue, htext, if_neg hunsigned, htake, hdrop, htail, FixedPoint.value,
      Bool.false_eq_true, if_false]
  | true =>
    have htext : FixedPoint.text ⟨true, whole, fraction, hdigits⟩ = '-' :: (whole ++ rest) := by
      rw [hrest]
      rfl
    simp only [fixedValue, htext, List.head?_cons, List.tail_cons, if_true, htake, hdrop, htail,
      FixedPoint.value]

theorem toDigits_isDigit (n : Nat) : ∀ c ∈ Nat.toDigits 10 n, c.isDigit = true :=
  fun _ hc => Nat.isDigit_of_mem_toDigits (by decide) (by decide) hc

theorem replicate_zero_isDigit (n : Nat) : ∀ c ∈ List.replicate n '0', c.isDigit = true := by
  intro c hc
  rw [List.eq_of_mem_replicate hc]
  rfl

theorem ofDigitChars_append_zeros (digits : Str) (n : Nat) :
    Nat.ofDigitChars 10 (digits ++ List.replicate n '0') 0 = Nat.ofDigitChars 10 digits 0 * 10 ^ n := by
  rw [Nat.ofDigitChars_append, Nat.ofDigitChars_replicate_zero, Nat.mul_comm]

theorem ofDigitChars_zeros_append (digits : Str) (n : Nat) :
    Nat.ofDigitChars 10 (List.replicate n '0' ++ digits) 0 = Nat.ofDigitChars 10 digits 0 := by
  rw [Nat.ofDigitChars_append, Nat.ofDigitChars_replicate_zero, Nat.mul_zero]

/-- The digits of a coefficient, with zeros in front where the point stands left of them. -/
def paddedDigits (coefficient places : Nat) : Str :=
  List.replicate (places + 1 - (Nat.toDigits 10 coefficient).length) '0' ++
    Nat.toDigits 10 coefficient

theorem paddedDigits_isDigit (coefficient places : Nat) :
    ∀ c ∈ paddedDigits coefficient places, c.isDigit = true := by
  intro c hc
  rcases List.mem_append.1 hc with hc | hc
  · exact replicate_zero_isDigit _ c hc
  · exact toDigits_isDigit coefficient c hc

theorem expanded_digits (coefficient zeros : Nat) :
    ∀ c ∈ Nat.toDigits 10 coefficient ++ List.replicate zeros '0' ++ [], c.isDigit = true := by
  intro c hc
  rw [List.append_nil] at hc
  rcases List.mem_append.1 hc with hc | hc
  · exact toDigits_isDigit coefficient c hc
  · exact replicate_zero_isDigit zeros c hc

theorem pointed_digits (coefficient places : Nat) :
    ∀ c ∈ (paddedDigits coefficient places).take ((paddedDigits coefficient places).length - places) ++
      (paddedDigits coefficient places).drop ((paddedDigits coefficient places).length - places),
      c.isDigit = true := by
  intro c hc
  rw [List.take_append_drop] at hc
  exact paddedDigits_isDigit coefficient places c hc

theorem places_lt_paddedDigits (coefficient places : Nat) :
    places < (paddedDigits coefficient places).length := by
  rw [paddedDigits, List.length_append, List.length_replicate]
  omega

theorem ofDigitChars_paddedDigits (coefficient places : Nat) :
    Nat.ofDigitChars 10 (paddedDigits coefficient places) 0 = coefficient := by
  rw [paddedDigits, ofDigitChars_zeros_append, Nat.ofDigitChars_ten_toDigits]

namespace FixedPoint

def expanded (negative : Bool) (coefficient zeros : Nat) : FixedPoint where
  negative := negative
  whole := Nat.toDigits 10 coefficient ++ List.replicate zeros '0'
  fraction := []
  digits := expanded_digits coefficient zeros

def pointed (negative : Bool) (coefficient places : Nat) : FixedPoint where
  negative := negative
  whole := (paddedDigits coefficient places).take ((paddedDigits coefficient places).length - places)
  fraction :=
    (paddedDigits coefficient places).drop ((paddedDigits coefficient places).length - places)
  digits := pointed_digits coefficient places

theorem whole_pointed (negative : Bool) (coefficient places : Nat) :
    (pointed negative coefficient places).whole = (paddedDigits coefficient places).take
      ((paddedDigits coefficient places).length - places) := rfl

theorem fraction_pointed (negative : Bool) (coefficient places : Nat) :
    (pointed negative coefficient places).fraction = (paddedDigits coefficient places).drop
      ((paddedDigits coefficient places).length - places) := rfl

theorem length_pointed_fraction (negative : Bool) (coefficient places : Nat) :
    (pointed negative coefficient places).fraction.length = places := by
  have hlt := places_lt_paddedDigits coefficient places
  simp only [pointed, List.length_drop]
  omega

theorem fraction_ne_nil (negative : Bool) (coefficient : Nat) {places : Nat} (hplaces : 0 < places) :
    (pointed negative coefficient places).fraction ≠ [] := by
  intro hnil
  have hlength := length_pointed_fraction negative coefficient places
  rw [hnil, List.length_nil] at hlength
  omega

theorem text_pointed (negative : Bool) (coefficient : Nat) {places : Nat} (hplaces : 0 < places) :
    (pointed negative coefficient places).text =
      sign negative ++ (pointed negative coefficient places).whole ++
        '.' :: (pointed negative coefficient places).fraction := by
  rw [text, if_neg (fraction_ne_nil negative coefficient hplaces)]
  rfl

theorem value_expanded (negative : Bool) (coefficient zeros : Nat) :
    (expanded negative coefficient zeros).value = decimalValue negative coefficient zeros := by
  have hnumber : Nat.ofDigitChars 10 (Nat.toDigits 10 coefficient ++ List.replicate zeros '0') 0 =
      coefficient * 10 ^ zeros := by
    rw [ofDigitChars_append_zeros, Nat.ofDigitChars_ten_toDigits]
  simp only [value, expanded, decimalValue, List.append_nil, List.length_nil, hnumber, pow_zero,
    div_one, zpow_natCast]
  push_cast
  rw [mul_assoc]
  rfl

theorem value_pointed (negative : Bool) (coefficient places : Nat) :
    (pointed negative coefficient places).value =
      decimalValue negative coefficient (-(places : Int)) := by
  have hlength := length_pointed_fraction negative coefficient places
  have hnumber : Nat.ofDigitChars 10 ((pointed negative coefficient places).whole ++
      (pointed negative coefficient places).fraction) 0 = coefficient := by
    rw [pointed, List.take_append_drop, ofDigitChars_paddedDigits]
  rw [value, hlength, hnumber, decimalValue, zpow_neg, zpow_natCast, div_eq_mul_inv]
  rfl

end FixedPoint

theorem formatFixed_expanded (negative : Bool) (coefficient : Nat) {exponent : Int}
    (h : 0 ≤ exponent) :
    formatFixed negative coefficient exponent =
      (FixedPoint.expanded negative coefficient exponent.toNat).text := by
  simp only [formatFixed, if_pos h, FixedPoint.text, FixedPoint.expanded, if_true, List.append_nil,
    List.append_assoc]
  rfl

theorem formatFixed_pointed (negative : Bool) (coefficient : Nat) {exponent : Int}
    (h : exponent < 0) :
    formatFixed negative coefficient exponent =
      (FixedPoint.pointed negative coefficient (-exponent).toNat).text := by
  rw [FixedPoint.text_pointed negative coefficient (by omega : 0 < (-exponent).toNat), formatFixed]
  have hneg : ¬0 ≤ exponent := by omega
  simp only [if_neg hneg]
  rfl

/-- The zeros at the end of a fraction are stripped, and then a point left without digits. -/
def stripped (text : Str) : Str := if '.' ∈ text then rstrip '.' (rstrip '0' text) else text

theorem point_not_mem_sign (negative : Bool) : '.' ∉ FixedPoint.sign negative := by
  cases negative <;> decide

theorem point_not_mem_digits {digits : Str} (h : ∀ c ∈ digits, c.isDigit = true) : '.' ∉ digits :=
  fun hmem => isDigit_ne_point (h '.' hmem) rfl

theorem stripped_expanded (negative : Bool) (coefficient zeros : Nat) :
    stripped (FixedPoint.expanded negative coefficient zeros).text =
      (FixedPoint.expanded negative coefficient zeros).text := by
  have hpoint : '.' ∉ (FixedPoint.expanded negative coefficient zeros).text := by
    simp only [FixedPoint.text, FixedPoint.expanded, if_true, List.append_nil, List.mem_append,
      not_or]
    exact ⟨point_not_mem_sign negative, point_not_mem_digits (toDigits_isDigit coefficient),
      point_not_mem_digits (replicate_zero_isDigit zeros)⟩
  rw [stripped, if_neg hpoint]

theorem rstrip_append_self (c : Char) (s : Str) : rstrip c (s ++ [c]) = rstrip c s :=
  List.rdropWhile_concat_pos (fun d => decide (d = c)) s c (by simp)

theorem rstrip_of_getLast {c : Char} {s : Str} (h : s.getLast? ≠ some c) : rstrip c s = s := by
  refine List.rdropWhile_eq_self_iff.2 fun hne hlast => h ?_
  have hc : s.getLast hne = c := by simpa using hlast
  rw [List.getLast?_eq_some_getLast hne, hc]

theorem toDigits_ten_mul {coefficient : Nat} (hpos : 0 < coefficient) :
    Nat.toDigits 10 (10 * coefficient) = Nat.toDigits 10 coefficient ++ ['0'] := by
  have hlast := Nat.toDigits_append_toDigits (b := 10) (d := 0) (by decide) hpos (by decide)
  rw [Nat.add_zero] at hlast
  rw [← hlast]
  rfl

theorem paddedDigits_ten_mul {coefficient : Nat} (hpos : 0 < coefficient) (places : Nat) :
    paddedDigits (10 * coefficient) (places + 1) = paddedDigits coefficient places ++ ['0'] := by
  have hcount : places + 1 + 1 - ((Nat.toDigits 10 coefficient).length + 1) =
      places + 1 - (Nat.toDigits 10 coefficient).length := by omega
  rw [paddedDigits, toDigits_ten_mul hpos, List.length_append, List.length_singleton, hcount,
    paddedDigits, List.append_assoc]

theorem getLast_ne_point_of_digits {negative : Bool} {digits : Str}
    (h : ∀ c ∈ digits, c.isDigit = true) :
    (FixedPoint.sign negative ++ digits).getLast? ≠ some '.' := by
  intro hlast
  rcases List.mem_append.1 (List.mem_of_getLast? hlast) with hmem | hmem
  · exact point_not_mem_sign negative hmem
  · exact point_not_mem_digits h hmem

theorem getLast_fraction (negative : Bool) (coefficient : Nat) {places : Nat} (hplaces : 0 < places) :
    (FixedPoint.pointed negative coefficient places).fraction.getLast? =
      (Nat.toDigits 10 coefficient).getLast? := by
  have hlt := places_lt_paddedDigits coefficient places
  have hlast : (paddedDigits coefficient places).getLast? =
      (Nat.toDigits 10 coefficient).getLast? := by
    rw [paddedDigits, List.getLast?_append_of_ne_nil _ Nat.toDigits_ne_nil]
  rw [FixedPoint.fraction_pointed, List.getLast?_drop, if_neg (by omega), hlast]

theorem stripped_pointed {negative : Bool} {coefficient places : Nat} (hplaces : 0 < places)
    (hlast : (Nat.toDigits 10 coefficient).getLast? ≠ some '0') :
    stripped (FixedPoint.pointed negative coefficient places).text =
      (FixedPoint.pointed negative coefficient places).text := by
  have htext : (FixedPoint.pointed negative coefficient places).text.getLast? =
      (Nat.toDigits 10 coefficient).getLast? := by
    rw [FixedPoint.text_pointed negative coefficient hplaces, List.append_cons,
      List.getLast?_append_of_ne_nil _ (FixedPoint.fraction_ne_nil negative coefficient hplaces)]
    exact getLast_fraction negative coefficient hplaces
  have hzero : (FixedPoint.pointed negative coefficient places).text.getLast? ≠ some '0' := by
    rw [htext]
    exact hlast
  have hpoint : (FixedPoint.pointed negative coefficient places).text.getLast? ≠ some '.' := by
    rw [htext]
    exact fun h => point_not_mem_digits (toDigits_isDigit coefficient) (List.mem_of_getLast? h)
  rw [stripped]
  split
  · rw [rstrip_of_getLast hzero, rstrip_of_getLast hpoint]
  · rfl

theorem stripped_ten_mul_one (negative : Bool) {coefficient : Nat} (hpos : 0 < coefficient) :
    stripped (FixedPoint.pointed negative (10 * coefficient) 1).text =
      (FixedPoint.expanded negative coefficient 0).text := by
  have hpadded : paddedDigits (10 * coefficient) 1 = Nat.toDigits 10 coefficient ++ ['0'] := by
    rw [paddedDigits_ten_mul hpos, paddedDigits]
    have hdigits : 0 < (Nat.toDigits 10 coefficient).length := Nat.length_toDigits_pos
    have hcount : 0 + 1 - (Nat.toDigits 10 coefficient).length = 0 := by omega
    rw [hcount]
    rfl
  have hlength : (paddedDigits (10 * coefficient) 1).length - 1 =
      (Nat.toDigits 10 coefficient).length := by
    rw [hpadded, List.length_append, List.length_singleton, Nat.add_sub_cancel]
  have hwhole : (FixedPoint.pointed negative (10 * coefficient) 1).whole =
      Nat.toDigits 10 coefficient := by
    rw [FixedPoint.whole_pointed, hlength, hpadded, List.take_left]
  have hfraction : (FixedPoint.pointed negative (10 * coefficient) 1).fraction = ['0'] := by
    rw [FixedPoint.fraction_pointed, hlength, hpadded, List.drop_left]
  have htext : (FixedPoint.pointed negative (10 * coefficient) 1).text =
      FixedPoint.sign negative ++ Nat.toDigits 10 coefficient ++ ['.'] ++ ['0'] := by
    rw [FixedPoint.text_pointed negative _ Nat.one_pos, hwhole, hfraction, List.append_assoc _ ['.']]
    rfl
  have hmem : '.' ∈ FixedPoint.sign negative ++ Nat.toDigits 10 coefficient ++ ['.'] ++ ['0'] := by
    simp
  have hpoint : (FixedPoint.sign negative ++ Nat.toDigits 10 coefficient ++ ['.']).getLast? ≠
      some '0' := by
    simp
  rw [htext, stripped, if_pos hmem, rstrip_append_self, rstrip_of_getLast hpoint,
    rstrip_append_self, rstrip_of_getLast (getLast_ne_point_of_digits (toDigits_isDigit coefficient))]
  simp [FixedPoint.text, FixedPoint.expanded]

theorem stripped_ten_mul (negative : Bool) {coefficient places : Nat} (hpos : 0 < coefficient)
    (hplaces : 0 < places) :
    stripped (FixedPoint.pointed negative (10 * coefficient) (places + 1)).text =
      stripped (FixedPoint.pointed negative coefficient places).text := by
  have hpadded := paddedDigits_ten_mul hpos places
  have hlength : (paddedDigits (10 * coefficient) (places + 1)).length - (places + 1) =
      (paddedDigits coefficient places).length - places := by
    rw [hpadded, List.length_append, List.length_singleton, Nat.add_sub_add_right]
  have hle : (paddedDigits coefficient places).length - places ≤
      (paddedDigits coefficient places).length := Nat.sub_le _ _
  have hwhole : (FixedPoint.pointed negative (10 * coefficient) (places + 1)).whole =
      (FixedPoint.pointed negative coefficient places).whole := by
    rw [FixedPoint.whole_pointed, hlength, hpadded, List.take_append_of_le_length hle,
      FixedPoint.whole_pointed]
  have hfraction : (FixedPoint.pointed negative (10 * coefficient) (places + 1)).fraction =
      (FixedPoint.pointed negative coefficient places).fraction ++ ['0'] := by
    rw [FixedPoint.fraction_pointed, hlength, hpadded, List.drop_append_of_le_length hle,
      FixedPoint.fraction_pointed]
  have htext : (FixedPoint.pointed negative (10 * coefficient) (places + 1)).text =
      (FixedPoint.pointed negative coefficient places).text ++ ['0'] := by
    rw [FixedPoint.text_pointed negative _ (Nat.succ_pos places), hwhole, hfraction,
      FixedPoint.text_pointed negative _ hplaces, List.append_assoc _ ('.' :: _) ['0']]
    rfl
  have hmem : '.' ∈ (FixedPoint.pointed negative coefficient places).text := by
    rw [FixedPoint.text_pointed negative _ hplaces]
    simp
  rw [htext, stripped, if_pos (List.mem_append_left ['0'] hmem), rstrip_append_self, stripped,
    if_pos hmem]

/-- A factor of ten may stand in the coefficient or in the exponent. -/
theorem stripped_formatFixed_shift (negative : Bool) {coefficient : Nat} (hpos : 0 < coefficient)
    (exponent : Int) :
    stripped (formatFixed negative (10 * coefficient) exponent) =
      stripped (formatFixed negative coefficient (exponent + 1)) := by
  by_cases h : 0 ≤ exponent
  · rw [formatFixed_expanded negative _ h, formatFixed_expanded negative _ (by omega : 0 ≤ exponent + 1)]
    have hzeros : (exponent + 1).toNat = exponent.toNat + 1 := by omega
    rw [hzeros]
    congr 1
    simp only [FixedPoint.text, FixedPoint.expanded, toDigits_ten_mul hpos, List.replicate_succ,
      List.append_assoc, List.singleton_append]
  · rw [formatFixed_pointed negative _ (by omega)]
    by_cases hone : exponent = -1
    · subst hone
      rw [formatFixed_expanded negative _ (by omega), stripped_expanded]
      exact stripped_ten_mul_one negative hpos
    · have hplaces : (-exponent).toNat = (-(exponent + 1)).toNat + 1 := by omega
      rw [formatFixed_pointed negative _ (by omega), hplaces,
        stripped_ten_mul negative hpos (by omega)]

theorem stripped_formatFixed_shifts (negative : Bool) {coefficient : Nat} (hpos : 0 < coefficient)
    (exponent : Int) (n : Nat) :
    stripped (formatFixed negative (coefficient * 10 ^ n) exponent) =
      stripped (formatFixed negative coefficient (exponent + n)) := by
  induction n generalizing exponent with
  | zero => simp
  | succ n ih =>
    have hpow : coefficient * 10 ^ (n + 1) = 10 * (coefficient * 10 ^ n) := by
      rw [Nat.pow_succ, ← Nat.mul_assoc, Nat.mul_comm]
    have hpos' : 0 < coefficient * 10 ^ n := Nat.mul_pos hpos (Nat.pow_pos (by decide))
    have hexp : exponent + 1 + (n : Int) = exponent + ((n + 1 : Nat) : Int) := by
      omega
    rw [hpow, stripped_formatFixed_shift negative hpos', ih, hexp]

theorem decimalValue_pos {coefficient : Nat} (hpos : 0 < coefficient) (exponent : Int) :
    0 < decimalValue false coefficient exponent := by
  have hcoefficient : (0 : ℚ) < coefficient := Nat.cast_pos.2 hpos
  have hpower : (0 : ℚ) < 10 ^ exponent := zpow_pos (by norm_num) exponent
  simp only [decimalValue, Bool.false_eq_true, if_false, one_mul]
  exact mul_pos hcoefficient hpower

theorem decimalValue_neg (coefficient : Nat) (exponent : Int) :
    decimalValue true coefficient exponent = -decimalValue false coefficient exponent := by
  simp [decimalValue]

/-- Of two representations of one number the one with the smaller exponent has the larger
coefficient, by a power of ten. -/
theorem coefficient_eq_of_value {a b : Nat} {e f : Int} (hle : e ≤ f)
    (h : decimalValue false a e = decimalValue false b f) : a = b * 10 ^ (f - e).toNat := by
  have hpower : (10 : ℚ) ^ f = 10 ^ (f - e).toNat * 10 ^ e := by
    rw [← zpow_natCast, ← zpow_add₀ (by norm_num)]
    congr 1
    omega
  have hne : (10 : ℚ) ^ e ≠ 0 := zpow_ne_zero e (by norm_num)
  simp only [decimalValue, Bool.false_eq_true, if_false, one_mul] at h
  rw [hpower, ← mul_assoc] at h
  have hcast : (a : ℚ) = b * 10 ^ (f - e).toNat := mul_right_cancel₀ hne h
  exact_mod_cast hcast

theorem stripped_formatFixed_of_value {a b : Nat} {e f : Int} (negative : Bool) (hb : 0 < b)
    (hle : e ≤ f) (h : decimalValue false a e = decimalValue false b f) :
    stripped (formatFixed negative a e) = stripped (formatFixed negative b f) := by
  have hexponent : e + ((f - e).toNat : Int) = f := by omega
  rw [coefficient_eq_of_value hle h, stripped_formatFixed_shifts negative hb, hexponent]

/-- Positive and negative numbers aside, equal numbers have equal texts. -/
theorem stripped_formatFixed_congr {a b : Nat} {e f : Int} (m n : Bool) (ha : 0 < a) (hb : 0 < b)
    (h : decimalValue m a e = decimalValue n b f) :
    stripped (formatFixed m a e) = stripped (formatFixed n b f) := by
  have hapos := decimalValue_pos ha e
  have hbpos := decimalValue_pos hb f
  have habs : m = n ∧ decimalValue false a e = decimalValue false b f := by
    cases m <;> cases n
    · exact ⟨rfl, h⟩
    · rw [decimalValue_neg] at h
      exact absurd h (ne_of_gt (lt_trans (neg_lt_zero.2 hbpos) hapos))
    · rw [decimalValue_neg] at h
      exact absurd h (ne_of_lt (lt_trans (neg_lt_zero.2 hapos) hbpos))
    · rw [decimalValue_neg, decimalValue_neg] at h
      exact ⟨rfl, neg_injective h⟩
  obtain ⟨rfl, hvalue⟩ := habs
  rcases le_total e f with hle | hle
  · exact stripped_formatFixed_of_value m hb hle hvalue
  · exact (stripped_formatFixed_of_value m ha hle hvalue.symm).symm

theorem getLast_toDigits (n : Nat) :
    (Nat.toDigits 10 n).getLast? = some (Nat.digitChar (n % 10)) := by
  by_cases hlt : n < 10
  · rw [Nat.toDigits_of_lt_base hlt, Nat.mod_eq_of_lt hlt]
    rfl
  · rw [Nat.toDigits_of_base_le (by decide) (by omega)]
    simp

theorem getLast_toDigits_ne_zero {n : Nat} (h : ¬10 ∣ n) : (Nat.toDigits 10 n).getLast? ≠ some '0' := by
  have hall : ∀ d : Fin 10, Nat.digitChar d = '0' → d = 0 := by decide
  rw [getLast_toDigits]
  intro hlast
  have hzero := hall ⟨n % 10, Nat.mod_lt n (by decide)⟩ (Option.some.inj hlast)
  exact h (Nat.dvd_of_mod_eq_zero (congrArg Fin.val hzero))

theorem FixedPoint.plain_expanded (negative : Bool) {coefficient : Nat} (hpos : 0 < coefficient)
    (zeros : Nat) : (expanded negative coefficient zeros).Plain := by
  obtain ⟨c, digits, htext, hc⟩ := toDigits_cons hpos
  refine ⟨?_, .inr ?_, by simp [expanded]⟩
  · simp [expanded, htext]
  · simpa [expanded, htext] using hc

theorem FixedPoint.plain_pointed (negative : Bool) {coefficient places : Nat} (hplaces : 0 < places)
    (h : ¬10 ∣ coefficient) : (pointed negative coefficient places).Plain := by
  have hpos : 0 < coefficient := Nat.pos_of_ne_zero fun hzero => h (hzero ▸ Nat.dvd_zero 10)
  have hlt := places_lt_paddedDigits coefficient places
  obtain ⟨c, digits, htext, hc⟩ := toDigits_cons hpos
  refine ⟨?_, ?_, ?_⟩
  · intro hnil
    have hlength := congrArg List.length hnil
    simp only [whole_pointed, List.length_take, List.length_nil] at hlength
    omega
  · rw [whole_pointed]
    by_cases hlong : places < (Nat.toDigits 10 coefficient).length
    · -- The point falls inside the digits.
      have hpadded : paddedDigits coefficient places = c :: digits := by
        have hcount : places + 1 - (Nat.toDigits 10 coefficient).length = 0 := by omega
        rw [paddedDigits, hcount, htext]
        rfl
      obtain ⟨count, hcount⟩ : ∃ count, (paddedDigits coefficient places).length - places = count + 1 :=
        ⟨(paddedDigits coefficient places).length - places - 1, by omega⟩
      rw [hcount, hpadded, List.take_succ_cons, List.head?_cons]
      exact .inr fun hzero => hc (Option.some.inj hzero)
    · -- The point falls left of them, after the one zero before it.
      have hlength : (paddedDigits coefficient places).length - places = 1 := by
        simp only [paddedDigits, List.length_append, List.length_replicate]
        omega
      obtain ⟨zeros, hzeros⟩ :
          ∃ zeros, places + 1 - (Nat.toDigits 10 coefficient).length = zeros + 1 :=
        ⟨places - (Nat.toDigits 10 coefficient).length, by omega⟩
      rw [hlength, paddedDigits, hzeros, List.replicate_succ, List.cons_append]
      exact .inl rfl
  · rw [getLast_fraction negative coefficient hplaces]
    exact getLast_toDigits_ne_zero h

theorem plain_stripped (negative : Bool) {coefficient : Nat} (hpos : 0 < coefficient)
    (exponent : Int) :
    ∃ x : FixedPoint, x.Plain ∧ x.text = stripped (formatFixed negative coefficient exponent) ∧
      x.value = decimalValue negative coefficient exponent := by
  obtain ⟨zeros, m, hm, rfl⟩ := Nat.exists_eq_pow_mul_and_not_dvd (Nat.pos_iff_ne_zero.1 hpos) 10
    (by decide)
  have hmpos : 0 < m := Nat.pos_of_ne_zero fun hzero => hm (hzero ▸ Nat.dvd_zero 10)
  have hvalue : decimalValue negative m (exponent + zeros) =
      decimalValue negative (10 ^ zeros * m) exponent := by
    rw [decimalValue, decimalValue, zpow_add₀ (by norm_num), zpow_natCast]
    push_cast
    rw [mul_assoc, mul_assoc, mul_comm ((10 : ℚ) ^ zeros) m, mul_assoc, mul_comm ((10 : ℚ) ^ zeros)]
  rw [Nat.mul_comm, stripped_formatFixed_shifts negative hmpos, Nat.mul_comm, ← hvalue]
  by_cases h : 0 ≤ exponent + zeros
  · rw [formatFixed_expanded negative m h, stripped_expanded]
    refine ⟨_, FixedPoint.plain_expanded negative hmpos _, rfl, ?_⟩
    rw [FixedPoint.value_expanded, Int.toNat_of_nonneg h]
  · have hplaces : 0 < (-(exponent + zeros)).toNat := by omega
    have hneg : -((-(exponent + (zeros : Int))).toNat : Int) = exponent + zeros := by omega
    rw [formatFixed_pointed negative m (by omega),
      stripped_pointed hplaces (getLast_toDigits_ne_zero hm)]
    refine ⟨_, FixedPoint.plain_pointed negative hplaces hm, rfl, ?_⟩
    rw [FixedPoint.value_pointed, hneg]

end ProfileService.Library
