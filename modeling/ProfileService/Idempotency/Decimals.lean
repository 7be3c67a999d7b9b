import ProfileService.Idempotency.Fingerprint
import ProfileService.Library.FixedPoint

/-!
# Decimals in request fingerprints

The branch of `_canonicalize` for `Decimal` (`fingerprint.py:112-126`): one text for
each number, whatever its representation. No decimal context is read.
-/

namespace ProfileService.Idempotency
open Library Application

def decimalText (negative : Bool) (coefficient : Nat) (exponent : Int) : Str :=
  if coefficient = 0 then ['0'] else stripped (formatFixed negative coefficient exponent)

theorem Scalar.decimal (negative : Bool) (coefficient : Nat) (exponent : Int) :
    Scalar (.decimal (.finite negative coefficient exponent))
      (.str (decimalText negative coefficient exponent)) := by
  have hcanonical : canonicalizeDecimal (.finite negative coefficient exponent) =
      .ok (.str (decimalText negative coefficient exponent)) := by
    rw [canonicalizeDecimal, decimalText]
    split <;> rfl
  exact ⟨fun _ _ => by rw [canonicalize, hcanonical], rfl⟩

/-- What a text says of the number it stands for. -/
structure DenotesDecimal (negative : Bool) (coefficient : Nat) (exponent : Int) (text : Str) :
    Prop where
  value : fixedValue text = decimalValue negative coefficient exponent
  zero : coefficient = 0 → text = ['0']
  plain : ∃ x : FixedPoint, x.Plain ∧ x.text = text
  /-- An exponent that is not negative becomes zeros, all of which are kept. -/
  expanded : 0 < coefficient → 0 ≤ exponent →
    text = FixedPoint.sign negative ++
      (Nat.toDigits 10 coefficient ++ List.replicate exponent.toNat '0')

theorem decimalValue_zero (negative : Bool) (exponent : Int) :
    decimalValue negative 0 exponent = 0 := by
  simp [decimalValue]

theorem eq_zero_of_decimalValue {negative : Bool} {coefficient : Nat} {exponent : Int}
    (h : decimalValue negative coefficient exponent = 0) : coefficient = 0 := by
  rcases Nat.eq_zero_or_pos coefficient with hzero | hpos
  · exact hzero
  · have hvalue := decimalValue_pos hpos exponent
    cases negative with
    | false => exact absurd h (ne_of_gt hvalue)
    | true =>
      rw [decimalValue_neg, neg_eq_zero] at h
      exact absurd h (ne_of_gt hvalue)

theorem fixedValue_zero : fixedValue ['0'] = 0 := by
  have hdigits : Nat.ofDigitChars 10 ['0'] 0 = 0 := rfl
  simp [fixedValue, hdigits]

theorem zero_isDigit : ∀ c ∈ ['0'] ++ [], c.isDigit = true := by
  intro c hc
  rw [List.append_nil] at hc
  rw [List.mem_singleton.1 hc]
  rfl

theorem decimalText_denotes (negative : Bool) (coefficient : Nat) (exponent : Int) :
    DenotesDecimal negative coefficient exponent (decimalText negative coefficient exponent) := by
  by_cases hzero : coefficient = 0
  · subst hzero
    rw [decimalText, if_pos rfl]
    have hplain : FixedPoint.Plain ⟨false, ['0'], [], zero_isDigit⟩ := ⟨by simp, .inl rfl, by simp⟩
    exact ⟨by rw [fixedValue_zero, decimalValue_zero], fun _ => rfl, ⟨_, hplain, rfl⟩,
      fun hpos => absurd hpos (Nat.lt_irrefl 0)⟩
  · have hpos : 0 < coefficient := Nat.pos_of_ne_zero hzero
    rw [decimalText, if_neg hzero]
    obtain ⟨x, hplain, htext, hvalue⟩ := plain_stripped negative hpos exponent
    refine ⟨?_, fun h => absurd h hzero, ⟨x, hplain, htext⟩, fun _ hexponent => ?_⟩
    · rw [← htext, x.fixedValue_text, hvalue]
    · rw [formatFixed_expanded negative coefficient hexponent, stripped_expanded]
      simp [FixedPoint.text, FixedPoint.expanded]

theorem decimalText_congr {m n : Bool} {a b : Nat} {e f : Int}
    (h : decimalValue m a e = decimalValue n b f) : decimalText m a e = decimalText n b f := by
  by_cases ha : a = 0
  · have hb : b = 0 := by
      rw [ha, decimalValue_zero] at h
      exact eq_zero_of_decimalValue h.symm
    rw [decimalText, decimalText, if_pos ha, if_pos hb]
  · have hb : b ≠ 0 := by
      rintro rfl
      rw [decimalValue_zero] at h
      exact ha (eq_zero_of_decimalValue h)
    rw [decimalText, decimalText, if_neg ha, if_neg hb]
    exact stripped_formatFixed_congr m n (Nat.pos_of_ne_zero ha) (Nat.pos_of_ne_zero hb) h

/-- The canonical texts of two finite Decimals are equal exactly when the numbers are. -/
theorem decimal_texts_eq_iff (m n : Bool) (a b : Nat) (e f : Int) :
    ∃ s t, Scalar (.decimal (.finite m a e)) (.str s) ∧ Scalar (.decimal (.finite n b f)) (.str t) ∧
      DenotesDecimal m a e s ∧ DenotesDecimal n b f t ∧
      (s = t ↔ decimalValue m a e = decimalValue n b f) := by
  have hs := decimalText_denotes m a e
  have ht := decimalText_denotes n b f
  refine ⟨_, _, Scalar.decimal m a e, Scalar.decimal n b f, hs, ht, ?_, decimalText_congr⟩
  intro h
  rw [← hs.value, ← ht.value, h]

example : decimalText true 12300 (-4) = "-1.23".toList := by decide

end ProfileService.Idempotency
