import Mathlib.Data.Int.Log
import Mathlib.Data.Rat.Floor
import Mathlib.Tactic.Linarith
import ProfileService.Library.Calendar

/-!
# Doubles

Round to nearest, ties to even, with 53 significant bits, and what it does to
`int(t.timestamp() * 1000)`.
-/

namespace ProfileService.Library

def roundEven (x : ℚ) : ℤ :=
  if Int.fract x < 1 / 2 then ⌊x⌋
  else if 1 / 2 < Int.fract x then ⌊x⌋ + 1
  else if ⌊x⌋ % 2 = 0 then ⌊x⌋ else ⌊x⌋ + 1

/-- The double nearest to `x`, for the magnitudes of the normal range. -/
def toDouble (x : ℚ) : ℚ :=
  if x = 0 then 0 else roundEven (x / 2 ^ (Int.log 2 |x| - 52)) * 2 ^ (Int.log 2 |x| - 52)

def truncate (x : ℚ) : ℤ := if 0 ≤ x then ⌊x⌋ else ⌈x⌉

/-- `int(t.timestamp() * 1000)` for `t` in microseconds. -/
def timestampMs (t : Int) : Int := truncate (toDouble (toDouble (t / 1000000) * 1000))

theorem abs_roundEven_sub_le (x : ℚ) : |(roundEven x : ℚ) - x| ≤ 1 / 2 := by
  have hlow : (⌊x⌋ : ℚ) - x = -Int.fract x := by
    rw [← Int.self_sub_floor x]
    ring
  have hhigh : ((⌊x⌋ + 1 : ℤ) : ℚ) - x = 1 - Int.fract x := by
    rw [← Int.self_sub_floor x]
    push_cast
    ring
  have hpos := Int.fract_nonneg x
  unfold roundEven
  rw [abs_le]
  split
  · rw [hlow]
    constructor <;> linarith
  · split
    · rw [hhigh]
      have hlt := Int.fract_lt_one x
      constructor <;> linarith
    · split
      · rw [hlow]
        constructor <;> linarith
      · rw [hhigh]
        constructor <;> linarith

theorem abs_toDouble_sub_le (x : ℚ) : |toDouble x - x| ≤ |x| / 2 ^ 53 := by
  unfold toDouble
  split
  · rename_i h
    simp [h]
  · rename_i h
    have hulp : (0 : ℚ) < 2 ^ (Int.log 2 |x| - 52) := zpow_pos (by decide) _
    have hscale : (roundEven (x / 2 ^ (Int.log 2 |x| - 52)) : ℚ) * 2 ^ (Int.log 2 |x| - 52) - x =
        ((roundEven (x / 2 ^ (Int.log 2 |x| - 52)) : ℚ) - x / 2 ^ (Int.log 2 |x| - 52)) *
          2 ^ (Int.log 2 |x| - 52) := by
      field_simp
    have hlog : ((2 : ℕ) : ℚ) ^ Int.log 2 |x| ≤ |x| :=
      Int.zpow_log_le_self (by decide) (abs_pos.2 h)
    have hsplit : (2 : ℚ) ^ (Int.log 2 |x| - 52) = 2 ^ Int.log 2 |x| / 2 ^ 52 := by
      rw [zpow_sub₀ (by decide)]
      rfl
    rw [hscale, abs_mul, abs_of_pos hulp]
    calc |(roundEven (x / 2 ^ (Int.log 2 |x| - 52)) : ℚ) - x / 2 ^ (Int.log 2 |x| - 52)| *
          2 ^ (Int.log 2 |x| - 52)
        ≤ 1 / 2 * 2 ^ (Int.log 2 |x| - 52) :=
          mul_le_mul_of_nonneg_right (abs_roundEven_sub_le _) hulp.le
      _ ≤ |x| / 2 ^ 53 := by
          rw [hsplit]
          push_cast at hlog
          linarith

/-- The two roundings of `timestamp() * 1000` together. -/
theorem abs_timestamp_sub_le (x : ℚ) :
    |toDouble (toDouble x * 1000) - x * 1000| ≤ |x| / 2 ^ 42 := by
  have hone := abs_toDouble_sub_le x
  have htwo := abs_toDouble_sub_le (toDouble x * 1000)
  have hsize : |toDouble x * 1000| ≤ |x| * 1001 := by
    rw [abs_mul, abs_of_pos (show (0 : ℚ) < 1000 by decide)]
    have htriangle : |toDouble x| ≤ |x| + |toDouble x - x| := by
      have hsum := abs_add_le x (toDouble x - x)
      rwa [add_sub_cancel] at hsum
    have hx := abs_nonneg x
    linarith
  have hscaled : |toDouble x * 1000 - x * 1000| = |toDouble x - x| * 1000 := by
    rw [← sub_mul, abs_mul, abs_of_pos (show (0 : ℚ) < 1000 by decide)]
  calc |toDouble (toDouble x * 1000) - x * 1000|
      ≤ |toDouble (toDouble x * 1000) - toDouble x * 1000| + |toDouble x * 1000 - x * 1000| :=
        abs_sub_le _ _ _
    _ ≤ |x| / 2 ^ 42 := by
        rw [hscaled]
        have hx := abs_nonneg x
        linarith

theorem sub_one_lt_truncate (x : ℚ) : x - 1 < truncate x := by
  unfold truncate
  split
  · exact Int.sub_one_lt_floor x
  · exact lt_of_lt_of_le (sub_one_lt x) (Int.le_ceil x)

theorem millis_bounds (t : Int) :
    ((t / 1000 : ℤ) : ℚ) ≤ t / 1000 ∧ (t : ℚ) / 1000 ≤ ((t / 1000 : ℤ) : ℚ) + 999 / 1000 := by
  have hdm : 1000 * (t / 1000) + t % 1000 = t := Int.mul_ediv_add_emod t 1000
  have hnonneg : 0 ≤ t % 1000 := Int.emod_nonneg t (by decide)
  have hle : t % 1000 ≤ 999 := Int.le_of_lt_add_one (Int.emod_lt_of_pos t (by decide))
  have hq : (1000 : ℚ) * ((t / 1000 : ℤ) : ℚ) + ((t % 1000 : ℤ) : ℚ) = t := by exact_mod_cast hdm
  have h₁ : (0 : ℚ) ≤ ((t % 1000 : ℤ) : ℚ) := by exact_mod_cast hnonneg
  have h₂ : ((t % 1000 : ℤ) : ℚ) ≤ 999 := by exact_mod_cast hle
  constructor <;> linarith

theorem abs_timestamp_le {t : Int} {b : ℚ} (hb : |(t : ℚ) / 1000000| ≤ b) :
    |toDouble (toDouble (t / 1000000) * 1000) - t / 1000| ≤ b / 2 ^ 42 := by
  have hscaled : (t : ℚ) / 1000000 * 1000 = t / 1000 := by ring
  have herror := abs_timestamp_sub_le ((t : ℚ) / 1000000)
  rw [hscaled] at herror
  exact herror.trans (div_le_div_of_nonneg_right hb (by norm_num))

/-- The text of a deadline loses at most one millisecond. -/
theorem le_timestampMs {t : Int} (ht : Representable t) : t / 1000 - 1 ≤ timestampMs t := by
  have hrange : -62135596800000000 ≤ t ∧ t < 253402300800000000 := by
    obtain ⟨h₁, h₂⟩ := ht
    unfold instantOrdinal dayMicros at h₁ h₂
    omega
  have hbound : |(t : ℚ) / 1000000| ≤ 253402300800 := by
    have h₁ : (-62135596800000000 : ℚ) ≤ t := by exact_mod_cast hrange.1
    have h₂ : (t : ℚ) < 253402300800000000 := by exact_mod_cast hrange.2
    rw [abs_le]
    constructor <;> linarith
  obtain ⟨hdown, -⟩ := abs_le.1 (abs_timestamp_le hbound)
  have hlow := sub_one_lt_truncate (toDouble (toDouble ((t : ℚ) / 1000000) * 1000))
  have hfloor := (millis_bounds t).1
  have hlt : ((t / 1000 : ℤ) : ℚ) - 2 < (timestampMs t : ℚ) := by
    unfold timestampMs
    linarith
  have hint : t / 1000 - 2 < timestampMs t := by exact_mod_cast hlt
  omega

theorem roundEven_intCast (n : Int) : roundEven n = n := by
  have hfract : Int.fract (n : ℚ) < 1 / 2 := by
    rw [Int.fract_intCast]
    norm_num
  rw [roundEven, if_pos hfract, Int.floor_intCast]

theorem toDouble_intCast {n : Int} (hn : |n| < 2 ^ 53) : toDouble n = n := by
  by_cases h₀ : (n : ℚ) = 0
  · rw [toDouble, if_pos h₀, h₀]
  · have hlog : Int.log 2 |(n : ℚ)| - 52 ≤ 0 := by
      have hlt : |(n : ℚ)| < ((2 : ℕ) : ℚ) ^ (53 : ℤ) := by
        have hcast : ((|n| : ℤ) : ℚ) < ((2 ^ 53 : ℤ) : ℚ) := by exact_mod_cast hn
        rw [Int.cast_abs] at hcast
        norm_num at hcast ⊢
        exact hcast
      have hpos : 0 < |(n : ℚ)| := abs_pos.2 h₀
      have := (Int.lt_zpow_iff_log_lt (by decide) hpos).1 hlt
      omega
    obtain ⟨k, hk⟩ := Int.eq_ofNat_of_zero_le (a := -(Int.log 2 |(n : ℚ)| - 52)) (by omega)
    have he : Int.log 2 |(n : ℚ)| - 52 = -(k : ℤ) := by omega
    have hscaled : (n : ℚ) / 2 ^ (-(k : ℤ)) = ((n * 2 ^ k : ℤ) : ℚ) := by
      rw [zpow_neg, zpow_natCast, div_inv_eq_mul]
      push_cast
      rfl
    rw [toDouble, if_neg h₀, he, hscaled, roundEven_intCast, ← hscaled]
    exact div_mul_cancel₀ _ (zpow_ne_zero _ (by norm_num))

theorem timestampMs_seconds (n : Int) (hn : |n * 1000| < 2 ^ 53) :
    timestampMs (n * 1000000) = n * 1000000 / 1000 := by
  have hsmall : |n| < 2 ^ 53 := by
    rw [abs_mul] at hn
    have := abs_nonneg n
    norm_num at hn ⊢
    omega
  have hseconds : ((n * 1000000 : ℤ) : ℚ) / 1000000 = (n : ℚ) := by
    push_cast
    ring
  have hmillis : (n : ℚ) * 1000 = ((n * 1000 : ℤ) : ℚ) := by
    push_cast
    ring
  have hdiv : n * 1000000 / 1000 = n * 1000 := by omega
  rw [timestampMs, hseconds, toDouble_intCast hsmall, hmillis, toDouble_intCast hn, hdiv, truncate]
  split
  · exact Int.floor_intCast _
  · exact Int.ceil_intCast _

end ProfileService.Library
