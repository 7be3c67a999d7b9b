import Mathlib.Tactic.IntervalCases
import ProfileService.Library.Digits

/-!
# Dates of the proleptic Gregorian calendar and ISO text

The ordinal arithmetic of Python's `datetime` (`_ord2ymd`, `_ymd2ord`) and
`isoformat()` of an aware UTC datetime, which determines the instant.
-/

namespace ProfileService.Library

/-- An aware `datetime`: microseconds since the epoch. -/
abbrev Instant := Int

/-- `_days_before_month` of a common year. -/
def daysBeforeMonth : Nat → Nat
  | 2 => 31
  | 3 => 59
  | 4 => 90
  | 5 => 120
  | 6 => 151
  | 7 => 181
  | 8 => 212
  | 9 => 243
  | 10 => 273
  | 11 => 304
  | 12 => 334
  | _ => 0

def daysInMonth : Nat → Nat
  | 2 => 28
  | 4 | 6 | 9 | 11 => 30
  | _ => 31

def isLeap (year : Nat) : Bool := year % 4 = 0 ∧ (year % 100 ≠ 0 ∨ year % 400 = 0)

def monthDay (leap : Bool) (n : Nat) : Nat × Nat :=
  let month := (n + 50) / 32
  let preceding := daysBeforeMonth month + (if 2 < month ∧ leap then 1 else 0)
  if n < preceding then
    let before := preceding - (daysInMonth (month - 1) + (if month - 1 = 2 ∧ leap then 1 else 0))
    (month - 1, n - before + 1)
  else (month, n - preceding + 1)

/-- The date of an ordinal; ordinal 1 is 0001-01-01. -/
def ord2ymd (ordinal : Nat) : Nat × Nat × Nat :=
  let n := ordinal - 1
  let n400 := n / 146097
  let n100 := n % 146097 / 36524
  let n4 := n % 146097 % 36524 / 1461
  let n1 := n % 146097 % 36524 % 1461 / 365
  let day := n % 146097 % 36524 % 1461 % 365
  let year := n400 * 400 + 1 + n100 * 100 + n4 * 4 + n1
  if n1 = 4 ∨ n100 = 4 then (year - 1, 12, 31)
  else (year, monthDay (n1 = 3 ∧ (n4 ≠ 24 ∨ n100 = 3)) day)

def ymd2ord (date : Nat × Nat × Nat) : Nat :=
  let y := date.1 - 1
  y * 365 + y / 4 - y / 100 + y / 400 + daysBeforeMonth date.2.1 +
    (if 2 < date.2.1 ∧ isLeap date.1 then 1 else 0) + date.2.2

theorem monthDay_spec (leap : Bool) {n : Nat} (h : n < 365) :
    daysBeforeMonth (monthDay leap n).1 + (if 2 < (monthDay leap n).1 ∧ leap then 1 else 0) +
      (monthDay leap n).2 = n + 1 ∧ (monthDay leap n).1 ≤ 12 ∧ (monthDay leap n).2 ≤ 31 := by
  have hall : ∀ leap : Bool, ∀ n < 365,
      daysBeforeMonth (monthDay leap n).1 + (if 2 < (monthDay leap n).1 ∧ leap then 1 else 0) +
        (monthDay leap n).2 = n + 1 ∧ (monthDay leap n).1 ≤ 12 ∧ (monthDay leap n).2 ≤ 31 := by
    decide +kernel
  exact hall leap n h

theorem isLeap_cycle {a b c e : Nat} (hb : b ≤ 3) (hc : c ≤ 24) (he : e ≤ 3) :
    isLeap (a * 400 + 1 + b * 100 + c * 4 + e) = decide (e = 3 ∧ (c ≠ 24 ∨ b = 3)) := by
  have h4 : (a * 400 + 1 + b * 100 + c * 4 + e) % 4 = 0 ↔ e = 3 := by omega
  have h100 : (a * 400 + 1 + b * 100 + c * 4 + e) % 100 = 0 ↔ c = 24 ∧ e = 3 := by omega
  have h400 : (a * 400 + 1 + b * 100 + c * 4 + e) % 400 = 0 ↔ b = 3 ∧ c = 24 ∧ e = 3 := by omega
  unfold isLeap
  rw [decide_eq_decide]
  rw [h4, h400, ne_eq, h100]
  constructor
  · rintro ⟨rfl, h | ⟨rfl, -, -⟩⟩
    · exact ⟨rfl, .inl fun hc => h ⟨hc, rfl⟩⟩
    · exact ⟨rfl, .inr rfl⟩
  · rintro ⟨rfl, h⟩
    by_cases hc24 : c = 24
    · rcases h with h | h
      · exact absurd hc24 h
      · exact ⟨rfl, .inr ⟨h, hc24, rfl⟩⟩
    · exact ⟨rfl, .inl fun h => hc24 h.1⟩

theorem cycle_days {a b c e : Nat} (hb : b ≤ 3) (hc : c ≤ 24) (he : e ≤ 3) :
    (a * 400 + b * 100 + c * 4 + e) * 365 + (a * 400 + b * 100 + c * 4 + e) / 4 -
        (a * 400 + b * 100 + c * 4 + e) / 100 + (a * 400 + b * 100 + c * 4 + e) / 400 =
      146097 * a + 36524 * b + 1461 * c + 365 * e := by
  have h4 : (a * 400 + b * 100 + c * 4 + e) / 4 = a * 100 + b * 25 + c := by omega
  have h100 : (a * 400 + b * 100 + c * 4 + e) / 100 = a * 4 + b := by omega
  have h400 : (a * 400 + b * 100 + c * 4 + e) / 400 = a := by omega
  rw [h4, h100, h400]
  omega

/-- The last day of a leap year, which the divisions put into the year after it. -/
theorem ymd2ord_leapDay {y : Nat} (hy : isLeap (y + 1) = true) :
    ymd2ord (y + 1, 12, 31) = y * 365 + y / 4 - y / 100 + y / 400 + 366 := by
  simp [ymd2ord, hy, daysBeforeMonth]

theorem ymd2ord_ord2ymd {ordinal : Nat} (h : 0 < ordinal) : ymd2ord (ord2ymd ordinal) = ordinal := by
  obtain ⟨n, rfl⟩ : ∃ n, ordinal = n + 1 := ⟨ordinal - 1, by omega⟩
  obtain ⟨a, ha⟩ : ∃ a, a = n / 146097 := ⟨_, rfl⟩
  obtain ⟨b, hb⟩ : ∃ b, b = n % 146097 / 36524 := ⟨_, rfl⟩
  obtain ⟨c, hc⟩ : ∃ c, c = n % 146097 % 36524 / 1461 := ⟨_, rfl⟩
  obtain ⟨e, he⟩ : ∃ e, e = n % 146097 % 36524 % 1461 / 365 := ⟨_, rfl⟩
  obtain ⟨d, hd⟩ : ∃ d, d = n % 146097 % 36524 % 1461 % 365 := ⟨_, rfl⟩
  have hn : n = 146097 * a + 36524 * b + 1461 * c + 365 * e + d := by omega
  have hd365 : d < 365 := by omega
  have hbe : (b ≤ 3 ∧ c ≤ 24 ∧ e ≤ 3) ∨ (b ≤ 3 ∧ c ≤ 23 ∧ e = 4 ∧ d = 0) ∨
      (b = 4 ∧ c = 0 ∧ e = 0 ∧ d = 0) := by omega
  simp only [ord2ymd, Nat.add_sub_cancel, ← ha, ← hb, ← hc, ← he, ← hd]
  clear ha hb hc he hd
  rcases hbe with ⟨hb, hc, he⟩ | ⟨hb, hc, rfl, rfl⟩ | ⟨rfl, rfl, rfl, rfl⟩
  · have hno : ¬(e = 4 ∨ b = 4) := by omega
    have hyear : a * 400 + 1 + b * 100 + c * 4 + e - 1 = a * 400 + b * 100 + c * 4 + e := by omega
    have hdays := cycle_days (a := a) hb hc he
    obtain ⟨hmonth, -, -⟩ := monthDay_spec (decide (e = 3 ∧ (c ≠ 24 ∨ b = 3))) hd365
    rw [if_neg hno]
    simp only [ymd2ord, isLeap_cycle hb hc he, hyear, hdays]
    omega
  · have hyear : a * 400 + 1 + b * 100 + c * 4 + 4 - 1 = a * 400 + b * 100 + c * 4 + 3 + 1 := by
      omega
    have hleap : isLeap (a * 400 + b * 100 + c * 4 + 3 + 1) = true := by
      have hcycle := isLeap_cycle (a := a) hb (show c ≤ 24 by omega) (Nat.le_refl 3)
      have hsame : a * 400 + 1 + b * 100 + c * 4 + 3 = a * 400 + b * 100 + c * 4 + 3 + 1 := by omega
      rw [hsame] at hcycle
      rw [hcycle]
      exact decide_eq_true ⟨rfl, .inl (by omega)⟩
    have hdays := cycle_days (a := a) hb (show c ≤ 24 by omega) (Nat.le_refl 3)
    simp only [true_or, if_true]
    rw [hyear, ymd2ord_leapDay hleap, hdays]
    omega
  · have hyear : a * 400 + 1 + 4 * 100 + 0 * 4 + 0 - 1 = a * 400 + 3 * 100 + 24 * 4 + 3 + 1 := by omega
    have hleap : isLeap (a * 400 + 3 * 100 + 24 * 4 + 3 + 1) = true := by
      have hcycle := isLeap_cycle (a := a) (Nat.le_refl 3) (Nat.le_refl 24) (Nat.le_refl 3)
      have hsame : a * 400 + 1 + 3 * 100 + 24 * 4 + 3 = a * 400 + 3 * 100 + 24 * 4 + 3 + 1 := by omega
      rw [hsame] at hcycle
      rw [hcycle]
      exact decide_eq_true ⟨rfl, .inr rfl⟩
    have hdays := cycle_days (a := a) (Nat.le_refl 3) (Nat.le_refl 24) (Nat.le_refl 3)
    simp only [or_true, if_true]
    rw [hyear, ymd2ord_leapDay hleap, hdays]
    omega

theorem ord2ymd_bounds {ordinal : Nat} (h : ordinal ≤ 3652059) :
    (ord2ymd ordinal).1 < 10 ^ 4 ∧ (ord2ymd ordinal).2.1 < 10 ^ 2 ∧
      (ord2ymd ordinal).2.2 < 10 ^ 2 := by
  obtain ⟨n, hn⟩ : ∃ n, n = ordinal - 1 := ⟨_, rfl⟩
  have hlt : n < 3652059 := by omega
  simp only [ord2ymd, ← hn]
  split
  · rename_i hlast
    exact ⟨show _ - 1 < 10 ^ 4 by omega, show 12 < 10 ^ 2 by decide, show 31 < 10 ^ 2 by decide⟩
  · rename_i hlast
    have hd : n % 146097 % 36524 % 1461 % 365 < 365 := Nat.mod_lt _ (by decide)
    obtain ⟨-, hmonth, hday⟩ := monthDay_spec (decide (n % 146097 % 36524 % 1461 / 365 = 3 ∧
      (n % 146097 % 36524 / 1461 ≠ 24 ∨ n % 146097 / 36524 = 3))) hd
    refine ⟨?_, Nat.lt_of_le_of_lt hmonth (by decide), Nat.lt_of_le_of_lt hday (by decide)⟩
    show _ < _
    omega

theorem ord2ymd_inj {m n : Nat} (hm : 0 < m) (hn : 0 < n) (h : ord2ymd m = ord2ymd n) : m = n := by
  rw [← ymd2ord_ord2ymd hm, ← ymd2ord_ord2ymd hn, h]

def dayMicros : Int := 86400000000

def instantOrdinal (t : Int) : Int := t / dayMicros + 719163

/-- An instant between `datetime.min` and `datetime.max`. -/
def Representable (t : Int) : Prop := 1 ≤ instantOrdinal t ∧ instantOrdinal t ≤ 3652059

instance (t : Int) : Decidable (Representable t) := inferInstanceAs (Decidable (_ ∧ _))

def isoDate (ordinal : Nat) : Str :=
  fixedDigits 10 4 (ord2ymd ordinal).1 ++ '-' :: (fixedDigits 10 2 (ord2ymd ordinal).2.1 ++
    '-' :: fixedDigits 10 2 (ord2ymd ordinal).2.2)

/-- The fraction of a second, which is left out when it is zero. -/
def isoFraction (micros : Nat) : Str :=
  if micros = 0 then [] else '.' :: fixedDigits 10 6 micros

def isoTime (micros : Nat) : Str :=
  fixedDigits 10 2 (micros / 3600000000) ++ ':' :: (fixedDigits 10 2 (micros / 60000000 % 60) ++
    ':' :: (fixedDigits 10 2 (micros / 1000000 % 60) ++ isoFraction (micros % 1000000)))

/-- An aware UTC datetime, with the suffix its writer uses for UTC. -/
def isoText (suffix : Str) (t : Int) : Str :=
  isoDate (instantOrdinal t).toNat ++ 'T' :: (isoTime (t % dayMicros).toNat ++ suffix)

theorem length_isoDate (ordinal : Nat) : (isoDate ordinal).length = 10 := by
  simp [isoDate]

theorem isoDate_inj {m n : Nat} (hm : 0 < m) (hm' : m ≤ 3652059) (hn : 0 < n) (hn' : n ≤ 3652059)
    (h : isoDate m = isoDate n) : m = n := by
  obtain ⟨hy, hmd⟩ := List.append_inj h (by simp)
  obtain ⟨hmo, hd⟩ := List.append_inj (List.cons_eq_cons.1 hmd).2 (by simp)
  obtain ⟨hym, hmm, hdm⟩ := ord2ymd_bounds hm'
  obtain ⟨hyn, hmn, hdn⟩ := ord2ymd_bounds hn'
  have hy' := fixedDigits_inj (by decide) (by decide) hym hyn hy
  have hmo' := fixedDigits_inj (by decide) (by decide) hmm hmn hmo
  have hd' := fixedDigits_inj (by decide) (by decide) hdm hdn (List.cons_eq_cons.1 hd).2
  exact ord2ymd_inj hm hn (Prod.ext hy' (Prod.ext hmo' hd'))

theorem isoFraction_inj {m n : Nat} (hm : m < 1000000) (hn : n < 1000000)
    (h : isoFraction m = isoFraction n) : m = n := by
  unfold isoFraction at h
  split at h
  · split at h
    · omega
    · cases h
  · split at h
    · cases h
    · exact fixedDigits_inj (by decide) (by decide) hm hn (List.cons_eq_cons.1 h).2

theorem isoField_inj {m n : Nat} (hm : m < 100) (hn : n < 100)
    (h : fixedDigits 10 2 m = fixedDigits 10 2 n) : m = n :=
  fixedDigits_inj (by decide) (by decide) hm hn h

theorem isoTime_inj {m n : Nat} (hm : m < 86400000000) (hn : n < 86400000000)
    (h : isoTime m = isoTime n) : m = n := by
  obtain ⟨hhour, hrest⟩ := List.append_inj h (by simp)
  obtain ⟨hminute, hrest⟩ := List.append_inj (List.cons_eq_cons.1 hrest).2 (by simp)
  obtain ⟨hsecond, hfraction⟩ := List.append_inj (List.cons_eq_cons.1 hrest).2 (by simp)
  have hh := isoField_inj (by omega) (by omega) hhour
  have hmin := isoField_inj (by omega) (by omega) hminute
  have hs := isoField_inj (by omega) (by omega) hsecond
  have hf := isoFraction_inj (by omega) (by omega) hfraction
  omega

theorem isoText_inj {suffix : Str} {t u : Int} (ht : Representable t) (hu : Representable u)
    (h : isoText suffix t = isoText suffix u) : t = u := by
  obtain ⟨hdate, hrest⟩ := List.append_inj h (by simp only [length_isoDate])
  have htime := List.append_cancel_right (List.cons_eq_cons.1 hrest).2
  obtain ⟨ht₁, ht₂⟩ := ht
  obtain ⟨hu₁, hu₂⟩ := hu
  have hday := isoDate_inj (by omega) (by omega) (by omega) (by omega) hdate
  have hpos : ∀ x : Int, 0 ≤ x % dayMicros ∧ x % dayMicros < 86400000000 := fun x =>
    ⟨Int.emod_nonneg x (by decide), Int.emod_lt_of_pos x (by decide)⟩
  obtain ⟨ht₃, ht₄⟩ := hpos t
  obtain ⟨hu₃, hu₄⟩ := hpos u
  have hmicros := isoTime_inj (by omega) (by omega) htime
  have hdays : instantOrdinal t = instantOrdinal u := by omega
  have hrem : t % dayMicros = u % dayMicros := by omega
  have hdiv : t / dayMicros = u / dayMicros := by
    unfold instantOrdinal at hdays
    omega
  rw [← Int.mul_ediv_add_emod t dayMicros, ← Int.mul_ediv_add_emod u dayMicros, hdiv, hrem]

end ProfileService.Library
