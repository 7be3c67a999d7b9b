import Mathlib.Data.Vector.Basic
import Mathlib.Data.List.Basic
import ProfileService.Library.Json

/-!
# Digits of fixed width

Zero-padded decimal and lowercase hexadecimal text, and the texts of byte
strings and UUIDs.
-/

namespace ProfileService.Library

/-- The last `width` digits of `n` in base `b`. -/
def fixedDigits (b : Nat) : Nat → Nat → Str
  | 0, _ => []
  | width + 1, n => fixedDigits b width (n / b) ++ [Nat.digitChar (n % b)]

abbrev fixedHex : Nat → Nat → Str := fixedDigits 16

/-- `bytes.hex()`. -/
def hex (bytes : List UInt8) : Str := bytes.flatMap fun b => fixedHex 2 b.toNat

/-- `str(uuid)`: 8, 4, 4, 4 and 12 digits. -/
def uuidText (u : BitVec 128) : Str :=
  let d := fixedHex 32 u.toNat
  d.take 8 ++ '-' :: ((d.drop 8).take 4 ++ '-' :: ((d.drop 12).take 4 ++ '-' ::
    ((d.drop 16).take 4 ++ '-' :: d.drop 20)))

theorem digitChar_inj {m n : Nat} (hm : m < 16) (hn : n < 16)
    (h : Nat.digitChar m = Nat.digitChar n) : m = n := by
  have hall : ∀ a b : Fin 16, Nat.digitChar a = Nat.digitChar b → a = b := by decide
  exact congrArg Fin.val (hall ⟨m, hm⟩ ⟨n, hn⟩ h)

theorem digitChar_ne_dash {n : Nat} (hn : n < 16) : Nat.digitChar n ≠ '-' := by
  have hall : ∀ a : Fin 16, Nat.digitChar a ≠ '-' := by decide
  exact hall ⟨n, hn⟩

@[simp] theorem length_fixedDigits (b width n : Nat) : (fixedDigits b width n).length = width := by
  induction width generalizing n with
  | zero => rfl
  | succ width ih => simp [fixedDigits, ih]

theorem mem_fixedDigits {b width n : Nat} {c : Char} (hb : 0 < b) (h : c ∈ fixedDigits b width n) :
    ∃ d < b, c = Nat.digitChar d := by
  induction width generalizing n with
  | zero => simp [fixedDigits] at h
  | succ width ih =>
    rcases List.mem_append.1 h with h | h
    · exact ih h
    · exact ⟨n % b, Nat.mod_lt _ hb, by simpa using h⟩

theorem fixedDigits_inj {b width m n : Nat} (hpos : 0 < b) (hb : b ≤ 16) (hm : m < b ^ width)
    (hn : n < b ^ width) (h : fixedDigits b width m = fixedDigits b width n) : m = n := by
  induction width generalizing m n with
  | zero =>
    have hpow : b ^ 0 = 1 := rfl
    omega
  | succ width ih =>
    obtain ⟨hhigh, hlow⟩ := List.append_inj' h (by simp)
    have hm' : m / b < b ^ width := by
      rw [Nat.div_lt_iff_lt_mul hpos, ← Nat.pow_succ]
      exact hm
    have hn' : n / b < b ^ width := by
      rw [Nat.div_lt_iff_lt_mul hpos, ← Nat.pow_succ]
      exact hn
    have hdiv := ih hm' hn' hhigh
    have hmod := digitChar_inj (Nat.lt_of_lt_of_le (Nat.mod_lt m hpos) hb)
      (Nat.lt_of_lt_of_le (Nat.mod_lt n hpos) hb) (List.cons_eq_cons.1 hlow).1
    rw [← Nat.div_add_mod m b, ← Nat.div_add_mod n b, hdiv, hmod]

theorem byteHex_inj {a b : UInt8} (h : fixedHex 2 a.toNat = fixedHex 2 b.toNat) : a = b := by
  have hlt : ∀ c : UInt8, c.toNat < 16 ^ 2 := fun c => c.toNat_lt
  exact UInt8.toNat_inj.1 (fixedDigits_inj (by decide) (by decide) (hlt a) (hlt b) h)

theorem hex_inj {xs ys : List UInt8} (h : hex xs = hex ys) : xs = ys := by
  induction xs generalizing ys with
  | nil =>
    cases ys with
    | nil => rfl
    | cons y ys =>
      have hlen := congrArg List.length h
      simp only [hex, List.flatMap_nil, List.flatMap_cons, List.length_nil, List.length_append,
        length_fixedDigits] at hlen
      omega
  | cons x xs ih =>
    cases ys with
    | nil =>
      have hlen := congrArg List.length h
      simp [hex] at hlen
    | cons y ys =>
      have happ : fixedHex 2 x.toNat ++ hex xs = fixedHex 2 y.toNat ++ hex ys := h
      obtain ⟨hxy, hrest⟩ := List.append_inj happ (by simp)
      rw [byteHex_inj hxy, ih hrest]

theorem take_drop_append {l : Str} (i j : Nat) :
    (l.drop i).take j ++ l.drop (i + j) = l.drop i := by
  rw [← List.drop_drop, List.take_append_drop]

theorem uuidText_filter (u : BitVec 128) :
    (uuidText u).filter (fun c => c ≠ '-') = fixedHex 32 u.toNat := by
  have hdigits : ∀ l : Str, (∀ c ∈ l, c ∈ fixedHex 32 u.toNat) →
      l.filter (fun c => c ≠ '-') = l := by
    intro l hl
    refine List.filter_eq_self.2 fun c hc => ?_
    obtain ⟨d, hd, rfl⟩ := mem_fixedDigits (by decide) (hl c hc)
    simp [digitChar_ne_dash hd]
  have htake : ∀ i j, ∀ c ∈ ((fixedHex 32 u.toNat).drop i).take j, c ∈ fixedHex 32 u.toNat :=
    fun i j c hc => List.mem_of_mem_drop (List.mem_of_mem_take hc)
  have hfirst : ∀ c ∈ (fixedHex 32 u.toNat).take 8, c ∈ fixedHex 32 u.toNat :=
    fun c hc => List.mem_of_mem_take hc
  have hlast : ∀ c ∈ (fixedHex 32 u.toNat).drop 20, c ∈ fixedHex 32 u.toNat :=
    fun c hc => List.mem_of_mem_drop hc
  simp only [uuidText, List.filter_append, List.filter_cons, decide_not, decide_true, Bool.not_true,
    Bool.false_eq_true, if_false] at hdigits ⊢
  rw [hdigits _ hfirst, hdigits _ (htake 8 4), hdigits _ (htake 12 4), hdigits _ (htake 16 4),
    hdigits _ hlast]
  rw [take_drop_append 16 4, take_drop_append 12 4, take_drop_append 8 4, List.take_append_drop]

theorem uuidText_length (u : BitVec 128) : (uuidText u).length = 36 := by
  have hlength : (fixedHex 32 u.toNat).length = 32 := length_fixedDigits 16 32 u.toNat
  simp [uuidText, hlength]

theorem uuidText_inj {u v : BitVec 128} (h : uuidText u = uuidText v) : u = v := by
  have hdigits : fixedHex 32 u.toNat = fixedHex 32 v.toNat := by
    rw [← uuidText_filter, ← uuidText_filter, h]
  have hlt : ∀ x : BitVec 128, x.toNat < 16 ^ 32 := fun x => x.isLt
  exact BitVec.eq_of_toNat_eq
    (fixedDigits_inj (by decide) (by decide) (hlt u) (hlt v) hdigits)

theorem digitChar_sub_zero {c : Char} (h : c.isDigit = true) :
    c.toNat - '0'.toNat < 10 ∧ Nat.digitChar (c.toNat - '0'.toNat) = c := by
  obtain ⟨hlow, hhigh⟩ := Char.isDigit_iff_toNat.1 h
  have hzero : '0'.toNat = 48 := rfl
  have hnine : '9'.toNat = 57 := rfl
  have hlt : c.toNat - '0'.toNat < 10 := by omega
  refine ⟨hlt, Char.toNat_inj.1 ?_⟩
  rw [Nat.toNat_digitChar_of_lt_ten hlt]
  omega

theorem toDigits_append_digits {digits : Str} (hdigits : ∀ c ∈ digits, c.isDigit = true) {n : Nat}
    (hn : 0 < n) : Nat.toDigits 10 n ++ digits = Nat.toDigits 10 (Nat.ofDigitChars 10 digits n) := by
  induction digits generalizing n with
  | nil => rw [Nat.ofDigitChars_nil, List.append_nil]
  | cons c digits ih =>
    obtain ⟨hlt, hchar⟩ := digitChar_sub_zero (hdigits c List.mem_cons_self)
    have happend : Nat.toDigits 10 n ++ [c] = Nat.toDigits 10 (10 * n + (c.toNat - '0'.toNat)) := by
      have hlast := Nat.toDigits_append_toDigits (b := 10) (by decide) hn hlt
      rwa [Nat.toDigits_of_lt_base hlt, hchar] at hlast
    have hrest := ih (fun d hd => hdigits d (List.mem_cons_of_mem c hd))
      (n := 10 * n + (c.toNat - '0'.toNat)) (by omega)
    rw [Nat.ofDigitChars_cons, ← hrest, ← happend, List.append_assoc]
    rfl

theorem toDigits_ofDigitChars {c : Char} {digits : Str} (hc : c ≠ '0')
    (hdigits : ∀ d ∈ c :: digits, d.isDigit = true) :
    Nat.toDigits 10 (Nat.ofDigitChars 10 (c :: digits) 0) = c :: digits := by
  obtain ⟨hlt, hchar⟩ := digitChar_sub_zero (hdigits c List.mem_cons_self)
  have hpos : 0 < c.toNat - '0'.toNat := by
    rcases Nat.eq_zero_or_pos (c.toNat - '0'.toNat) with hzero | hpos
    · rw [hzero] at hchar
      exact absurd hchar.symm hc
    · exact hpos
  have hrest := toDigits_append_digits (fun d hd => hdigits d (List.mem_cons_of_mem c hd)) hpos
  rw [Nat.ofDigitChars_cons, Nat.mul_zero, Nat.zero_add, ← hrest, Nat.toDigits_of_lt_base hlt, hchar]
  rfl

theorem toDigits_cons {n : Nat} (hn : 0 < n) :
    ∃ c digits, Nat.toDigits 10 n = c :: digits ∧ c ≠ '0' := by
  induction n using Nat.strongRecOn with
  | ind n ih =>
    by_cases hlt : n < 10
    · refine ⟨Nat.digitChar n, [], Nat.toDigits_of_lt_base hlt, ?_⟩
      have hall : ∀ m : Fin 10, 0 < m.1 → Nat.digitChar m ≠ '0' := by decide
      exact hall ⟨n, hlt⟩ hn
    · obtain ⟨c, digits, htext, hc⟩ := ih (n / 10) (Nat.div_lt_self hn (by decide)) (by omega)
      refine ⟨c, digits ++ [Nat.digitChar (n % 10)], ?_, hc⟩
      rw [Nat.toDigits_of_base_le (by decide) (by omega), htext]
      rfl

end ProfileService.Library
