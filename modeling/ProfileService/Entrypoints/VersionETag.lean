import ProfileService.Entrypoints.Routes
import ProfileService.Library.Pattern

/-!
# The version ETag (`dependencies.py:62-71`, `responses.py`)

What `If-Match` may carry, and that it is what `set_private_version` writes.
-/

namespace ProfileService.Entrypoints
open Library

structure HTTPException where
  statusCode : Nat
  detail : String
  deriving DecidableEq

def isQuote (c : Char) : Bool := c = '"'

def versionPattern : Pattern :=
  .seq (.one isQuote) (.seq (.one fun c => c.isDigit && c ≠ '0')
    (.seq (.upTo 18 (.one Char.isDigit)) (.one isQuote)))

def invalidETag : HTTPException := ⟨400, "Invalid version ETag"⟩

/-- `expected_version`; `if_match[1:-1]` has only digits when it is converted. -/
def expectedVersion : Option Str → Except HTTPException Int
  | none => .error ⟨428, "If-Match is required"⟩
  | some ifMatch =>
    if versionPattern.fullmatch ifMatch then
      let version := readInt ifMatch.tail.dropLast
      if version > 2 ^ 63 - 1 then .error invalidETag else .ok version
    else .error invalidETag

/-- `f'"{version}"'`. -/
def versionETag (version : Int) : Str := '"' :: intText version ++ ['"']

theorem versionPattern_iff {s : Str} : versionPattern.fullmatch s = true ↔
    ∃ c digits, s = '"' :: (c :: digits) ++ ['"'] ∧ c ≠ '0' ∧ digits.length ≤ 18 ∧
      ∀ d ∈ c :: digits, d.isDigit = true := by
  rw [Pattern.fullmatch_iff]
  constructor
  · rintro ⟨_, _, rfl, ⟨q, rfl, hq⟩, _, _, rfl, ⟨c, rfl, hc⟩, digits, _, rfl, hdigits, r, rfl, hr⟩
    obtain ⟨hlength, hall⟩ := Pattern.matches_upTo_one.1 hdigits
    obtain ⟨hdigit, hzero⟩ := Bool.and_eq_true_iff.1 hc
    rw [of_decide_eq_true hq, of_decide_eq_true hr]
    refine ⟨c, digits, rfl, of_decide_eq_true hzero, hlength, fun d hd => ?_⟩
    rcases List.mem_cons.1 hd with rfl | hd
    · exact hdigit
    · exact hall d hd
  · rintro ⟨c, digits, rfl, hzero, hlength, hall⟩
    refine ⟨['"'], _, rfl, ⟨'"', rfl, rfl⟩, [c], _, rfl, ⟨c, rfl, ?_⟩, digits, ['"'], rfl, ?_,
      '"', rfl, rfl⟩
    · exact Bool.and_eq_true_iff.2 ⟨hall c List.mem_cons_self, decide_eq_true hzero⟩
    · exact Pattern.matches_upTo_one.2 ⟨hlength, fun d hd => hall d (List.mem_cons_of_mem c hd)⟩

theorem readInt_digits {c : Char} {digits : Str} (hc : c.isDigit = true) :
    readInt (c :: digits) = Nat.ofDigitChars 10 (c :: digits) 0 := by
  unfold readInt
  split
  · rename_i t ht
    cases ht
    cases hc
  · rfl

theorem intText_readInt {c : Char} {digits : Str} (hzero : c ≠ '0')
    (hdigits : ∀ d ∈ c :: digits, d.isDigit = true) :
    1 ≤ readInt (c :: digits) ∧ intText (readInt (c :: digits)) = c :: digits := by
  rw [readInt_digits (hdigits c List.mem_cons_self)]
  have htext := toDigits_ofDigitChars hzero hdigits
  refine ⟨?_, htext⟩
  rcases Nat.eq_zero_or_pos (Nat.ofDigitChars 10 (c :: digits) 0) with hn | hn
  · rw [hn] at htext
    cases htext
    exact absurd rfl hzero
  · exact Int.ofNat_le.2 hn

theorem intText_version {n : Int} (hlow : 1 ≤ n) (hhigh : n ≤ 2 ^ 63 - 1) :
    ∃ c digits, intText n = c :: digits ∧ c ≠ '0' ∧ digits.length ≤ 18 ∧
      ∀ d ∈ c :: digits, d.isDigit = true := by
  obtain ⟨m, rfl⟩ := Int.eq_ofNat_of_zero_le (by omega : 0 ≤ n)
  have hm : m < 10 ^ 19 := by omega
  obtain ⟨c, digits, htext, hc⟩ := toDigits_cons (n := m) (by omega)
  have hlength : (Nat.toDigits 10 m).length ≤ 19 :=
    (Nat.length_toDigits_le_iff (by decide) (by decide)).2 hm
  rw [htext, List.length_cons] at hlength
  refine ⟨c, digits, htext, hc, by omega, fun d hd => ?_⟩
  rw [← htext] at hd
  exact Nat.isDigit_of_mem_toDigits (by decide) (by decide) hd

theorem privateVersion_etag (content : Json) (version : Nat) :
    ("ETag", String.ofList (versionETag version)) ∈ (privateVersion content version).headers := by
  have htext : "\"" ++ toString version ++ "\"" = String.ofList (versionETag version) := by
    refine String.toList_inj.1 (Eq.trans ?_ String.toList_ofList.symm)
    show ("\"" ++ Nat.repr version ++ "\"").toList = _
    rw [String.toList_append, String.toList_append, Nat.toList_repr]
    rfl
  rw [← htext]
  exact List.mem_cons_self

/-- The parser returns a version exactly for the header that is written for it, and refuses
every other header. -/
theorem expectedVersion_iff (s : Str) :
    (∀ n : Int, expectedVersion (some s) = .ok n ↔ 1 ≤ n ∧ n ≤ 2 ^ 63 - 1 ∧ s = versionETag n) ∧
      ((∃ n, expectedVersion (some s) = .ok n) ∨ expectedVersion (some s) = .error invalidETag) ∧
      ∀ (content : Json) (version : Nat),
        ("ETag", String.ofList (versionETag version)) ∈ (privateVersion content version).headers := by
  refine ⟨fun n => ⟨fun h => ?_, ?_⟩, ?_, privateVersion_etag⟩
  · rw [expectedVersion] at h
    split at h
    · rename_i hmatch
      obtain ⟨c, digits, rfl, hzero, -, hdigits⟩ := versionPattern_iff.1 hmatch
      have hslice : ('"' :: (c :: digits) ++ ['"']).tail.dropLast = c :: digits :=
        List.dropLast_concat
      obtain ⟨hpos, htext⟩ := intText_readInt hzero hdigits
      rw [hslice] at h
      dsimp only at h
      split at h
      · cases h
      · rename_i hrange
        cases h
        refine ⟨hpos, not_lt.1 hrange, ?_⟩
        rw [versionETag, htext]
    · cases h
  · rintro ⟨hlow, hhigh, rfl⟩
    obtain ⟨c, digits, htext, hzero, hlength, hdigits⟩ := intText_version hlow hhigh
    have hmatch : versionPattern.fullmatch (versionETag n) = true :=
      versionPattern_iff.2 ⟨c, digits, by rw [versionETag, htext], hzero, hlength, hdigits⟩
    have hslice : (versionETag n).tail.dropLast = intText n := List.dropLast_concat
    rw [expectedVersion, if_pos hmatch, hslice, readInt_intText]
    exact if_neg (not_lt.2 hhigh)
  · rw [expectedVersion]
    split
    · dsimp only
      split
      · exact .inr rfl
      · exact .inl ⟨_, rfl⟩
    · exact .inr rfl

example : (expectedVersion (some "\"01\"".toList)).toOption = none := by decide

end ProfileService.Entrypoints
