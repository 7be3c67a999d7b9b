import ProfileService.Library.Calendar

/-!
# Datetimes with an offset, written and read

An offset is any `timedelta` shorter than a day; the ISO text of a datetime has the hours
and minutes of it. A reader of the text gets the wall clock back to the microsecond, and an
offset that is a whole number of minutes.
-/

namespace ProfileService.Library

/-- An aware datetime: its wall clock and its offset, both in microseconds. -/
structure OffsetTime where
  wall : Int
  offset : Int
  wall_representable : Representable wall
  offset_lt : -86400000000 < offset ∧ offset < 86400000000

/-- Equal aware datetimes denote one instant. -/
def OffsetTime.instant (d : OffsetTime) : Instant := d.wall - d.offset

def OffsetTime.WholeMinutes (d : OffsetTime) : Prop := 60000000 ∣ d.offset

instance (d : OffsetTime) : Decidable d.WholeMinutes :=
  inferInstanceAs (Decidable (60000000 ∣ d.offset))

/-- `Z`, or a sign, hours and minutes; the offset is rounded to seconds, and the seconds are
dropped. -/
def offsetText (offset : Int) : Str :=
  let seconds := (offset.natAbs + 500000) / 1000000
  if seconds = 0 then ['Z']
  else (if offset < 0 then '-' else '+') :: (fixedDigits 10 2 (seconds / 3600) ++
    ':' :: fixedDigits 10 2 (seconds / 60 % 60))

def OffsetTime.text (d : OffsetTime) : Str := isoText (offsetText d.offset) d.wall

theorem OffsetTime.text_utc {d : OffsetTime} (h : d.offset = 0) : d.text = isoText ['Z'] d.wall := by
  rw [text, h]
  rfl

def readDigits (width : Nat) (text : Str) : Nat × Str :=
  (Nat.ofDigitChars 10 (text.take width) 0, text.drop width)

def readField (width : Nat) (text : Str) : Nat × Str := readDigits width text.tail

def readFraction (text : Str) : Nat × Str :=
  if text.head? = some '.' then readField 6 text else (0, text)

def readOffset (text : Str) : Int :=
  let hours := readField 2 text
  let minutes := readField 2 hours.2
  if text.head? = some 'Z' then 0
  else if text.head? = some '-' then -((hours.1 * 60 + minutes.1) * 60000000 : Nat)
  else ((hours.1 * 60 + minutes.1) * 60000000 : Nat)

def readWall (text : Str) : Int × Str :=
  let year := readDigits 4 text
  let month := readField 2 year.2
  let day := readField 2 month.2
  let hour := readField 2 day.2
  let minute := readField 2 hour.2
  let second := readField 2 minute.2
  let fraction := readFraction second.2
  (((ymd2ord (year.1, month.1, day.1) : Int) - 719163) * dayMicros +
    (hour.1 * 3600000000 + minute.1 * 60000000 + second.1 * 1000000 + fraction.1 : Nat), fraction.2)

/-- The reader of ISO text; a text it would not write is refused. -/
def readOffsetTime (text : Str) : Option OffsetTime :=
  let wall := readWall text
  let offset := readOffset wall.2
  if h : Representable wall.1 ∧ -86400000000 < offset ∧ offset < 86400000000 then
    let d : OffsetTime := ⟨wall.1, offset, h.1, h.2⟩
    if d.text = text then some d else none
  else none

theorem ofDigitChars_fixedDigits {width n : Nat} (h : n < 10 ^ width) :
    Nat.ofDigitChars 10 (fixedDigits 10 width n) 0 = n := by
  induction width generalizing n with
  | zero =>
    have hzero : n = 0 := by simpa using h
    rw [hzero, fixedDigits, Nat.ofDigitChars_nil]
  | succ width ih =>
    have hdiv : n / 10 < 10 ^ width := by
      rw [Nat.div_lt_iff_lt_mul (by decide), ← Nat.pow_succ]
      exact h
    have hmod : n % 10 < 10 := Nat.mod_lt n (by decide)
    rw [fixedDigits, Nat.ofDigitChars_append, ih hdiv, Nat.ofDigitChars_cons_digitChar_of_lt_ten hmod,
      Nat.ofDigitChars_nil]
    exact Nat.div_add_mod n 10

theorem readDigits_append {width n : Nat} (h : n < 10 ^ width) (rest : Str) :
    readDigits width (fixedDigits 10 width n ++ rest) = (n, rest) := by
  have htake : (fixedDigits 10 width n ++ rest).take width = fixedDigits 10 width n := by simp
  have hdrop : (fixedDigits 10 width n ++ rest).drop width = rest := by simp
  rw [readDigits, htake, hdrop, ofDigitChars_fixedDigits h]

theorem readField_append {width n : Nat} (h : n < 10 ^ width) (c : Char) (rest : Str) :
    readField width (c :: (fixedDigits 10 width n ++ rest)) = (n, rest) :=
  readDigits_append h rest

theorem readFraction_append {micros : Nat} (h : micros < 1000000) {rest : Str}
    (hrest : rest.head? ≠ some '.') : readFraction (isoFraction micros ++ rest) = (micros, rest) := by
  rw [isoFraction]
  split
  · rename_i hzero
    rw [List.nil_append, readFraction, if_neg hrest, hzero]
  · have hmicros : micros < 10 ^ 6 := h
    rw [readFraction, List.cons_append, List.head?_cons, if_pos rfl]
    exact readField_append hmicros '.' rest

theorem offsetText_head (offset : Int) : (offsetText offset).head? ≠ some '.' := by
  simp only [offsetText]
  split
  · simp
  · split <;> simp

theorem readOffset_dvd (text : Str) : 60000000 ∣ readOffset text := by
  simp only [readOffset]
  split
  · exact dvd_zero _
  · split <;> omega

theorem readOffset_offsetText {offset : Int} (h : -86400000000 < offset ∧ offset < 86400000000)
    (hwhole : 60000000 ∣ offset) : readOffset (offsetText offset) = offset := by
  obtain ⟨minutes, rfl⟩ := hwhole
  obtain ⟨hlow, hhigh⟩ := h
  have hseconds : ((60000000 * minutes).natAbs + 500000) / 1000000 = minutes.natAbs * 60 := by omega
  have hhour : minutes.natAbs * 60 / 3600 = minutes.natAbs / 60 := by omega
  have hminute : minutes.natAbs * 60 / 60 % 60 = minutes.natAbs % 60 := by omega
  by_cases hzero : minutes = 0
  · subst hzero
    rfl
  · have hne : minutes.natAbs * 60 ≠ 0 := by omega
    have hpow : 10 ^ 2 = 100 := rfl
    have hhours : minutes.natAbs / 60 < 10 ^ 2 := by omega
    have hminutes : minutes.natAbs % 60 < 10 ^ 2 := by omega
    have hlast := readField_append hminutes ':' []
    rw [List.append_nil] at hlast
    by_cases hneg : 60000000 * minutes < 0
    · simp only [offsetText, hseconds, hne, hhour, hminute, hneg, readOffset,
        readField_append hhours, hlast, if_false, if_true, List.head?_cons, Option.some.injEq,
        Char.reduceEq]
      omega
    · simp only [offsetText, hseconds, hne, hhour, hminute, hneg, readOffset,
        readField_append hhours, hlast, if_false, List.head?_cons, Option.some.injEq,
        Char.reduceEq]
      omega

theorem readWall_isoText {t : Int} (ht : Representable t) {suffix : Str}
    (hsuffix : suffix.head? ≠ some '.') : readWall (isoText suffix t) = (t, suffix) := by
  obtain ⟨hfirst, hlast⟩ := ht
  have hlimit : (instantOrdinal t).toNat ≤ 3652059 := by omega
  obtain ⟨hyear, hmonth, hday⟩ := ord2ymd_bounds hlimit
  have hmod : 0 ≤ t % dayMicros ∧ t % dayMicros < 86400000000 :=
    ⟨Int.emod_nonneg t (by decide), Int.emod_lt_of_pos t (by decide)⟩
  obtain ⟨micros, hmicros⟩ : ∃ micros, micros = (t % dayMicros).toNat := ⟨_, rfl⟩
  have hsmall : micros < 86400000000 := by omega
  have hpow : 10 ^ 2 = 100 := rfl
  have hhour : micros / 3600000000 < 10 ^ 2 := by omega
  have hminute : micros / 60000000 % 60 < 10 ^ 2 := by omega
  have hsecond : micros / 1000000 % 60 < 10 ^ 2 := by omega
  have hfraction : micros % 1000000 < 1000000 := Nat.mod_lt _ (by decide)
  have hordinal : ymd2ord ((ord2ymd (instantOrdinal t).toNat).1,
      (ord2ymd (instantOrdinal t).toNat).2.1, (ord2ymd (instantOrdinal t).toNat).2.2) =
      (instantOrdinal t).toNat := ymd2ord_ord2ymd (by omega)
  have hdays : ((instantOrdinal t).toNat : Int) - 719163 = t / dayMicros := by
    have hordinal : instantOrdinal t = t / dayMicros + 719163 := rfl
    omega
  have htime : micros / 3600000000 * 3600000000 + micros / 60000000 % 60 * 60000000 +
      micros / 1000000 % 60 * 1000000 + micros % 1000000 = micros := by omega
  rw [isoText, isoDate, isoTime, ← hmicros]
  simp only [List.append_assoc, List.cons_append, readWall, readDigits_append hyear,
    readField_append hmonth, readField_append hday, readField_append hhour,
    readField_append hminute, readField_append hsecond, readFraction_append hfraction hsuffix,
    hordinal, hdays, htime]
  rw [hmicros, Int.toNat_of_nonneg hmod.1, Int.mul_comm, Int.mul_ediv_add_emod]

theorem readOffsetTime_text {d : OffsetTime} (h : d.WholeMinutes) :
    readOffsetTime d.text = some d := by
  have hwall := readWall_isoText d.wall_representable (offsetText_head d.offset)
  have hoffset := readOffset_offsetText d.offset_lt h
  have hwall' : readWall d.text = (d.wall, offsetText d.offset) := hwall
  simp only [readOffsetTime, hwall', hoffset]
  rw [dif_pos ⟨d.wall_representable, d.offset_lt⟩]
  exact if_pos trivial

theorem wholeMinutes_of_readOffsetTime {text : Str} {d : OffsetTime}
    (h : readOffsetTime text = some d) : d.WholeMinutes := by
  simp only [readOffsetTime] at h
  split at h
  · split at h
    · cases h
      exact readOffset_dvd _
    · cases h
  · cases h

end ProfileService.Library
