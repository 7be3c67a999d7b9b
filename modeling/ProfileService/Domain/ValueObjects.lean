import Mathlib.Data.List.DropRight
import ProfileService.Domain.Exceptions
import ProfileService.Library.Json

/-!
# Value objects (`domain/value_objects/`)

Enumerations with their wire values, and the normalising validators of the text
fields. A validated text carries the proof that it is.
-/

namespace ProfileService.Domain
open Library

abbrev UserId := BitVec 128

inductive Theme where
  | system
  | light
  | dark
  deriving DecidableEq, Repr

def Theme.value : Theme → Str
  | .system => "system".toList
  | .light => "light".toList
  | .dark => "dark".toList

def Theme.default : Theme := .system

inductive Locale where
  | ru
  | en
  deriving DecidableEq, Repr

def Locale.value : Locale → Str
  | .ru => "ru".toList
  | .en => "en".toList

def Locale.default : Locale := .ru

inductive PrivacyScope where
  | all
  | nobody
  deriving DecidableEq, Repr

def PrivacyScope.value : PrivacyScope → Str
  | .all => "ALL".toList
  | .nobody => "NOBODY".toList

inductive UserProfileStatus where
  | active
  | disabled
  | blocked
  deriving DecidableEq, Repr

def UserProfileStatus.value : UserProfileStatus → Str
  | .active => "ACTIVE".toList
  | .disabled => "DISABLED".toList
  | .blocked => "BLOCKED".toList

/-- The value lookup of each enumeration; `_missing_` raises. -/
def Theme.ofStr (s : Str) : Except DomainError Theme :=
  if s = Theme.system.value then .ok .system
  else if s = Theme.light.value then .ok .light
  else if s = Theme.dark.value then .ok .dark
  else .error .invalidTheme

def Locale.ofStr (s : Str) : Except DomainError Locale :=
  if s = Locale.ru.value then .ok .ru
  else if s = Locale.en.value then .ok .en
  else .error .invalidLocale

def PrivacyScope.ofStr (s : Str) : Except DomainError PrivacyScope :=
  if s = PrivacyScope.all.value then .ok .all
  else if s = PrivacyScope.nobody.value then .ok .nobody
  else .error .invalidPrivacyScope

def UserProfileStatus.ofStr (s : Str) : Except DomainError UserProfileStatus :=
  if s = UserProfileStatus.active.value then .ok .active
  else if s = UserProfileStatus.disabled.value then .ok .disabled
  else if s = UserProfileStatus.blocked.value then .ok .blocked
  else .error .invalidProfileStatus

@[simp] theorem Theme.ofStr_value (t : Theme) : Theme.ofStr t.value = .ok t := by
  cases t <;> rfl

@[simp] theorem Locale.ofStr_value (l : Locale) : Locale.ofStr l.value = .ok l := by
  cases l <;> rfl

@[simp] theorem PrivacyScope.ofStr_value (p : PrivacyScope) :
    PrivacyScope.ofStr p.value = .ok p := by
  cases p <;> rfl

@[simp] theorem UserProfileStatus.ofStr_value (s : UserProfileStatus) :
    UserProfileStatus.ofStr s.value = .ok s := by
  cases s <;> rfl

theorem Theme.value_injective {a b : Theme} (h : a.value = b.value) : a = b := by
  cases a <;> cases b <;> first | rfl | exact absurd h (by decide)

theorem Locale.value_injective {a b : Locale} (h : a.value = b.value) : a = b := by
  cases a <;> cases b <;> first | rfl | exact absurd h (by decide)

theorem PrivacyScope.value_injective {a b : PrivacyScope} (h : a.value = b.value) : a = b := by
  cases a <;> cases b <;> first | rfl | exact absurd h (by decide)

structure PrivacySettings where
  whoCanSeeAvatar : PrivacyScope
  whoCanFindByUsername : PrivacyScope
  whoCanSeeBio : PrivacyScope
  deriving DecidableEq, Repr

def PrivacySettings.default : PrivacySettings := ⟨.all, .all, .all⟩

/-- The code points `str.strip()` removes. -/
def isSpace (c : Char) : Bool :=
  let n := c.toNat
  (9 ≤ n ∧ n ≤ 13) ∨ (28 ≤ n ∧ n ≤ 32) ∨ n = 0x85 ∨ n = 0xa0 ∨ n = 0x1680 ∨
    (0x2000 ≤ n ∧ n ≤ 0x200a) ∨ n = 0x2028 ∨ n = 0x2029 ∨ n = 0x202f ∨ n = 0x205f ∨ n = 0x3000

def strip (s : Str) : Str := (s.dropWhile isSpace).rdropWhile isSpace

theorem dropWhile_rdropWhile {p : Char → Bool} {s : Str} (h : s.dropWhile p = s) :
    (s.rdropWhile p).dropWhile p = s.rdropWhile p := by
  cases hr : s.rdropWhile p with
  | nil => rfl
  | cons c t =>
    have hprefix : c :: t <+: s := hr ▸ List.rdropWhile_prefix p s
    obtain ⟨u, rfl⟩ := hprefix
    have hc : p c ≠ true := by
      intro hc
      have hlen := congrArg List.length h
      simp only [List.cons_append, List.dropWhile_cons, hc, if_true, List.length_cons] at hlen
      have hle := (List.dropWhile_suffix p (l := t ++ u)).length_le
      omega
    simp [hc]

@[simp] theorem strip_strip (s : Str) : strip (strip s) = strip s := by
  unfold strip
  rw [dropWhile_rdropWhile (List.dropWhile_idempotent _ _), List.rdropWhile_idempotent]

theorem mem_strip {c : Char} (hc : isSpace c = false) {s : Str} : c ∈ strip s ↔ c ∈ s := by
  have hdrop : ∀ l : Str, c ∈ l.dropWhile isSpace ↔ c ∈ l := by
    intro l
    conv_rhs => rw [← List.takeWhile_append_dropWhile (p := isSpace) (l := l), List.mem_append]
    constructor
    · exact fun h => .inr h
    · rintro (h | h)
      · have hspace := List.mem_takeWhile_imp h
        rw [hc] at hspace
        cases hspace
      · exact h
  unfold strip List.rdropWhile
  rw [List.mem_reverse, hdrop, List.mem_reverse, hdrop]

theorem strip_eq_self {s : Str} (h : ∀ c ∈ s, isSpace c = false) : strip s = s := by
  have hleft : s.dropWhile isSpace = s := by
    cases s with
    | nil => rfl
    | cons c t => simp [h c List.mem_cons_self]
  unfold strip
  rw [hleft, List.rdropWhile_eq_self_iff]
  intro hne
  rw [h _ (List.getLast_mem hne)]
  exact Bool.false_ne_true

/-- `str.lower()` as far as it reaches `[a-z0-9_]`: the capital letters and the Kelvin
sign. The lower case of any other code point is outside, as the code point is. -/
def lowerChar (c : Char) : Char :=
  if 'A' ≤ c ∧ c ≤ 'Z' then Char.ofNat (c.toNat + 32)
  else if c = '\u212a' then 'k'
  else c

def reservedUsernames : List Str :=
  ["admin", "administrator", "root", "system", "support", "help", "api", "bot", "official",
    "andruha", "moderator", "service", "null", "undefined"].map String.toList

def usernameChar (c : Char) : Bool := ('a' ≤ c ∧ c ≤ 'z') ∨ ('0' ≤ c ∧ c ≤ '9') ∨ c = '_'

/-- The pattern `[a-z0-9_]{3,32}` and the reserved names (`username.py:30-58`). -/
def UsernameText (s : Str) : Prop :=
  (3 ≤ s.length ∧ s.length ≤ 32 ∧ ∀ c ∈ s, usernameChar c) ∧ s ∉ reservedUsernames

abbrev Username := { s : Str // UsernameText s }

def normalizeUsername (s : Str) : Str := (strip s).map lowerChar

def Username.ofStr (value : Str) : Except DomainError Username :=
  let normalized := normalizeUsername value
  if hmatch : 3 ≤ normalized.length ∧ normalized.length ≤ 32 ∧ normalized.all usernameChar then
    if hreserved : normalized ∈ reservedUsernames then .error .reservedUsername
    else .ok ⟨normalized, ⟨hmatch.1, hmatch.2.1, List.all_eq_true.1 hmatch.2.2⟩, hreserved⟩
  else .error .invalidUsername

theorem Username.ofStr_ok {s : Str} {u : Username} (h : Username.ofStr s = .ok u) :
    u.1 = normalizeUsername s := by
  unfold Username.ofStr at h
  dsimp only at h
  split at h
  · split at h
    · cases h
    · cases h
      rfl
  · cases h

theorem usernameChar_plain {c : Char} (h : usernameChar c = true) :
    isSpace c = false ∧ lowerChar c = c := by
  have hbounds : (97 ≤ c.toNat ∧ c.toNat ≤ 122) ∨ (48 ≤ c.toNat ∧ c.toNat ≤ 57) ∨ c.toNat = 95 := by
    simp only [usernameChar, decide_eq_true_eq] at h
    rcases h with ⟨h₁, h₂⟩ | ⟨h₁, h₂⟩ | rfl
    · exact .inl ⟨h₁, h₂⟩
    · exact .inr (.inl ⟨h₁, h₂⟩)
    · exact .inr (.inr rfl)
  constructor
  · simp only [isSpace, decide_eq_false_iff_not]
    omega
  · have hupper : ¬ ('A' ≤ c ∧ c ≤ 'Z') := by
      rintro ⟨h₁, h₂⟩
      have h₁' : 65 ≤ c.toNat := h₁
      have h₂' : c.toNat ≤ 90 := h₂
      omega
    have hkelvin : c ≠ '\u212a' := by
      rintro rfl
      revert hbounds
      decide
    simp [lowerChar, hupper, hkelvin]

theorem normalizeUsername_val (u : Username) : normalizeUsername u.1 = u.1 := by
  obtain ⟨s, ⟨-, -, hchars⟩, hreserved⟩ := u
  have hstrip : strip s = s := strip_eq_self fun c hc => (usernameChar_plain (hchars c hc)).1
  have hlower : s.map lowerChar = s := by
    conv_rhs => rw [← List.map_id s]
    exact List.map_congr_left fun c hc => (usernameChar_plain (hchars c hc)).2
  simp only [normalizeUsername, hstrip, hlower]

@[simp] theorem Username.ofStr_val (u : Username) : Username.ofStr u.1 = .ok u := by
  have hnorm := normalizeUsername_val u
  obtain ⟨s, ⟨hlo, hhi, hchars⟩, hreserved⟩ := u
  have hall : s.all usernameChar = true := List.all_eq_true.2 hchars
  simp only [Username.ofStr, hnorm, hlo, hhi, hall, and_self, dif_pos, hreserved, dif_neg,
    not_false_eq_true]

def isEmoji (c : Char) : Bool :=
  (0x2600 ≤ c.toNat ∧ c.toNat ≤ 0x27bf) ∨ (0x1f000 ≤ c.toNat ∧ c.toNat ≤ 0x1ffff)

/-- `_contains_emoji`: texts below U+2000 are not searched. -/
def containsEmoji (s : Str) : Bool :=
  if s.all fun c => c.toNat < 0x2000 then false else s.any isEmoji

def DisplayNameText (s : Str) : Prop :=
  strip s = s ∧ (1 ≤ s.length ∧ s.length ≤ 64) ∧ containsEmoji s = false

abbrev DisplayName := { s : Str // DisplayNameText s }

/-- `_validate_display_name` (`display_name.py:25-39`). -/
def DisplayName.ofStr (value : Str) : Except DomainError DisplayName :=
  let trimmed := strip value
  if hlength : 1 ≤ trimmed.length ∧ trimmed.length ≤ 64 then
    if hemoji : containsEmoji trimmed = false then
      .ok ⟨trimmed, strip_strip value, hlength, hemoji⟩
    else .error .invalidDisplayName
  else .error .invalidDisplayName

theorem DisplayName.ofStr_ok {s : Str} {d : DisplayName} (h : DisplayName.ofStr s = .ok d) :
    d.1 = strip s := by
  unfold DisplayName.ofStr at h
  dsimp only at h
  split at h
  · split at h
    · cases h
      rfl
    · cases h
  · cases h

def DisplayName.default : DisplayName := ⟨"Пользователь".toList, by decide, by decide, by decide⟩

@[simp] theorem DisplayName.ofStr_val (d : DisplayName) : DisplayName.ofStr d.1 = .ok d := by
  obtain ⟨s, hstrip, hlength, hemoji⟩ := d
  simp only [DisplayName.ofStr, hstrip, hlength, hemoji, and_self, dif_pos]

def BioText (s : Str) : Prop := s.length ≤ 255 ∧ '\n' ∉ s ∧ '\r' ∉ s

abbrev Bio := { s : Str // BioText s }

/-- `_validate_bio` (`bio.py:8-20`). -/
def Bio.ofStr (value : Str) : Except DomainError Bio :=
  if hlength : value.length ≤ 255 then
    if hline : '\n' ∉ value ∧ '\r' ∉ value then .ok ⟨value, hlength, hline⟩
    else .error .invalidBio
  else .error .invalidBio

theorem Bio.ofStr_ok {s : Str} {b : Bio} (h : Bio.ofStr s = .ok b) : b.1 = s := by
  unfold Bio.ofStr at h
  split at h
  · split at h
    · cases h
      rfl
    · cases h
  · cases h

@[simp] theorem Bio.ofStr_val (b : Bio) : Bio.ofStr b.1 = .ok b := by
  obtain ⟨s, hlength, hline⟩ := b
  simp only [Bio.ofStr, hlength, hline, not_false_eq_true, and_self, dif_pos]

/-- The time zone database of the process: which keys `zoneinfo.ZoneInfo` accepts. -/
structure ZoneInfo where
  accepts : Str → Bool
  accepts_default : accepts "Europe/Moscow".toList = true

abbrev Timezone (zones : ZoneInfo) := { s : Str // strip s = s ∧ zones.accepts s = true }

/-- `_validate_timezone` (`timezone.py:11-22`). -/
def Timezone.ofStr (zones : ZoneInfo) (value : Str) : Except DomainError (Timezone zones) :=
  let normalized := strip value
  if h : zones.accepts normalized = true then .ok ⟨normalized, strip_strip value, h⟩
  else .error .invalidTimezone

def Timezone.default (zones : ZoneInfo) : Timezone zones :=
  ⟨"Europe/Moscow".toList, by decide, zones.accepts_default⟩

@[simp] theorem Timezone.ofStr_val {zones : ZoneInfo} (t : Timezone zones) :
    Timezone.ofStr zones t.1 = .ok t := by
  obtain ⟨s, hstrip, haccepts⟩ := t
  simp only [Timezone.ofStr, hstrip, haccepts, dif_pos]

end ProfileService.Domain
