import Mathlib.Data.Bool.AllAny
import Mathlib.Data.List.Basic
import ProfileService.Library.Digits

/-!
# JSON text

`json.dumps(…, ensure_ascii=False, separators=(",", ":"))` and a reader that
takes every such text apart again: rendering is injective.
-/

namespace ProfileService.Library

/-- The escapes of `json.encoder.ESCAPE`. -/
def escapeChar (c : Char) : Str :=
  if c = '"' then ['\\', '"']
  else if c = '\\' then ['\\', '\\']
  else if c = '\n' then ['\\', 'n']
  else if c = '\r' then ['\\', 'r']
  else if c = '\t' then ['\\', 't']
  else if c = '\x0c' then ['\\', 'f']
  else if c = '\x08' then ['\\', 'b']
  else if c.toNat < 32 then '\\' :: 'u' :: fixedHex 4 c.toNat
  else [c]

def quote (s : Str) : Str := '"' :: s.flatMap escapeChar ++ ['"']

def intText : Int → Str
  | .ofNat n => Nat.toDigits 10 n
  | .negSucc n => '-' :: Nat.toDigits 10 (n + 1)

/-- The members of an array or object, separated by commas, and its closing bracket. -/
def joinClose (close : Char) : List Str → Str
  | [] => [close]
  | [t] => t ++ [close]
  | t :: ts => t ++ ',' :: joinClose close ts

mutual
def Json.render : Json → Str
  | .null => "null".toList
  | .bool true => "true".toList
  | .bool false => "false".toList
  | .int n => intText n
  | .float x => x.text
  | .str s => quote s
  | .arr items => '[' :: joinClose ']' (renderItems items)
  | .obj entries => '{' :: joinClose '}' (renderEntries entries)
def renderItems : List Json → List Str
  | [] => []
  | j :: items => j.render :: renderItems items
def renderEntries : List (Str × Json) → List Str
  | [] => []
  | (key, j) :: entries => (quote key ++ ':' :: j.render) :: renderEntries entries
end

def renderEntry (e : Str × Json) : Str := quote e.1 ++ ':' :: e.2.render

theorem renderItems_eq (items : List Json) : renderItems items = items.map Json.render := by
  induction items with
  | nil => rfl
  | cons j items ih => rw [renderItems, ih, List.map_cons]

theorem renderEntries_eq (entries : List (Str × Json)) :
    renderEntries entries = entries.map renderEntry := by
  induction entries with
  | nil => rfl
  | cons e entries ih => rw [renderEntries, ih, List.map_cons, renderEntry]

def hexValue (c : Char) : Option Nat :=
  if c.isDigit then some (c.toNat - 48)
  else if 97 ≤ c.toNat ∧ c.toNat ≤ 102 then some (c.toNat - 87)
  else none

def hexNumber (n : Nat) : Str → Option Nat
  | [] => some n
  | c :: text => (hexValue c).bind fun d => hexNumber (16 * n + d) text

def readChar : Str → Option (Char × Str)
  | [] => none
  | c :: text =>
    if c = '\\' then
      match text with
      | [] => none
      | e :: text =>
        if e = 'n' then some ('\n', text)
        else if e = 'r' then some ('\r', text)
        else if e = 't' then some ('\t', text)
        else if e = 'f' then some ('\x0c', text)
        else if e = 'b' then some ('\x08', text)
        else if e = 'u' then (hexNumber 0 (text.take 4)).map fun n => (Char.ofNat n, text.drop 4)
        else some (e, text)
    else some (c, text)

def readString : Nat → Str → Option (Str × Str)
  | 0, _ => none
  | fuel + 1, text =>
    if text.head? = some '"' then some ([], text.tail)
    else (readChar text).bind fun p => (readString fuel p.2).map fun q => (p.1 :: q.1, q.2)

def readInt : Str → Int
  | '-' :: digits => -(Nat.ofDigitChars 10 digits 0)
  | digits => Nat.ofDigitChars 10 digits 0

def readNumber (text : Str) : Option (Json × Str) :=
  let number := text.takeWhile (· ∈ numberChars)
  let rest := text.dropWhile (· ∈ numberChars)
  if number = [] then none
  else if h : number.all (· ∈ numberChars) ∧ ('.' ∈ number ∨ 'e' ∈ number) then
    some (.float ⟨number, List.all_iff_forall_prop.1 h.1, h.2⟩, rest)
  else some (.int (readInt number), rest)

def readMembers {α : Type} (read : Str → Option (α × Str)) (close : Char) :
    Nat → Str → Option (List α × Str)
  | 0, _ => none
  | fuel + 1, text => (read text).bind fun p =>
    match p.2 with
    | [] => none
    | c :: rest =>
      if c = close then some ([p.1], rest)
      else if c = ',' then (readMembers read close fuel rest).map fun q => (p.1 :: q.1, q.2)
      else none

def readSequence {α : Type} (read : Str → Option (α × Str)) (close : Char) (text : Str) :
    Option (List α × Str) :=
  if text.head? = some close then some ([], text.tail)
  else readMembers read close text.length text

def readEntry (read : Str → Option (Json × Str)) (text : Str) : Option ((Str × Json) × Str) :=
  if text.head? = some '"' then
    (readString text.length text.tail).bind fun p =>
      if p.2.head? = some ':' then (read p.2.tail).map fun q => ((p.1, q.1), q.2) else none
  else none

def readWord (word : Str) (j : Json) (text : Str) : Option (Json × Str) :=
  if text.take word.length = word then some (j, text.drop word.length) else none

/-- One value; `fuel` bounds the depth. -/
def readJson : Nat → Str → Option (Json × Str)
  | 0, _ => none
  | _ + 1, [] => none
  | fuel + 1, c :: text =>
    if c = 'n' then readWord "ull".toList .null text
    else if c = 't' then readWord "rue".toList (.bool true) text
    else if c = 'f' then readWord "alse".toList (.bool false) text
    else if c = '"' then (readString (text.length + 1) text).map fun p => (.str p.1, p.2)
    else if c = '[' then
      (readSequence (readJson fuel) ']' text).map fun p => (.arr p.1, p.2)
    else if c = '{' then
      (readSequence (readEntry (readJson fuel)) '}' text).map fun p => (.obj p.1, p.2)
    else readNumber (c :: text)

theorem readChar_escapeChar (c : Char) (x : Str) : readChar (escapeChar c ++ x) = some (c, x) := by
  unfold escapeChar
  split_ifs with h₁ h₂ h₃ h₄ h₅ h₆ h₇ h₈
  · subst h₁
    rfl
  · subst h₂
    rfl
  · subst h₃
    rfl
  · subst h₄
    rfl
  · subst h₅
    rfl
  · subst h₆
    rfl
  · subst h₇
    rfl
  · have hall : ∀ n < 32, hexNumber 0 (fixedHex 4 n) = some n := by decide
    have htake : (fixedHex 4 c.toNat ++ x).take 4 = fixedHex 4 c.toNat := by simp
    have hdrop : (fixedHex 4 c.toNat ++ x).drop 4 = x := by simp
    simp [readChar, htake, hdrop, hall c.toNat h₈]
  · simp [readChar, h₂]

theorem escapeChar_head (c : Char) (x : Str) : (escapeChar c ++ x).head? ≠ some '"' := by
  unfold escapeChar
  split_ifs with h₁ h₂ h₃ h₄ h₅ h₆ h₇ h₈
  all_goals simp
  exact h₁

theorem readString_body {s x : Str} {fuel : Nat} (h : s.length < fuel) :
    readString fuel (s.flatMap escapeChar ++ '"' :: x) = some (s, x) := by
  induction s generalizing fuel with
  | nil =>
    obtain ⟨n, rfl⟩ : ∃ n, fuel = n + 1 := ⟨fuel - 1, by omega⟩
    rfl
  | cons c s ih =>
    obtain ⟨n, rfl⟩ : ∃ n, fuel = n + 1 := ⟨fuel - 1, by omega⟩
    have hs : s.length < n := by simpa using h
    rw [List.flatMap_cons, List.append_assoc, readString, if_neg (escapeChar_head c _),
      readChar_escapeChar]
    simp [ih hs]

def Stops (x : Str) : Prop := ∀ c, x.head? = some c → c ∉ numberChars

theorem takeWhile_number {t x : Str} (ht : ∀ c ∈ t, c ∈ numberChars) (hx : Stops x) :
    (t ++ x).takeWhile (· ∈ numberChars) = t ∧ (t ++ x).dropWhile (· ∈ numberChars) = x := by
  induction t with
  | nil =>
    cases x with
    | nil => exact ⟨rfl, rfl⟩
    | cons c x =>
      have hc : c ∉ numberChars := hx c rfl
      simp [hc]
  | cons c t ih =>
    have hc : c ∈ numberChars := ht c (List.mem_cons_self ..)
    obtain ⟨htake, hdrop⟩ := ih fun d hd => ht d (List.mem_cons_of_mem _ hd)
    simp only [List.cons_append, List.takeWhile_cons, List.dropWhile_cons, hc, decide_true, if_true,
      htake, hdrop, and_self]

theorem digit_numeric {c : Char} (h : c.isDigit = true) : c ∈ numberChars ∧ c ≠ '-' ∧ c ≠ '.' ∧
    c ≠ 'e' := by
  obtain ⟨hlow, hhigh⟩ := Char.isDigit_iff_toNat.1 h
  have hall : ∀ n < 10, Char.ofNat (n + 48) ∈ numberChars ∧ Char.ofNat (n + 48) ≠ '-' ∧
      Char.ofNat (n + 48) ≠ '.' ∧ Char.ofNat (n + 48) ≠ 'e' := by decide
  have hlow' : 48 ≤ c.toNat := hlow
  have hhigh' : c.toNat ≤ 57 := hhigh
  have hc := hall (c.toNat - 48) (by omega)
  rwa [Nat.sub_add_cancel hlow', Char.ofNat_toNat] at hc

theorem mem_intText {n : Int} {c : Char} (h : c ∈ intText n) : c = '-' ∨ c.isDigit = true := by
  cases n with
  | ofNat n => exact .inr (Nat.isDigit_of_mem_toDigits (by decide) (by decide) h)
  | negSucc n =>
    rcases List.mem_cons.1 h with rfl | h
    · exact .inl rfl
    · exact .inr (Nat.isDigit_of_mem_toDigits (by decide) (by decide) h)

theorem intText_ne_nil (n : Int) : intText n ≠ [] := by
  cases n with
  | ofNat n => exact Nat.toDigits_ne_nil
  | negSucc n => exact List.cons_ne_nil _ _

theorem readInt_intText (n : Int) : readInt (intText n) = n := by
  cases n with
  | ofNat n =>
    have hhead : ∀ t, intText (.ofNat n) ≠ '-' :: t := by
      intro t ht
      have hmem : '-' ∈ Nat.toDigits 10 n := by
        rw [show Nat.toDigits 10 n = '-' :: t from ht]
        exact List.mem_cons_self ..
      exact absurd (Nat.isDigit_of_mem_toDigits (by decide) (by decide) hmem) (by decide)
    have hread : readInt (intText (.ofNat n)) = Nat.ofDigitChars 10 (intText (.ofNat n)) 0 := by
      unfold readInt
      split
      · rename_i t ht
        exact absurd ht (hhead t)
      · rfl
    rw [hread, intText, Nat.ofDigitChars_ten_toDigits]
    rfl
  | negSucc n =>
    rw [intText, readInt, Nat.ofDigitChars_ten_toDigits]
    rfl

theorem readNumber_int {n : Int} {x : Str} (hx : Stops x) :
    readNumber (intText n ++ x) = some (.int n, x) := by
  have hnum : ∀ c ∈ intText n, c ∈ numberChars := by
    intro c hc
    rcases mem_intText hc with rfl | hd
    · decide
    · exact (digit_numeric hd).1
  have hplain : ∀ c ∈ intText n, c ≠ '.' ∧ c ≠ 'e' := by
    intro c hc
    rcases mem_intText hc with rfl | hd
    · decide
    · exact (digit_numeric hd).2.2
  obtain ⟨htake, hdrop⟩ := takeWhile_number hnum hx
  have hno : ¬((intText n).all (· ∈ numberChars) ∧ ('.' ∈ intText n ∨ 'e' ∈ intText n)) := by
    rintro ⟨-, h | h⟩
    · exact (hplain _ h).1 rfl
    · exact (hplain _ h).2 rfl
  simp only [readNumber, htake, hdrop, intText_ne_nil, if_false, hno, dif_neg, not_false_eq_true,
    readInt_intText]

theorem readNumber_float {y : FloatText} {x : Str} (hx : Stops x) :
    readNumber (y.text ++ x) = some (.float y, x) := by
  obtain ⟨htake, hdrop⟩ := takeWhile_number y.numeric hx
  have hne : y.text ≠ [] := by
    intro h
    have hfrac := y.fractional
    rw [h] at hfrac
    simp at hfrac
  have hyes : y.text.all (· ∈ numberChars) ∧ ('.' ∈ y.text ∨ 'e' ∈ y.text) :=
    ⟨List.all_iff_forall_prop.2 y.numeric, y.fractional⟩
  simp only [readNumber, htake, hdrop, hne, if_false]
  exact dif_pos hyes

theorem stops_joinClose {close : Char} (hclose : close ∉ numberChars) (t : Str) (ts : List Str)
    (x : Str) : ∃ y, joinClose close (t :: ts) ++ x = t ++ y ∧ Stops y ∧
      (ts = [] → y = close :: x) ∧ (ts ≠ [] → y = ',' :: (joinClose close ts ++ x)) := by
  cases ts with
  | nil =>
    refine ⟨close :: x, by simp [joinClose], fun c hc => ?_, fun _ => rfl, fun h => absurd rfl h⟩
    cases hc
    exact hclose
  | cons u ts =>
    refine ⟨',' :: (joinClose close (u :: ts) ++ x), by simp [joinClose], fun c hc => ?_,
      nofun, fun _ => rfl⟩
    cases hc
    decide

theorem readMembers_joinClose {α : Type} {read : Str → Option (α × Str)} {render : α → Str}
    {close : Char} {items : List α} {x : Str} {fuel : Nat} (hclose : close ∉ numberChars)
    (hcomma : close ≠ ',') (hread : ∀ a ∈ items, ∀ y, Stops y → read (render a ++ y) = some (a, y))
    (hne : items ≠ []) (hfuel : items.length ≤ fuel) :
    readMembers read close fuel (joinClose close (items.map render) ++ x) = some (items, x) := by
  induction items generalizing fuel with
  | nil => exact absurd rfl hne
  | cons a items ih =>
    obtain ⟨n, rfl⟩ : ∃ n, fuel = n + 1 := ⟨fuel - 1, by simp at hfuel; omega⟩
    obtain ⟨y, hy, hstop, hlast, hmore⟩ :=
      stops_joinClose hclose (render a) (items.map render) x
    rw [List.map_cons, hy, readMembers, hread a (List.mem_cons_self ..) y hstop]
    cases items with
    | nil =>
      rw [hlast rfl]
      simp
    | cons b items =>
      have hrest : readMembers read close n (joinClose close ((b :: items).map render) ++ x) =
          some (b :: items, x) := ih (fun c hc => hread c (List.mem_cons_of_mem _ hc))
        (List.cons_ne_nil _ _) (by simpa using hfuel)
      rw [hmore (by simp)]
      simp only [Option.bind_some, Ne.symm hcomma, if_false, if_true, hrest, Option.map_some]

theorem length_joinClose (close : Char) (ts : List Str) :
    ts.length ≤ (joinClose close ts).length := by
  induction ts with
  | nil => exact Nat.zero_le _
  | cons t ts ih =>
    cases ts with
    | nil => simp [joinClose]
    | cons u ts =>
      simp only [joinClose, List.length_cons, List.length_append] at ih ⊢
      omega

theorem readSequence_joinClose {α : Type} (read : Str → Option (α × Str)) (render : α → Str)
    (close : Char) (items : List α) (x : Str) (hclose : close ∉ numberChars) (hcomma : close ≠ ',')
    (hread : ∀ a ∈ items, ∀ y, Stops y → read (render a ++ y) = some (a, y))
    (hhead : ∀ a ∈ items, ∀ y, (render a ++ y).head? ≠ some close) :
    readSequence read close (joinClose close (items.map render) ++ x) = some (items, x) := by
  cases items with
  | nil => simp [readSequence, joinClose]
  | cons a items =>
    obtain ⟨y, hy, -, -, -⟩ := stops_joinClose hclose (render a) (items.map render) x
    have hne : (joinClose close ((a :: items).map render) ++ x).head? ≠ some close := by
      rw [List.map_cons, hy]
      exact hhead a (List.mem_cons_self ..) y
    have hlen : (a :: items).length ≤ (joinClose close ((a :: items).map render) ++ x).length := by
      have h := length_joinClose close ((a :: items).map render)
      simp only [List.length_map, List.length_append] at h ⊢
      omega
    rw [readSequence, if_neg hne]
    exact readMembers_joinClose hclose hcomma hread (List.cons_ne_nil _ _) hlen

theorem quote_append (s x : Str) : quote s ++ x = '"' :: (s.flatMap escapeChar ++ '"' :: x) := by
  simp [quote]

theorem length_flatMap_escapeChar (s : Str) : s.length ≤ (s.flatMap escapeChar).length := by
  induction s with
  | nil => exact Nat.zero_le _
  | cons c s ih =>
    have hpos : 0 < (escapeChar c).length := by
      unfold escapeChar
      split_ifs <;> simp
    simp only [List.flatMap_cons, List.length_cons, List.length_append]
    omega

theorem readEntry_render {read : Str → Option (Json × Str)} {e : Str × Json} {y : Str}
    (hread : read (e.2.render ++ y) = some (e.2, y)) :
    readEntry read (renderEntry e ++ y) = some (e, y) := by
  have hlen := length_flatMap_escapeChar e.1
  rw [renderEntry, List.append_assoc, quote_append]
  simp only [readEntry, List.head?_cons, if_true, List.tail_cons]
  rw [readString_body (by simp only [List.length_cons, List.length_append]; omega)]
  simp [hread]

theorem length_lt_joinClose {close : Char} {t : Str} {ts : List Str} (h : t ∈ ts) :
    t.length < (joinClose close ts).length := by
  induction ts with
  | nil => cases h
  | cons u ts ih =>
    cases ts with
    | nil =>
      rw [List.mem_singleton.1 h, joinClose, List.length_append]
      exact Nat.lt_succ_self _
    | cons v ts =>
      rw [joinClose, List.length_append, List.length_cons]
      rcases List.mem_cons.1 h with rfl | h
      · omega
      · have hlt := ih h
        omega
      all_goals exact List.cons_ne_nil _ _

/-- Enough fuel reads the text of `j` whatever follows it. -/
def Reads (n : Nat) (j : Json) : Prop :=
  ∀ m, n ≤ m → ∀ x, Stops x → readJson m (j.render ++ x) = some (j, x)

theorem Reads.mono {m n : Nat} {j : Json} (hmn : m ≤ n) (h : Reads m j) : Reads n j :=
  fun k hk => h k (Nat.le_trans hmn hk)

theorem readJson_number {c : Char} {t : Str} {m : Nat} (hc : c ∈ numberChars) (hm : 0 < m) :
    readJson m (c :: t) = readNumber (c :: t) := by
  obtain ⟨n, rfl⟩ : ∃ n, m = n + 1 := ⟨m - 1, by omega⟩
  have hall : ∀ c ∈ numberChars, c ≠ 'n' ∧ c ≠ 't' ∧ c ≠ 'f' ∧ c ≠ '"' ∧ c ≠ '[' ∧ c ≠ '{' :=
    List.all_iff_forall_prop.1 (by decide)
  obtain ⟨h₁, h₂, h₃, h₄, h₅, h₆⟩ := hall c hc
  simp only [readJson, h₁, h₂, h₃, h₄, h₅, h₆, if_false]

theorem intText_cons (n : Int) : ∃ c t, intText n = c :: t ∧ c ∈ numberChars := by
  obtain ⟨c, t, h⟩ := List.exists_cons_of_ne_nil (intText_ne_nil n)
  refine ⟨c, t, h, ?_⟩
  rcases mem_intText (h ▸ List.mem_cons_self .. : c ∈ intText n) with rfl | hd
  · decide
  · exact (digit_numeric hd).1

theorem floatText_cons (y : FloatText) : ∃ c t, y.text = c :: t ∧ c ∈ numberChars := by
  cases h : y.text with
  | nil =>
    have hfrac := y.fractional
    rw [h] at hfrac
    simp at hfrac
  | cons c t => exact ⟨c, t, rfl, y.numeric c (h ▸ List.mem_cons_self ..)⟩

theorem render_head (j : Json) (y : Str) : (j.render ++ y).head? ≠ some ']' := by
  have hnum : ∀ c ∈ numberChars, c ≠ ']' := List.all_iff_forall_prop.1 (by decide)
  cases j with
  | null => simp [Json.render]
  | bool b => cases b <;> simp [Json.render]
  | int n =>
    obtain ⟨c, t, h, hc⟩ := intText_cons n
    simp [Json.render, h, hnum c hc]
  | float x =>
    obtain ⟨c, t, h, hc⟩ := floatText_cons x
    simp [Json.render, h, hnum c hc]
  | str s => simp [Json.render, quote]
  | arr items => simp [Json.render]
  | obj entries => simp [Json.render]

theorem reads_arr {items : List Json} {n : Nat} (h : ∀ j ∈ items, Reads n j) :
    Reads (n + 1) (.arr items) := by
  intro m hm x hx
  obtain ⟨k, rfl⟩ : ∃ k, m = k + 1 := ⟨m - 1, by omega⟩
  have hread := readSequence_joinClose (readJson k) Json.render ']' items x (by decide) (by decide)
    (fun j hj y hy => h j hj k (by omega) y hy) (fun j _ y => render_head j y)
  rw [Json.render, renderItems_eq, List.cons_append]
  simp [readJson, hread]

theorem reads_obj {entries : List (Str × Json)} {n : Nat} (h : ∀ e ∈ entries, Reads n e.2) :
    Reads (n + 1) (.obj entries) := by
  intro m hm x hx
  obtain ⟨k, rfl⟩ : ∃ k, m = k + 1 := ⟨m - 1, by omega⟩
  have hread := readSequence_joinClose (readEntry (readJson k)) renderEntry '}' entries x (by decide) (by decide)
    (fun e he y hy => readEntry_render (h e he k (by omega) y hy))
    (fun e _ y => by simp [renderEntry, quote])
  rw [Json.render, renderEntries_eq, List.cons_append]
  simp [readJson, hread]

theorem render_length_pos (j : Json) : 0 < j.render.length := by
  apply List.length_pos_iff.2
  cases j with
  | null => simp [Json.render]
  | bool b => cases b <;> simp [Json.render]
  | int n => exact intText_ne_nil n
  | float x =>
    obtain ⟨c, t, h, -⟩ := floatText_cons x
    simp [Json.render, h]
  | str s => simp [Json.render, quote]
  | arr items => simp [Json.render]
  | obj entries => simp [Json.render]

/-- A text is at least as long as its value is deep, so its length is fuel enough. -/
theorem reads_length (j : Json) : Reads j.render.length j := by
  have hpos := render_length_pos j
  induction j using Json.members_induction with
  | null =>
    intro m hm x _
    obtain ⟨k, rfl⟩ : ∃ k, m = k + 1 := ⟨m - 1, by omega⟩
    rfl
  | bool b =>
    intro m hm x _
    obtain ⟨k, rfl⟩ : ∃ k, m = k + 1 := ⟨m - 1, by omega⟩
    cases b <;> rfl
  | int n =>
    intro m hm x hx
    obtain ⟨c, t, h, hc⟩ := intText_cons n
    have hnum := readNumber_int (n := n) hx
    rw [h, List.cons_append] at hnum
    rw [Json.render, h, List.cons_append, readJson_number hc (by omega), hnum]
  | float y =>
    intro m hm x hx
    obtain ⟨c, t, h, hc⟩ := floatText_cons y
    have hnum := readNumber_float (y := y) hx
    rw [h, List.cons_append] at hnum
    rw [Json.render, h, List.cons_append, readJson_number hc (by omega), hnum]
  | str s =>
    intro m hm x _
    obtain ⟨k, rfl⟩ : ∃ k, m = k + 1 := ⟨m - 1, by omega⟩
    have hlen := length_flatMap_escapeChar s
    rw [Json.render, quote_append]
    simp only [readJson, Char.reduceEq, if_false, if_true]
    rw [readString_body (by simp only [List.length_cons, List.length_append]; omega)]
    rfl
  | arr items ih =>
    rw [Json.render, renderItems_eq, List.length_cons]
    refine reads_arr fun j hj => (ih j hj (render_length_pos j)).mono ?_
    exact (length_lt_joinClose (List.mem_map_of_mem hj)).le
  | obj entries ih =>
    rw [Json.render, renderEntries_eq, List.length_cons]
    refine reads_obj fun e he => (ih e he (render_length_pos e.2)).mono ?_
    have hlt : (renderEntry e).length < (joinClose '}' (entries.map renderEntry)).length :=
      length_lt_joinClose (List.mem_map_of_mem he)
    rw [renderEntry, List.length_append, List.length_cons] at hlt
    omega

theorem render_injective {a b : Json} (h : a.render = b.render) : a = b := by
  have hm := reads_length a
  have hn := reads_length b
  have hstop : Stops [] := fun c hc => by cases hc
  have ha := hm _ (Nat.le_refl _) [] hstop
  have hb := hn _ (Nat.le_refl _) [] hstop
  rw [h] at ha
  rw [ha] at hb
  exact (Prod.mk.inj (Option.some.inj hb)).1

end ProfileService.Library
