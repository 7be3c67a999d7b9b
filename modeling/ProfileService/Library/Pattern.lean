import ProfileService.Library.Json

/-!
# Patterns of `re`

Classes of characters, sequences and bounded repetitions, with an executable `fullmatch`
and the texts a pattern denotes.
-/

namespace ProfileService.Library

inductive Pattern where
  | one (accepts : Char → Bool)
  | seq (p q : Pattern)
  | upTo (count : Nat) (p : Pattern)

namespace Pattern

def restsUpTo (rests : Str → List Str) : Nat → Str → List Str
  | 0, s => [s]
  | count + 1, s => s :: (rests s).flatMap (restsUpTo rests count)

/-- What may be left of a text after a match of its beginning. -/
def rests : Pattern → Str → List Str
  | .one _, [] => []
  | .one accepts, c :: s => if accepts c then [s] else []
  | .seq p q, s => (p.rests s).flatMap q.rests
  | .upTo count p, s => restsUpTo p.rests count s

/-- `re.fullmatch(p, s)`. -/
def fullmatch (p : Pattern) (s : Str) : Bool := (p.rests s).any List.isEmpty

/-- The texts of a pattern. -/
def Matches : Pattern → Str → Prop
  | .one accepts, s => ∃ c, s = [c] ∧ accepts c = true
  | .seq p q, s => ∃ t u, s = t ++ u ∧ p.Matches t ∧ q.Matches u
  | .upTo count p, s => ∃ ts : List Str, ts.length ≤ count ∧ s = ts.flatten ∧ ∀ t ∈ ts, p.Matches t

theorem mem_restsUpTo {p : Pattern} {rest : Str}
    (ih : ∀ s rest, rest ∈ p.rests s ↔ ∃ t, s = t ++ rest ∧ p.Matches t) (count : Nat) (s : Str) :
    rest ∈ restsUpTo p.rests count s ↔ ∃ t, s = t ++ rest ∧ (upTo count p).Matches t := by
  induction count generalizing s with
  | zero =>
    rw [restsUpTo, List.mem_singleton]
    constructor
    · rintro rfl
      exact ⟨[], rfl, [], Nat.le_refl 0, rfl, fun t ht => nomatch ht⟩
    · rintro ⟨t, rfl, ts, hlength, rfl, -⟩
      have hnil : ts = [] := List.eq_nil_of_length_eq_zero (Nat.le_zero.1 hlength)
      rw [hnil]
      rfl
  | succ count ihc =>
    rw [restsUpTo, List.mem_cons, List.mem_flatMap]
    constructor
    · rintro (rfl | ⟨next, hnext, hrest⟩)
      · exact ⟨[], rfl, [], Nat.zero_le _, rfl, fun t ht => nomatch ht⟩
      · obtain ⟨t, rfl, ht⟩ := (ih s next).1 hnext
        obtain ⟨u, rfl, ts, hlength, rfl, hts⟩ := (ihc next).1 hrest
        refine ⟨t ++ ts.flatten, (List.append_assoc ..).symm, t :: ts, ?_, rfl, ?_⟩
        · exact Nat.succ_le_succ hlength
        · intro x hx
          rcases List.mem_cons.1 hx with rfl | hx
          · exact ht
          · exact hts x hx
    · rintro ⟨t, rfl, ts, hlength, rfl, hts⟩
      cases ts with
      | nil => exact .inl rfl
      | cons t ts =>
        refine .inr ⟨ts.flatten ++ rest, ?_, ?_⟩
        · refine (ih _ _).2 ⟨t, ?_, hts t List.mem_cons_self⟩
          rw [List.flatten_cons, List.append_assoc]
        · refine (ihc _).2 ⟨ts.flatten, rfl, ts, ?_, rfl, ?_⟩
          · exact Nat.le_of_succ_le_succ hlength
          · exact fun x hx => hts x (List.mem_cons_of_mem t hx)

theorem mem_rests (p : Pattern) (s rest : Str) :
    rest ∈ p.rests s ↔ ∃ t, s = t ++ rest ∧ p.Matches t := by
  induction p generalizing s rest with
  | one accepts =>
    cases s with
    | nil =>
      constructor
      · exact fun h => nomatch h
      · rintro ⟨t, hs, c, rfl, -⟩
        cases hs
    | cons c s =>
      rw [rests]
      constructor
      · intro h
        split at h
        · rename_i hc
          rw [List.mem_singleton.1 h]
          exact ⟨[c], rfl, c, rfl, hc⟩
        · cases h
      · rintro ⟨t, hs, d, rfl, hd⟩
        cases hs
        rw [if_pos hd]
        exact List.mem_singleton.2 rfl
  | seq p q ihp ihq =>
    rw [rests, List.mem_flatMap]
    constructor
    · rintro ⟨next, hnext, hrest⟩
      obtain ⟨t, rfl, ht⟩ := (ihp s next).1 hnext
      obtain ⟨u, rfl, hu⟩ := (ihq next rest).1 hrest
      exact ⟨t ++ u, (List.append_assoc ..).symm, t, u, rfl, ht, hu⟩
    · rintro ⟨t, rfl, u, v, rfl, hu, hv⟩
      refine ⟨v ++ rest, (ihp _ _).2 ⟨u, ?_, hu⟩, (ihq _ _).2 ⟨v, rfl, hv⟩⟩
      exact List.append_assoc ..
  | upTo count p ih => exact mem_restsUpTo ih count s

/-- The matcher accepts the texts of the pattern and no others. -/
theorem fullmatch_iff {p : Pattern} {s : Str} : p.fullmatch s = true ↔ p.Matches s := by
  rw [fullmatch, List.any_eq_true]
  constructor
  · rintro ⟨rest, hmem, hempty⟩
    obtain ⟨t, rfl, ht⟩ := (mem_rests p s rest).1 hmem
    rw [List.isEmpty_iff.1 hempty, List.append_nil]
    exact ht
  · intro h
    exact ⟨[], (mem_rests p s []).2 ⟨s, (List.append_nil s).symm, h⟩, rfl⟩

theorem length_flatten_ones {accepts : Char → Bool} {ts : List Str}
    (h : ∀ t ∈ ts, (one accepts).Matches t) : ts.flatten.length = ts.length := by
  induction ts with
  | nil => rfl
  | cons t ts ih =>
    obtain ⟨c, rfl, -⟩ := h t List.mem_cons_self
    rw [List.flatten_cons, List.length_append, List.length_cons, List.length_cons,
      ih fun u hu => h u (List.mem_cons_of_mem _ hu)]
    exact Nat.add_comm 1 ts.length

theorem matches_upTo_one {count : Nat} {accepts : Char → Bool} {s : Str} :
    (upTo count (.one accepts)).Matches s ↔ s.length ≤ count ∧ ∀ c ∈ s, accepts c = true := by
  constructor
  · rintro ⟨ts, hlength, rfl, hts⟩
    refine ⟨?_, fun c hc => ?_⟩
    · rw [length_flatten_ones hts]
      exact hlength
    obtain ⟨t, ht, hct⟩ := List.mem_flatten.1 hc
    obtain ⟨d, rfl, hd⟩ := hts t ht
    rw [List.mem_singleton.1 hct]
    exact hd
  · rintro ⟨hlength, hall⟩
    refine ⟨s.map fun c => [c], ?_, ?_, ?_⟩
    · rw [List.length_map]
      exact hlength
    · induction s with
      | nil => rfl
      | cons c s ih =>
        have hrest := ih (Nat.le_trans (Nat.le_succ _) hlength)
          fun d hd => hall d (List.mem_cons_of_mem c hd)
        rw [List.map_cons, List.flatten_cons, ← hrest]
        rfl
    · intro t ht
      obtain ⟨c, hc, rfl⟩ := List.mem_map.1 ht
      exact ⟨c, rfl, hall c hc⟩

end Pattern
end ProfileService.Library
