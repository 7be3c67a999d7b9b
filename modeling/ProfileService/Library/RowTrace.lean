import ProfileService.Library.Row

/-!
# Rows whose versions are accounted for

Every committed version of a row was there before the run, or its writer made it from the
version below it, in the way that writer makes versions.
-/

namespace ProfileService.Library.Row
variable {T R : Type}

/-- `base` holds of a version that was there before the run, which is the oldest, and
`next` relates the version a transaction writes to the one it writes it over. -/
def Traces (base : R → Prop) (next : T → Option R → R → Prop) : List (Version T R) → Prop
  | [] => True
  | v :: vs =>
    (match v.writer with
      | none => vs = [] ∧ base v.row
      | some t => next t (vs.head?.map Version.row) v.row) ∧ Traces base next vs

/-- The committed versions are accounted for, and the uncommitted one will be. -/
structure Traced (base : R → Prop) (next : T → Option R → R → Prop) (c : Row T R) : Prop where
  history : Traces base next c.versions
  pending : ∀ t r, c.pending = some (t, r) → next t c.committed r

variable {base : R → Prop} {next : T → Option R → R → Prop} {c : Row T R} {t : T} {r : R}
  {vs ws : List (Version T R)}

theorem traced_absent : Traced base next (absent : Row T R) :=
  ⟨trivial, fun _ _ h => by cases h⟩

theorem traced_stored (h : base r) : Traced base next (stored r : Row T R) :=
  ⟨⟨⟨rfl, h⟩, trivial⟩, fun _ _ h => by cases h⟩

theorem Traced.write (h : Traced base next c) (hr : next t c.committed r) :
    Traced base next (c.write t r) := by
  refine ⟨h.history, fun u s hp => ?_⟩
  cases hp
  exact hr

variable [DecidableEq T]

theorem Traced.commit (h : Traced base next c) : Traced base next (c.commit t) := by
  cases ho : c.own t with
  | none =>
    rw [commit_of_not_own ho]
    exact h
  | some r =>
    rw [commit_of_own ho]
    exact ⟨⟨h.pending t r (own_eq_some.1 ho), h.history⟩, fun _ _ hp => by cases hp⟩

theorem Traced.rollback (h : Traced base next c) : Traced base next (c.rollback t) := by
  cases ho : c.own t with
  | none =>
    rw [rollback_of_not_own ho]
    exact h
  | some r =>
    rw [rollback_of_own ho]
    exact ⟨h.history, fun _ _ hp => by cases hp⟩

omit [DecidableEq T]

theorem Traces.tail (h : Traces base next (ws ++ vs)) : Traces base next vs := by
  induction ws with
  | nil => exact h
  | cons w ws ih => exact ih h.2

theorem Traces.pairwise {rel : R → R → Prop} (hrel : ∀ t a b, next t (some a) b → rel a b)
    (htrans : ∀ a b c, rel a b → rel b c → rel a c) (h : Traces base next vs) :
    vs.Pairwise fun newer older => rel older.row newer.row := by
  induction vs with
  | nil => exact .nil
  | cons v vs ih =>
    have hvs := ih h.2
    refine List.pairwise_cons.2 ⟨fun u hu => ?_, hvs⟩
    cases vs with
    | nil => cases hu
    | cons x xs =>
      have hx : rel x.row v.row := by
        have hv := h.1
        cases hw : v.writer with
        | none =>
          rw [hw] at hv
          cases hv.1
        | some t =>
          rw [hw] at hv
          exact hrel t _ _ hv
      rcases List.mem_cons.1 hu with rfl | hu
      · exact hx
      · exact htrans _ _ _ ((List.pairwise_cons.1 hvs).1 u hu) hx

/-- Where every version is a step of its writer from the one below it, the newest is what the
steps make of the oldest, one after another. -/
theorem Traces.replay {A E : Type} {step : A → E → Option A} {val : A → R} {who : E → T}
    (hval : ∀ a b, val a = val b → a = b)
    (hnext : ∀ t old r, next t (some old) r →
      ∃ a a' e, who e = t ∧ old = val a ∧ r = val a' ∧ step a e = some a')
    {v : Version T R} {a₀ : A} (hv : v.row = val a₀) (h : Traces base next (vs ++ [v])) :
    ∃ (es : List E) (a : A), (vs.map Version.writer).reverse = es.map (fun e => some (who e)) ∧
      es.foldlM step a₀ = some a ∧ (vs ++ [v]).head?.map Version.row = some (val a) := by
  induction vs with
  | nil => exact ⟨[], a₀, rfl, rfl, by rw [← hv]; rfl⟩
  | cons x vs ih =>
    obtain ⟨hx, hrest⟩ := h
    obtain ⟨es, a, hwho, hfold, hhead⟩ := ih hrest
    change (vs.append [v]).head?.map Version.row = some (val a) at hhead
    rw [hhead] at hx
    cases hw : x.writer with
    | none =>
      rw [hw] at hx
      cases vs <;> cases hx.1
    | some t =>
      rw [hw] at hx
      obtain ⟨b, a', e, rfl, hb, hrow, hstep⟩ := hnext t _ _ hx
      obtain rfl := hval _ _ hb
      refine ⟨es ++ [e], a', ?_, ?_, ?_⟩
      · rw [List.map_cons, List.reverse_cons, hwho, hw, List.map_append]
        rfl
      · rw [List.foldlM_append, hfold]
        show [e].foldlM step a = _
        rw [List.foldlM_cons, hstep]
        rfl
      · show some x.row = _
        rw [hrow]

end ProfileService.Library.Row
