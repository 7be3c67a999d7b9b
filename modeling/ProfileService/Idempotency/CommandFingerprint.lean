import ProfileService.Application.Commands
import ProfileService.Idempotency.Execution
import ProfileService.Idempotency.Fingerprint
import ProfileService.Idempotency.Ownership

/-!
# What the fingerprint of a command says about it

The hashed texts of two commands are equal exactly when the commands are, and
both stores decide between replay and conflict by the fingerprint alone.
-/

namespace ProfileService.Idempotency
open Library Application Domain

def leaf : Value → Json
  | .int n => .int n
  | .str s => .str s
  | .uuid u => .str (uuidText u)
  | .datetime d => .str (isoText "+00:00".toList d.instant)
  | .enum v => leaf v
  | _ => .null

def entries (fields : List (Str × Value)) : List (Str × Json) := fields.map fun e => (e.1, leaf e.2)

theorem scalar_leaf_optional {α : Type} {f : α → Value} (h : ∀ a, Scalar (f a) (leaf (f a)))
    (x : Option α) : Scalar (.optional f x) (leaf (.optional f x)) := by
  cases x with
  | none => exact .null
  | some a => exact h a

theorem Command.scalar {c : Command} (hc : c.InRange) :
    ∀ e ∈ c.fields, Scalar e.2 (leaf e.2) := by
  have hstr : ∀ s, Scalar (.str s) (leaf (.str s)) := Scalar.str
  have henum : ∀ s, Scalar (.enum (.str s)) (leaf (.enum (.str s))) := fun s => (Scalar.str s).enum
  have huuid : ∀ u, Scalar (.uuid u) (leaf (.uuid u)) := Scalar.uuid
  have hint : ∀ n : Int, Scalar (.int n) (leaf (.int n)) := Scalar.int
  cases c with
  | createDefaultProfile c =>
    have hdate : Scalar (.datetime c.registeredAt) (leaf (.datetime c.registeredAt)) :=
      Scalar.datetime c.registeredAt_aware hc
    simp only [Command.fields, CreateDefaultProfileCommand.fields, List.forall_mem_cons,
      List.not_mem_nil, IsEmpty.forall_iff, implies_true, and_true]
    exact ⟨huuid _, hdate⟩
  | updateProfile c =>
    simp only [Command.fields, UpdateProfileCommand.fields, List.forall_mem_cons, List.not_mem_nil,
      IsEmpty.forall_iff, implies_true, and_true]
    exact ⟨huuid _, hint _, scalar_leaf_optional hstr _, scalar_leaf_optional hstr _,
      scalar_leaf_optional hstr _⟩
  | updateAvatar c =>
    simp only [Command.fields, UpdateAvatarCommand.fields, List.forall_mem_cons, List.not_mem_nil,
      IsEmpty.forall_iff, implies_true, and_true]
    exact ⟨huuid _, hint _, scalar_leaf_optional hstr _⟩
  | updateSettings c =>
    simp only [Command.fields, UpdateSettingsCommand.fields, List.forall_mem_cons, List.not_mem_nil,
      IsEmpty.forall_iff, implies_true, and_true]
    exact ⟨huuid _, hint _, scalar_leaf_optional (fun t => henum _) _,
      scalar_leaf_optional (fun l => henum _) _, scalar_leaf_optional hstr _,
      scalar_leaf_optional (fun p => henum _) _, scalar_leaf_optional (fun p => henum _) _,
      scalar_leaf_optional (fun p => henum _) _⟩
  | resetSettings c =>
    simp only [Command.fields, ResetSettingsCommand.fields, List.forall_mem_cons, List.not_mem_nil,
      IsEmpty.forall_iff, implies_true, and_true]
    exact ⟨huuid _, hint _⟩

def Command.text (c : Command) : Str := (Json.obj (sortEntries (entries c.fields))).render

theorem Command.requestText_eq {c : Command} (hc : c.InRange) :
    requestText [] c.modelDump = .ok (Command.text c) := by
  refine requestText_record ?_ []
  unfold ScalarFields entries
  rw [List.forall₂_map_right_iff, List.forall₂_same]
  exact fun e he => ⟨rfl, Command.scalar hc e he⟩

theorem leaf_optional_inj {α : Type} {f : α → Value} (hf : ∀ a b, leaf (f a) = leaf (f b) → a = b)
    (hnull : ∀ a, leaf (f a) ≠ .null) {x y : Option α}
    (h : leaf (.optional f x) = leaf (.optional f y)) : x = y := by
  cases x with
  | none =>
    cases y with
    | none => rfl
    | some b => exact absurd h.symm (hnull b)
  | some a =>
    cases y with
    | none => exact absurd h (hnull a)
    | some b => rw [hf a b h]

theorem leaf_str_inj {x y : Option Str}
    (h : leaf (.optional .str x) = leaf (.optional .str y)) : x = y :=
  leaf_optional_inj (f := Value.str) (fun _ _ => Json.str.inj) (fun _ => nofun) h

theorem leaf_enum_inj {α : Type} {value : α → Str} (hvalue : ∀ a b, value a = value b → a = b)
    {x y : Option α} (h : leaf (.optional (fun a => .enum (.str (value a))) x) =
      leaf (.optional (fun a => .enum (.str (value a))) y)) : x = y :=
  leaf_optional_inj (f := fun a => .enum (.str (value a)))
    (fun a b hab => hvalue a b (Json.str.inj hab)) (fun _ => nofun) h

theorem leaf_uuid_inj {u v : BitVec 128} (h : leaf (.uuid u) = leaf (.uuid v)) : u = v :=
  uuidText_inj (Json.str.inj h)

theorem leaf_int_inj {m n : Nat} (h : leaf (.int m) = leaf (.int n)) : m = n :=
  Int.ofNat.inj (Json.int.inj h)

def CommandClass.keys : CommandClass → List Str
  | .createDefaultProfile => ["user_id".toList, "registered_at".toList]
  | .updateProfile => ["user_id".toList, "expected_version".toList, "display_name".toList,
      "bio".toList, "username".toList]
  | .updateAvatar => ["user_id".toList, "expected_version".toList, "avatar_key".toList]
  | .updateSettings => ["user_id".toList, "expected_version".toList, "theme".toList,
      "locale".toList, "timezone".toList, "who_can_see_avatar".toList,
      "who_can_find_by_username".toList, "who_can_see_bio".toList]
  | .resetSettings => ["user_id".toList, "expected_version".toList]

theorem Command.keys_eq (c : Command) :
    (entries c.fields).map Prod.fst = CommandClass.keys c.commandClass := by
  cases c <;> rfl

theorem CommandClass.keys_nodup (k : CommandClass) : (CommandClass.keys k).Nodup := by
  cases k <;> decide

theorem CommandClass.keys_perm {k l : CommandClass}
    (h : (CommandClass.keys k).Perm (CommandClass.keys l)) : k = l := by
  cases k <;> cases l <;> first | rfl | exact absurd h (by decide)

theorem Command.sameFields_of_entries {a b : Command} (ha : a.InRange) (hb : b.InRange)
    (hclass : a.commandClass = b.commandClass) (h : entries a.fields = entries b.fields) :
    a.SameFields b := by
  cases a with
  | createDefaultProfile a =>
    cases b with
    | createDefaultProfile b =>
      simp only [Command.fields, CreateDefaultProfileCommand.fields, entries, List.map_cons,
        List.map_nil, List.cons.injEq, Prod.mk.injEq, true_and, and_true] at h
      obtain ⟨huser, hinstant⟩ := h
      exact ⟨leaf_uuid_inj huser, isoText_inj ha hb (Json.str.inj hinstant)⟩
    | _ => cases hclass
  | updateProfile a =>
    cases b with
    | updateProfile b =>
      simp only [Command.fields, UpdateProfileCommand.fields, entries, List.map_cons,
        List.map_nil, List.cons.injEq, Prod.mk.injEq, true_and, and_true] at h
      obtain ⟨huser, hversion, hname, hbio, husername⟩ := h
      exact UpdateProfileCommand.ext (leaf_uuid_inj huser) (leaf_int_inj hversion)
        (leaf_str_inj hname) (leaf_str_inj hbio) (leaf_str_inj husername)
    | _ => cases hclass
  | updateAvatar a =>
    cases b with
    | updateAvatar b =>
      simp only [Command.fields, UpdateAvatarCommand.fields, entries, List.map_cons,
        List.map_nil, List.cons.injEq, Prod.mk.injEq, true_and, and_true] at h
      obtain ⟨huser, hversion, hkey⟩ := h
      exact UpdateAvatarCommand.ext (leaf_uuid_inj huser) (leaf_int_inj hversion)
        (leaf_str_inj hkey)
    | _ => cases hclass
  | updateSettings a =>
    cases b with
    | updateSettings b =>
      simp only [Command.fields, UpdateSettingsCommand.fields, entries, List.map_cons,
        List.map_nil, List.cons.injEq, Prod.mk.injEq, true_and, and_true] at h
      obtain ⟨huser, hversion, htheme, hlocale, hzone, havatar, hfind, hbio⟩ := h
      have hscope : ∀ p q : PrivacyScope, p.value = q.value → p = q :=
        fun _ _ => PrivacyScope.value_injective
      exact UpdateSettingsCommand.ext (leaf_uuid_inj huser) (leaf_int_inj hversion)
        (leaf_enum_inj (fun _ _ => Theme.value_injective) htheme)
        (leaf_enum_inj (fun _ _ => Locale.value_injective) hlocale) (leaf_str_inj hzone)
        (leaf_enum_inj hscope havatar) (leaf_enum_inj hscope hfind) (leaf_enum_inj hscope hbio)
    | _ => cases hclass
  | resetSettings a =>
    cases b with
    | resetSettings b =>
      simp only [Command.fields, ResetSettingsCommand.fields, entries, List.map_cons,
        List.map_nil, List.cons.injEq, Prod.mk.injEq, true_and, and_true] at h
      obtain ⟨huser, hversion⟩ := h
      exact ResetSettingsCommand.ext (leaf_uuid_inj huser) (leaf_int_inj hversion)
    | _ => cases hclass

theorem Command.entries_of_sameFields {a b : Command} (h : a.SameFields b) :
    entries a.fields = entries b.fields := by
  cases a with
  | createDefaultProfile a =>
    cases b with
    | createDefaultProfile b =>
      obtain ⟨huser, hinstant⟩ := h
      simp only [Command.fields, CreateDefaultProfileCommand.fields, entries, List.map_cons, leaf,
        huser, hinstant]
    | _ => cases h
  | updateProfile a =>
    cases b with
    | updateProfile b => rw [show a = b from h]
    | _ => cases h
  | updateAvatar a =>
    cases b with
    | updateAvatar b => rw [show a = b from h]
    | _ => cases h
  | updateSettings a =>
    cases b with
    | updateSettings b => rw [show a = b from h]
    | _ => cases h
  | resetSettings a =>
    cases b with
    | resetSettings b => rw [show a = b from h]
    | _ => cases h

/-- The hashed bytes decide whether two commands are the same. -/
theorem Command.text_eq_iff {a b : Command} (ha : a.InRange) (hb : b.InRange) :
    utf8 (Command.text a) = utf8 (Command.text b) ↔ a.SameFields b := by
  constructor
  · intro h
    have hsorted := render_sortEntries_inj (utf8_injective h)
    have hperm : (entries a.fields).Perm (entries b.fields) :=
      (sortEntries_perm _).symm.trans (hsorted ▸ sortEntries_perm _)
    have hkeys := hperm.map Prod.fst
    rw [Command.keys_eq, Command.keys_eq] at hkeys
    have hclass := CommandClass.keys_perm hkeys
    refine Command.sameFields_of_entries ha hb hclass (sortEntries_inj ?_ ?_ hsorted)
    · rw [Command.keys_eq, Command.keys_eq, hclass]
    · rw [Command.keys_eq]
      exact CommandClass.keys_nodup _
  · intro h
    rw [Command.text, Command.text, Command.entries_of_sameFields h]

/-- `compute_request_fingerprint(command)`. -/
def Command.fingerprint (sha256 : List UInt8 → Digest) (c : Command) : Digest :=
  sha256 (utf8 (Command.text c))

theorem Command.computeRequestFingerprint_eq {sha256 : List UInt8 → Digest} {c : Command}
    (hc : c.InRange) :
    computeRequestFingerprint sha256 [] c.modelDump = .ok (Command.fingerprint sha256 c) := by
  rw [computeRequestFingerprint, Command.requestText_eq hc]
  rfl

theorem collectEntries_forall {ε α : Type} {l : List (Str × Except ε α)} {m : List (Str × α)}
    (h : collectEntries l = .ok m) : ∀ e ∈ l, ∃ a, e.2 = .ok a := by
  induction l generalizing m with
  | nil => exact fun e he => nomatch he
  | cons e l ih =>
    obtain ⟨key, r⟩ := e
    cases r with
    | error e => cases h
    | ok a =>
      rw [collectEntries] at h
      cases hl : collectEntries l with
      | error e =>
        rw [hl] at h
        cases h
      | ok rest =>
        intro e' he'
        rcases List.mem_cons.1 he' with rfl | he'
        · exact ⟨a, rfl⟩
        · exact ih hl e' he'

/-- A text is only computed for a command whose instant can be converted. -/
theorem Command.inRange_of_requestText {c : Command} {x : Str}
    (h : requestText [] c.modelDump = .ok x) : c.InRange := by
  cases c with
  | createDefaultProfile c =>
    obtain ⟨offset, hoffset⟩ := Option.isSome_iff_exists.1 c.registeredAt_aware
    have hinstant : c.registeredAt.instant = c.registeredAt.wall - offset := by
      simp [DateTime.instant, hoffset]
    show Representable c.registeredAt.instant
    by_contra hrange
    have hzone : astimezone c.registeredAt =
        .error (.other "OverflowError" "date value out of range") := by
      rw [hinstant] at hrange
      simp only [astimezone, hoffset, dif_neg hrange]
    have hitem : ("registered_at".toList, (.error (.other "OverflowError" "date value out of range") :
          Except Exn Json)) ∈
        sortEntries (canonicalizeEntries [] [] (c.fields.map fun e => (some e.1, e.2))) := by
      refine (sortEntries_perm _).symm.subset ?_
      simp only [CreateDefaultProfileCommand.fields, List.map_cons, List.map_nil,
        canonicalizeEntries, canonicalize, hzone]
      exact List.mem_cons_of_mem _ List.mem_cons_self
    cases hcollect : collectEntries
        (sortEntries (canonicalizeEntries [] [] (c.fields.map fun e => (some e.1, e.2)))) with
    | ok m =>
      obtain ⟨a, ha⟩ := collectEntries_forall hcollect _ hitem
      cases ha
    | error e =>
      have hkeys : (c.fields.map fun e => ((some e.1 : Option Str), e.2)).any (fun e => e.1.isNone) =
          false := by
        simp
      rw [requestText, Command.modelDump, Command.fields, Value.record, canonicalize, hkeys] at h
      simp only [Bool.false_eq_true, if_false, hcollect, Except.map] at h
      cases h
  | _ => trivial

theorem Command.SameFields.commandClass {a b : Command} (h : a.SameFields b) :
    a.commandClass = b.commandClass := by
  cases a <;> cases b <;> first | rfl | exact h.elim

theorem decideExisting_replay {fp : Digest} {existing c : CompletedIdempotencyResult}
    {now : Instant} (h : decideExisting fp existing now = some (.replay c)) :
    existing.requestFingerprint = fp := by
  unfold decideExisting at h
  split at h
  · cases h
  · split at h
    · cases h
    · rename_i hfp
      exact not_not.1 hfp

theorem decideExisting_conflict {fp : Digest} {existing : CompletedIdempotencyResult}
    {now : Instant} (h : decideExisting fp existing now = some .conflict) :
    existing.requestFingerprint ≠ fp := by
  unfold decideExisting at h
  split at h
  · cases h
  · split at h
    · assumption
    · cases h

theorem claimAnswer_code {fingerprint : Str} {e : Entry} :
    ((claimAnswer fingerprint e).code = 2 → e.requestFingerprint = some fingerprint) ∧
      ((claimAnswer fingerprint e).code = 3 → e.requestFingerprint ≠ some fingerprint) := by
  unfold claimAnswer
  split
  · exact ⟨nofun, nofun⟩
  · split
    · exact ⟨nofun, nofun⟩
    · split
      · exact ⟨nofun, nofun⟩
      · split
        · exact ⟨nofun, nofun⟩
        · split
          · rename_i hfp
            exact ⟨nofun, fun _ => hfp⟩
          · rename_i hfp
            refine ⟨fun _ => not_not.1 hfp, fun h => ?_⟩
            split at h
            · cases h
            · split at h
              · cases h
              · cases h

theorem readClaim_replay {R : RedisClient} {fp : Digest} {e : Entry}
    {c : CompletedIdempotencyResult}
    (h : readClaim R fp (claimAnswer fp.text e) = .ok (.replay c)) :
    e.requestFingerprint = some fp.text := by
  refine claimAnswer_code.1 ?_
  unfold readClaim at h
  split at h
  · cases h
  · assumption
  · cases h
  · cases h
  · cases h

theorem readClaim_conflict {R : RedisClient} {fp : Digest} {e : Entry}
    (h : readClaim R fp (claimAnswer fp.text e) = .ok .conflict) :
    e.requestFingerprint ≠ some fp.text := by
  refine claimAnswer_code.2 ?_
  unfold readClaim at h
  split at h
  · cases h
  · split at h
    · cases h
    · split at h
      · cases h
      · cases h
  · assumption
  · cases h
  · cases h

/-- What a store that holds something of `a` decides for `b`. -/
structure DecidesSame (sha256 : List UInt8 → Digest) (R : RedisClient) (a b : Command) : Prop where
  fingerprint : Command.fingerprint sha256 a = Command.fingerprint sha256 b ↔ a.SameFields b
  record_replay : ∀ existing now c, existing.requestFingerprint = Command.fingerprint sha256 a →
    decideExisting (Command.fingerprint sha256 b) existing now = some (.replay c) → a.SameFields b
  record_conflict : ∀ existing now, existing.requestFingerprint = Command.fingerprint sha256 a →
    decideExisting (Command.fingerprint sha256 b) existing now = some .conflict → ¬ a.SameFields b
  entry_replay : ∀ e c, e.requestFingerprint = some (Command.fingerprint sha256 a).text →
    readClaim R (Command.fingerprint sha256 b)
      (claimAnswer (Command.fingerprint sha256 b).text e) = .ok (.replay c) → a.SameFields b
  entry_conflict : ∀ e, e.requestFingerprint = some (Command.fingerprint sha256 a).text →
    readClaim R (Command.fingerprint sha256 b)
      (claimAnswer (Command.fingerprint sha256 b).text e) = .ok .conflict → ¬ a.SameFields b

/-- Two commands have the same hashed bytes exactly when all their fields are equal. If
SHA-256 tells their texts apart, no store answers one with the result of the other,
and none calls the same command a conflict. -/
theorem fingerprint_decides {sha256 : List UInt8 → Digest} {R : RedisClient} {a b : Command}
    (ha : a.InRange) (hb : b.InRange)
    (hfree : ∀ x y, requestText [] a.modelDump = .ok x → requestText [] b.modelDump = .ok y →
      sha256 (utf8 x) = sha256 (utf8 y) → utf8 x = utf8 y) :
    (∃ x y, requestText [] a.modelDump = .ok x ∧ requestText [] b.modelDump = .ok y ∧
      (utf8 x = utf8 y ↔ a.SameFields b)) ∧
    computeRequestFingerprint sha256 [] a.modelDump = .ok (Command.fingerprint sha256 a) ∧
    computeRequestFingerprint sha256 [] b.modelDump = .ok (Command.fingerprint sha256 b) ∧
    DecidesSame sha256 R a b := by
  have hx := Command.requestText_eq ha
  have hy := Command.requestText_eq hb
  have hsame : Command.fingerprint sha256 a = Command.fingerprint sha256 b ↔ a.SameFields b := by
    refine ⟨fun h => (Command.text_eq_iff ha hb).1 (hfree _ _ hx hy h), fun h => ?_⟩
    exact congrArg sha256 ((Command.text_eq_iff ha hb).2 h)
  refine ⟨⟨_, _, hx, hy, Command.text_eq_iff ha hb⟩, Command.computeRequestFingerprint_eq ha,
    Command.computeRequestFingerprint_eq hb, hsame, ?_, ?_, ?_, ?_⟩
  · intro existing now c hfp h
    exact hsame.1 (hfp.symm.trans (decideExisting_replay h))
  · intro existing now hfp h hfields
    exact decideExisting_conflict h (hfp.trans (hsame.2 hfields))
  · intro e c hfp h
    exact hsame.1 (text_inj (Option.some.inj (hfp.symm.trans (readClaim_replay h))))
  · intro e hfp h hfields
    exact readClaim_conflict h (by rw [hfp, hsame.2 hfields])

/-- 1970-01-01T00:00Z as a clock three hours ahead, and one in UTC, write it. -/
def sampleRegistration (hours : Fin 24) : CreateDefaultProfileCommand where
  userId := 1
  registeredAt :=
    { wall := hours * 3600000000
      utcoffset := some (hours * 3600000000)
      wall_representable := by revert hours; decide
      utcoffset_lt := by
        rintro o ⟨⟩
        unfold dayMicros
        omega }
  registeredAt_aware := rfl

theorem fingerprint_decides_sample : DecidesSame (fun _ => sampleFingerprint) (sampleClient true)
    (.createDefaultProfile (sampleRegistration 3)) (.createDefaultProfile (sampleRegistration 0)) := by
  have ha : (Command.createDefaultProfile (sampleRegistration 3)).InRange :=
    show Representable (sampleRegistration 3).registeredAt.instant by decide
  have hb : (Command.createDefaultProfile (sampleRegistration 0)).InRange :=
    show Representable (sampleRegistration 0).registeredAt.instant by decide
  have hsame : (Command.createDefaultProfile (sampleRegistration 3)).SameFields
      (.createDefaultProfile (sampleRegistration 0)) := ⟨rfl, by decide⟩
  refine (fingerprint_decides ha hb fun x y hx hy _ => ?_).2.2.2
  rw [Command.requestText_eq ha] at hx
  rw [Command.requestText_eq hb] at hy
  cases hx
  cases hy
  exact (Command.text_eq_iff ha hb).2 hsame

end ProfileService.Idempotency
