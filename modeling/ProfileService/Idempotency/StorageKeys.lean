import ProfileService.Idempotency.RedisHotStore

/-!
# Storage keys of the hot store

`_storage_key` joins three parts with a zero byte. The subject and the operation may hold
that byte themselves: this module says exactly which identities it then confuses, and that
all others have nothing of each other.
-/

namespace ProfileService.Idempotency
open Library

def nul : Char := '\x00'

/-- The subject of `k'` goes on, after that of `k` and a NUL, with what `k` has in front of
the operation of `k'`. -/
def Continues (k k' : IdempotencyKey) : Prop :=
  ∃ x, k'.subjectId = k.subjectId ++ nul :: x ∧ k.operation = x ++ nul :: k'.operation

/-- The same bytes, cut at different NULs. -/
def Ambiguous (k k' : IdempotencyKey) : Prop :=
  k.keyDigest = k'.keyDigest ∧ (Continues k k' ∨ Continues k' k)

theorem utf8_append (s t : Str) : utf8 (s ++ t) = utf8 s ++ utf8 t := List.flatMap_append

theorem utf8_nul (s : Str) : utf8 (nul :: s) = 0 :: utf8 s := rfl

theorem storageMaterial_eq (k : IdempotencyKey) :
    storageMaterial k = utf8 (k.subjectId ++ nul :: k.operation) ++ 0 :: k.keyDigest.toList := by
  rw [storageMaterial, utf8_append, utf8_nul, List.append_assoc]
  rfl

theorem append_separator_inj {s t s' t' : Str} {c : Char} (h : s ++ c :: t = s' ++ c :: t') :
    (s = s' ∧ t = t') ∨ (∃ x, s' = s ++ c :: x ∧ t = x ++ c :: t') ∨
      ∃ x, s = s' ++ c :: x ∧ t' = x ++ c :: t := by
  rcases List.append_eq_append_iff.1 h with ⟨x, hs, ht⟩ | ⟨x, hs, ht⟩
  · cases x with
    | nil =>
      rw [List.append_nil] at hs
      exact .inl ⟨hs.symm, (List.cons_eq_cons.1 ht).2⟩
    | cons d x =>
      obtain ⟨rfl, ht'⟩ := List.cons_eq_cons.1 ht
      exact .inr (.inl ⟨x, hs, ht'⟩)
  · cases x with
    | nil =>
      rw [List.append_nil] at hs
      exact .inl ⟨hs, (List.cons_eq_cons.1 ht).2.symm⟩
    | cons d x =>
      obtain ⟨rfl, ht'⟩ := List.cons_eq_cons.1 ht
      exact .inr (.inr ⟨x, hs, ht'⟩)

/-- The hashed bytes are equal for equal identities and for ambiguous ones, and for no others. -/
theorem storageMaterial_eq_iff {k k' : IdempotencyKey} :
    storageMaterial k = storageMaterial k' ↔ k = k' ∨ Ambiguous k k' := by
  rw [storageMaterial_eq, storageMaterial_eq]
  constructor
  · intro h
    have hlength : (0 :: k.keyDigest.toList).length = (0 :: k'.keyDigest.toList).length := by
      rw [List.length_cons, List.length_cons, List.Vector.toList_length, List.Vector.toList_length]
    obtain ⟨htext, hdigest⟩ := List.append_inj' h hlength
    have hkey : k.keyDigest = k'.keyDigest := List.Vector.eq _ _ (List.cons_eq_cons.1 hdigest).2
    rcases append_separator_inj (utf8_injective htext) with ⟨hs, ho⟩ | hcut | hcut
    · obtain ⟨s, o, d, _, _⟩ := k
      obtain ⟨s', o', d', _, _⟩ := k'
      cases hs
      cases ho
      cases hkey
      exact .inl rfl
    · exact .inr ⟨hkey, .inl hcut⟩
    · exact .inr ⟨hkey, .inr hcut⟩
  · rintro (rfl | ⟨hkey, ⟨x, hs, ho⟩ | ⟨x, hs, ho⟩⟩)
    · rfl
    · rw [hkey, hs, ho, List.append_assoc]
      rfl
    · rw [hkey, hs, ho, List.append_assoc]
      rfl

/-- A script the server executes: for whom, whether they still wait, when. -/
structure Message (W : Type) where
  client : W
  awaited : Bool
  instant : Instant
  call : HotCall

variable {W : Type} {R : RedisClient}

def Redis.serveAll (R : RedisClient) (messages : List (Message W)) (h : Redis W) : Redis W :=
  messages.foldl (fun h m => h.serve R m.client m.awaited m.instant m.call) h

/-- No request for `k` can publish to, free or overwrite the entry of `k'`, or see it. -/
structure Isolated (R : RedisClient) (W : Type) (k k' : IdempotencyKey) : Prop where
  material : storageMaterial k ≠ storageMaterial k'
  untouched : ∀ (messages : List (Message W)) (h : Redis W), (∀ m ∈ messages, m.call.identity = k) →
    (h.serveAll R messages).entries (R.storageKey k') = h.entries (R.storageKey k')
  unseen : ∀ (c : HotCall) (now : Instant) (h : Redis W) (e : Option Entry), c.identity = k →
    Redis.answer R now c { h with entries := Function.update h.entries (R.storageKey k') e } =
      h.answer R now c

theorem storageKey_inj {k k' : IdempotencyKey} (h : R.storageKey k = R.storageKey k') :
    R.sha256 (storageMaterial k) = R.sha256 (storageMaterial k') :=
  text_inj (List.cons_eq_cons.1 (List.append_cancel_left h)).2

theorem serveAll_entries {k k' : IdempotencyKey} (hkey : R.storageKey k ≠ R.storageKey k')
    (messages : List (Message W)) (h : Redis W) (hmessages : ∀ m ∈ messages, m.call.identity = k) :
    (h.serveAll R messages).entries (R.storageKey k') = h.entries (R.storageKey k') := by
  induction messages generalizing h with
  | nil => rfl
  | cons m messages ih =>
    have hidentity : m.call.identity = k := hmessages m List.mem_cons_self
    have hone : (h.serve R m.client m.awaited m.instant m.call).entries (R.storageKey k') =
        h.entries (R.storageKey k') := by
      show Function.update h.entries (R.storageKey m.call.identity) _ _ = _
      rw [hidentity, Function.update_of_ne hkey.symm]
    rw [← hone]
    exact ih _ fun m' hm' => hmessages m' (List.mem_cons_of_mem m hm')

/-- Where SHA-256 does not collide, two identities are isolated from each other in the hot
store exactly when they are not ambiguous. -/
theorem isolated_iff {k k' : IdempotencyKey} (hne : k ≠ k')
    (hsha : R.sha256 (storageMaterial k) = R.sha256 (storageMaterial k') →
      storageMaterial k = storageMaterial k') : Isolated R W k k' ↔ ¬ Ambiguous k k' := by
  constructor
  · exact fun h hambiguous => h.material (storageMaterial_eq_iff.2 (.inr hambiguous))
  · intro hambiguous
    have hmaterial : storageMaterial k ≠ storageMaterial k' := fun h =>
      (storageMaterial_eq_iff.1 h).elim hne hambiguous
    have hkey : R.storageKey k ≠ R.storageKey k' := fun h => hmaterial (hsha (storageKey_inj h))
    refine ⟨hmaterial, serveAll_entries hkey, fun c now h e hidentity => ?_⟩
    unfold Redis.answer
    rw [hidentity]
    show R.script now c (visible now (Function.update h.entries (R.storageKey k') e _)) = _
    rw [Function.update_of_ne hkey]

section Sample

def sampleOther : IdempotencyKey where
  subjectId := "subject".toList
  operation := "other".toList
  keyDigest := List.Vector.replicate 32 0
  subjectId_length := sampleKey.subjectId_length
  operation_length := by decide

def sampleDigest (bytes : List UInt8) : Digest := List.Vector.replicate 32 (bytes.getD 9 0)

theorem isolated_iff_sample :
    Isolated (.exact sampleDigest false) Unit sampleKey sampleOther := by
  refine (isolated_iff (by decide) fun h => absurd h (by decide)).2 ?_
  rintro ⟨-, ⟨x, hx, -⟩ | ⟨x, hx, -⟩⟩
  · have hlength := congrArg List.length hx
    simp [sampleKey, sampleOther] at hlength
  · have hlength := congrArg List.length hx
    simp [sampleKey, sampleOther] at hlength

/-- The subject `a NUL b` with the operation `c`. -/
def sampleSplit : IdempotencyKey where
  subjectId := ['a', nul, 'b']
  operation := ['c']
  keyDigest := List.Vector.replicate 32 0
  subjectId_length := by decide
  operation_length := by decide

/-- The subject `a` with the operation `b NUL c`. -/
def sampleJoin : IdempotencyKey where
  subjectId := ['a']
  operation := ['b', nul, 'c']
  keyDigest := List.Vector.replicate 32 0
  subjectId_length := by decide
  operation_length := by decide

/-- Both are hashed as `a NUL b NUL c NUL` and the digest. -/
theorem storageMaterial_collides :
    sampleSplit ≠ sampleJoin ∧ storageMaterial sampleSplit = storageMaterial sampleJoin :=
  ⟨by decide, storageMaterial_eq_iff.2 (.inr ⟨rfl, .inr ⟨['b'], rfl, rfl⟩⟩)⟩

end Sample
end ProfileService.Idempotency
