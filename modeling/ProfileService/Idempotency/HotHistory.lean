import ProfileService.Idempotency.Ownership

/-!
# What a successful publication certifies

The scripts a server executed, read backwards from a successful completion: its
token has held the key since its claim, and every later claim is answered from the
published entry for as long as that is there.
-/

namespace ProfileService.Idempotency
open Library Application

inductive Published (result : CompletedIdempotencyResult) (ttl : Nat) :
    (c : HotCall) → Except Exn c.Reply → Prop where
  | complete (k token) : Published result ttl (.complete k token result ttl) (.ok true)

inductive FromCache (result : CompletedIdempotencyResult) :
    (c : HotCall) → Except Exn c.Reply → Prop where
  | replay (k fp token lease) (h : result.requestFingerprint = fp) :
      FromCache result (.claim k fp token lease) (.ok (.replay result))
  | conflict (k fp token lease) (h : result.requestFingerprint ≠ fp) :
      FromCache result (.claim k fp token lease) (.ok .conflict)

/-- The last millisecond of an entry published at `now`. -/
def publishedUntil (now : Instant) (result : CompletedIdempotencyResult) (ttl : Nat) : Int :=
  ms now + min ((ttl : Int) * 1000) (timestampMs result.expiresAt - ms now)

/-- The entry `_COMPLETE_SCRIPT` leaves. -/
structure Entry.Caches (x : Entry) (result : CompletedIdempotencyResult) (until_ : Int) : Prop where
  formatVersion : x.formatVersion = some version2
  state : x.state = some completed
  leaseToken : x.leaseToken = none
  requestFingerprint : x.requestFingerprint = some result.requestFingerprint.text
  result : x.result = some (encodeCompleted result)
  expireAt : x.expireAt = some until_

variable {R : RedisClient} {now : Instant} {c : HotCall} {e e' : Option Entry}
  {r : Except Exn c.Reply}

theorem claimAnswer_ne_one (fingerprint : Str) (e : Entry) :
    (claimAnswer fingerprint e).code ≠ 1 := by
  unfold claimAnswer
  split
  · exact nofun
  · split
    · exact nofun
    · split
      · exact nofun
      · split
        · exact nofun
        · split
          · exact nofun
          · split
            · exact nofun
            · split <;> exact nofun

theorem readClaim_acquired {fp : Digest} {answer : ClaimAnswer}
    (h : readClaim R fp answer = .ok .acquired) : answer.code = 1 := by
  unfold readClaim at h
  split at h
  · assumption
  · split at h
    · cases h
    · split at h
      · cases h
      · cases h
  · cases h
  · cases h
  · cases h

theorem Effect.granted (h : Effect R now c e r e') (hg : Granted c r) : e = none := by
  cases h with
  | acquire k fp token lease => rfl
  | look k fp token lease x =>
    generalize hr : readClaim R fp (claimAnswer fp.text x) = answer at hg
    cases hg
    exact absurd (readClaim_acquired hr) (claimAnswer_ne_one _ _)
  | renew k token lease x hown => cases hg
  | publish k token result ttl x hown hfp httl => cases hg
  | expire k token result ttl x hown => cases hg
  | release k token x hown => cases hg
  | notRenewed k token lease x => cases hg
  | notCompleted k token result ttl x => cases hg
  | notReleased k token x => cases hg

theorem Effect.published {result : CompletedIdempotencyResult} {ttl : Nat}
    (h : Effect R now c e r e') (hp : Published result ttl c r) :
    (∃ y, e = some y ∧ y.OwnedBy (uuidText c.token)) ∧
      ∃ x, e' = some x ∧ x.Caches result (publishedUntil now result ttl) := by
  cases hp with
  | complete k token =>
    cases h with
    | publish _ _ _ _ y hown hfp httl =>
      exact ⟨⟨y, rfl, hown⟩, _, rfl, hown.1, rfl, rfl, hfp, rfl, rfl⟩

theorem Effect.caches {x : Entry} {result : CompletedIdempotencyResult} {until_ : Int}
    (h : Effect R now c (some x) r e') (hx : x.Caches result until_) :
    e' = some x ∧ (c.isClaim = true → FromCache result c r) := by
  have hno : ∀ token, ¬ x.OwnedBy token := by
    intro token hown
    have hstate := hown.2.1
    rw [hx.state] at hstate
    exact completed_ne_processing (Option.some.inj hstate)
  cases h with
  | look k fp token lease _ =>
    refine ⟨rfl, fun _ => ?_⟩
    rw [readClaim_completed hx.formatVersion hx.state hx.leaseToken hx.requestFingerprint hx.result]
    split
    · rename_i hfp
      exact .replay k fp token lease hfp
    · rename_i hfp
      exact .conflict k fp token lease hfp
  | renew k token lease _ hown => exact absurd hown (hno _)
  | publish k token result ttl _ hown hfp httl => exact absurd hown (hno _)
  | expire k token result ttl _ hown => exact absurd hown (hno _)
  | release k token _ hown => exact absurd hown (hno _)
  | notRenewed k token lease _ => exact ⟨rfl, nofun⟩
  | notCompleted k token result ttl _ => exact ⟨rfl, nofun⟩
  | notReleased k token _ => exact ⟨rfl, nofun⟩

section History
variable {W : Type} {p q : Instant × Redis W}

def Served.key (R : RedisClient) (s : Served W) : Str := R.storageKey s.call.identity

def Served.Acquires (R : RedisClient) (key : Str) (s : Served W) : Prop :=
  s.key R = key ∧ Granted s.call s.reply

/-- The lease of `key` was last granted to `token`. -/
def HeldSince (R : RedisClient) (key : Str) (token : Token) (served : List (Served W)) : Prop :=
  ∃ later claim earlier, served = later ++ claim :: earlier ∧ claim.Acquires R key ∧
    claim.call.token = token ∧ ∀ s ∈ later, ¬ s.Acquires R key

structure Certified (R : RedisClient) (p : Instant × Redis W) (after : List (Served W))
    (s : Served W) (before : List (Served W)) (result : CompletedIdempotencyResult) (ttl : Nat) :
    Prop where
  held : HeldSince R (s.key R) s.call.token before
  answered : ∀ a ∈ after, a.key R = s.key R → a.call.isClaim = true →
    ms a.instant ≤ publishedUntil s.instant result ttl → FromCache result a.call a.reply
  kept : ms p.1 ≤ publishedUntil s.instant result ttl →
    ∃ x, p.2.entries (s.key R) = some x ∧ x.Caches result (publishedUntil s.instant result ttl)

structure HotHistory (R : RedisClient) (p : Instant × Redis W) : Prop where
  lease : ∀ key x token, p.2.entries key = some x → x.OwnedBy (uuidText token) →
    HeldSince R key token p.2.served
  certified : ∀ after s before result ttl, p.2.served = after ++ s :: before →
    Published result ttl s.call s.reply → Certified R p after s before result ttl

theorem HeldSince.cons {key : Str} {token : Token} {served : List (Served W)} {s : Served W}
    (h : HeldSince R key token served) (hs : ¬ s.Acquires R key) :
    HeldSince R key token (s :: served) := by
  obtain ⟨later, claim, earlier, rfl, hclaim, htoken, hlater⟩ := h
  refine ⟨s :: later, claim, earlier, rfl, hclaim, htoken, fun s' hs' => ?_⟩
  rcases List.mem_cons.1 hs' with rfl | hs'
  · exact hs
  · exact hlater s' hs'

theorem HotHistory.tick {h : Redis W} {now' : Instant} (hh : HotHistory R (now, h))
    (hle : now ≤ now') : HotHistory R (now', h) where
  lease := hh.lease
  certified after s before result ttl hserved hp := by
    have hcert := hh.certified after s before result ttl hserved hp
    refine ⟨hcert.held, hcert.answered, fun hlive => hcert.kept ?_⟩
    exact le_trans (Int.ediv_le_ediv (by decide) hle) hlive

theorem Entry.Caches.visible {x : Entry} {result : CompletedIdempotencyResult} {until_ : Int}
    (hx : x.Caches result until_) (hle : ms now ≤ until_) : visible now (some x) = some x :=
  visible_of_le hx.expireAt hle

theorem HotHistory.serve {h : Redis W} {w : W} {awaited : Bool} (hh : HotHistory R (now, h)) :
    HotHistory R (now, h.serve R w awaited now c) where
  lease key x token hx hown := by
    change (h.serve R w awaited now c).entries key = some x at hx
    rw [serve_entries] at hx
    have heff := answer_effect R now c h
    by_cases hkey : key = R.storageKey c.identity
    · rw [if_pos hkey] at hx
      rw [hx] at heff
      rcases heff.owner hown with ⟨y, hy, hyown⟩ | ⟨hgranted, htoken⟩
      · refine (hh.lease key y token ?_ hyown).cons fun hacq => ?_
        · rw [hkey]
          exact (visible_eq_some.1 hy).1
        · rw [heff.granted hacq.2] at hy
          cases hy
      · exact ⟨[], _, h.served, rfl, ⟨hkey.symm, hgranted⟩, (uuidText_inj htoken).symm,
          fun _ hs => absurd hs List.not_mem_nil⟩
    · rw [if_neg hkey] at hx
      exact (hh.lease key x token hx hown).cons fun hacq => hkey hacq.1.symm
  certified after s before result ttl hserved hp := by
    have heff := answer_effect R now c h
    cases after with
    | nil =>
      -- the publication is the call that was just executed
      obtain ⟨rfl, rfl⟩ := List.cons_eq_cons.1 hserved
      obtain ⟨⟨y, hy, hyown⟩, x, hx, hcaches⟩ := heff.published hp
      refine ⟨hh.lease _ y _ (visible_eq_some.1 hy).1 hyown,
        fun _ ha => absurd ha List.not_mem_nil, fun _ => ⟨x, ?_, hcaches⟩⟩
      change (h.serve R w awaited now c).entries (R.storageKey c.identity) = some x
      rw [serve_entries, if_pos rfl, hx]
    | cons a after =>
      obtain ⟨rfl, hold⟩ := List.cons_eq_cons.1 hserved
      have hcert := hh.certified after s before result ttl hold hp
      -- while it is there, the published entry meets every call on its key
      have hmeets : s.key R = R.storageKey c.identity →
          ms now ≤ publishedUntil s.instant result ttl →
          ∃ x, (h.answer R now c).2 = some x ∧
            x.Caches result (publishedUntil s.instant result ttl) ∧
            (c.isClaim = true → FromCache result c (h.answer R now c).1) := by
        intro hkey hlive
        obtain ⟨x, hx, hcaches⟩ := hcert.kept hlive
        rw [← hkey, hx, hcaches.visible hlive] at heff
        obtain ⟨hsame, hclaim⟩ := heff.caches hcaches
        exact ⟨x, hsame, hcaches, hclaim⟩
      refine ⟨hcert.held, fun a ha hkey hclaim hlive => ?_, fun hlive => ?_⟩
      · rcases List.mem_cons.1 ha with rfl | ha
        · obtain ⟨x, -, -, hfrom⟩ := hmeets hkey.symm hlive
          exact hfrom hclaim
        · exact hcert.answered a ha hkey hclaim hlive
      · change ∃ x, (h.serve R w awaited now c).entries (s.key R) = some x ∧ _
        rw [serve_entries]
        by_cases hkey : s.key R = R.storageKey c.identity
        · obtain ⟨x, hx, hcaches, -⟩ := hmeets hkey hlive
          exact ⟨x, by rw [if_pos hkey, hx], hcaches⟩
        · rw [if_neg hkey]
          exact hcert.kept hlive

/-- The history of any run of the scripts, one after another. -/
theorem reachable_history {now₀ : Instant} (hr : RedisReachable R (now₀, Redis.empty) p) :
    HotHistory R p := by
  induction hr with
  | refl =>
    exact {
      lease := fun _ _ _ hx => nomatch hx
      certified := fun after _ _ _ _ hserved => absurd hserved (by cases after <;> exact nofun) }
  | tail _ hs ih =>
    cases hs with
    | tick now now' h hle => exact ih.tick hle
    | serve now h w awaited c hvalid hfresh => exact ih.serve

end History
end ProfileService.Idempotency
