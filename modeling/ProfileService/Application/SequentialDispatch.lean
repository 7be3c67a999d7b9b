import ProfileService.Library.ReplayMap
import ProfileService.Idempotency.SequentialCoordinator
import ProfileService.Application.Dispatching
import Mathlib.Data.Set.Function

/-!
# Dispatches against a replay map

Dispatches one after another answer, and call handlers, as a map would have it that remembers the
results; how the two stores share the work is not to be seen.
-/

namespace ProfileService.Application
open Library Library.Machine Idempotency

/-! ### The map -/

abbrev CommandReplays := ReplayMap IdempotencyKey Digest StoredResult Instant

/-- The commands of a bus: how the results of each kind are stored, and under which policy. -/
structure Catalogue {ι : Type} (ResultT : ι → Type) where
  codec : ∀ i, PydanticResultCodec (ResultT i)
  operation : ι → Str
  policy : ι → IdempotencyPolicy
  hotDurable : ∀ i, (policy i).mode = .hotDurable
  lease_le_retention : ∀ i, (policy i).leaseSeconds ≤ (policy i).retentionSeconds

/-- One call of `CommandBus.dispatch`, and how the handler ends if it is called. -/
structure DispatchCall (W : Type) {ι : Type} {ResultT : ι → Type} (catalogue : Catalogue ResultT) where
  worker : W
  kind : ι
  modelDump : Value
  outcome : Except Exn (ResultT kind)
  context : CommandContext
  mode : ResultMode
  leaseToken : Token
  valid : ∀ result, outcome = .ok result →
    (catalogue.codec kind).adapter.validatePython
      ((catalogue.codec kind).adapter.dumpPython result).sortKeys = some result

variable {W ι : Type} {ResultT : ι → Type} {catalogue : Catalogue ResultT}
  (sha256 : List UInt8 → Digest)

/-- What the mode leaves of a result for later, and gives of it now. -/
def ResultMode.keep {ResultT : Type} (codec : PydanticResultCodec ResultT) (result : ResultT) :
    ResultMode → StoredResult
  | .replayable => codec.encode result
  | .completionOnly => StoredResult.completion

def ResultMode.give {ResultT : Type} (result : ResultT) : (mode : ResultMode) → mode.Answer ResultT
  | .replayable => result
  | .completionOnly => ()

namespace DispatchCall
variable (call : DispatchCall W catalogue)

def invocation : Invocation ResultT := ⟨call.kind, call.outcome⟩

/-- The fingerprint and the identity of the request. -/
def request : Except Exn (Digest × IdempotencyKey) := do
  let fingerprint ← computeRequestFingerprint sha256 [] call.modelDump
  let identity ← middlewareIdentity sha256 call.context.idempotencyKey
    call.context.idempotencyScope (catalogue.operation call.kind)
  return (fingerprint, identity)

/-- What is to be seen of a dispatch: its answer, the handlers it called, and which of these calls
stay. -/
structure Seen where
  answer : Except Exn (call.mode.Answer (ResultT call.kind))
  ran : List (Invocation ResultT)
  lasting : List (Invocation ResultT)

/-- The dispatch as the map has it. -/
def serve (now : Instant) (m : CommandReplays) : call.Seen × CommandReplays :=
  match call.request sha256 with
  | .error e => (⟨.error e, [], []⟩, m)
  | .ok (fingerprint, identity) =>
    match m.verdict identity fingerprint now with
    | .replay kept => (⟨dispatchAnswer (catalogue.codec call.kind) call.mode kept, [], []⟩, m)
    | .conflict => (⟨.error (.idempotencyConflict
        "Ключ идемпотентности повторно использован с отличающимся телом запроса"), [], []⟩, m)
    | .run =>
      match call.outcome with
      | .error e => (⟨.error (raisedAs e), [call.invocation], []⟩, m)
      | .ok result =>
        match deadlineAfter now (catalogue.policy call.kind).retentionSeconds with
        | .error e => (⟨.error (raisedAs e), [call.invocation], []⟩, m)
        | .ok deadline =>
          (⟨.ok (call.mode.give result), [call.invocation], [call.invocation]⟩,
            m.remember identity
              ⟨fingerprint, call.mode.keep (catalogue.codec call.kind) result, deadline⟩)

end DispatchCall

variable {sha256}

section Serve
variable {call : DispatchCall W catalogue} {m : CommandReplays} {now : Instant} {k : IdempotencyKey} {fp : Digest}
  (hrequest : call.request sha256 = .ok (fp, k))

include hrequest

theorem serve_replay {kept : StoredResult} (hv : m.verdict k fp now = .replay kept) :
    call.serve sha256 now m =
      (⟨dispatchAnswer (catalogue.codec call.kind) call.mode kept, [], []⟩, m) := by
  simp only [DispatchCall.serve, hrequest, hv]

theorem serve_conflict (hv : m.verdict k fp now = .conflict) : call.serve sha256 now m =
    (⟨.error (.idempotencyConflict
      "Ключ идемпотентности повторно использован с отличающимся телом запроса"), [], []⟩, m) := by
  simp only [DispatchCall.serve, hrequest, hv]

theorem serve_failed {e : Exn} (hv : m.verdict k fp now = .run)
    (he : retained (call.outcome.map fun result => call.mode.keep (catalogue.codec call.kind) result)
      now (catalogue.policy call.kind).retentionSeconds = .error e) :
    call.serve sha256 now m = (⟨.error (raisedAs e), [call.invocation], []⟩, m) := by
  simp only [DispatchCall.serve, hrequest, hv]
  cases houtcome : call.outcome with
  | error e' =>
    rw [houtcome] at he
    cases he
    rfl
  | ok result =>
    rw [houtcome] at he
    cases hdeadline : deadlineAfter now (catalogue.policy call.kind).retentionSeconds with
    | error e' =>
      simp only [retained, Except.map, hdeadline] at he
      cases he
      rfl
    | ok deadline =>
      simp only [retained, Except.map, hdeadline] at he
      cases he

theorem serve_kept {stored : StoredResult} {deadline : Deadline} (hv : m.verdict k fp now = .run)
    (hkept : retained (call.outcome.map fun result =>
      call.mode.keep (catalogue.codec call.kind) result) now
      (catalogue.policy call.kind).retentionSeconds = .ok (stored, deadline)) :
    ∃ result, call.outcome = .ok result ∧
      stored = call.mode.keep (catalogue.codec call.kind) result ∧
      call.serve sha256 now m = (⟨.ok (call.mode.give result), [call.invocation],
        [call.invocation]⟩, m.remember k ⟨fp, stored, deadline⟩) := by
  simp only [DispatchCall.serve, hrequest, hv]
  cases houtcome : call.outcome with
  | error e' =>
    rw [houtcome] at hkept
    cases hkept
  | ok result =>
    rw [houtcome] at hkept
    cases hdeadline : deadlineAfter now (catalogue.policy call.kind).retentionSeconds with
    | error e' =>
      simp only [retained, Except.map, hdeadline] at hkept
      cases hkept
    | ok deadline' =>
      simp only [retained, Except.map, hdeadline] at hkept
      cases hkept
      exact ⟨result, rfl, rfl, rfl⟩

theorem serve_ran (hv : m.verdict k fp now = .run) : (call.serve sha256 now m).1.ran = [call.invocation] := by
  simp only [DispatchCall.serve, hrequest, hv]
  split
  · rfl
  · split <;> rfl

end Serve

/-- A result that has just been kept is given back as it was. -/
theorem dispatchAnswer_keep {call : DispatchCall W catalogue} {result : ResultT call.kind} (h : call.outcome = .ok result) :
    dispatchAnswer (catalogue.codec call.kind) call.mode
      (call.mode.keep (catalogue.codec call.kind) result) = .ok (call.mode.give result) := by
  have hvalid := call.valid result h
  cases call.mode with
  | completionOnly => rfl
  | replayable => exact (catalogue.codec call.kind).decode_encode hvalid

/-! ### One dispatch -/

namespace DispatchCall
variable [DecidableEq W] (sha256) (call : DispatchCall W catalogue)

def registration : CommandHandlerRegistration (Code (stmtSig (handlerCalls ResultT W)) Exn) Unit
    (ResultT call.kind) where
  handler _ := .call (.stmt call.invocation) .ret
  codec := catalogue.codec call.kind
  operation := catalogue.operation call.kind
  idempotencyPolicy := some (catalogue.policy call.kind)

def code : Code (sig (handlerCalls ResultT W)) Exn (call.mode.Answer (ResultT call.kind)) :=
  dispatch sha256 call.registration (fun _ => call.modelDump) () call.context call.mode
    call.leaseToken

end DispatchCall

variable [DecidableEq W] {R : RedisClient} {covered : Prop}
  {s s' : World W (redisHotStore W R) (handlerCalls ResultT W)} {keys : Set IdempotencyKey}
  {call : DispatchCall W catalogue} {m : CommandReplays}

def remembered (row : DurableRecord) : Remembered Digest StoredResult Instant :=
  ⟨row.completed.requestFingerprint, row.completed.toStoredResult, row.completed.expiresAt⟩

/-- The two stores hold what the map does: the newest records are its entries, and what the hot
store shows goes with them. -/
structure Mirrors (keys : Set IdempotencyKey) (m : CommandReplays)
    (s : World W (redisHotStore W R) (handlerCalls ResultT W)) : Prop extends Rested s where
  entries : ∀ k, m k = (newest s k).map remembered
  hot : ∀ k ∈ keys, ∀ x, visible s.now (s.hot.entries (R.storageKey k)) = some x → Fitting k s x

theorem callsOnce_callback : CallsOnce call.invocation
    (call.outcome.map fun result => call.mode.keep (catalogue.codec call.kind) result)
    (callback call.registration () call.mode).hotDurable := by
  refine ⟨_, rfl, ?_⟩
  show Code.onReturn _ call.outcome = _
  cases call.outcome with
  | error e => rfl
  | ok result => cases call.mode <;> rfl

theorem code_eq : call.code sha256 = (Code.ret (call.request sha256) >>= fun p =>
    execute p.2 p.1 (callback call.registration () call.mode) (catalogue.policy call.kind)
      call.leaseToken >>= fun completed =>
        .ret (dispatchAnswer (catalogue.codec call.kind) call.mode completed.toStoredResult)) := by
  unfold DispatchCall.code dispatch DispatchCall.request
  show (Code.ret (computeRequestFingerprint sha256 [] call.modelDump) >>= fun requestFingerprint =>
    Code.ret (middlewareIdentity sha256 call.context.idempotencyKey call.context.idempotencyScope
      (catalogue.operation call.kind)) >>= fun identity =>
        execute identity requestFingerprint (callback call.registration () call.mode)
          (catalogue.policy call.kind) call.leaseToken >>= fun completed =>
            return completed.toStoredResult) >>= _ = _
  cases computeRequestFingerprint sha256 [] call.modelDump with
  | error e => rfl
  | ok fingerprint =>
    cases middlewareIdentity sha256 call.context.idempotencyKey call.context.idempotencyScope
      (catalogue.operation call.kind) with
    | error e => rfl
    | ok identity =>
      exact Code.bind_assoc (execute identity fingerprint (callback call.registration () call.mode)
        (catalogue.policy call.kind) call.leaseToken)
        (fun completed => .ret (.ok completed.toStoredResult)) fun stored =>
          .ret (dispatchAnswer (catalogue.codec call.kind) call.mode stored)

/-- What is known of a request, as a verdict. -/
def verdictOf : Option IdempotencyResult → Verdict StoredResult
  | none => .run
  | some (.executed completed) => .replay completed.toStoredResult
  | some (.replay completed) => .replay completed.toStoredResult
  | some .conflict => .conflict
  | some .inProgress => .conflict

theorem Mirrors.verdict (h : Mirrors keys m s) (k : IdempotencyKey) (fp : Digest) :
    m.verdict k fp s.now = verdictOf (known k fp s) := by
  unfold ReplayMap.verdict known
  rw [h.entries k]
  cases newest s k with
  | none => rfl
  | some row =>
    simp only [Option.map_some, Option.bind_some, remembered, decideExisting]
    by_cases hexpired : row.completed.expiresAt ≤ s.now
    · rw [if_pos hexpired, if_pos hexpired]
      rfl
    · rw [if_neg hexpired, if_neg hexpired]
      by_cases hfp : row.completed.requestFingerprint = fp <;> simp [hfp, verdictOf]

/-- How one dispatch is to end, by the map. -/
structure EndsAs (keys : Set IdempotencyKey) (sha256 : List UInt8 → Digest)
    (call : DispatchCall W catalogue) (m : CommandReplays)
    (s : World W (redisHotStore W R) (handlerCalls ResultT W))
    (r : Except Exn (call.mode.Answer (ResultT call.kind)))
    (s' : World W (redisHotStore W R) (handlerCalls ResultT W)) : Prop where
  answer : r = (call.serve sha256 s.now m).1.answer
  made : s'.business.made = (call.serve sha256 s.now m).1.ran ++ s.business.made
  lasting : s'.business.lasting = (call.serve sha256 s.now m).1.lasting ++ s.business.lasting
  now : s'.now = s.now
  mirrors : Mirrors keys (call.serve sha256 s.now m).2 s'

/-- The other identities keep their records and their entries. -/
theorem Mirrors.coordinated {k : IdempotencyKey} {fp : Digest} {o : Invocation ResultT}
    {kept : Except Exn (StoredResult × Deadline)} {found : Except Exn IdempotencyResult} {m' : CommandReplays}
    (hm : Mirrors keys m s) (hkeys : Set.InjOn R.storageKey keys) (hk : k ∈ keys)
    (h : Coordinated k fp o kept s s' found) (hrested : Rested s')
    (hentries : ∀ k', m' k' = (newest s' k').map remembered)
    (hothers : ∀ k', k' ≠ k → newest s' k' = newest s k') : Mirrors keys m' s' where
  toRested := hrested
  entries := hentries
  hot k' hk' x hx := by
    by_cases hsame : k' = k
    · subst hsame
      exact h.entry.here x hx
    · have hkey : R.storageKey k' ≠ R.storageKey k := fun he => hsame (hkeys hk' hk he)
      rw [h.entry.elsewhere _ hkey, h.executed.now] at hx
      obtain ⟨row, hrow, hfits⟩ := hm.hot k' hk' x hx
      exact ⟨row, (hothers k' hsame).trans hrow, hfits⟩

theorem known_cases {k : IdempotencyKey} {fp : Digest} {given : IdempotencyResult}
    (h : known k fp s = some given) : given = .conflict ∨ ∃ c, given = .replay c := by
  obtain ⟨row, -, hdecide⟩ := Option.bind_eq_some_iff.1 h
  unfold decideExisting at hdecide
  split at hdecide
  · cases hdecide
  · split at hdecide
    · exact .inl (Option.some.inj hdecide).symm
    · exact .inr ⟨_, (Option.some.inj hdecide).symm⟩

/-- What the dispatch answers if the durable execution gave `found`. -/
def dispatched (call : DispatchCall W catalogue) (found : Except Exn IdempotencyResult) :
    Except Exn (call.mode.Answer (ResultT call.kind)) := do
  let completed ← answerOf found
  dispatchAnswer (catalogue.codec call.kind) call.mode completed.toStoredResult

theorem Mirrors.ends {k : IdempotencyKey} {fp : Digest} {found : Except Exn IdempotencyResult}
    (hm : Mirrors keys m s) (hkeys : Set.InjOn R.storageKey keys) (hk : k ∈ keys)
    (hrequest : call.request sha256 = .ok (fp, k))
    (h : Coordinated k fp call.invocation
      (retained (call.outcome.map fun result => call.mode.keep (catalogue.codec call.kind) result)
        s.now (catalogue.policy call.kind).retentionSeconds) s s' found) :
    EndsAs keys sha256 call m s (dispatched call found) s' := by
  have hverdict := hm.verdict k fp
  have hunchanged : ∀ {ran kept}, Done ran kept (newest s) s s' → Mirrors keys m s' := by
    intro ran kept hdone
    refine hm.coordinated hkeys hk h hdone.toRested (fun k' => ?_) fun k' _ => ?_
    · rw [hdone.newest]
      exact hm.entries k'
    · rw [hdone.newest]
  cases h.executed with
  | known given hknown hdone =>
    rw [hknown] at hverdict
    rcases known_cases hknown with rfl | ⟨c, rfl⟩
    · have hserve := serve_conflict hrequest hverdict
      exact ⟨by rw [hserve]; rfl, by rw [hserve]; exact hdone.made,
        by rw [hserve]; exact hdone.lasting, hdone.now, by rw [hserve]; exact hunchanged hdone⟩
    · have hserve := serve_replay hrequest hverdict
      exact ⟨by rw [hserve]; rfl, by rw [hserve]; exact hdone.made,
        by rw [hserve]; exact hdone.lasting, hdone.now, by rw [hserve]; exact hunchanged hdone⟩
  | failed hunknown e he hdone =>
    rw [hunknown] at hverdict
    have hserve := serve_failed hrequest hverdict he
    exact ⟨by rw [hserve]; rfl, by rw [hserve]; exact hdone.made,
      by rw [hserve]; exact hdone.lasting, hdone.now, by rw [hserve]; exact hunchanged hdone⟩
  | kept hunknown stored deadline row hkept hrow hdone =>
    rw [hunknown] at hverdict
    obtain ⟨result, houtcome, rfl, hserve⟩ := serve_kept hrequest hverdict hkept
    have hrow' : remembered row = ⟨fp, call.mode.keep (catalogue.codec call.kind) result, deadline⟩ := by
      unfold remembered
      rw [hrow]
      rfl
    refine ⟨?_, by rw [hserve]; exact hdone.made, by rw [hserve]; exact hdone.lasting, hdone.now, ?_⟩
    · rw [hserve]
      show dispatchAnswer _ _ row.completed.toStoredResult = _
      rw [hrow]
      exact dispatchAnswer_keep houtcome
    · rw [hserve]
      refine hm.coordinated hkeys hk h hdone.toRested (fun k' => ?_) fun k' hk' => ?_
      · show m.remember k _ k' = _
        rw [hdone.newest, ← hrow', ReplayMap.remember_apply, Function.update_apply]
        split
        · rfl
        · exact hm.entries k'
      · rw [hdone.newest, Function.update_of_ne hk']

/-! ### When a dispatch may come, and what it may leave behind -/

/-- The identity of the request is one of `keys`, and the call does not come in the millisecond of
the deadline that the map has for it. -/
def Admitted (keys : Set IdempotencyKey) (sha256 : List UInt8 → Digest)
    (call : DispatchCall W catalogue) (now : Instant) (m : CommandReplays) : Prop :=
  ∀ fp k, call.request sha256 = .ok (fp, k) →
    k ∈ keys ∧ ∀ e, m k = some e → OffDeadline now e.deadline

/-- By the map the dispatch has just kept a result, or it has one for longer than a lease lasts. -/
def LeaseCovered (sha256 : List UInt8 → Digest) (call : DispatchCall W catalogue) (now : Instant)
    (m : CommandReplays) : Prop :=
  (call.serve sha256 now m).1.lasting ≠ [] ∨
    ∃ fp k e, call.request sha256 = .ok (fp, k) ∧ m k = some e ∧
      ms now + 1000 * (catalogue.policy call.kind).leaseSeconds ≤ ms e.deadline

theorem ms_retained {now : Instant} {result : Except Exn StoredResult} {stored : StoredResult}
    {retention : Nat} {deadline : Deadline} (h : retained result now retention = .ok (stored, deadline)) :
    ms deadline.1 = ms now + 1000 * retention := by
  rw [deadlineAfter_eq (retained_deadline h)]
  unfold ms seconds
  omega

theorem Mirrors.covers {k : IdempotencyKey} {fp : Digest} (hm : Mirrors keys m s)
    (hrequest : call.request sha256 = .ok (fp, k)) (h : LeaseCovered sha256 call s.now m) :
    Covers k fp call.invocation (retained (call.outcome.map fun result =>
      call.mode.keep (catalogue.codec call.kind) result) s.now
      (catalogue.policy call.kind).retentionSeconds) (catalogue.policy call.kind).leaseSeconds s := by
  have hverdict := hm.verdict k fp
  intro found s' hexecuted
  rcases h with hlasting | ⟨fp', k', e, hrequest', he, hend⟩
  · cases hexecuted with
    | known given hknown _ =>
      rw [hknown] at hverdict
      rcases known_cases hknown with rfl | ⟨c, rfl⟩
      · exact absurd (by rw [serve_conflict hrequest hverdict]) hlasting
      · exact absurd (by rw [serve_replay hrequest hverdict]) hlasting
    | failed hunknown e he _ =>
      rw [hunknown] at hverdict
      exact absurd (by rw [serve_failed hrequest hverdict he]) hlasting
    | kept hunknown stored deadline row hkept hrow hdone =>
      refine ⟨row, by rw [hdone.newest, Function.update_self], ?_⟩
      have hle := catalogue.lease_le_retention call.kind
      have hms := ms_retained hkept
      rw [hrow]
      show _ ≤ ms deadline.1
      omega
  · obtain ⟨-, rfl⟩ := Prod.mk.inj (Except.ok.inj (hrequest'.symm.trans hrequest))
    obtain ⟨row, hrow, rfl⟩ := Option.map_eq_some_iff.1 ((hm.entries k').symm.trans he)
    change _ ≤ ms row.completed.expiresAt at hend
    have hlease := (catalogue.policy call.kind).leaseSeconds_pos
    have hlive : s.now < row.completed.expiresAt := by
      by_contra hover
      have hle : ms row.completed.expiresAt ≤ ms s.now := Int.ediv_le_ediv (by decide) (not_lt.1 hover)
      omega
    have hknown : known k' fp s = some _ := known_of_newest hrow hlive
    cases hexecuted with
    | known _ _ hdone => exact ⟨row, by rw [hdone.newest]; exact hrow, hend⟩
    | failed hunknown _ _ _ =>
      rw [hknown] at hunknown
      cases hunknown
    | kept hunknown _ _ _ _ _ _ =>
      rw [hknown] at hunknown
      cases hunknown

/-- The dispatch of a request with an identity ends as the map has it. -/
theorem ensures_dispatch (hm : Mirrors keys m s) (hkeys : Set.InjOn R.storageKey keys)
    (hadmitted : Admitted keys sha256 call s.now m)
    (hcovered : covered → LeaseCovered sha256 call s.now m) :
    Ensures (solo R covered ResultT W) call.worker (EndsAs keys sha256 call m s) (call.code sha256)
      s := by
  rw [code_eq]
  cases hrequest : call.request sha256 with
  | error e =>
    have hserve : call.serve sha256 s.now m = (⟨.error e, [], []⟩, m) := by
      simp only [DispatchCall.serve, hrequest]
    exact ⟨by rw [hserve], by rw [hserve]; rfl, by rw [hserve]; rfl, rfl, by rw [hserve]; exact hm⟩
  | ok p =>
    obtain ⟨fp, k⟩ := p
    obtain ⟨hk, hdeadline⟩ := hadmitted fp k hrequest
    have hoff : OffDeadlines k s := fun row hrow =>
      hdeadline (remembered row) (by rw [hm.entries, hrow]; rfl)
    refine (ensures_execute hm.toRested (catalogue.hotDurable call.kind) (hm.hot k hk) hoff
      callsOnce_callback fun h => hm.covers hrequest (hcovered h)).bind (fun completed s₁ hs₁ => ?_) fun e s₁ hs₁ => ?_
    · obtain ⟨found, hfound, hcoordinated⟩ := hs₁
      have hends := hm.ends hkeys hk hrequest hcoordinated
      unfold dispatched at hends
      rw [← hfound] at hends
      exact hends
    · obtain ⟨found, hfound, hcoordinated⟩ := hs₁
      have hends := hm.ends hkeys hk hrequest hcoordinated
      unfold dispatched at hends
      rw [← hfound] at hends
      exact hends

end ProfileService.Application
