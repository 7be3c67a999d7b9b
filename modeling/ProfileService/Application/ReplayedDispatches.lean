import ProfileService.Application.SequentialDispatch
import ProfileService.Idempotency.OrphanedLeases
import ProfileService.Idempotency.ExactlyOnce

/-!
# Dispatches one after another

Any run of dispatches is to be seen as the map has it, as long as no failing call leaves a lease
that outlasts the record it is about.
-/

namespace ProfileService.Application
open Library Library.Machine Idempotency

variable {W ι : Type} {ResultT : ι → Type} {catalogue : Catalogue ResultT}

structure Observed (W : Type) {ι : Type} {ResultT : ι → Type} (catalogue : Catalogue ResultT) where
  call : DispatchCall W catalogue
  instant : Instant
  seen : call.Seen

def Observed.made (o : Observed W catalogue) : DispatchCall W catalogue × Instant := (o.call, o.instant)

/-- What is to be seen of the calls, newest first, by the map. -/
def replayed (sha256 : List UInt8 → Digest) :
    List (DispatchCall W catalogue × Instant) → List (Observed W catalogue) × CommandReplays
  | [] => ([], ReplayMap.empty)
  | (call, now) :: earlier =>
    let past := replayed sha256 earlier
    let served := call.serve sha256 now past.2
    (⟨call, now, served.1⟩ :: past.1, served.2)

variable [DecidableEq W] {sha256 : List UInt8 → Digest} {R : RedisClient}
  {s : World W (redisHotStore W R) (handlerCalls ResultT W)} {keys : Set IdempotencyKey}
  {m : CommandReplays}

def dropKey (key : Str) (s : World W (redisHotStore W R) (handlerCalls ResultT W)) :
    World W (redisHotStore W R) (handlerCalls ResultT W) :=
  { s with hot := Redis.evict key s.hot }

/-- Dispatches run one after another, each at an instant, with what was to be seen of them, newest
first. In between time passes and the server drops keys. What leaves a lease behind fails only if
the dispatch, by what the map has when it comes, is `covered`. -/
inductive Dispatches (R : RedisClient) (sha256 : List UInt8 → Digest) (keys : Set IdempotencyKey)
    (covered : DispatchCall W catalogue → Instant → CommandReplays → Prop)
    (s₀ : World W (redisHotStore W R) (handlerCalls ResultT W)) :
    List (Observed W catalogue) → World W (redisHotStore W R) (handlerCalls ResultT W) → Prop where
  | start : Dispatches R sha256 keys covered s₀ [] s₀
  | tick {observed s} (now : Instant) (h : Dispatches R sha256 keys covered s₀ observed s)
      (hle : s.now ≤ now) : Dispatches R sha256 keys covered s₀ observed { s with now := now }
  | evict {observed s} (key : Str) (h : Dispatches R sha256 keys covered s₀ observed s) :
      Dispatches R sha256 keys covered s₀ observed (dropKey key s)
  | dispatch {observed s s'} (call : DispatchCall W catalogue) (seen : call.Seen)
      (h : Dispatches R sha256 keys covered s₀ observed s)
      (hadmitted : Admitted keys sha256 call s.now (replayed sha256 (observed.map Observed.made)).2)
      (hrun : Runs (solo R (covered call s.now (replayed sha256 (observed.map Observed.made)).2)
        ResultT W) call.worker (call.code sha256) s seen.answer s')
      (hran : s'.business.made = seen.ran ++ s.business.made)
      (hlasting : s'.business.lasting = seen.lasting ++ s.business.lasting) :
      Dispatches R sha256 keys covered s₀ (⟨call, s.now, seen⟩ :: observed) s'

theorem Mirrors.tick {now : Instant} (h : Mirrors keys m s) (hle : s.now ≤ now) :
    Mirrors keys m { s with now := now } :=
  ⟨⟨h.inTransaction, h.own, h.staged⟩, h.entries, fun k hk x hx =>
    h.hot k hk x (visible_mono hle hx)⟩

theorem Mirrors.dropKey (key : Str) (h : Mirrors keys m s) : Mirrors keys m (dropKey key s) := by
  refine ⟨⟨h.inTransaction, h.own, h.staged⟩, h.entries, fun k hk x hx => h.hot k hk x ?_⟩
  change visible s.now (Function.update s.hot.entries key none (R.storageKey k)) = some x at hx
  rw [Function.update_apply] at hx
  split at hx
  · cases hx
  · exact hx

def idle (R : RedisClient) (W : Type) [DecidableEq W] (ResultT : ι → Type) (now : Instant) :
    World W (redisHotStore W R) (handlerCalls ResultT W) :=
  World.initial now (Redis.empty : Redis W) (⟨[], [], fun _ => []⟩ : Invocations W ResultT) fun _ => none

theorem mirrors_idle (now : Instant) : Mirrors keys ReplayMap.empty (idle R W ResultT now) :=
  ⟨⟨fun _ => rfl, fun _ _ => rfl, fun _ => rfl⟩, fun _ => rfl, fun _ _ _ hx => by cases hx⟩

theorem Dispatches.mirrors {now : Instant} {observed : List (Observed W catalogue)}
    (hkeys : Set.InjOn R.storageKey keys)
    (h : Dispatches R sha256 keys (LeaseCovered sha256) (idle R W ResultT now) observed s) :
    (replayed sha256 (observed.map Observed.made)).1 = observed ∧
      Mirrors keys (replayed sha256 (observed.map Observed.made)).2 s := by
  induction h with
  | start => exact ⟨rfl, mirrors_idle now⟩
  | tick now _ hle ih => exact ⟨ih.1, ih.2.tick hle⟩
  | evict key _ ih => exact ⟨ih.1, ih.2.dropKey key⟩
  | @dispatch observed s s' call seen _ hadmitted hrun hran hlasting ih =>
    obtain ⟨hpast, hm⟩ := ih
    have hends := (ensures_dispatch hm hkeys hadmitted id).of_runs hrun
    have hseen : (call.serve sha256 s.now (replayed sha256 (observed.map Observed.made)).2).1 =
        seen := by
      obtain ⟨answer, ran, lasting⟩ := seen
      have hans := hends.answer
      have hmade := List.append_cancel_right (hran.symm.trans hends.made)
      have hlast := List.append_cancel_right (hlasting.symm.trans hends.lasting)
      dsimp only at hans hmade hlast
      rw [hans, hmade, hlast]
    refine ⟨?_, hends.mirrors⟩
    show Observed.mk call s.now _ :: (replayed sha256 (observed.map Observed.made)).1 = _
    rw [hseen, hpast]

/-- A call that may come can be made, and ends as the map has it. -/
theorem Dispatches.exists_dispatch
    {covered : DispatchCall W catalogue → Instant → CommandReplays → Prop}
    {s₀ : World W (redisHotStore W R) (handlerCalls ResultT W)} {observed : List (Observed W catalogue)}
    (hkeys : Set.InjOn R.storageKey keys) (h : Dispatches R sha256 keys covered s₀ observed s)
    (hmade : (replayed sha256 (observed.map Observed.made)).2 = m) (hm : Mirrors keys m s)
    {call : DispatchCall W catalogue} (hadmitted : Admitted keys sha256 call s.now m)
    (hcovered : covered call s.now m → LeaseCovered sha256 call s.now m) :
    ∃ s', Dispatches R sha256 keys covered s₀
        (⟨call, s.now, (call.serve sha256 s.now m).1⟩ :: observed) s' ∧
      s'.now = s.now ∧ Mirrors keys (call.serve sha256 s.now m).2 s' := by
  have hserves : Ensures (solo R (covered call s.now m) ResultT W) call.worker _
      (call.code sha256) s := ensures_dispatch hm hkeys hadmitted hcovered
  obtain ⟨r, s', hrun⟩ := hserves.exists_runs
  obtain ⟨rfl, hran, hlasting, hnow, hmirrors⟩ := hserves.of_runs hrun
  subst hmade
  exact ⟨s', .dispatch call _ h hadmitted hrun hran hlasting, hnow, hmirrors⟩

/-- Dispatches one after another, with keys dropped and with claims and completions failing in
between, answer and call handlers as the map has it, and every one of them ends. -/
theorem dispatches_replayed {now : Instant} {observed : List (Observed W catalogue)}
    (hkeys : Set.InjOn R.storageKey keys)
    (h : Dispatches R sha256 keys (LeaseCovered sha256) (idle R W ResultT now) observed s) :
    (replayed sha256 (observed.map Observed.made)).1 = observed ∧
      ∀ call : DispatchCall W catalogue,
        Admitted keys sha256 call s.now (replayed sha256 (observed.map Observed.made)).2 →
        ∃ r s', Runs (solo R (LeaseCovered sha256 call s.now
          (replayed sha256 (observed.map Observed.made)).2) ResultT W) call.worker
          (call.code sha256) s r s' := by
  obtain ⟨hobserved, hm⟩ := h.mirrors hkeys
  refine ⟨hobserved, fun call hadmitted => ?_⟩
  exact (ensures_dispatch hm hkeys hadmitted id).exists_runs

section Sample

theorem null_distinct (_ : Unit) : Json.null.distinctKeys = true := rfl

def sampleCatalogue : Catalogue fun _ : Unit => Unit where
  codec _ := codecOf ⟨fun _ => .null, fun _ => some (), null_distinct⟩
  operation _ := "operation".toList
  policy _ := samplePolicy .hotDurable
  hotDurable _ := rfl
  lease_le_retention _ := by decide

theorem sampleText_length (t : Str) (h : t = "subject".toList) : OptionalLength 1 255 (some t) := by
  intro u hu
  cases hu
  rw [h]
  decide

def sampleContext : CommandContext where
  idempotencyKey := some "subject".toList
  idempotencyScope := some "subject".toList
  idempotencyKey_length := sampleText_length _ rfl
  idempotencyScope_length := sampleText_length _ rfl

def sampleDispatch : DispatchCall Unit sampleCatalogue where
  worker := ()
  kind := ()
  modelDump := .mapping []
  outcome := .ok ()
  context := sampleContext
  mode := .replayable
  leaseToken := 7
  valid _ _ := rfl

def dispatchKey : IdempotencyKey := { sampleKey with keyDigest := sampleFingerprint }

def constantDigest : List UInt8 → Digest := fun _ => sampleFingerprint

def sampleKept : Remembered Digest StoredResult Instant :=
  ⟨sampleFingerprint, (sampleCatalogue.codec ()).encode (), seconds 86400⟩

def sampleReplays : CommandReplays := ReplayMap.empty.remember dispatchKey sampleKept

theorem sampleDispatch_request :
    sampleDispatch.request constantDigest = .ok (sampleFingerprint, dispatchKey) := rfl

theorem sample_injOn : Set.InjOn R.storageKey {dispatchKey} := by
  rintro a rfl b rfl -
  rfl

theorem sample_admitted {now : Instant}
    (h : ∀ e, m dispatchKey = some e → OffDeadline now e.deadline) :
    Admitted {dispatchKey} constantDigest sampleDispatch now m := by
  intro fp k hk
  obtain ⟨-, rfl⟩ := Prod.mk.inj (Except.ok.inj (hk.symm.trans sampleDispatch_request))
  exact ⟨rfl, h⟩

theorem sampleReplays_apply : sampleReplays dispatchKey = some sampleKept :=
  (ReplayMap.remember_apply _ _ _ _).trans (if_pos rfl)

theorem sample_admitted_replays {now : Instant} (h : OffDeadline now (seconds 86400)) :
    Admitted {dispatchKey} constantDigest sampleDispatch now sampleReplays :=
  sample_admitted fun e he => by
    obtain rfl := Option.some.inj (sampleReplays_apply.symm.trans he)
    exact h

theorem offDeadline_before : OffDeadline (seconds 86399) (seconds 86400) :=
  .inl (show ms (seconds 86399) < ms (seconds 86400) by decide)

theorem offDeadline_after : OffDeadline (seconds 86401) (seconds 86400) := by
  refine .inr ⟨show ms (seconds 86400) < ms (seconds 86401) by decide, ?_⟩
  have hms : timestampMs (seconds 86400) = _ := timestampMs_seconds 86400 (by decide)
  rw [hms]
  show _ < ms (seconds 86401)
  decide

/-- Executed at 0. -/
theorem sample_executes : sampleDispatch.serve constantDigest 0 ReplayMap.empty =
    (⟨.ok (), [sampleDispatch.invocation], [sampleDispatch.invocation]⟩, sampleReplays) := by
  rfl

/-- A second before its deadline the result is given again. -/
theorem sample_replays : sampleDispatch.serve constantDigest (seconds 86399) sampleReplays =
    (⟨.ok (), [], []⟩, sampleReplays) := by
  have hreplay : sampleReplays.verdict dispatchKey sampleFingerprint (seconds 86399) =
      .replay sampleKept.kept :=
    (ReplayMap.verdict_remember _ _ _ _ _).trans ((if_neg (by decide)).trans (if_pos rfl))
  exact serve_replay sampleDispatch_request hreplay

/-- A second after it the command is executed again. -/
theorem sample_executes_again :
    (sampleDispatch.serve constantDigest (seconds 86401) sampleReplays).1.ran =
      [sampleDispatch.invocation] := by
  have hrun : sampleReplays.verdict dispatchKey sampleFingerprint (seconds 86401) = .run :=
    (ReplayMap.verdict_remember _ _ _ _ _).trans (if_pos (by decide))
  exact serve_ran sampleDispatch_request hrun

theorem replayed_first : (replayed constantDigest [(sampleDispatch, 0)]).2 = sampleReplays :=
  congrArg Prod.snd sample_executes

theorem replayed_second : (replayed constantDigest [(sampleDispatch, seconds 86399),
    (sampleDispatch, 0)]).2 = sampleReplays := by
  show (sampleDispatch.serve constantDigest (seconds 86399) (replayed _ _).2).2 = _
  rw [replayed_first, sample_replays]

/-- Executed at 0. -/
theorem sample_first (R : RedisClient)
    (covered : DispatchCall Unit sampleCatalogue → Instant → CommandReplays → Prop) :
    ∃ s, Dispatches R constantDigest {dispatchKey} covered (idle R Unit (fun _ : Unit => Unit) 0)
        [⟨sampleDispatch, 0, ⟨.ok (), [sampleDispatch.invocation], [sampleDispatch.invocation]⟩⟩]
        s ∧
      s.now = 0 ∧ Mirrors {dispatchKey} sampleReplays s := by
  have hcovered : LeaseCovered constantDigest sampleDispatch 0 ReplayMap.empty := by
    refine .inl ?_
    rw [sample_executes]
    exact List.cons_ne_nil _ _
  exact Dispatches.exists_dispatch sample_injOn .start rfl (mirrors_idle 0)
    (sample_admitted fun e he => by cases he) fun _ => hcovered

theorem dispatches_replayed_sample : ∃ observed : List (Observed Unit sampleCatalogue),
    (observed.map fun o => o.seen.ran) = [[], [sampleDispatch.invocation]] ∧
      (replayed constantDigest (observed.map Observed.made)).1 = observed := by
  obtain ⟨s, h, hnow, hm⟩ := sample_first (sampleClient true) (LeaseCovered constantDigest)
  have hle : s.now ≤ seconds 86399 := by
    rw [hnow]
    decide
  obtain ⟨s', h', -, -⟩ := (h.tick (seconds 86399) hle).exists_dispatch sample_injOn
    replayed_first (hm.tick hle) (sample_admitted_replays offDeadline_before) id
  refine ⟨_, ?_, (dispatches_replayed sample_injOn h').1⟩
  show [(sampleDispatch.serve constantDigest (seconds 86399) sampleReplays).1.ran, _] = _
  rw [sample_replays]

end Sample

/-! ### A lease that is left behind -/

section Orphan

theorem runs_dispatch {call : DispatchCall W catalogue} {covered : Prop} {fp : Digest} {k : IdempotencyKey}
    {r : Except Exn CompletedIdempotencyResult}
    {s s' : World W (redisHotStore W R) (handlerCalls ResultT W)}
    (hrequest : call.request sha256 = .ok (fp, k))
    (hrun : Runs (solo R covered ResultT W) call.worker (execute k fp
      (callback call.registration () call.mode) (catalogue.policy call.kind) call.leaseToken) s r s') :
    Runs (solo R covered ResultT W) call.worker (call.code sha256) s (do
      let completed ← r
      dispatchAnswer (catalogue.codec call.kind) call.mode completed.toStoredResult) s' := by
  rw [code_eq, hrequest]
  refine hrun.onOutcome ?_
  cases r <;> exact .ret _ _

theorem Mirrors.sample_row {s : World W (redisHotStore W R) (handlerCalls ResultT W)}
    (h : Mirrors keys sampleReplays s) : ∃ row, newest s dispatchKey = some row ∧
      row.completed.requestFingerprint = sampleFingerprint ∧
      row.completed.expiresAt = seconds 86400 := by
  obtain ⟨row, hrow, hkept⟩ :=
    Option.map_eq_some_iff.1 ((h.entries dispatchKey).symm.trans sampleReplays_apply)
  exact ⟨row, hrow, congrArg Remembered.fingerprint hkept, congrArg Remembered.deadline hkept⟩

/-- Dispatched again a second before the deadline, with the cache gone and the completion failing,
the command leaves its lease behind. -/
theorem sample_orphan (R : RedisClient) : ∃ (observed : List (Observed Unit sampleCatalogue))
      (s : World Unit (redisHotStore Unit R) (handlerCalls (fun _ : Unit => Unit) Unit)),
    observed.map Observed.made = [(sampleDispatch, seconds 86399), (sampleDispatch, 0)] ∧
      Dispatches R constantDigest {dispatchKey} (fun _ _ _ => True) (idle R Unit _ 0) observed s ∧
      Rested s ∧ s.now = seconds 86399 ∧
      (∃ row, newest s dispatchKey = some row ∧ row.completed.expiresAt = seconds 86400) ∧
      s.hot.entries (R.storageKey dispatchKey) =
        some (Entry.leased (seconds 86399) sampleFingerprint.text (uuidText 7) 30) := by
  obtain ⟨s, h, hnow, hm⟩ := sample_first R fun _ _ _ => True
  let key := R.storageKey dispatchKey
  let later : World Unit (redisHotStore Unit R) (handlerCalls (fun _ : Unit => Unit) Unit) :=
    { dropKey key s with now := seconds 86399 }
  have hle : (dropKey key s).now ≤ seconds 86399 := by
    show s.now ≤ _
    rw [hnow]
    decide
  have hlater : Mirrors {dispatchKey} sampleReplays later := (hm.dropKey key).tick hle
  obtain ⟨row, hrow, hfp, hdeadline⟩ := hlater.sample_row
  have hlive : later.now < row.completed.expiresAt := by
    rw [hdeadline]
    show seconds 86399 < seconds 86400
    decide
  have hknown : known dispatchKey sampleFingerprint later = some (.replay row.completed) :=
    (known_of_newest hrow hlive).trans (congrArg some (if_pos hfp))
  have hnone : visible later.now (later.hot.entries key) = none := by
    show visible _ (Function.update s.hot.entries key none key) = none
    rw [Function.update_self]
    rfl
  have hcalls : CallsOnce sampleDispatch.invocation _
      (callback sampleDispatch.registration () .replayable : Operation _).hotDurable :=
    callsOnce_callback
  obtain ⟨s', hrun, hdone, hlease⟩ : ∃ s', Runs (solo R True _ Unit) ()
      (execute dispatchKey sampleFingerprint (callback sampleDispatch.registration () .replayable)
        (samplePolicy .hotDurable) 7) later (.ok row.completed) s' ∧
      Done [] [] (newest later) later s' ∧
      s'.hot.entries key = some (Entry.leased later.now sampleFingerprint.text (uuidText 7) 30) :=
    exists_orphan hlater.toRested rfl hcalls hnone hknown trivial
  have hadmitted : Admitted {dispatchKey} constantDigest sampleDispatch later.now
      (replayed constantDigest [(sampleDispatch, 0)]).2 := by
    rw [replayed_first]
    exact sample_admitted_replays offDeadline_before
  refine ⟨_, s', ?_, .dispatch sampleDispatch ⟨_, [], []⟩ ((h.evict key).tick (seconds 86399) hle)
    hadmitted (runs_dispatch sampleDispatch_request hrun) hdone.made hdone.lasting, hdone.toRested,
    hdone.now, ⟨row, (congrFun hdone.newest dispatchKey).trans hrow, hdeadline⟩, hlease⟩
  rfl

/-- A second after the deadline the lease is still there, and the command is in progress. -/
theorem sample_blocked (R : RedisClient) : ∃ (observed : List (Observed Unit sampleCatalogue))
      (s : World Unit (redisHotStore Unit R) (handlerCalls (fun _ : Unit => Unit) Unit)),
    observed.map Observed.made =
        [(sampleDispatch, seconds 86401), (sampleDispatch, seconds 86399), (sampleDispatch, 0)] ∧
      observed.head?.map (fun o => o.seen.ran) = some [] ∧
      Dispatches R constantDigest {dispatchKey} (fun _ _ _ => True) (idle R Unit _ 0) observed s := by
  obtain ⟨observed, s, hmade, h, hrested, hnow, ⟨row, hrow, hdeadline⟩, hlease⟩ := sample_orphan R
  let later : World Unit (redisHotStore Unit R) (handlerCalls (fun _ : Unit => Unit) Unit) :=
    { s with now := seconds 86401 }
  have hle : s.now ≤ seconds 86401 := by
    rw [hnow]
    decide
  have hunknown : known dispatchKey sampleFingerprint later = none := by
    have hrow' : newest later dispatchKey = some row := hrow
    unfold known
    rw [hrow']
    exact if_pos (hdeadline ▸ (show seconds 86400 ≤ seconds 86401 by decide))
  have hvisible : visible later.now (later.hot.entries (R.storageKey dispatchKey)) =
      some (Entry.leased (seconds 86399) sampleFingerprint.text (uuidText 7) 30) := by
    show visible _ (s.hot.entries _) = _
    rw [hlease]
    exact visible_of_le rfl (show ms (seconds 86401) ≤ ms (seconds 86399) + 30 * 1000 by decide)
  obtain ⟨s', hrun, hdone⟩ : ∃ s', Runs (solo R True _ Unit) ()
      (execute dispatchKey sampleFingerprint (callback sampleDispatch.registration () .replayable)
        (samplePolicy .hotDurable) 7) later _ s' ∧ Done [] [] (newest later) later s' :=
    exists_blocked ⟨hrested.inTransaction, hrested.own, hrested.staged⟩ rfl hvisible
      (leased_leases (seconds 86399) sampleFingerprint 7 30) hunknown
  have hadmitted : Admitted {dispatchKey} constantDigest sampleDispatch later.now
      (replayed constantDigest (observed.map Observed.made)).2 := by
    rw [hmade, replayed_second]
    exact sample_admitted_replays offDeadline_after
  refine ⟨_, s', ?_, ?_, .dispatch sampleDispatch ⟨_, [], []⟩ (h.tick (seconds 86401) hle)
    hadmitted (runs_dispatch sampleDispatch_request hrun) hdone.made hdone.lasting⟩
  · rw [List.map_cons, hmade]
    rfl
  · rfl

/-- The lease of a failed completion may outlive the record it was to publish: the map executes
the command again, the dispatch does not. -/
theorem orphaned_lease_blocks : ¬ ∀ (observed : List (Observed Unit sampleCatalogue))
    (s : World Unit (redisHotStore Unit (sampleClient true)) (handlerCalls _ Unit)),
    Dispatches (sampleClient true) constantDigest {dispatchKey} (fun _ _ _ => True)
      (idle (sampleClient true) Unit _ 0) observed s →
    (replayed constantDigest (observed.map Observed.made)).1 = observed := by
  intro hall
  obtain ⟨observed, s, hmade, hran, h⟩ := sample_blocked (sampleClient true)
  have hmapped := congrArg (fun l => l.head?.map fun o => o.seen.ran) (hall observed s h)
  rw [hmade] at hmapped
  change some (sampleDispatch.serve constantDigest (seconds 86401) (replayed _ _).2).1.ran = _ at hmapped
  rw [replayed_second, sample_executes_again, hran] at hmapped
  cases hmapped

end Orphan
end ProfileService.Application
