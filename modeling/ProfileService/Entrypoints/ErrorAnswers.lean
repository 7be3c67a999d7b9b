import ProfileService.Entrypoints.ExpectedErrors
import ProfileService.Entrypoints.PatchSemantics

/-!
# What a client is told of an expected error

The dispatches of the writing routes, run together over the Redis hot store and the
database. Of the expected exceptions a PATCH ends with, only the refusal of a clock that is
not past the creation of the row has no answer of its own.
-/

namespace ProfileService.Entrypoints
open Domain Library Library.Machine Application Infrastructure Idempotency

variable {W : Type} [DecidableEq W] {zones : ZoneInfo} {fault : Exn → Prop} {D : Deployment}
  {call : Call} {token : Token}

/-! ### One dispatch as a request of the coordinator -/

def Call.context : Call → CommandContext
  | .patchMyProfile userId _ key _ => commandContext userId key
  | .patchMySettings userId _ key _ => commandContext userId key
  | .provisionProfile userId _ => provisioningContext userId

def Call.operationName : Call → Str
  | .patchMyProfile .. => "profile.update.v1".toList
  | .patchMySettings .. => "settings.update.v1".toList
  | .provisionProfile .. => "profile.create_default.v1".toList

def Call.operation (D : Deployment) (zones : ZoneInfo) (fault : Exn → Prop) :
    Call → Operation (database W zones fault)
  | .patchMyProfile userId version _ body =>
    callback (D.registry zones fault).updateProfile (Entrypoints.patchMyProfile userId version body)
      .replayable
  | .patchMySettings userId version _ body =>
    callback (D.registry zones fault).updateSettings
      (Entrypoints.patchMySettings userId version body) .replayable
  | .provisionProfile userId registeredAt =>
    callback (D.registry zones fault).createDefaultProfile
      (Entrypoints.provisionProfile userId registeredAt) .completionOnly

def Call.answer (D : Deployment) : Call → StoredResult → Except Exn Response
  | .patchMyProfile .., stored => (codecOf D.adapters.profile).decode stored >>= fun profile =>
    .ok (privateVersion (D.adapters.profile.dumpPython profile) profile.version)
  | .patchMySettings .., stored => (codecOf D.adapters.settings).decode stored >>= fun settings =>
    .ok (privateVersion (D.adapters.settings.dumpPython settings) settings.version)
  | .provisionProfile .., _ => .ok ⟨204, .null, noStore⟩

def Call.fingerprint (D : Deployment) (call : Call) : Except Exn Digest :=
  computeRequestFingerprint D.sha256 [] call.command.modelDump

def Call.identity (D : Deployment) (call : Call) : Except Exn IdempotencyKey :=
  middlewareIdentity D.sha256 call.context.idempotencyKey call.context.idempotencyScope
    call.operationName

omit [DecidableEq W] in
theorem dispatch_bind {B : Business W} {CommandT ResultT : Type} {policy : IdempotencyPolicy}
    {registration : CommandHandlerRegistration (Code (stmtSig B) Exn) CommandT ResultT}
    {sha256 : List UInt8 → Digest} {modelDump : CommandT → Value} {command : CommandT}
    {context : CommandContext} {mode : ResultMode} {α : Type} {f : mode.Answer ResultT → α}
    (hpolicy : registration.idempotencyPolicy = some policy) :
    (dispatch sha256 registration modelDump command context mode token >>= fun result =>
        return f result) =
      (Code.ret (computeRequestFingerprint sha256 [] (modelDump command)) >>= fun fp =>
        Code.ret (middlewareIdentity sha256 context.idempotencyKey context.idempotencyScope
          registration.operation) >>= fun identity =>
          execute identity fp (callback registration command mode) policy token >>=
            fun completed => .ret (dispatchAnswer registration.codec mode completed.toStoredResult
              >>= fun result => .ok (f result))) := by
  have hret : ∀ r : Except Exn (mode.Answer ResultT),
      ((Code.ret r : Code (sig B) Exn _) >>= fun result => return f result) =
        .ret (r >>= fun result => .ok (f result)) := fun r => by cases r <;> rfl
  simp only [dispatch, runCallback, hpolicy, Code.bind_assoc]
  congr 1
  funext fp
  congr 1
  funext identity
  congr 1
  funext completed
  exact hret _

theorem Call.dispatch_eq :
    (call.dispatch D token : Code (sig (database W zones fault)) Exn Response) =
      (Code.ret (call.fingerprint D) >>= fun requestFingerprint =>
        Code.ret (call.identity D) >>= fun identity =>
          execute identity requestFingerprint (call.operation D zones fault) D.policy.1 token >>=
            fun completed => .ret (call.answer D completed.toStoredResult)) := by
  cases call with
  | patchMyProfile userId version key body => exact dispatch_bind rfl
  | patchMySettings userId version key body => exact dispatch_bind rfl
  | provisionProfile userId registeredAt => exact dispatch_bind rfl

theorem middlewareIdentity_ok {sha256 : List UInt8 → Digest} {key scope operation : Str}
    (hkey : 1 ≤ key.length) (hscope : 1 ≤ scope.length ∧ scope.length ≤ 255)
    (hoperation : 1 ≤ operation.length ∧ operation.length ≤ 100) :
    ∃ identity, middlewareIdentity sha256 (some key) (some scope) operation = .ok identity := by
  cases key with
  | nil => cases hkey
  | cons c key =>
    cases scope with
    | nil => cases hscope.1
    | cons d scope =>
      refine ⟨⟨d :: scope, operation, computeKeyDigest sha256 (c :: key), hscope, hoperation⟩, ?_⟩
      show identityOf _ _ _ = _
      rw [identityOf, dif_pos hscope, dif_pos hoperation]

theorem Call.operationName_length (call : Call) :
    1 ≤ call.operationName.length ∧ call.operationName.length ≤ 100 := by
  have hnames : ∀ name ∈ ["profile.update.v1".toList, "settings.update.v1".toList,
      "profile.create_default.v1".toList], 1 ≤ name.length ∧ name.length ≤ 100 := by decide
  cases call with
  | patchMyProfile userId version key body => exact hnames _ (List.mem_cons_self)
  | patchMySettings userId version key body =>
    exact hnames _ (List.mem_cons_of_mem _ List.mem_cons_self)
  | provisionProfile userId registeredAt =>
    exact hnames _ (List.mem_cons_of_mem _ (List.mem_cons_of_mem _ List.mem_cons_self))

theorem Call.exists_identity : ∃ identity, call.identity D = .ok identity := by
  have hhttp : ∀ userId, 1 ≤ (httpScope userId).length ∧ (httpScope userId).length ≤ 255 :=
    fun userId => httpScope_length userId _ rfl
  cases call with
  | patchMyProfile userId version key body =>
    exact middlewareIdentity_ok key.2.1 (hhttp userId) (Call.operationName_length _)
  | patchMySettings userId version key body =>
    exact middlewareIdentity_ok key.2.1 (hhttp userId) (Call.operationName_length _)
  | provisionProfile userId registeredAt =>
    exact middlewareIdentity_ok (uuidText_bounded userId _ rfl).1 (provisioningScope_length _ rfl)
      (Call.operationName_length _)

omit [DecidableEq W] in
theorem invokeHandler_returned {B : Business W} {CommandT ResultT : Type}
    {registration : CommandHandlerRegistration (Code (stmtSig B) Exn) CommandT ResultT}
    {command : CommandT} {mode : ResultMode} {w : W} {b b' : B.State} {stored : StoredResult}
    (h : Ran w (invokeHandler registration command mode) b (.ok stored) b') :
    stored.isCompletionOnly = true ↔ mode = .completionOnly := by
  obtain ⟨result, b₁, hresult⟩ := h.bind_ok
  cases mode with
  | completionOnly =>
    obtain rfl := Except.ok.inj hresult.of_ret
    exact iff_of_true rfl rfl
  | replayable =>
    obtain rfl := Except.ok.inj hresult.of_ret
    exact iff_of_false Bool.false_ne_true fun h => ResultMode.noConfusion h

theorem Call.operation_returned {w : W} {b b' : (database W zones fault).State}
    {stored : StoredResult}
    (h : Ran w (call.operation D zones fault).hotDurable b (.ok stored) b') :
    stored.isCompletionOnly = true ↔ call.isPatch = false := by
  have hreplayable : ResultMode.replayable = .completionOnly ↔ true = false :=
    iff_of_false (fun h => (nomatch h)) Bool.noConfusion
  cases call with
  | patchMyProfile userId version key body => exact (invokeHandler_returned h).trans hreplayable
  | patchMySettings userId version key body => exact (invokeHandler_returned h).trans hreplayable
  | provisionProfile userId registeredAt =>
    exact (invokeHandler_returned h).trans (iff_of_true rfl rfl)

/-- `q` is the request a dispatch makes of the coordinator. A dispatch that makes none has
one too, whose operation returns nothing. -/
structure Call.Makes (D : Deployment) (token : Token) (call : Call)
    (q : Request (database W zones fault)) : Prop where
  mode : q.policy.mode = .hotDurable
  returned : ∀ {w b stored b'}, Ran w q.operation.hotDurable b (.ok stored) b' →
    call.fingerprint D = .ok q.requestFingerprint ∧
      (stored.isCompletionOnly = true ↔ call.isPatch = false)
  dispatch : (call.isPatch = false ∧ ∃ e,
      (call.dispatch D token : Code (sig (database W zones fault)) Exn Response) =
        .ret (.error e)) ∨
    (q.operation = call.operation D zones fault ∧ call.fingerprint D = .ok q.requestFingerprint ∧
      call.dispatch D token =
        q.code >>= fun completed => .ret (call.answer D completed.toStoredResult))

theorem Call.exists_request :
    ∃ q : Request (database W zones fault), call.Makes D token q := by
  obtain ⟨identity, hidentity⟩ := @Call.exists_identity D call
  cases hfp : call.fingerprint D with
  | error e =>
    have hpatch : call.isPatch = false := by
      cases call with
      | provisionProfile userId registeredAt => rfl
      | patchMyProfile userId version key body =>
        have hok := @Command.computeRequestFingerprint_eq D.sha256
          (Call.patchMyProfile userId version key body).command trivial
        rw [Call.fingerprint, hok] at hfp
        cases hfp
      | patchMySettings userId version key body =>
        have hok := @Command.computeRequestFingerprint_eq D.sha256
          (Call.patchMySettings userId version key body).command trivial
        rw [Call.fingerprint, hok] at hfp
        cases hfp
    refine ⟨⟨identity, D.sha256 [], ⟨.ret (.error e), .ret (.error e)⟩, D.policy.1, token⟩,
      D.policy.2, fun h => ?_, .inl ⟨hpatch, e, ?_⟩⟩
    · cases h.of_ret
    · rw [Call.dispatch_eq, hfp]
      rfl
  | ok fp =>
    refine ⟨⟨identity, fp, call.operation D zones fault, D.policy.1, token⟩, D.policy.2,
      fun h => ⟨hfp, Call.operation_returned h⟩, .inr ⟨rfl, hfp, ?_⟩⟩
    rw [Call.dispatch_eq, hfp, hidentity]
    rfl

/-! ### What a dispatch raises -/

/-- What the routes run on: the Redis store and the database, failing as they like. -/
abbrev RouteWorld (W : Type) [DecidableEq W] (R : RedisClient) (zones : ZoneInfo) : Type :=
  World W (redisHotStore W R) (database W zones Failures.any.fault)

section Raising
variable {R : RedisClient} {w : W} {s s' : RouteWorld W R zones}

/-- The last clock reading of `w` is not past the creation of the stored version that its
PATCH was to change. -/
def Call.Late (call : Call) (w : W) (s : RouteWorld W R zones) : Prop :=
  match call.command with
  | .updateProfile command =>
    LateChange .profiles command.userId command.expectedVersion command.change w s
  | .updateSettings command =>
    LateChange .settings command.userId command.expectedVersion command.change w s
  | _ => False

def Call.Known (call : Call) (w : W) (d : DomainError) (s : RouteWorld W R zones) : Prop :=
  Registered d ∨ (d = .invalidTimestamp ∧ call.Late w s)

theorem Call.Late.transport (h : call.Late w s)
    (hkeep : ∀ (name : TableName) (id : UserId) (expectedVersion : Nat)
      (change : Change (FieldsOf zones name)), LateChange name id expectedVersion change w s →
      LateChange name id expectedVersion change w s') : call.Late w s' := by
  cases call with
  | patchMyProfile userId version key body => exact hkeep .profiles _ _ _ h
  | patchMySettings userId version key body => exact hkeep .settings _ _ _ h
  | provisionProfile userId registeredAt => exact h.elim

theorem Call.Known.transport {d : DomainError} (h : call.Known w d s)
    (hkeep : ∀ (name : TableName) (id : UserId) (expectedVersion : Nat)
      (change : Change (FieldsOf zones name)), LateChange name id expectedVersion change w s →
      LateChange name id expectedVersion change w s') : call.Known w d s' := by
  rcases h with h | ⟨rfl, h⟩
  · exact .inl h
  · exact .inr ⟨rfl, h.transport hkeep⟩

theorem any_orchestration (e : Exn) (h : Failures.any.fault e) : e.isOrchestration = true := by
  rcases h with rfl | ⟨q, rfl⟩ <;> rfl

omit [DecidableEq W] in
theorem redisExec_raises {now : Instant} {c : HotCall} {h h' : Redis W} {e : Exn}
    (he : redisExec R w now c h (.error e) h') : e.isOrchestration = true := by
  unfold redisExec at he
  split at he
  · rcases he with ⟨hanswer, -⟩ | ⟨e', hfault, hraised, -⟩
    · cases c with
      | claim k fp token lease =>
        change .error e = readClaim R fp _ at hanswer
        unfold readClaim at hanswer
        split at hanswer
        · cases hanswer
        · split at hanswer
          · cases hanswer
            rfl
          · split at hanswer
            · cases hanswer
              rfl
            · cases hanswer
        · cases hanswer
        · cases hanswer
        · cases hanswer
          rfl
      | renew k token lease => cases hanswer
      | complete k token result ttl => cases hanswer
      | release k token => cases hanswer
    · cases hraised
      rcases hfault with rfl | ⟨message, rfl⟩ <;> rfl
  · obtain ⟨hraised, -⟩ := he
    cases hraised
    cases c <;> rfl

theorem Call.escapeContract (call : Call) (w : W) :
    EscapeContract (H := redisHotStore W R) (B := database W zones Failures.any.fault)
      Failures.any w Sound (call.Known w) (fun _ => True) where
  fault := any_orchestration
  hotRaises he := redisExec_raises he
  db hstep hi := hi.housekeeping hstep.housekeeping
  write _ _ hi := ⟨hi.rows, hi.idle⟩
  ready_frame _ _ := True.intro
  ready_readClock _ := True.intro
  hot _ hi := ⟨hi.rows, hi.idle⟩
  heartbeat hi := ⟨hi.rows, hi.idle⟩
  frame h hf := h.transport fun _ _ _ _ hlate => hlate.frame hf
  rollback h := h.transport fun _ _ _ _ hlate => hlate.rollback
  setHot h := h.transport fun _ _ _ _ hlate => hlate
  setHeartbeat h := h.transport fun _ _ _ _ hlate => hlate
  race hrace _ := .inl (registered_of_race hrace)

theorem raises_invokeHandler {CommandT ResultT : Type}
    {registration : CommandHandlerRegistration
      (Code (stmtSig (database W zones Failures.any.fault)) Exn) CommandT ResultT}
    {command : CommandT} {mode : ResultMode}
    (h : RaisesStmt Failures.any w (call.Known w) (registration.handler command) s) :
    RaisesStmt Failures.any w (call.Known w) (invokeHandler registration command mode) s :=
  h.bind_raises fun result s₁ _ => by
    cases mode <;> exact fun s₂ _ _ => raises_ok _ s₂

theorem Call.raises_operation (hs : Begun w Sound s) :
    ReadiesDb Failures.any Sound w (call.Known w) (fun _ => True)
      ((call.operation D zones Failures.any.fault).hotDurable.lift (stmtInDb _)) s := by
  obtain ⟨s₀, hsound, hidle, hf⟩ := hs
  have ht : s.inTransaction w = true := hf.inTransaction.trans (by simp [World.begin])
  have hown : ∀ name id, (rowOf name id s).own w = none := fun name id =>
    ((hf.business name id).own).trans (hsound.idle w hidle name id)
  have hknown : ∀ d (s : RouteWorld W R zones), Registered d → call.Known w d s :=
    fun _ _ h => .inl h
  have hframe : ∀ {d} {s s' : RouteWorld W R zones}, call.Known w d s → Frame w s s' →
      call.Known w d s' := fun h hf => (call.escapeContract w).frame h hf
  refine Safe.mono (P := Raises (Escapes (call.Known w))) (safe_stmtInDb ?_)
    fun r s' h => ⟨h, fun _ _ => True.intro⟩
  cases call with
  | patchMyProfile userId version key body =>
    show RaisesStmt _ w _ (invokeHandler (D.registry zones _).updateProfile _ .replayable) s
    apply raises_invokeHandler
    exact raises_updateProfileHandler any_orchestration hknown hframe (fun _ h => .inr ⟨rfl, h⟩) ht
      (hown _ _)
  | patchMySettings userId version key body =>
    show RaisesStmt _ w _ (invokeHandler (D.registry zones _).updateSettings _ .replayable) s
    apply raises_invokeHandler
    exact raises_updateSettingsHandler any_orchestration hknown (fun _ h => .inr ⟨rfl, h⟩) ht
      (hown _ _)
  | provisionProfile userId registeredAt =>
    show RaisesStmt _ w _ (invokeHandler (D.registry zones _).createDefaultProfile _
      .completionOnly) s
    apply raises_invokeHandler
    exact raises_createDefaultProfileHandler any_orchestration ht fun name => hown name _

end Raising

/-! ### Any number of dispatches -/

/-- The aggregates the tables hold before a run, each under its own key. -/
structure Population (zones : ZoneInfo) where
  entity : (name : TableName) → UserId → Option (VersionedMutableEntity (FieldsOf zones name))
  entity_id : ∀ name id a, entity name id = some a → a.id = id

def Population.rows (population : Population zones) (name : TableName) (id : UserId) :
    Option (tableOf zones name).Row :=
  (population.entity name id).map (tableOf zones name).values

section Running
variable {R : RedisClient} {population : Population zones} {now : Instant} {calls : W → Call}
  {tokens : W → Token} {w : W}

def RouteWorld.initial (W : Type) [DecidableEq W] (R : RedisClient) (population : Population zones)
    (now : Instant) : RouteWorld W R zones :=
  World.initial now (Redis.empty : Redis W) (Tables.stored population.rows) fun _ => none

theorem Population.own_stored (population : Population zones) (w : W) (name : TableName)
    (id : UserId) : ((Tables.stored population.rows : Tables W zones).rows name id).own w = none := by
  unfold Tables.stored
  cases h : population.rows name id with
  | none => simp [h, Row.absent, Row.own]
  | some row => simp [h, Row.stored, Row.own]

theorem initial_sound : Sound (RouteWorld.initial W R population now) where
  rows name id := by
    show RowSound zones name id ((population.rows name id).elim Row.absent Row.stored)
    unfold Population.rows
    cases h : population.entity name id with
    | none => exact ⟨0, fun v hv => (nomatch hv), fun u r hp => (nomatch hp)⟩
    | some a =>
      refine ⟨a.createdAt, fun v hv => ?_, fun u r hp => (nomatch hp)⟩
      obtain rfl := List.mem_singleton.1 hv
      exact ⟨a, rfl, population.entity_id name id a h, rfl⟩
  idle w _ name id := population.own_stored w name id

theorem Call.sameFields {call call' : Call} {fp : Digest} (h : call.fingerprint D = .ok fp)
    (h' : call'.fingerprint D = .ok fp)
    (hfree : ∀ x y, requestText [] call.command.modelDump = .ok x →
      requestText [] call'.command.modelDump = .ok y →
      D.sha256 (utf8 x) = D.sha256 (utf8 y) → utf8 x = utf8 y) :
    call.command.SameFields call'.command := by
  have htext : ∀ {call : Call}, call.fingerprint D = .ok fp → call.command.InRange ∧
      requestText [] call.command.modelDump = .ok (Command.text call.command) ∧
      D.sha256 (utf8 (Command.text call.command)) = fp := by
    intro call h
    unfold Call.fingerprint computeRequestFingerprint at h
    cases hx : requestText [] call.command.modelDump with
    | error e =>
      rw [hx] at h
      cases h
    | ok x =>
      have hrange : call.command.InRange := Command.inRange_of_requestText hx
      rw [hx] at h
      have hxt : x = Command.text call.command :=
        Except.ok.inj (hx.symm.trans (Command.requestText_eq hrange))
      subst hxt
      exact ⟨hrange, rfl, Except.ok.inj h⟩
  obtain ⟨hrange, hx, hsha⟩ := htext h
  obtain ⟨hrange', hy, hsha'⟩ := htext h'
  exact (Command.text_eq_iff hrange hrange').1 (hfree _ _ hx hy (hsha.trans hsha'.symm))

theorem Call.isPatch_eq {call call' : Call} {fp : Digest} (h : call.fingerprint D = .ok fp)
    (h' : call'.fingerprint D = .ok fp)
    (hfree : ∀ x y, requestText [] call.command.modelDump = .ok x →
      requestText [] call'.command.modelDump = .ok y →
      D.sha256 (utf8 x) = D.sha256 (utf8 y) → utf8 x = utf8 y) : call.isPatch = call'.isPatch := by
  have hclass : call.command.commandClass = call'.command.commandClass :=
    Command.SameFields.commandClass (Call.sameFields h h' hfree)
  cases call with
  | provisionProfile userId registeredAt =>
    cases call' with
    | provisionProfile userId' registeredAt' => rfl
    | _ => cases hclass
  | _ =>
    cases call' with
    | provisionProfile userId' registeredAt' => cases hclass
    | _ => rfl

/-- What a dispatch of the run that ended with an expected exception owes its client. -/
def Call.Answered (call : Call) (w : W) (e : Exn) (s : RouteWorld W R zones) : Prop :=
  call.Handled e ∨ (e = .domain .invalidTimestamp ∧ call.Late w s)

variable {job : W → Request (database W zones Failures.any.fault)} {s : RouteWorld W R zones}

/-- The records of a run are markers exactly where provisionings wrote them. -/
theorem stored_completion
    (hjob : ∀ w, (calls w).Makes D (tokens w) (job w))
    (hfree : ∀ u v x y, requestText [] (calls u).command.modelDump = .ok x →
      requestText [] (calls v).command.modelDump = .ok y →
      D.sha256 (utf8 x) = D.sha256 (utf8 y) → utf8 x = utf8 y)
    (hs : Consistent job (fun _ => []) s) {k : IdempotencyKey} {c : CompletedIdempotencyResult}
    (hstored : Stored k c s) (hfp : (calls w).fingerprint D = .ok c.requestFingerprint) :
    c.isCompletionOnly = true ↔ (calls w).isPatch = false := by
  obtain ⟨v, hv, rfl⟩ := hstored
  rw [hs.versions k, List.append_nil] at hv
  obtain ⟨commit, hcommit, hinstalled⟩ := List.mem_filterMap.1 hv
  obtain ⟨row, hrow, rfl⟩ := Option.map_eq_some_iff.1 hinstalled
  obtain ⟨-, -, b₀, b₁, stored, expiresAt, -, hran, -, hcompleted⟩ :=
    (hs.commits commit hcommit).own k row hrow
  obtain ⟨hown, hmarker⟩ := (hjob commit.worker).returned hran
  simp only [hcompleted] at hfp ⊢
  rw [Call.isPatch_eq hfp hown (hfree w commit.worker)]
  exact hmarker

theorem Call.answer_error {call : Call} {stored : StoredResult} {e : Exn}
    (h : call.answer D stored = .error e) (hstored : stored.isCompletionOnly = false) :
    call.Handled e := by
  have hdecode : ∀ {ResultT : Type} {codec : PydanticResultCodec ResultT}
      {f : ResultT → Except Exn Response}, (∀ a e, f a ≠ .error e) →
      (codec.decode stored >>= f) = .error e → call.Handled e := by
    intro ResultT codec f hf h
    cases hd : codec.decode stored with
    | ok result =>
      rw [hd] at h
      exact absurd h (hf result e)
    | error e' =>
      rw [hd] at h
      cases h
      rcases codec.decode_error hd with ⟨hmarker, -⟩ | ⟨message, rfl⟩
      · rw [hstored] at hmarker
        cases hmarker
      · exact Call.handled_of_registered rfl
  cases call with
  | patchMyProfile userId version key body => exact hdecode (fun _ _ h => by cases h) h
  | patchMySettings userId version key body => exact hdecode (fun _ _ h => by cases h) h
  | provisionProfile userId registeredAt => cases h

theorem Call.answered_of_escapes {call : Call} {e : Exn} (he : e.isExpected = true)
    (h : Escapes (call.Known w) e s) : call.Answered w e s := by
  rcases h with h | ⟨d, rfl, h | ⟨rfl, h⟩⟩
  · exact .inl (Call.handled_of_registered (registered_of_orchestration h he))
  · exact .inl (Call.handled_of_registered h)
  · exact .inr ⟨rfl, h⟩

/-- The one domain error without a handler. -/
theorem Call.not_handled_invalidTimestamp (call : Call) :
    ¬ call.Handled (.domain .invalidTimestamp) := by
  rintro ⟨response, hresponse, -⟩
  cases call <;> cases hresponse

def Recorded (c : CompletedIdempotencyResult) (s : RouteWorld W R zones) : Prop :=
  ∃ k, Stored k c s

theorem recorded_contract (before : IdempotencyKey → List (Version W DurableRecord)) :
    HotContract (H := redisHotStore W R) Failures.any job before
      (fun s => Redis.Holds (fun c => Recorded c s) s.hot)
      (fun w c s => Recorded c s ∧ c.requestFingerprint = (job w).requestFingerprint) := by
  refine HotContract.redis_of Failures.any ?_ ?_
  · rintro c s s' ⟨k, h⟩ hg
    exact ⟨k, h.grown hg⟩
  · intro w c s h
    exact ⟨(job w).identity, h⟩

/-- One dispatch among the others. -/
theorem answered_dispatch (hjob : ∀ w, (calls w).Makes D (tokens w) (job w))
    (hfree : ∀ u v x y, requestText [] (calls u).command.modelDump = .ok x →
      requestText [] (calls v).command.modelDump = .ok y →
      D.sha256 (utf8 x) = D.sha256 (utf8 y) → utf8 x = utf8 y) (hstart : Start w s) :
    Safe (rely Failures.any) (fun s => (Consistent job (fun _ => []) s ∧
        Redis.Holds (fun c => Recorded c s) s.hot) ∧ Sound s) w
      (fun r s => ∀ e, r = .error e → (calls w).isPatch = true → e.isExpected = true →
        (calls w).Answered w e s)
      ((calls w).dispatch D (tokens w)) s := by
  rcases (hjob w).dispatch with ⟨hpatch, e, hcode⟩ | ⟨hoperation, hfp, hcode⟩
  · rw [hcode]
    intro s' _ _ e' _ hpatch'
    rw [hpatch] at hpatch'
    cases hpatch'
  · rw [hcode]
    have hkeeps := keeps_execute (recorded_contract (fun _ => [])) hstart (hjob w).mode
    have hraises : RaisesOp Failures.any Sound w ((calls w).Known w) (job w).code s :=
      raises_execute ((calls w).escapeContract w) (hjob w).mode fun s' hs' =>
        hoperation ▸ (calls w).raises_operation hs'
    refine (hkeeps.and hraises).bind_ret ?_ ?_
    · intro completed s' hi hreturned e he hpatch _
      obtain ⟨⟨⟨k, hstored⟩, hrequest⟩, -⟩ := hreturned.1 completed rfl
      rw [← hrequest] at hfp
      have hmarker := stored_completion hjob hfree hi.1.1 hstored hfp
      refine .inl (Call.answer_error he (eq_false_of_ne_true fun hcompletion => ?_))
      rw [hmarker.1 hcompletion] at hpatch
      cases hpatch
    · intro e s' _ hreturned e' he' _ hexpected
      cases he'
      exact Call.answered_of_escapes hexpected (hreturned.2 e rfl)

/-- Any number of dispatches of the routes, in any interleaving, over any rows and with any
failures: an expected exception of a PATCH has an answer of its own unless the clock was not
past the creation of the row; the one without an answer is the refusal of that clock. -/
theorem expected_errors_answered
    {c : Config (sig (database W zones Failures.any.fault)) Exn W (RouteWorld W R zones) Response}
    (hfree : ∀ u v x y, requestText [] (calls u).command.modelDump = .ok x →
      requestText [] (calls v).command.modelDump = .ok y →
      D.sha256 (utf8 x) = D.sha256 (utf8 y) → utf8 x = utf8 y)
    (hr : (machine W (redisHotStore W R) (database W zones Failures.any.fault)
      Failures.any).Reachable ⟨RouteWorld.initial W R population now,
        fun w => some ((calls w).dispatch D (tokens w))⟩ c) :
    ∀ w e, (calls w).isPatch = true → c.task w = some (.ret (.error e)) → e.isExpected = true →
      (¬ (calls w).Late w c.state → (calls w).Handled e) ∧
        (¬ (calls w).Handled e ↔ e = .domain .invalidTimestamp) := by
  choose job hjob using fun w =>
    (Call.exists_request : ∃ q : Request (database W zones Failures.any.fault),
      (calls w).Makes D (tokens w) q)
  have hquiet : ∀ w, (database W zones Failures.any.fault).staged w
      (Tables.stored population.rows) = (database W zones Failures.any.fault).nothing := by
    intro w
    funext name id
    exact population.own_stored w name id
  have hempty : Redis.Holds (fun c => Recorded c (RouteWorld.initial W R population now))
      (RouteWorld.initial W R population now).hot :=
    { entry := fun _ _ _ hx => (nomatch hx)
      inflight := fun _ hm => (nomatch hm) }
  have hcontract : HotContract (H := redisHotStore W R) Failures.any job (fun _ => [])
      (fun s : RouteWorld W R zones => Redis.Holds (fun c => Recorded c s) s.hot) _ :=
    recorded_contract _
  have hsafe := reachable_safe (R := rely Failures.any)
    (I := fun s : RouteWorld W R zones => (Consistent job (fun _ => []) s ∧
      Redis.Holds (fun c => Recorded c s) s.hot) ∧ Sound s)
    (Q := fun w r s => ∀ e, r = .error e → (calls w).isPatch = true → e.isExpected = true →
      (calls w).Answered w e s) ?_ ?_ ⟨⟨⟨?_, hempty⟩, initial_sound⟩, ?_⟩ hr
  · intro w e hpatch hw he
    have hanswered : (calls w).Answered w e c.state := hsafe.outcome hw e rfl hpatch he
    constructor
    · intro hlate
      exact hanswered.resolve_right fun h => hlate h.2
    · constructor
      · intro hunhandled
        exact (hanswered.resolve_left hunhandled).1
      · rintro rfl
        exact (calls w).not_handled_invalidTimestamp
  · rintro s₁ s₂ ⟨⟨hs, hj⟩, hsound⟩ he
    exact ⟨⟨hs.env he, hcontract.env hs hj he⟩, hsound.env he⟩
  · rintro w s₁ s₂ ⟨⟨hs, hj⟩, hsound⟩ ⟨-, rfl⟩
    refine ⟨⟨hs.crash, ?_⟩, hsound.crash⟩
    unfold World.crash
    split
    · rename_i ht
      exact hcontract.heartbeat (hcontract.db hs (.rollback ht) hj)
    · exact hcontract.heartbeat hj
  · have hinitial : Consistent job
        (fun k => ((fun _ => none : IdempotencyKey → Option DurableRecord) k).toList.map
          fun row => ⟨none, row⟩) (RouteWorld.initial W R population now) :=
      initial_consistent hquiet
    exact hinitial
  · intro w x hx
    cases hx
    exact answered_dispatch hjob hfree (initial_start w)

end Running

/-! ### A row of the future -/

section Sample

def samplePopulation (registeredAt : Instant) : Population moscowOnly where
  entity
    | .profiles => fun id => some (UserProfile.createDefault id registeredAt)
    | .settings => fun id => some (UserSettings.createDefault id registeredAt)
  entity_id := by
    rintro (_ | _) id a h
    all_goals
      cases h
      rfl

def sampleDeployment : Deployment where
  sha256 _ := sampleFingerprint
  adapters := ⟨⟨fun _ => .null, fun _ => none, fun _ => rfl⟩,
    ⟨fun _ => .null, fun _ => none, fun _ => rfl⟩, ⟨fun _ => .null, fun _ => none, fun _ => rfl⟩⟩
  policy := ⟨samplePolicy .hotDurable, rfl⟩

def sampleRenameCall : Call :=
  .patchMyProfile 0 ⟨1, by decide⟩ ⟨"key".toList, by decide⟩ (sampleRequest "b" (by decide))

theorem sampleRename_dispatch {W : Type} [DecidableEq W] {fault : Exn → Prop} :
    ∃ identity fp, (sampleRenameCall.dispatch sampleDeployment 7 :
        Code (sig (database W moscowOnly fault)) Exn Response) =
      execute identity fp (sampleRenameCall.operation sampleDeployment moscowOnly fault)
        (samplePolicy .hotDurable) 7 >>= fun completed =>
          .ret (sampleRenameCall.answer sampleDeployment completed.toStoredResult) := by
  obtain ⟨identity, hidentity⟩ := @Call.exists_identity sampleDeployment sampleRenameCall
  have hfp : sampleRenameCall.fingerprint sampleDeployment =
      .ok (Command.fingerprint sampleDeployment.sha256 sampleRenameCall.command) :=
    Command.computeRequestFingerprint_eq trivial
  refine ⟨identity, Command.fingerprint sampleDeployment.sha256 sampleRenameCall.command, ?_⟩
  rw [Call.dispatch_eq, hfp, hidentity]
  rfl

theorem expected_errors_answered_sample :
    sampleRenameCall.Handled (.idempotencyUnavailable
      "Durable execution unavailable; commit outcome may be unknown") := by
  obtain ⟨identity, fp, hcode⟩ :=
    @sampleRename_dispatch Unit _ Failures.any.fault
  have hrun : ∃ r s, Runs (machine Unit (redisHotStore Unit (sampleClient true))
      (database Unit moscowOnly Failures.any.fault) Failures.any) ()
      (sampleRenameCall.dispatch sampleDeployment 7)
      (RouteWorld.initial Unit (sampleClient true) (samplePopulation 10) 20) r s ∧
      r = .error (.idempotencyUnavailable
        "Durable execution unavailable; commit outcome may be unknown") := by
    rw [hcode]
    refine Runs.exists_call (.error unavailable) ⟨_, .inr ⟨_, .inr ⟨"", rfl⟩, rfl, rfl⟩, rfl⟩ ?_
    refine Runs.exists_call (.error (.sql .connection))
      (.inr ⟨_, .inr ⟨.connection, rfl⟩, rfl, rfl⟩) ?_
    exact ⟨_, _, .ret _ _, rfl⟩
  obtain ⟨r, s, hrun, rfl⟩ := hrun
  have hfree : ∀ (u v : Unit) x y,
      requestText [] ((fun _ : Unit => sampleRenameCall) u).command.modelDump = .ok x →
      requestText [] ((fun _ : Unit => sampleRenameCall) v).command.modelDump = .ok y →
      sampleDeployment.sha256 (utf8 x) = sampleDeployment.sha256 (utf8 y) → utf8 x = utf8 y := by
    intro u v x y hx hy _
    rw [Except.ok.inj (hx.symm.trans hy)]
  have hanswered := @expected_errors_answered Unit _ moscowOnly sampleDeployment (sampleClient true)
    (samplePopulation 10) 20 (fun _ => sampleRenameCall) (fun _ => 7) _ hfree (hrun.reachable rfl)
    () (.idempotencyUnavailable "Durable execution unavailable; commit outcome may be unknown") rfl
    (by simp) rfl
  by_contra hunhandled
  cases hanswered.2.1 hunhandled

/-- The clock of the service is behind the one that registered the user: the rename of the
fresh profile ends with an error of the domain that no handler knows. -/
theorem rename_of_future_row :
    ∃ c : Config (sig (database Unit moscowOnly Failures.any.fault)) Exn Unit
        (RouteWorld Unit (sampleClient true) moscowOnly) Response,
      (machine Unit (redisHotStore Unit (sampleClient true))
        (database Unit moscowOnly Failures.any.fault) Failures.any).Reachable
        ⟨RouteWorld.initial Unit (sampleClient true) (samplePopulation 20) 10,
          fun _ => some (sampleRenameCall.dispatch sampleDeployment 7)⟩ c ∧
      c.task () = some (.ret (.error (.domain .invalidTimestamp))) ∧
      Exn.isExpected (.domain .invalidTimestamp) = true ∧
      (sampleRenameCall.respond (.error (.domain .invalidTimestamp))).status = 500 := by
  obtain ⟨identity, fp, hcode⟩ := @sampleRename_dispatch Unit _ Failures.any.fault
  have hrun : ∃ r s, Runs (machine Unit (redisHotStore Unit (sampleClient true))
      (database Unit moscowOnly Failures.any.fault) Failures.any) ()
      (sampleRenameCall.dispatch sampleDeployment 7)
      (RouteWorld.initial Unit (sampleClient true) (samplePopulation 20) 10) r s ∧
      r = .error (.domain .invalidTimestamp) := by
    rw [hcode]
    refine Runs.exists_call (.error unavailable) ⟨_, .inr ⟨_, .inr ⟨"", rfl⟩, rfl, rfl⟩, rfl⟩ ?_
    refine Runs.exists_call (.ok ()) (.inl ⟨rfl, rfl⟩) ?_
    refine Runs.exists_call (.ok (10 : Int)) ⟨rfl, rfl⟩ ?_
    refine Runs.exists_call (.ok none) ⟨rfl, .inl rfl⟩ ?_
    refine Runs.exists_call (.ok ()) (.inl ⟨rfl, rfl⟩) ?_
    refine Runs.exists_call (.ok ()) (.inl ⟨rfl, rfl⟩) ?_
    refine Runs.exists_call (.ok (some (ProfileORM.values (UserProfile.createDefault 0 20))))
      ⟨_, ⟨_, ⟨.inl rfl, rfl⟩, rfl⟩, rfl⟩ ?_
    refine Runs.exists_call (.ok (10 : Int)) ⟨rfl, rfl⟩ ?_
    refine Runs.exists_call (.ok ()) ⟨rfl, .inl rfl⟩ ?_
    exact ⟨_, _, .ret _ _, rfl⟩
  obtain ⟨r, s, hrun, rfl⟩ := hrun
  refine ⟨_, hrun.reachable rfl, by simp, rfl, rfl⟩

end Sample

end ProfileService.Entrypoints
