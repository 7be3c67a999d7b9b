import ProfileService.Entrypoints.LostUpdates
import ProfileService.Entrypoints.OwnerReads
import ProfileService.Entrypoints.VersionETag
import ProfileService.Idempotency.BreakerTransparency
import ProfileService.Infrastructure.ResultSchemas

/-!
# What a success tells its client

The private routes of a profile and its settings, run together over the Redis hot store and
the database: a 200 describes a committed version, that of a PATCH the outcome of the PATCH,
whoever committed it; a 204 says that both halves of the user are there.
-/

namespace ProfileService.Entrypoints
open Domain Library Library.Machine Application Infrastructure Idempotency

variable {W : Type} [DecidableEq W] {zones : ZoneInfo} {fault : Exn → Prop} {D : Deployment}
  {name : TableName} {call call' : Call} {token : Token} {stored : StoredResult}
  {response : Response}

/-! ### Snapshots -/

/-- No snapshot of a result is read as another one. -/
def Faithful {ResultT : Type} (adapter : TypeAdapter ResultT) : Prop :=
  ∀ result read, adapter.validatePython (adapter.dumpPython result).sortKeys = some read →
    read = result

theorem decode_snapshot {ResultT : Type} {codec : PydanticResultCodec ResultT}
    {result read : ResultT} (hcodec : Faithful codec.adapter)
    (h : codec.decode (codec.encode result) = .ok read) : read = result := by
  have hvalue : codec.snapshotValue (codec.encode result) =
      some (codec.adapter.dumpPython result).sortKeys := if_pos ⟨rfl, rfl⟩
  unfold PydanticResultCodec.decode at h
  rw [codec.encode_not_completion, hvalue] at h
  cases hread : codec.adapter.validatePython (codec.adapter.dumpPython result).sortKeys with
  | none =>
    simp only [Option.bind_some, hread] at h
    cases h
  | some read' =>
    simp only [Option.bind_some, hread] at h
    cases h
    exact hcodec _ _ hread

def Call.resultMode : Call → ResultMode
  | .provisionProfile .. => .completionOnly
  | _ => .replayable

theorem Call.operation_eq :
    (call.operation D zones fault : Operation (database W zones fault)) =
      operationOf D zones fault call.resultMode call.command := by
  cases call <;> rfl

def contentOf (D : Deployment) :
    (name : TableName) → VersionedMutableEntity (FieldsOf zones name) → Json
  | .profiles, a => D.adapters.profile.dumpPython (ProfileDTO.fromDomain a)
  | .settings, a => D.adapters.settings.dumpPython (SettingsDTO.fromDomain a)

theorem Call.answer_snapshot {u : RowUpdate zones name}
    {a : VersionedMutableEntity (FieldsOf zones name)} (hprofile : Faithful D.adapters.profile)
    (hsettings : Faithful D.adapters.settings) (hu : rowUpdate zones name call.command = some u)
    (h : call.answer D (resultOf D call.resultMode name a) = .ok response) :
    response = privateVersion (contentOf D name a) a.version := by
  have hdecode : ∀ {ResultT : Type} (codec : PydanticResultCodec ResultT) {result : ResultT}
      {f : ResultT → Response}, Faithful codec.adapter →
      (codec.decode (codec.encode result) >>= fun read => Except.ok (f read)) =
        (.ok response : Except Exn Response) → response = f result := by
    intro ResultT codec result f hcodec hbind
    cases hread : codec.decode (codec.encode result) with
    | error e =>
      rw [hread] at hbind
      cases hbind
    | ok read =>
      rw [hread] at hbind
      rw [← decode_snapshot hcodec hread]
      exact (Except.ok.inj hbind).symm
  cases call with
  | patchMyProfile userId version key body =>
    cases name with
    | profiles => exact hdecode (codecOf D.adapters.profile) hprofile h
    | settings => cases hu
  | patchMySettings userId version key body =>
    cases name with
    | profiles => cases hu
    | settings => exact hdecode (codecOf D.adapters.settings) hsettings h
  | provisionProfile userId registeredAt => cases name <;> cases hu

/-! ### What an answer is worth -/

/-- A request of an owner, or the provisioning of one. -/
inductive Exchange where
  | write (call : Call)
  | getMyProfile (userId : UserId)
  | getMySettings (userId : UserId)

def Exchange.code (D : Deployment) (token : Token) :
    Exchange → Code (sig (database W zones fault)) Exn Response
  | .write call => call.dispatch D token
  | .getMyProfile userId => Entrypoints.getMyProfile D userId
  | .getMySettings userId => Entrypoints.getMySettings D userId

def Exchange.row : Exchange → Option (TableName × UserId)
  | .write (.patchMyProfile userId _ _ _) => some (.profiles, userId)
  | .write (.patchMySettings userId _ _ _) => some (.settings, userId)
  | .write (.provisionProfile _ _) => none
  | .getMyProfile userId => some (.profiles, userId)
  | .getMySettings userId => some (.settings, userId)

section World
variable {R : RedisClient} {w : W} {id : UserId} {s s' : RouteWorld W R zones}

/-- The response describes a committed version of a row. -/
structure Represents (D : Deployment) (name : TableName) (id : UserId)
    (a : VersionedMutableEntity (FieldsOf zones name)) (response : Response)
    (s : RouteWorld W R zones) : Prop where
  userId : a.id = id
  loaded : Loaded name a s
  response : response = privateVersion (contentOf D name a) a.version

/-- What a response to a writing route is worth in a state. -/
structure Call.Told (D : Deployment) (call : Call) (response : Response) (s : RouteWorld W R zones) :
    Prop where
  update : ∀ name u, rowUpdate zones name call.command = some u → ∃ a, Outcome u a s ∧
    (a.version = u.expectedVersion ∨ a.version = u.expectedVersion + 1) ∧
    Represents D name u.userId a response s
  provision : ∀ c, call.command = .createDefaultProfile c → response = ⟨204, .null, noStore⟩ ∧
    ∀ name, (rowOf name c.userId s).committed.isSome = true

def Exchange.Told (D : Deployment) (response : Response) (s : RouteWorld W R zones) :
    Exchange → Prop
  | .write call => call.Told D response s
  | .getMyProfile userId => ∃ a, Represents D .profiles userId a response s
  | .getMySettings userId => ∃ a, Represents D .settings userId a response s

theorem Represents.grow {a : VersionedMutableEntity (FieldsOf zones name)}
    (h : Represents D name id a response s) (hg : VersionsGrow s s') :
    Represents D name id a response s' :=
  ⟨h.userId, h.loaded.grow hg, h.response⟩

theorem Call.rowUpdate_row (h : (Exchange.write call).row = some (name, id)) :
    ∃ u, rowUpdate zones name call.command = some u ∧ u.userId = id := by
  cases call with
  | provisionProfile userId registeredAt => cases h
  | _ =>
    cases h
    exact ⟨_, rfl, rfl⟩

/-- Every response about a row describes a committed version of it. -/
theorem Exchange.Told.represents {exchange : Exchange} (h : exchange.Told D response s)
    (hrow : exchange.row = some (name, id)) : ∃ a, Represents D name id a response s := by
  cases exchange with
  | write call =>
    obtain ⟨u, hu, rfl⟩ := @Call.rowUpdate_row zones name call id hrow
    obtain ⟨a, -, -, ha⟩ := Call.Told.update h name u hu
    exact ⟨a, ha⟩
  | getMyProfile userId =>
    cases hrow
    exact h
  | getMySettings userId =>
    cases hrow
    exact h

theorem outcome_version {command : Command} {u : RowUpdate zones name}
    {a : VersionedMutableEntity (FieldsOf zones name)} (h : Outcome u a s)
    (hu : rowUpdate zones name command = some u) :
    a.version = u.expectedVersion ∨ a.version = u.expectedVersion + 1 := by
  obtain ⟨loaded, now, changed, -, -, hversion, hok⟩ := h
  obtain ⟨-, -, ⟨-, rfl⟩ | ⟨-, hnext⟩⟩ := rowUpdate_moves hu hok
  · exact .inl hversion
  · exact .inr (by rw [hnext, hversion])

theorem rowUpdate_sameFields {command command' : Command} {u : RowUpdate zones name}
    (h : command.SameFields command') (hu : rowUpdate zones name command = some u) :
    rowUpdate zones name command' = some u := by
  cases command with
  | createDefaultProfile c =>
    rw [rowUpdate_not_createDefault] at hu
    cases hu
  | _ =>
    cases command' <;> first
      | exact h.elim
      | (rw [← (show _ = _ from h)]
         exact hu)

variable {commands : W → Command} {modes : W → ResultMode}
  {made : Commit W (database W zones Failures.any.fault)}

theorem Call.told_of_kept (hprofile : Faithful D.adapters.profile)
    (hsettings : Faithful D.adapters.settings)
    (h : Kept D commands modes made stored s)
    (hsame : call.command.SameFields (commands made.worker))
    (hmode : modes made.worker = call.resultMode) (hanswer : call.answer D stored = .ok response) :
    call.Told D response s where
  update name u hu := by
    obtain ⟨a, hid, hstored, houtcome, hloaded, -⟩ := h.update name u (rowUpdate_sameFields hsame hu)
    refine ⟨a, houtcome, outcome_version houtcome hu, hid, hloaded, ?_⟩
    rw [hstored, hmode] at hanswer
    exact Call.answer_snapshot hprofile hsettings hu hanswer
  provision c hc := by
    cases call with
    | provisionProfile userId registeredAt =>
      obtain rfl := Command.createDefaultProfile.inj hc
      refine ⟨(Except.ok.inj hanswer).symm, ?_⟩
      cases hw : commands made.worker with
      | createDefaultProfile c' =>
        rw [hw] at hsame
        rw [show (Entrypoints.provisionProfile userId registeredAt).userId = c'.userId from hsame.1]
        exact h.provision c' hw
      | _ =>
        rw [hw] at hsame
        exact hsame.elim
    | _ => cases hc

/-! ### One exchange among the others -/

/-- The command of an exchange. A read has none and writes nothing, so that any will do. -/
def Exchange.command : Exchange → Command
  | .write call => call.command
  | .getMyProfile userId => .resetSettings ⟨userId, 1, sampleVersion_pos⟩
  | .getMySettings userId => .resetSettings ⟨userId, 1, sampleVersion_pos⟩

def Exchange.resultMode : Exchange → ResultMode
  | .write call => call.resultMode
  | _ => .replayable

/-- SHA-256 tells the texts of the dispatched commands apart. -/
def TellsApart (D : Deployment) (exchanges : W → Exchange) : Prop :=
  ∀ u v a b, exchanges u = .write a → exchanges v = .write b → ∀ x y,
    requestText [] a.command.modelDump = .ok x → requestText [] b.command.modelDump = .ok y →
      D.sha256 (utf8 x) = D.sha256 (utf8 y) → utf8 x = utf8 y

/-- The request an exchange makes of the coordinator; a read has one whose operation never
returns. -/
def Exchange.Makes (D : Deployment) (token : Token) (q : Request (database W zones fault)) :
    Exchange → Prop
  | .write call => call.Makes D token q
  | _ => q.policy.mode = .hotDurable ∧
      ∀ w b stored b', ¬ Ran w q.operation.hotDurable b (.ok stored) b'

theorem Exchange.exists_request (exchange : Exchange) :
    ∃ q : Request (database W zones fault), exchange.Makes D token q := by
  have hread : ∃ q : Request (database W zones fault), q.policy.mode = .hotDurable ∧
      ∀ w b stored b', ¬ Ran w q.operation.hotDurable b (.ok stored) b' := by
    refine ⟨⟨sampleKey, D.sha256 [], ⟨.ret (.error .cancelled), .ret (.error .cancelled)⟩,
      D.policy.1, token⟩, D.policy.2, fun w b stored b' hran => ?_⟩
    cases hran.of_ret
  cases exchange with
  | write call => exact call.exists_request
  | getMyProfile userId => exact hread
  | getMySettings userId => exact hread

variable {job : W → Request (database W zones Failures.any.fault)} {tokens : W → Token}
  {exchanges : W → Exchange} {population : Population zones} {now : Instant}

structure Standing (D : Deployment) (job : W → Request (database W zones Failures.any.fault))
    (exchanges : W → Exchange) (population : Population zones) (since : Instant)
    (s : RouteWorld W R zones) : Prop where
  consistent : Consistent job (fun _ => []) s
  holds : Redis.Holds (fun c => Recorded c s) s.hot
  governed : Governed D (fun w => (exchanges w).command) (fun w => (exchanges w).resultMode)
    population.rows ⟨since, []⟩ s

/-- The hot store is never ahead of the records. -/
theorem recorded_step (hs : Consistent job (fun _ => []) s) (hstep : DbStep w s s')
    (h : Redis.Holds (fun c => Recorded c s) s.hot) :
    Redis.Holds (fun c => Recorded c s') s'.hot :=
  (recorded_contract (fun _ => [])).db hs hstep h

theorem Standing.begin (h : Standing D job exchanges population now s)
    (ht : s.inTransaction w = false) : Standing D job exchanges population now (s.begin w) :=
  ⟨h.consistent.begin, recorded_step h.consistent (.begin ht) h.holds, h.governed.quiet (.begin ht)⟩

theorem Standing.rollback (h : Standing D job exchanges population now s)
    (ht : s.inTransaction w = true) : Standing D job exchanges population now (s.rollback w) :=
  ⟨h.consistent.rollback ht, recorded_step h.consistent (.rollback ht) h.holds,
    h.governed.quiet (.rollback ht)⟩

theorem Standing.env (h : Standing D job exchanges population now s) (he : WorldEnv s s') :
    Standing D job exchanges population now s' :=
  ⟨h.consistent.env he, (recorded_contract (fun _ => [])).env h.consistent h.holds he,
    h.governed.env he⟩

theorem Standing.crash (h : Standing D job exchanges population now s) :
    Standing D job exchanges population now (s.crash w) := by
  refine ⟨h.consistent.crash, ?_, h.governed.crash⟩
  unfold World.crash
  split
  · rename_i ht
    have hrolled : Redis.Holds (fun c => Recorded c (s.rollback w)) (s.rollback w).hot :=
      recorded_step h.consistent (.rollback ht) h.holds
    exact hrolled
  · exact h.holds

theorem initial_standing :
    Standing D job exchanges population now (RouteWorld.initial W R population now) where
  consistent := by
    have hinitial : Consistent job
        (fun k => ((fun _ => none : IdempotencyKey → Option DurableRecord) k).toList.map
          fun row => ⟨none, row⟩) (RouteWorld.initial W R population now) :=
      initial_consistent population.quiet
    exact hinitial
  holds :=
    { entry := fun _ _ _ hx => (nomatch hx)
      inflight := fun _ hm => (nomatch hm) }
  governed := initial_governed

theorem stored_kept (hjob : ∀ w, (exchanges w).Makes D (tokens w) (job w))
    (hfree : TellsApart D exchanges) (hw : exchanges w = .write call)
    (hs : Standing D job exchanges population now s) {completed : CompletedIdempotencyResult}
    (hrecorded : Recorded completed s) (hfp : call.fingerprint D = .ok completed.requestFingerprint) :
    ∃ made : Commit W (database W zones Failures.any.fault),
      call.command.SameFields (exchanges made.worker).command ∧
      (exchanges made.worker).resultMode = call.resultMode ∧
      Kept D (fun w => (exchanges w).command) (fun w => (exchanges w).resultMode) made
        completed.toStoredResult s := by
  obtain ⟨k, v, hv, rfl⟩ := hrecorded
  rw [hs.consistent.versions k, List.append_nil] at hv
  obtain ⟨commit, hcommit, hinstalled⟩ := List.mem_filterMap.1 hv
  obtain ⟨row, hrow, rfl⟩ := Option.map_eq_some_iff.1 hinstalled
  obtain ⟨-, -, b₀, b₁, stored, expiresAt, -, hran, -, hcompleted⟩ :=
    (hs.consistent.commits commit hcommit).own k row hrow
  have hmakes := hjob commit.worker
  cases hc : exchanges commit.worker with
  | write other =>
    rw [hc] at hmakes
    obtain ⟨hown, -⟩ := Call.Makes.returned hmakes hran
    obtain ⟨stored', fp', expiresAt', hcarried, hkept⟩ :=
      hs.governed.2.logged commit hcommit k row hrow
    have hcollision := hfree w commit.worker call other hw hc
    simp only [hcompleted] at hfp
    refine ⟨commit, ?_, ?_, ?_⟩
    · rw [hc]
      exact Call.sameFields hfp hown hcollision
    · have hpatch := Call.isPatch_eq hfp hown hcollision
      rw [hc]
      show other.resultMode = call.resultMode
      cases call <;> cases other <;> first | rfl | cases hpatch
    · simp only [hcarried]
      exact hkept
  | _ =>
    rw [hc] at hmakes
    exact absurd hran (hmakes.2 _ _ _ _)

abbrev Tells (D : Deployment) (exchange : Exchange) (r : Except Exn Response)
    (s : RouteWorld W R zones) : Prop :=
  ∀ response, r = .ok response → exchange.Told D response s

theorem told_write (hjob : ∀ w, (exchanges w).Makes D (tokens w) (job w))
    (hfree : TellsApart D exchanges) (hprofile : Faithful D.adapters.profile)
    (hsettings : Faithful D.adapters.settings) (hw : exchanges w = .write call)
    (hstart : Start w s) :
    Safe (rely Failures.any) (Standing D job exchanges population now) w (Tells D (.write call))
      (call.dispatch D (tokens w)) s := by
  have hmakes : call.Makes D (tokens w) (job w) := by
    have := hjob w
    rwa [hw] at this
  rcases hmakes.dispatch with ⟨-, e, hcode⟩ | ⟨hoperation, hfp, hcode⟩
  · rw [hcode]
    intro s' _ _ response hresponse
    cases hresponse
  · rw [hcode]
    have hkeeps := keeps_execute (recorded_contract (fun _ => [])) hstart hmakes.mode
    have hgoverned : RaisesOp Failures.any (Governed D (fun w => (exchanges w).command)
        (fun w => (exchanges w).resultMode) population.rows ⟨now, []⟩) w
        (Raised (fun w => (exchanges w).command) population.rows (now ≤ ·) [] w) (job w).code s := by
      refine execution_governed any_orchestration any_orchestration redisExec_raises hmakes.mode ?_
      rw [hw]
      exact hoperation.trans Call.operation_eq
    refine ((hkeeps.and hgoverned).bind_ret ?_ ?_).congr_inv fun s =>
      ⟨fun h => ⟨h.1.1, h.1.2, h.2⟩, fun h => ⟨⟨h.consistent, h.holds⟩, h.governed⟩⟩
    · intro completed s' hi hreturned response hresponse
      obtain ⟨⟨hrecorded, hrequest⟩, -⟩ := hreturned.1 completed rfl
      rw [← hrequest] at hfp
      obtain ⟨made, hsame, hmode, hkept⟩ :=
        stored_kept hjob hfree hw ⟨hi.1.1, hi.1.2, hi.2⟩ hrecorded hfp
      exact Call.told_of_kept hprofile hsettings hkept hsame hmode hresponse
    · intro e s' _ _ response hresponse
      cases hresponse

theorem told_read {ResultT : Type} {notFound : DomainError}
    {fromDomain : VersionedMutableEntity (FieldsOf zones name) → ResultT}
    {respond : ResultT → Response} (hidle : s.inTransaction w = false)
    (hrespond : ∀ a : VersionedMutableEntity (FieldsOf zones name),
      respond (fromDomain a) = privateVersion (contentOf D name a) a.version) :
    Safe (rely Failures.any) (Standing D job exchanges population now) w
      (fun r s => ∀ response, r = .ok response → ∃ a, Represents D name id a response s)
      ((readSession (getMy (getById (statements name)) notFound fromDomain id)).lift (dbInSig _) >>=
        fun result => .ret (.ok (respond result))) s := by
  have hsession : Safe (dbRely Failures.any) (Standing D job exchanges population now) w
      (fun r s => ∀ result, r = .ok result → ∃ a, a.id = id ∧ Loaded name a s ∧
        result = fromDomain a)
      (readSession (getMy (getById (statements name)) notFound fromDomain id)) s := by
    refine safe_readSession ?_ (fun _ h ht => h.begin ht) (fun _ h ht => h.rollback ht)
      (fun _ h => h.governed.1.sound) hidle ?_
    · rintro result s₁ s₂ ⟨a, hid, hloaded, hresult⟩ hg
      exact ⟨a, hid, hloaded.grow hg, hresult⟩
    · intro s₁ hs ht hnothing
      exact safe_getMy (fun _ h => h.governed.1.sound) ht (hnothing name id)
  refine (hsession.lift (dbInSig _) (fun _ _ h => h) fun o s₁ r s₂ he => ?_).bind_ret ?_ ?_
  · cases r with
    | ok a => exact he
    | error e => exact he
  · rintro result s' - h response hresponse
    obtain ⟨a, hid, hloaded, rfl⟩ := h result rfl
    obtain rfl := Except.ok.inj hresponse
    exact ⟨a, hid, hloaded, hrespond a⟩
  · rintro e s' - - response hresponse
    cases hresponse

/-- One exchange among the others. -/
theorem told_exchange (hjob : ∀ w, (exchanges w).Makes D (tokens w) (job w))
    (hfree : TellsApart D exchanges) (hprofile : Faithful D.adapters.profile)
    (hsettings : Faithful D.adapters.settings) (hstart : Start w s) :
    Safe (rely Failures.any) (Standing D job exchanges population now) w (Tells D (exchanges w))
      ((exchanges w).code D (tokens w)) s := by
  cases hw : exchanges w with
  | write call => exact told_write hjob hfree hprofile hsettings hw hstart
  | getMyProfile userId => exact told_read hstart.idle fun _ => rfl
  | getMySettings userId => exact told_read hstart.idle fun _ => rfl

theorem Represents.unique (hs : Standing D job exchanges population now s)
    {a a' : VersionedMutableEntity (FieldsOf zones name)} {response' : Response}
    (h : Represents D name id a response s) (h' : Represents D name id a' response' s)
    (hversion : a.version = a'.version) : a = a' ∧ response = response' := by
  obtain ⟨rfl, ⟨v, hv, hrow⟩, rfl⟩ := h
  obtain ⟨hid, ⟨v', hv', hrow'⟩, rfl⟩ := h'
  rw [hid] at hv'
  have hsame : v = v' := by
    refine hs.governed.1.version_inj hv hv' ?_
    rw [hrow, hrow', (lawful_tableOf zones name).version, (lawful_tableOf zones name).version,
      hversion]
  have ha : a = a' := values_inj (hrow.symm.trans (hsame ▸ hrow'))
  exact ⟨ha, by rw [ha]⟩

theorem privateVersion_headers {content content' : Json} {version version' : Nat}
    (h : (privateVersion content version).headers = (privateVersion content' version').headers) :
    version = version' := by
  have htag : "\"" ++ toString version ++ "\"" = "\"" ++ toString version' ++ "\"" :=
    congrArg Prod.snd (List.cons.inj h).1
  have htext : intText (version : Int) = intText (version' : Int) := by
    have hlist := congrArg String.toList htag
    rw [String.toList_append, String.toList_append, String.toList_append, String.toList_append]
      at hlist
    have hdigits := List.append_cancel_left (List.append_cancel_right hlist)
    rwa [show toString version = Nat.repr version from rfl,
      show toString version' = Nat.repr version' from rfl, Nat.toList_repr, Nat.toList_repr]
      at hdigits
  have hread := congrArg readInt htext
  rw [readInt_intText, readInt_intText] at hread
  exact Int.ofNat.inj hread

/-- What the successes of some exchanges are worth together: each describes a committed
version; those about one row with one `ETag` agree; and a PATCH that was given the version of
another success is the outcome of its change on the very aggregate that one described. -/
structure Truthful (D : Deployment) (exchanges : W → Exchange) (answered : W → Response → Prop)
    (s : RouteWorld W R zones) : Prop where
  told : ∀ w response, answered w response → (exchanges w).Told D response s
  agree : ∀ w w' response response' row, (exchanges w).row = some row →
    (exchanges w').row = some row → answered w response → answered w' response' →
    response.headers = response'.headers → response = response'
  patched : ∀ w w' response response' name call u, exchanges w' = .write call →
    rowUpdate zones name call.command = some u → (exchanges w).row = some (name, u.userId) →
    answered w response → answered w' response' →
    response.headers = (privateVersion .null u.expectedVersion).headers →
    ∃ a now changed a', Represents D name u.userId a response s ∧
      u.change now a = .ok (changed, a') ∧ Represents D name u.userId a' response' s

theorem Exchange.Told.grow {exchange : Exchange} (h : exchange.Told D response s)
    (hg : VersionsGrow s s') : exchange.Told D response s' := by
  have hread : ∀ {name id}, (∃ a, Represents D name id a response s) →
      ∃ a, Represents D name id a response s' :=
    fun ⟨a, ha⟩ => ⟨a, ha.grow hg⟩
  cases exchange with
  | write call =>
    refine ⟨fun name u hu => ?_, fun c hc => ?_⟩
    · obtain ⟨a, houtcome, hversion, ha⟩ := Call.Told.update h name u hu
      exact ⟨a, houtcome.grow hg, hversion, ha.grow hg⟩
    · obtain ⟨hresponse, hrows⟩ := Call.Told.provision h c hc
      exact ⟨hresponse, fun name => committed_isSome_mono (hg name c.userId) (hrows name)⟩
  | getMyProfile userId => exact hread h
  | getMySettings userId => exact hread h

theorem Truthful.grow {answered : W → Response → Prop} (h : Truthful D exchanges answered s)
    (hg : VersionsGrow s s') : Truthful D exchanges answered s' where
  told w response hw := (h.told w response hw).grow hg
  agree := h.agree
  patched w w' response response' name call u hcall hu hrow hw hw' heq := by
    obtain ⟨a, now, changed, a', ha, hchange, ha'⟩ :=
      h.patched w w' response response' name call u hcall hu hrow hw hw' heq
    exact ⟨a, now, changed, a', ha.grow hg, hchange, ha'.grow hg⟩

theorem truthful_of_told {answered : W → Response → Prop}
    (hs : Standing D job exchanges population now s)
    (htold : ∀ w response, answered w response → (exchanges w).Told D response s) :
    Truthful D exchanges answered s where
  told := htold
  agree w w' response response' row hrow hrow' hw hw' heq := by
    obtain ⟨name, id⟩ := row
    obtain ⟨a, ha⟩ := (htold w response hw).represents hrow
    obtain ⟨a', ha'⟩ := (htold w' response' hw').represents hrow'
    rw [ha.response, ha'.response] at heq
    exact (ha.unique hs ha' (privateVersion_headers heq)).2
  patched w w' response response' name call u hcall hu hrow hw hw' heq := by
    obtain ⟨a, ha⟩ := (htold w response hw).represents hrow
    have hpatch := htold w' response' hw'
    rw [hcall] at hpatch
    obtain ⟨a', ⟨loaded, now, changed, hloaded, hid, hversion, hchange⟩, -, ha'⟩ :=
      Call.Told.update hpatch name u hu
    rw [ha.response] at heq
    have hread : Represents D name u.userId loaded
        (privateVersion (contentOf D name loaded) loaded.version) s := ⟨hid, hloaded, rfl⟩
    obtain ⟨rfl, -⟩ := ha.unique hs hread ((privateVersion_headers heq).trans hversion.symm)
    exact ⟨_, now, changed, a', ha, hchange, ha'⟩

/-- The exchanges over the plain hot store. -/
theorem exchanges_truthful
    {c : Config (sig (database W zones Failures.any.fault)) Exn W (RouteWorld W R zones) Response}
    (hfree : TellsApart D exchanges) (hprofile : Faithful D.adapters.profile)
    (hsettings : Faithful D.adapters.settings)
    (hr : (machine W (redisHotStore W R) (database W zones Failures.any.fault)
      Failures.any).Reachable ⟨RouteWorld.initial W R population now,
        fun w => some ((exchanges w).code D (tokens w))⟩ c) :
    Truthful D exchanges (fun w response => c.task w = some (.ret (.ok response))) c.state := by
  choose job hjob using fun w =>
    ((exchanges w).exists_request : ∃ q : Request (database W zones Failures.any.fault),
      (exchanges w).Makes D (tokens w) q)
  have hsafe := reachable_safe (R := rely Failures.any)
    (I := Standing D job exchanges population now) (Q := fun w => Tells D (exchanges w))
    (fun _ _ h he => h.env he) ?_ ⟨initial_standing, ?_⟩ hr
  · exact truthful_of_told hsafe.inv fun w response hw => hsafe.outcome hw response rfl
  · rintro w s₁ s₂ h ⟨-, rfl⟩
    exact h.crash
  · intro w x hx
    cases hx
    exact told_exchange hjob hfree hprofile hsettings (initial_start w)

theorem valid_exchange (exchange : Exchange) :
    (exchange.code D token : Code (sig (database W zones fault)) Exn Response).AllCalls
      Op.Valid := by
  cases exchange with
  | write call =>
    show (call.dispatch D token).AllCalls Op.Valid
    rw [Call.dispatch_eq]
    cases call.fingerprint D with
    | error e => trivial
    | ok requestFingerprint =>
      cases call.identity D with
      | error e => trivial
      | ok identity => exact valid_execute.bind fun completed => trivial
  | getMyProfile userId => exact (valid_lift _).bind fun profile => trivial
  | getMySettings userId => exact (valid_lift _).bind fun settings => trivial

section Wired
variable {P T : Type} [DecidableEq P] [AddCommGroup T] [LinearOrder T]
  {cfg : Resilience.Config T} {process : W → P} {started : T}

/-- Any number of the private requests, in any processes and any interleaving, over any rows,
behind the breakers and with any failures of the two stores: their successes are truthful. -/
theorem committed_answers
    {c : Config (guardedSig (database W zones Failures.any.fault)) Exn W
      (Guarded P W T (redisHotStore W R) (database W zones Failures.any.fault)) Response}
    (hfree : TellsApart D exchanges) (hprofile : Faithful D.adapters.profile)
    (hsettings : Faithful D.adapters.settings)
    (hr : (guardedMachine cfg process (redisHotStore W R) (database W zones Failures.any.fault)
      Failures.any).Reachable ⟨.initial started (RouteWorld.initial W R population now),
        fun w => some (((exchanges w).code D (tokens w)).expand guarded)⟩ c) :
    Truthful D exchanges (fun w response => c.task w = some (.ret (.ok response)))
      c.state.world := by
  obtain ⟨c₀, hr₀, htransparent⟩ := tasks_transparent (fun w => valid_exchange (exchanges w))
    (fun _ => rfl) hr
  have htruthful := exchanges_truthful hfree hprofile hsettings hr₀
  have hsame : VersionsGrow c₀.state c.state.world := by
    intro name id
    rw [htransparent.world]
    exact List.suffix_refl _
  simp only [htransparent.outcomes]
  exact htruthful.grow hsame

end Wired

end World

section Sample

def strictDeployment : Deployment :=
  { sampleDeployment with adapters := resultAdapters strictReaders }

theorem strict_profile : Faithful strictDeployment.adapters.profile := by
  intro result read hread
  exact Option.some.inj (hread.symm.trans (profileAdapter_roundTrips strictReaders result))

theorem strict_settings : Faithful strictDeployment.adapters.settings := by
  intro result read hread
  exact Option.some.inj (hread.symm.trans (settingsAdapter_roundTrips strictReaders result))

theorem strictRename_run : ∃ r s, Runs (guardedMachine Resilience.sampleConfig (fun _ => ())
      (redisHotStore Unit (sampleClient true)) (database Unit moscowOnly Failures.any.fault)
      Failures.any) ()
    ((sampleRenameCall.dispatch strictDeployment 7).expand guarded)
    (.initial 0 (RouteWorld.initial Unit (sampleClient true) somebody 20)) r s ∧
    ∃ dto, r = sampleRenameCall.answer strictDeployment
      ((codecOf (profileAdapter strictReaders)).encode dto) := by
  obtain ⟨identity, hidentity⟩ := @Call.exists_identity strictDeployment sampleRenameCall
  have hfp : sampleRenameCall.fingerprint strictDeployment =
      .ok (Command.fingerprint strictDeployment.sha256 sampleRenameCall.command) :=
    Command.computeRequestFingerprint_eq trivial
  rw [Call.dispatch_eq, hfp, hidentity]
  refine Runs.exists_call (.ok (some 0)) ⟨0, _, rfl, .inl ⟨.enter _ _ _ _ rfl rfl, rfl⟩⟩ ?_
  refine Runs.exists_call (.error unavailable)
    ⟨_, _, .inr ⟨_, .inr ⟨"", rfl⟩, rfl, rfl⟩, .finish _ _ _ _ rfl, rfl⟩ ?_
  refine Runs.exists_call (.ok ()) ⟨_, .inl ⟨rfl, rfl⟩, rfl⟩ ?_
  refine Runs.exists_call (.ok (20 : Int)) ⟨_, ⟨rfl, rfl⟩, rfl⟩ ?_
  refine Runs.exists_call (.ok none) ⟨_, ⟨rfl, .inl rfl⟩, rfl⟩ ?_
  refine Runs.exists_call (.ok ()) ⟨_, .inl ⟨rfl, rfl⟩, rfl⟩ ?_
  refine Runs.exists_call (.ok ()) ⟨_, .inl ⟨rfl, rfl⟩, rfl⟩ ?_
  refine Runs.exists_call (.ok (some (ProfileORM.values sampleProfile)))
    ⟨_, ⟨_, ⟨_, ⟨.inl rfl, rfl⟩, rfl⟩, rfl⟩, rfl⟩ ?_
  refine Runs.exists_call (.ok (20 : Int)) ⟨_, ⟨rfl, rfl⟩, rfl⟩ ?_
  refine Runs.exists_call (.ok (some sampleRenamed))
    ⟨_, ⟨_, ⟨_, .inl ⟨?_, ⟨?_, ?_⟩, rfl, rfl⟩, rfl⟩, rfl⟩, rfl⟩ ?_
  · intro u r h
    cases h
  · decide
  · intro other hother content h
    change (Row.commit () ((Tables.stored somebody.rows : Tables Unit moscowOnly).rows
      .profiles other)).Content content at h
    rw [somebody_absent hother] at h
    exact absurd h content_absent
  refine Runs.exists_call (.ok (20 : Int)) ⟨_, ⟨rfl, rfl⟩, rfl⟩ ?_
  refine Runs.exists_call (.ok (20 : Int)) ⟨_, ⟨rfl, rfl⟩, rfl⟩ ?_
  refine Runs.exists_call (.ok true) ⟨_, .inl ⟨?_, ⟨rfl, rfl⟩⟩, rfl⟩ ?_
  · intro u r h
    cases h
  refine Runs.exists_call (.ok ()) ⟨_, .inl ⟨rfl, rfl⟩, rfl⟩ ?_
  refine Runs.exists_call (.ok (20 : Int)) ⟨_, ⟨rfl, rfl⟩, rfl⟩ ?_
  exact ⟨_, _, .ret _ _, _, rfl⟩

theorem committed_answers_sample : ∃ (response : Response)
    (s : RouteWorld Unit (sampleClient true) moscowOnly),
    response.status = 200 ∧ sampleRenameCall.Told strictDeployment response s := by
  obtain ⟨r, s, hrun, dto, rfl⟩ := strictRename_run
  have hanswer : sampleRenameCall.answer strictDeployment
      ((codecOf (profileAdapter strictReaders)).encode dto) =
        .ok (privateVersion ((profileAdapter strictReaders).dumpPython dto) dto.version) := by
    show ((codecOf (profileAdapter strictReaders)).decode
      ((codecOf (profileAdapter strictReaders)).encode dto) >>= fun profile => _) = _
    rw [(codecOf (profileAdapter strictReaders)).decode_encode
      (profileAdapter_roundTrips strictReaders dto)]
    rfl
  rw [hanswer] at hrun
  refine ⟨privateVersion ((profileAdapter strictReaders).dumpPython dto) dto.version, s.world,
    rfl, ?_⟩
  have hfree : TellsApart strictDeployment fun _ : Unit => .write sampleRenameCall := by
    rintro u v a b ha hb x y hx hy -
    obtain rfl := Exchange.write.inj ha
    obtain rfl := Exchange.write.inj hb
    rw [Except.ok.inj (hx.symm.trans hy)]
  have htruthful := @committed_answers Unit _ moscowOnly strictDeployment (sampleClient true)
    (fun _ => 7) (fun _ => .write sampleRenameCall) somebody 20 Unit Int _ _ _ Resilience.sampleConfig
    (fun _ => ()) 0 _ hfree strict_profile strict_settings
    (hrun.reachable rfl)
  exact htruthful.told () _ (by simp)

end Sample
end ProfileService.Entrypoints
