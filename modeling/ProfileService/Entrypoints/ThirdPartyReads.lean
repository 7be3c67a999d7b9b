import ProfileService.Application.PublicPrivacy
import ProfileService.Entrypoints.Provisioning

/-!
# What third parties read while commands run

The committed rows of any moment make a store of the public readers: a username names one
user, and a user has both halves or none.
-/

namespace ProfileService.Entrypoints
open Domain Library Library.Machine Application Infrastructure Idempotency

variable {W : Type} [DecidableEq W] {zones : ZoneInfo} {fault : Exn → Prop} {name : TableName}
  {id uid : UserId} {w : W} {commands : W → Command} {H : HotStore W} {F : Failures} {α : Type}
  {s s' : World W H (database W zones fault)}

/-! ### The business tables of a run -/

section Business
variable {B : Business W} {c c' : Library.Config (sig B) Exn W (World W H B) α}

/-- What the steps of the transactions keep of the tables, every run keeps. -/
theorem reachable_business {K : B.State → Prop}
    (hstep : ∀ w (s s' : World W H B), DbStep w s s' → K s.business → K s'.business)
    (hr : (machine W H B F).Reachable c c') (h : K c.state.business) : K c'.state.business := by
  induction hr with
  | refl => exact h
  | tail _ hs ih =>
    cases hs with
    | @act t o k r s' htask hexec =>
      cases o with
      | hot call =>
        obtain ⟨hot, -, rfl⟩ := hexec
        exact ih
      | startHeartbeat k token lease =>
        obtain ⟨-, rfl⟩ := hexec
        exact ih
      | leaseLost =>
        obtain ⟨-, rfl⟩ := hexec
        exact ih
      | stopHeartbeat =>
        obtain ⟨-, rfl⟩ := hexec
        exact ih
      | db o => exact hstep t _ _ (dbExec_step hexec) ih
    | env henv => cases henv <;> exact ih
    | @crash t o k s' htask hcrash =>
      obtain ⟨-, rfl⟩ := hcrash
      unfold World.crash
      split
      · rename_i ht
        have hrolled := hstep t _ _ (.rollback ht) ih
        exact hrolled
      · exact ih

end Business

/-- The usernames of two rows differ, committed or not. -/
def NamesApart (b : Tables W zones) : Prop :=
  ∀ id other, other ≠ id → ∀ row content, (b.rows .profiles id).Content row →
    (b.rows .profiles other).Content content → ∀ username : Str,
      ProfileORM.username row = some username → ProfileORM.username content ≠ some username

omit [DecidableEq W] in
theorem NamesApart.anti {b b' : Tables W zones} (h : NamesApart b)
    (hsub : ∀ id row, (b'.rows .profiles id).Content row → (b.rows .profiles id).Content row) :
    NamesApart b' := fun id other hne row content hrow hcontent =>
  h id other hne row content (hsub id row hrow) (hsub other content hcontent)

omit [DecidableEq W] in
theorem accepted_apart {rows : Rows W (tableOf zones .profiles)} {row content : ProfileORM}
    {other : UserId} (h : Accepted rows id row) (hne : other ≠ id)
    (hcontent : (rows other).Content content) {username : Str}
    (hu : row.username = some username) : content.username ≠ some username := by
  have hunique := ((Table.violation_eq_none _).1 (h.2 other hne content hcontent)).2 content
    (List.mem_singleton_self _)
  change (ProfileORM.uniques row content).all Prod.snd = true at hunique
  intro hother
  simp [ProfileORM.uniques, hu, hother] at hunique

omit [DecidableEq W] in
theorem NamesApart.write {b : Tables W zones} {row : ProfileORM} (h : NamesApart b)
    (haccepted : Accepted (b.rows .profiles) id row) :
    NamesApart (b.setRows .profiles
      (Function.update (b.rows .profiles) id ((b.rows .profiles id).write w row))) := by
  have hcontent : ∀ other content, ((b.setRows .profiles (Function.update (b.rows .profiles) id
      ((b.rows .profiles id).write w row))).rows .profiles other).Content content →
      (b.rows .profiles other).Content content ∨ other = id ∧ content = row := by
    intro other content hc
    by_cases hother : other = id
    · subst hother
      simp only [Tables.setRows, Function.update_self] at hc
      exact hc.of_write.imp_right fun heq => ⟨rfl, heq⟩
    · simp only [Tables.setRows, Function.update_self, Function.update_of_ne hother] at hc
      exact .inl hc
  intro own other hne mine content hmine hother username hu
  rcases hcontent own mine hmine with hold | ⟨rfl, rfl⟩
  · rcases hcontent other content hother with hold' | ⟨rfl, rfl⟩
    · exact h own other hne mine content hold hold' username hu
    · exact fun hu' => accepted_apart haccepted (Ne.symm hne) hold hu' hu
  · rcases hcontent other content hother with hold' | ⟨rfl, -⟩
    · exact accepted_apart haccepted hne hold' hu
    · exact absurd rfl hne

theorem NamesApart.table {b : Tables W zones} {o : TableOp (tableOf zones name)}
    {rows : Rows W (tableOf zones name)} (hs : TableStep w (b.rows name) o rows)
    (h : NamesApart b) : NamesApart (b.setRows name rows) := by
  have hwrite : ∀ id row, Accepted (b.rows name) id row →
      NamesApart (b.setRows name
        (Function.update (b.rows name) id ((b.rows name id).write w row))) := by
    intro id row haccepted
    cases name with
    | profiles => exact h.write haccepted
    | settings => exact h.anti fun id row hrow => by simpa [Tables.setRows] using hrow
  cases hs with
  | same => exact h.anti fun id row hrow => by simpa [Tables.setRows] using hrow
  | update userId expectedVersion stored values _ _ _ haccepted => exact hwrite _ _ haccepted
  | insert row _ _ haccepted => exact hwrite _ _ haccepted

theorem NamesApart.step (hs : DbStep w s s')
    (h : NamesApart (show Tables W zones from s.business)) :
    NamesApart (show Tables W zones from s'.business) := by
  cases hs with
  | same => exact h
  | readClock => exact h
  | begin _ => exact h
  | commit _ => exact h.anti fun id row hrow => hrow.of_commit
  | rollback _ => exact h.anti fun id row hrow => hrow.of_rollback
  | write _ _ _ _ _ => exact h
  | stmt o r b _ hexec =>
    obtain ⟨rows, hexec, rfl⟩ := hexec
    exact h.table (tableExec_step hexec)

/-! ### Both halves -/

/-- A committed row was there before the run, or a provisioning has committed it. -/
theorem Accounted.origin {base : (name : TableName) → UserId → Option (tableOf zones name).Row}
    (h : Accounted commands base s) (hc : (rowOf name id s).committed.isSome = true) :
    (base name id).isSome = true ∨ ∃ made ∈ s.log, ∃ cmd,
      commands made.worker = .createDefaultProfile cmd ∧ cmd.userId = id ∧
      ((show Uncommitted zones from made.staged) name id).isSome = true := by
  have hne : (rowOf name id s).versions ≠ [] := by
    intro hnil
    rw [Row.committed, hnil] at hc
    cases hc
  obtain ⟨newer, v, hv⟩ := (List.eq_nil_or_concat _).resolve_left hne
  have htraces := (h.traced name id).history
  rw [hv, List.concat_eq_append] at htraces
  obtain ⟨hwritten, -⟩ := htraces.tail
  obtain ⟨writer, row⟩ := v
  cases writer with
  | none =>
    obtain ⟨-, hbase⟩ := hwritten
    exact .inl (by rw [hbase]; rfl)
  | some w =>
    obtain ⟨cmd, hcommand, hid, -⟩ := hwritten
    have hmem : (⟨some w, row⟩ : Version W (tableOf zones name).Row) ∈
        (rowOf name id s).versions := by
      rw [hv, List.concat_eq_append]
      exact List.mem_append_right _ (List.mem_singleton_self _)
    rw [h.versions name id] at hmem
    rcases List.mem_append.1 hmem with hstaged | hbottom
    · obtain ⟨made, hmade, hmap⟩ := List.mem_filterMap.1 hstaged
      obtain ⟨row', hrow, heq⟩ := Option.map_eq_some_iff.1 hmap
      have hworker : made.worker = w := Option.some.inj (congrArg Version.writer heq)
      subst hworker
      exact .inr ⟨made, hmade, cmd, hcommand, hid, by rw [hrow]; rfl⟩
    · obtain ⟨old, -, heq⟩ := List.mem_map.1 hbottom
      cases congrArg Version.writer heq

theorem Provisioned.halves {population : Population zones}
    (h : Provisioned commands population s) (hacc : Accounted commands population.rows s)
    (hwhole : ∀ id name name', (population.entity name id).isSome = true →
      (population.entity name' id).isSome = true) (name name' : TableName)
    (hc : (rowOf name id s).committed.isSome = true) :
    (rowOf name' id s).committed.isSome = true := by
  rcases Accounted.origin hacc hc with hbase | ⟨made, hmade, cmd, hcommand, rfl, hstaged⟩
  · have hbase' : (population.rows name' id).isSome = true := by
      unfold Population.rows at hbase ⊢
      rw [Option.isSome_map] at hbase ⊢
      exact hwhole id name name' hbase
    obtain ⟨row, hrow⟩ := Option.isSome_iff_exists.1 hbase'
    have hne : (rowOf name' id s).versions ≠ [] := by
      rw [hacc.versions name' id, hrow]
      simp
    cases hv : (rowOf name' id s).versions with
    | nil => exact absurd hv hne
    | cons v vs =>
      rw [Row.committed, hv]
      rfl
  · rcases h.whole made hmade cmd hcommand with ⟨hnothing, -⟩ | hboth
    · rw [hnothing] at hstaged
      cases hstaged
    · exact hboth name'

/-! ### The store of the readers -/

/-- The committed aggregate of a user, as a repository or a reader hydrates it. -/
def committedEntity (name : TableName) (id : UserId) (s : World W H (database W zones fault)) :
    Option (VersionedMutableEntity (FieldsOf zones name)) :=
  (rowOf name id s).committed.bind fun row => ((tableOf zones name).modelValidate row).toOption

theorem committedEntity_eq_some (hs : Infrastructure.Sound s)
    {a : VersionedMutableEntity (FieldsOf zones name)} :
    committedEntity name id s = some a ↔
      (rowOf name id s).committed = some ((tableOf zones name).values a) ∧ a.id = id := by
  constructor
  · intro h
    obtain ⟨row, hrow, hread⟩ := Option.bind_eq_some_iff.1 h
    obtain ⟨createdAt, hall⟩ := hs.rows name id
    obtain ⟨v, hv, rfl⟩ := Row.mem_of_committed hrow
    obtain ⟨b, hb, hid, -⟩ := hall.versions v hv
    rw [hb, (lawful_tableOf zones name).readBack] at hread
    obtain rfl := Option.some.inj hread
    exact ⟨by rw [hrow, hb], hid⟩
  · rintro ⟨h, -⟩
    unfold committedEntity
    rw [h, Option.bind_some, (lawful_tableOf zones name).readBack]
    rfl

theorem committedEntity_isSome (hs : Infrastructure.Sound s) :
    (committedEntity name id s).isSome = (rowOf name id s).committed.isSome := by
  cases hc : (rowOf name id s).committed with
  | none =>
    unfold committedEntity
    rw [hc]
    rfl
  | some row =>
    obtain ⟨createdAt, hall⟩ := hs.rows name id
    obtain ⟨v, hv, rfl⟩ := Row.mem_of_committed hc
    obtain ⟨a, ha, hid, -⟩ := hall.versions v hv
    rw [(committedEntity_eq_some hs).2 ⟨hc.trans (congrArg some ha), hid⟩]
    rfl

def committedEntities (name : TableName) (users : List UserId)
    (s : World W H (database W zones fault)) :
    List (VersionedMutableEntity (FieldsOf zones name)) :=
  users.filterMap fun id => committedEntity name id s

theorem mem_committedEntities (hs : Infrastructure.Sound s) (name : TableName) {users : List UserId}
    (hall : ∀ id, (rowOf name id s).committed.isSome = true → id ∈ users)
    {a : VersionedMutableEntity (FieldsOf zones name)} :
    a ∈ committedEntities name users s ∧ a.id = id ↔ committedEntity name id s = some a := by
  unfold committedEntities
  rw [List.mem_filterMap]
  constructor
  · rintro ⟨⟨other, -, h⟩, rfl⟩
    obtain ⟨-, rfl⟩ := (committedEntity_eq_some hs).1 h
    exact h
  · intro h
    obtain ⟨hrow, hid⟩ := (committedEntity_eq_some hs).1 h
    exact ⟨⟨id, hall id (by rw [hrow]; rfl), h⟩, hid⟩

theorem committedEntities_pairwise (hs : Infrastructure.Sound s) (name : TableName)
    {users : List UserId} (hnodup : users.Nodup)
    {p : VersionedMutableEntity (FieldsOf zones name) →
      VersionedMutableEntity (FieldsOf zones name) → Prop}
    (h : ∀ a b, a.id ≠ b.id → committedEntity name a.id s = some a →
      committedEntity name b.id s = some b → p a b) :
    (committedEntities name users s).Pairwise p := by
  unfold committedEntities
  rw [List.pairwise_filterMap]
  refine hnodup.imp fun {id other} hne a ha b hb => ?_
  obtain ⟨-, rfl⟩ := (committedEntity_eq_some hs).1 ha
  obtain ⟨-, rfl⟩ := (committedEntity_eq_some hs).1 hb
  exact h a b hne ha hb

structure ReadIn (s s' : World W H (database W zones fault)) (store : Store zones) : Prop where
  profile : ∀ uid, store.profile uid = committedEntity .profiles uid s
  setting : ∀ uid, store.setting uid = committedEntity .settings uid s'

theorem exists_store (hs : Infrastructure.Sound s) (hs' : Infrastructure.Sound s')
    (hnames : NamesApart (show Tables W zones from s.business)) {users : List UserId}
    (hprofiles : ∀ id, (rowOf .profiles id s).committed.isSome = true → id ∈ users)
    (hsettings : ∀ id, (rowOf .settings id s').committed.isSome = true → id ∈ users) :
    ∃ store, ReadIn s s' store := by
  have hnodup := List.nodup_dedup users
  have hdedup : ∀ {name : TableName} {s : World W H (database W zones fault)},
      (∀ id, (rowOf name id s).committed.isSome = true → id ∈ users) →
      ∀ id, (rowOf name id s).committed.isSome = true → id ∈ users.dedup :=
    fun h id hc => List.mem_dedup.2 (h id hc)
  have hapart : (committedEntities .profiles users.dedup s).Pairwise fun (p q : UserProfile) =>
      ∀ u, p.fields.username = some u → q.fields.username ≠ some u :=
    committedEntities_pairwise hs .profiles hnodup fun (p q : UserProfile) hne hp hq u hu hu' => by
      obtain ⟨hrow, -⟩ := (committedEntity_eq_some hs).1 hp
      obtain ⟨hrow', -⟩ := (committedEntity_eq_some hs).1 hq
      exact hnames p.id q.id (Ne.symm hne) _ _ (.inl hrow) (.inl hrow') u.1
        (congrArg (Option.map Subtype.val) hu) (congrArg (Option.map Subtype.val) hu')
  let store : Store zones :=
    { profiles := committedEntities .profiles users.dedup s
      settings := committedEntities .settings users.dedup s'
      profiles_pkey :=
        List.pairwise_map.2 (committedEntities_pairwise hs .profiles hnodup fun _ _ h _ _ => h)
      settings_pkey :=
        List.pairwise_map.2 (committedEntities_pairwise hs' .settings hnodup fun _ _ h _ _ => h)
      profiles_username_key := hapart }
  refine ⟨store, fun uid => Option.ext fun p => ?_, fun uid => Option.ext fun t => ?_⟩
  · exact Store.profile_eq_some.trans (mem_committedEntities hs .profiles (hdedup hprofiles))
  · exact Store.setting_eq_some.trans (mem_committedEntities hs' .settings (hdedup hsettings))

/-! ### What the handlers answer -/

/-- What a third party sees of a user with both halves. -/
def profileFor (store : Store zones) (viewerId : Option UserId) (userId : UserId) :
    Option PublicProfileDTO :=
  (store.profile userId).bind fun profile => (store.setting userId).map fun settings =>
    .fromDomainWithPolicy profile settings viewerId

/-- The outcomes of the three public queries: `missing_error` of the settings, a missing key
and a second row for a username are not among them. -/
structure PublicAnswers (scan : Scan) (store : Store zones) : Prop where
  one : ∀ query, getPublicProfile (postgresProfileReader scan store)
      (postgresSettingsReader scan store) query =
    (profileFor store query.viewerId query.userId).elim
      (.error (.domain .userProfileNotFound)) .ok
  batch : ∀ query, getBatchProfiles (postgresProfileReader scan store)
      (postgresSettingsReader scan store) query =
    .ok (query.userIds.filterMap (profileFor store query.viewerId))
  search : ∀ query username, Username.ofStr query.username = .ok username →
    ((∀ uid profile, store.profile uid = some profile →
        profile.fields.username ≠ some username) ∧
      searchByUsername (postgresProfileReader scan store)
          (postgresSettingsReader scan store) query =
        .error (.domain .userProfileNotFound)) ∨
    ∃ profile settings, store.profile profile.id = some profile ∧
      store.setting profile.id = some settings ∧ profile.fields.username = some username ∧
      (∀ uid other, store.profile uid = some other → other.fields.username = some username →
        uid = profile.id) ∧
      searchByUsername (postgresProfileReader scan store)
          (postgresSettingsReader scan store) query =
        if canFindByUsername profile.id settings query.viewerId then
          .ok (.fromDomainWithPolicy profile settings query.viewerId)
        else .error (.domain .userProfileNotFound)

section Answers
variable {store : Store zones} {viewer : Option UserId}
  (hwhole : ∀ uid, (store.profile uid).isSome = true → (store.setting uid).isSome = true)

include hwhole

theorem view_of_whole (uid : UserId) :
    store.view viewer uid = (profileFor store viewer uid).map some := by
  unfold Store.view profileFor
  cases hp : store.profile uid with
  | none => rfl
  | some profile =>
    obtain ⟨settings, ht⟩ := Option.isSome_iff_exists.1 (hwhole uid (by rw [hp]; rfl))
    rw [ht]
    rfl

theorem batchAnswer_of_whole (ids : List UserId) :
    batchAnswer (ids.filterMap (store.view viewer)) =
      .ok (ids.filterMap (profileFor store viewer)) := by
  have hviews : ids.filterMap (store.view viewer) =
      (ids.filterMap (profileFor store viewer)).map some := by
    rw [List.map_filterMap]
    exact List.filterMap_congr fun uid _ => view_of_whole hwhole uid
  have hnone : none ∉ (ids.filterMap (profileFor store viewer)).map some := by
    simp
  rw [hviews, batchAnswer, if_neg hnone, List.reduceOption, List.filterMap_map]
  exact congrArg Except.ok List.filterMap_some

theorem publicAnswers (scan : Scan) : PublicAnswers scan store where
  one query := by
    rw [getPublicProfile_eq, view_of_whole hwhole]
    cases profileFor store query.viewerId query.userId <;> rfl
  batch query := by
    rw [getBatchProfiles_eq, batchAnswer_of_whole hwhole]
  search query username hname := by
    rw [searchByUsername_eq, hname]
    have hholds : ∀ p, store.named username = some p ↔
        store.profile p.id = some p ∧ p.fields.username = some username := fun p => by
      rw [Store.named_eq_some, Store.profile_eq_some]
      simp
    cases hn : store.named username with
    | none =>
      refine .inl ⟨fun uid profile hp hu => ?_, by simp only [Store.found, hn]; rfl⟩
      have hid : profile.id = uid := (Store.profile_eq_some.1 hp).2
      rw [(hholds profile).2 ⟨by rw [hid, hp], hu⟩] at hn
      cases hn
    | some profile =>
      obtain ⟨hp, hu⟩ := (hholds profile).1 hn
      obtain ⟨settings, ht⟩ := Option.isSome_iff_exists.1 (hwhole profile.id (by rw [hp]; rfl))
      refine .inr ⟨profile, settings, hp, ht, hu, fun uid other hother hname => ?_, ?_⟩
      · have hid : other.id = uid := (Store.profile_eq_some.1 hother).2
        have hsame := (hholds other).2 ⟨by rw [hid, hother], hname⟩
        rw [hn] at hsame
        rw [← hid, Option.some.inj hsame]
      · simp only [Store.found, hn, Option.bind_some, Store.listing, hp, hu, if_true, ht]
        split <;> rfl

end Answers

/-! ### The run -/

/-- No run loses a committed version. -/
theorem VersionsGrow.of_reachable
    {c c' : Library.Config (sig (database W zones fault)) Exn W
      (World W H (database W zones fault)) α}
    (hr : (machine W H (database W zones fault) F).Reachable c c') :
    VersionsGrow c.state c'.state :=
  reachable_business (B := database W zones fault)
    (K := fun b : Tables W zones => ∀ name id,
      (rowOf name id c.state).versions <:+ (b.rows name id).versions)
    (fun _ _ _ hs h name id => (h name id).trans (VersionsGrow.of_step hs name id)) hr
    fun _ _ => List.suffix_refl _

omit [DecidableEq W] in
theorem initial_namesApart {population : Population zones}
    (hnames : ∀ (p q : UserProfile) id other, population.entity .profiles id = some p →
      population.entity .profiles other = some q → other ≠ id →
      ∀ u, p.fields.username = some u → q.fields.username ≠ some u) :
    NamesApart (Tables.stored population.rows : Tables W zones) := by
  have hcontent : ∀ id row, ((Tables.stored population.rows : Tables W zones).rows .profiles
      id).Content row → ∃ p : UserProfile, population.entity .profiles id = some p ∧
        row = ProfileORM.values p := by
    intro id row h
    change (((population.entity .profiles id).map ProfileORM.values).elim Row.absent
      Row.stored).Content row at h
    cases hp : population.entity .profiles id with
    | none =>
      rw [hp] at h
      exact absurd h content_absent
    | some p =>
      rw [hp] at h
      rcases h with h | ⟨u, h⟩
      · exact ⟨p, rfl, (Option.some.inj h).symm⟩
      · cases h
  intro id other hne row content hrow hother username hu hu'
  obtain ⟨p, hp, rfl⟩ := hcontent id row hrow
  obtain ⟨q, hq, rfl⟩ := hcontent other content hother
  obtain ⟨u, hpu, rfl⟩ := Option.map_eq_some_iff.1 hu
  obtain ⟨u', hqu, hval⟩ := Option.map_eq_some_iff.1 hu'
  obtain rfl := Subtype.ext hval
  exact hnames p q id other hp hq hne u' hpu hqu

/-- Any number of executions of the registered commands, in any interleaving and with any
failures: a public query that reads the profiles at one moment of the run and the settings at
the same or a later one finds a user's both halves or none, and one user for a username. -/
theorem public_reads_whole {R : RedisClient} {D : Deployment} {modes : W → ResultMode}
    {job : W → Request (database W zones Failures.any.fault)} {population : Population zones}
    {now : Instant} {stored : IdempotencyKey → Option DurableRecord}
    {c c' : Library.Config (sig (database W zones Failures.any.fault)) Exn W (RouteWorld W R zones)
      CompletedIdempotencyResult}
    (hmode : ∀ w, (job w).policy.mode = .hotDurable)
    (hoperation : ∀ w, (job w).operation = operationOf D zones _ (modes w) (commands w))
    (hr : (machine W (redisHotStore W R) (database W zones Failures.any.fault)
      Failures.any).Reachable ⟨World.initial now (Redis.empty : Redis W)
        (Tables.stored population.rows) stored, fun w => some (job w).code⟩ c)
    (hlater : (machine W (redisHotStore W R) (database W zones Failures.any.fault)
      Failures.any).Reachable c c')
    (hwhole : ∀ id name name', (population.entity name id).isSome = true →
      (population.entity name' id).isSome = true)
    (hnames : ∀ (p q : UserProfile) id other, population.entity .profiles id = some p →
      population.entity .profiles other = some q → other ≠ id →
      ∀ u, p.fields.username = some u → q.fields.username ≠ some u)
    {users : List UserId}
    (husers : ∀ name id, (population.entity name id).isSome = true → id ∈ users)
    (hprovisioned : ∀ w cmd, commands w = .createDefaultProfile cmd → cmd.userId ∈ users) :
    ∃ store, ReadIn c.state c'.state store ∧ ∀ scan, PublicAnswers scan store := by
  have hacc := (executions_governed any_orchestration any_orchestration redisExec_raises hmode
    hoperation hr).inv.1
  have hacc' := (executions_governed any_orchestration any_orchestration redisExec_raises hmode
    hoperation (hr.trans hlater)).inv.1
  have hprov := executions_provisioned hmode hoperation hr
  have happart : NamesApart (show Tables W zones from c.state.business) :=
    reachable_business (K := fun b : Tables W zones => NamesApart b)
      (fun _ _ _ hs h => NamesApart.step hs h) hr (initial_namesApart hnames)
  have hknown : ∀ {s : RouteWorld W R zones}, Accounted commands population.rows s →
      ∀ name id, (rowOf name id s).committed.isSome = true → id ∈ users := by
    intro s hacc name id hc
    rcases Accounted.origin hacc hc with hbase | ⟨made, -, cmd, hcommand, rfl, -⟩
    · exact husers name id (by simpa [Population.rows] using hbase)
    · exact hprovisioned made.worker cmd hcommand
  obtain ⟨store, hread⟩ := exists_store hacc.sound hacc'.sound happart
    (hknown hacc .profiles) (hknown hacc' .settings)
  refine ⟨store, hread, publicAnswers fun uid hp => ?_⟩
  -- the settings were there with the profile, and have stayed
  have hprofile : (committedEntity .profiles uid c.state).isSome = true :=
    (congrArg Option.isSome (hread.profile uid)).symm.trans hp
  rw [committedEntity_isSome hacc.sound] at hprofile
  have hsetting := committed_isSome_mono (VersionsGrow.of_reachable hlater .settings uid)
    (hprov.halves hacc hwhole .profiles .settings hprofile)
  rw [← committedEntity_isSome hacc'.sound] at hsetting
  exact (congrArg Option.isSome (hread.setting uid)).trans hsetting

section Sample

/-- A provisioned user is found with both halves. -/
theorem public_reads_whole_sample : ∃ (s : RouteWorld Unit (sampleClient true) moscowOnly)
    (store : Store moscowOnly),
    (∀ name, (rowOf name 0 s).committed.isSome = true) ∧ ReadIn s s store ∧
      ∀ scan, PublicAnswers scan store := by
  obtain ⟨r, s, hrun, hrows⟩ := sampleProvisioning_run
  obtain ⟨store, hread, hanswers⟩ := public_reads_whole (fun _ => rfl) sampleExecution_operation
    (hrun.reachable rfl) .refl (fun id name name' h => by cases h)
    (fun p q id other hp => by cases hp) (fun name id h => by cases h)
    (show ∀ (w : Unit) cmd, Command.createDefaultProfile sampleProvisioning =
      .createDefaultProfile cmd → cmd.userId ∈ [sampleProvisioning.userId] from fun w cmd h => by
        cases h
        exact List.mem_singleton_self _)
  exact ⟨s, store, fun name => by rw [hrows name]; rfl, hread, hanswers⟩

end Sample

end ProfileService.Entrypoints
