import ProfileService.Entrypoints.LostUpdates
import ProfileService.Idempotency.Lookups

/-!
# Duplicates of one command

However often one command is executed under one identity, the execution that commits settles
it for the others too: as long as its record lives, none of them is refused for what it did.
-/

namespace ProfileService.Entrypoints
open Domain Library Library.Machine Application Infrastructure Idempotency

variable {W : Type} [DecidableEq W] {zones : ZoneInfo} {fault : Exn → Prop} {D : Deployment}
  {H : HotStore W} {F : Failures} {name : TableName} {w : W}
  {commands : W → Command} {modes : W → ResultMode}
  {base : (name : TableName) → UserId → Option (tableOf zones name).Row}
  {before : IdempotencyKey → List (Version W DurableRecord)}
  {s s' : World W H (database W zones fault)} {since : Moment W zones fault} {k : IdempotencyKey}
  {u : RowUpdate zones name} {d : DomainError}

/-! ### One execution among the others -/

/-- After the commits of `past` the row has a version that the update does not expect. -/
def Overtaken (u : RowUpdate zones name)
    (base : (name : TableName) → UserId → Option (tableOf zones name).Row)
    (past : List (Commit W (database W zones fault))) : Prop :=
  ∃ v ∈ stagedVersions name u.userId past ++
      (base name u.userId).toList.map fun row => ⟨none, row⟩,
    (tableOf zones name).version v.row ≠ u.expectedVersion

theorem mem_of_committedAfter {past : List (Commit W (database W zones fault))}
    {id : UserId} {row : (tableOf zones name).Row} (h : committedAfter name base past id = some row) :
    ∃ v ∈ stagedVersions name id past ++ (base name id).toList.map fun row => ⟨none, row⟩,
      v.row = row := by
  obtain ⟨v, hv, rfl⟩ := Option.map_eq_some_iff.1 h
  exact ⟨v, List.mem_of_head? hv, rfl⟩

theorem stagedVersions_suffix {past later : List (Commit W (database W zones fault))} {id : UserId}
    (h : past <:+ later) : stagedVersions name id past <:+ stagedVersions name id later := by
  obtain ⟨made, rfl⟩ := h
  unfold stagedVersions
  rw [List.filterMap_append]
  exact List.suffix_append _ _

theorem loaded_of_committedAfter {past : List (Commit W (database W zones fault))}
    {a : VersionedMutableEntity (FieldsOf zones name)} (h : Accounted commands base s)
    (hpast : past <:+ s.log)
    (hrow : committedAfter name base past a.id = some ((tableOf zones name).values a)) :
    Loaded name a s := by
  obtain ⟨v, hv, hvalues⟩ := mem_of_committedAfter hrow
  refine ⟨v, ?_, hvalues⟩
  rw [h.versions name a.id]
  rcases List.mem_append.1 hv with hv | hv
  · exact List.mem_append_left _ ((stagedVersions_suffix hpast).subset hv)
  · exact List.mem_append_right _ hv

theorem Overtaken.later {past later : List (Commit W (database W zones fault))}
    (h : Overtaken u base past) (hlater : past <:+ later) : Overtaken u base later := by
  obtain ⟨v, hv, hversion⟩ := h
  refine ⟨v, ?_, hversion⟩
  rcases List.mem_append.1 hv with hv | hv
  · exact List.mem_append_left _ ((stagedVersions_suffix hlater).subset hv)
  · exact List.mem_append_right _ hv

theorem overtaken_enduring :
    Enduring w (fun s : World W H (database W zones fault) => Overtaken u base s.log) where
  frame hf h := h.later hf.log
  step hs h := h.later hs.log

/-- A refusal that is no race: a username in use, or an aggregate that does not take the change. -/
def Declined (u : RowUpdate zones name)
    (base : (name : TableName) → UserId → Option (tableOf zones name).Row) (now : Instant)
    (d : DomainError) (s : World W H (database W zones fault)) : Prop :=
  d = .usernameAlreadyTaken ∨ ∃ past a, past <:+ s.log ∧
    committedAfter name base past u.userId = some ((tableOf zones name).values a) ∧
    a.id = u.userId ∧ a.version = u.expectedVersion ∧ u.change now a = .error d

theorem Declined.later {now : Instant} (h : Declined u base now d s) (hlog : s.log <:+ s'.log) :
    Declined u base now d s' := by
  rcases h with htaken | ⟨past, a, hpast, hrest⟩
  · exact .inl htaken
  · exact .inr ⟨past, a, hpast.trans hlog, hrest⟩

theorem Refusal.cases {since : List (Commit W (database W zones fault))} {now : Instant}
    (h : Refusal base since u now d s) :
    (Exn.isRaceError (.domain d) = true ∧ Overtaken u base s.log) ∨ Declined u base now d s := by
  rcases h with ⟨htaken, -⟩ | ⟨past, -, hpast, hrefused⟩
  · exact .inr (.inl htaken)
  · cases hrefused with
    | otherVersion hrace hrow hversion =>
      obtain ⟨v, hv, rfl⟩ := mem_of_committedAfter hrow
      have hovertaken : Overtaken u base past := ⟨v, hv, hversion⟩
      exact .inl ⟨hrace, hovertaken.later hpast⟩
    | usernameTaken => exact .inr (.inl rfl)
    | change hrow hid hversion hchange => exact .inr (.inr ⟨past, _, hpast, hrow, hid, hversion, hchange⟩)

/-- What is known of a domain error of an update of a stored row once it leaves the durable
execution: no live record of the identity was there when the row had been overtaken, or it
is one of the refusals that are not a race. -/
def Dismissed (commands : W → Command)
    (base : (name : TableName) → UserId → Option (tableOf zones name).Row)
    (before : IdempotencyKey → List (Version W DurableRecord)) (since : Instant)
    (k : IdempotencyKey) (w : W) (d : DomainError) (s : World W H (database W zones fault)) :
    Prop :=
  ∃ name u, rowUpdate zones name (commands w) = some u ∧ ((base name u.userId).isSome = true →
    Consulted k before (Overtaken u base) none s ∨
      ∃ now, since ≤ now ∧ Declined u base now d s)

theorem Dismissed.later {since : Instant} (h : Dismissed commands base before since k w d s)
    (hlog : s.log <:+ s'.log) (hnow : s.now ≤ s'.now) :
    Dismissed commands base before since k w d s' := by
  obtain ⟨name, u, hu, hdismissed⟩ := h
  refine ⟨name, u, hu, fun hbase => ?_⟩
  rcases hdismissed hbase with hmissed | ⟨now, hsince, hdeclined⟩
  · exact .inl (hmissed.later hlog hnow)
  · exact .inr ⟨now, hsince, hdeclined.later hlog⟩

theorem Dismissed.enduring {since : Instant} :
    Enduring w (fun s : World W H (database W zones fault) =>
      Dismissed commands base before since k w d s) where
  frame hf h := h.later hf.log hf.now
  step hs h := h.later hs.log (le_of_eq hs.now.symm)

abbrev Settling (D : Deployment) (commands : W → Command) (modes : W → ResultMode)
    (base : (name : TableName) → UserId → Option (tableOf zones name).Row)
    (since : Moment W zones fault) (before : IdempotencyKey → List (Version W DurableRecord))
    (s : World W H (database W zones fault)) : Prop :=
  Governed D commands modes base since s ∧ Logged before s

section Runs
variable (hfault : ∀ e, fault e → e.isOrchestration = true)
  (hF : ∀ e, F.fault e → e.isOrchestration = true)
  (hhot : ∀ {w now c h e h'}, H.exec w now c h (.error e) h' → e.isOrchestration = true)

include hF

theorem dismissed_resolveRace {fp : Digest} 
    (hrefused : Raised commands base (since.now ≤ ·) since.log w d s) :
    RaisesDb F (Settling D commands modes base since before) w
      (Dismissed commands base before since.now k w) (resolveRace k fp (.domain d)) s := by
  have hquiet : QuietContract F w
      (fun s : World W H (database W zones fault) =>
        Settling D commands modes base since before s) :=
    ⟨hF, fun he hi => ⟨hi.1.quiet he, hi.2.step he.housekeeping.step⟩⟩
  have hkeeps : Dismissed commands base before since.now k w d s →
      RaisesDb F (Settling D commands modes base since before) w
        (Dismissed commands base before since.now k w) (resolveRace k fp (.domain d)) s := fun hd =>
    raisesDb_resolveRace hquiet hd (fun _ _ hf => Dismissed.enduring.frame hf)
      fun _ _ _ _ he => Dismissed.enduring.step (dbExec_step he)
  obtain ⟨name, u, hu, hrefusal⟩ := hrefused
  by_cases hbase : (base name u.userId).isSome = true
  · obtain ⟨now, hsince, hrefused⟩ := hrefusal hbase
    rcases Refusal.cases hrefused with ⟨-, hovertaken⟩ | hdeclined
    · refine (missed_resolveRace hquiet (fun _ hi => hi.2) overtaken_enduring (fun _ _ h => h)
        (fun s hi ht => hi.1.2.idle w ht k) hovertaken).mono fun r s' h e he => ?_
      exact (h e he).imp_right fun ⟨d', hd', hmissed⟩ =>
        ⟨d', hd', name, u, hu, fun _ => .inl hmissed⟩
    · exact hkeeps ⟨name, u, hu, fun _ => .inr ⟨now, hsince, hdeclined⟩⟩
  · exact hkeeps ⟨name, u, hu, fun h => absurd h hbase⟩

include hhot

theorem settlingContract (w : W) (k : IdempotencyKey) :
    ExecutionContract F w k
      (fun s : World W H (database W zones fault) => Settling D commands modes base since before s)
      (Raised commands base (since.now ≤ ·) since.log w) (Dismissed commands base before since.now k w)
      (Prepared D commands modes w) where
  fault := hF
  db he hi := ⟨hi.1.quiet he, hi.2.step he.housekeeping.step⟩
  hotRaises := hhot
  write hp ht hfree hrow hi := ⟨hi.1.writeRecord ht hfree hrow hp, hi.2.writeRecord⟩
  prepared_frame hp hf := hp.frame hf
  prepared_readClock hp := ⟨hp.update, hp.provision⟩
  hot _ hi := ⟨hi.1.setHot, hi.2⟩
  heartbeat hi := ⟨hi.1.setHeartbeat, hi.2⟩
  raised_frame _ _ _ hd hf := hd.later hf.log
  raised_rollback _ _ hd := hd.later (List.suffix_refl _)
  frame _ _ _ hd hf := hd.later hf.log hf.now
  setHot hd := hd
  setHeartbeat hd := hd
  settled {d s} hrace hd := by
    obtain ⟨name, u, hu, hrefusal⟩ := hd
    refine ⟨name, u, hu, fun hbase => ?_⟩
    obtain ⟨now, hsince, hrefused⟩ := hrefusal hbase
    rcases Refusal.cases hrefused with ⟨htrue, -⟩ | hdeclined
    · rw [hrace] at htrue
      cases htrue
    · exact .inr ⟨now, hsince, hdeclined⟩
  race _ hd _ := dismissed_resolveRace hF hd

include hfault

theorem execution_settles {job : W → Request (database W zones fault)}
    (hmode : (job w).policy.mode = .hotDurable)
    (hoperation : (job w).operation = operationOf D zones fault (modes w) (commands w)) :
    RaisesOp F (Settling D commands modes base since before) w
      (Dismissed commands base before since.now (job w).identity w) (job w).code s := by
  refine raises_executeAs (settlingContract hF hhot w (job w).identity) hmode fun s₁ hs => ?_
  obtain ⟨s₀, hi, hbegun⟩ := hs
  have hprepares : PreparesDb F (Governed D commands modes base since) w
      (Raised commands base (since.now ≤ ·) since.log w) (Prepared D commands modes w)
      ((job w).operation.hotDurable.lift (stmtInDb _)) s₁ :=
    prepares_begun hfault hoperation ⟨s₀, hi.1, hbegun⟩
  exact hprepares.and_inv fun _ _ _ _ he _ hj => hj.step (dbExec_step he)

end Runs

/-! ### The copies of a command -/

/-- The executions under the identity `k` are the copies of one update, and nobody else
updates its row. -/
structure Copies (job : W → Request (database W zones fault)) (commands : W → Command)
    (k : IdempotencyKey) (command : Command) (u : RowUpdate zones name) : Prop where
  update : rowUpdate zones name command = some u
  same : ∀ v, (job v).identity = k → commands v = command
  alone : ∀ v u', rowUpdate zones name (commands v) = some u' → u'.userId = u.userId →
    (job v).identity = k

variable {job : W → Request (database W zones fault)} {command : Command}
  {a₀ a a' : VersionedMutableEntity (FieldsOf zones name)}

namespace Copies
variable (h : Copies job commands k command u)

include h

theorem writes {old row : (tableOf zones name).Row}
    (hw : Writes zones name u.userId (commands w) (some old) row) :
    ∃ a a' now, old = (tableOf zones name).values a ∧ row = (tableOf zones name).values a' ∧
      u.apply now a = some a' := by
  obtain ⟨u', a, a', now, hu', happly, hid, hold, hrow⟩ := hw
  have huser : u'.userId = u.userId := (apply_eq_some.1 happly).1.symm.trans hid
  have hcommand : commands w = command := h.same w (h.alone w u' hu' huser)
  rw [hcommand, h.update] at hu'
  obtain rfl := Option.some.inj hu'
  exact ⟨a, a', now, hold, hrow, happly⟩

theorem once {t : W} {older old row : (tableOf zones name).Row}
    (hnew : Writes zones name u.userId (commands w) (some old) row)
    (hold : Writes zones name u.userId (commands t) (some older) old) : False := by
  obtain ⟨a, a', now, rfl, -, happly⟩ := h.writes hnew
  obtain ⟨b, b', now', -, hrow, happly'⟩ := h.writes hold
  obtain rfl := values_inj hrow
  obtain ⟨-, hversion, -⟩ := apply_eq_some.1 happly
  obtain ⟨-, hversion', hok⟩ := apply_eq_some.1 happly'
  have hnext := (rowUpdate_kept h.update hok).2.2
  omega

theorem versions (hacc : Accounted commands base s)
    (hbase : base name u.userId = some ((tableOf zones name).values a₀)) :
    stagedVersions name u.userId s.log = [] ∨ ∃ t a' now, u.apply now a₀ = some a' ∧
      stagedVersions name u.userId s.log = [⟨some t, (tableOf zones name).values a'⟩] := by
  have htraces := (hacc.traced name u.userId).history
  rw [hacc.versions, hbase] at htraces
  cases hstaged : stagedVersions name u.userId s.log with
  | nil => exact .inl rfl
  | cons v rest =>
    rw [hstaged] at htraces
    obtain ⟨⟨writer, row⟩, hv⟩ : ∃ x, x = v := ⟨v, rfl⟩
    subst hv
    obtain ⟨hwritten, hrest⟩ := htraces
    cases writer with
    | none =>
      obtain ⟨hnil, -⟩ := hwritten
      cases rest <;> cases hnil
    | some t =>
      cases rest with
      | nil =>
        obtain ⟨a, a', now, hold, rfl, happly⟩ := h.writes hwritten
        obtain rfl := values_inj hold
        exact .inr ⟨t, a', now, happly, rfl⟩
      | cons x rest =>
        -- the version below was made by a copy too
        exfalso
        obtain ⟨⟨writer, old⟩, hx⟩ : ∃ y, y = x := ⟨x, rfl⟩
        subst hx
        obtain ⟨hwritten', -⟩ := hrest
        cases writer with
        | none =>
          obtain ⟨hnil, -⟩ := hwritten'
          cases rest <;> cases hnil
        | some t' =>
          let bottom : Version W (tableOf zones name).Row := ⟨none, (tableOf zones name).values a₀⟩
          obtain ⟨below, hbelow⟩ :
              ∃ below, (rest ++ [bottom]).head?.map Version.row = some below := by
            cases rest <;> exact ⟨_, rfl⟩
          change Writes zones name u.userId (commands t')
            ((rest ++ [bottom]).head?.map Version.row) old at hwritten'
          rw [hbelow] at hwritten'
          exact h.once hwritten hwritten'

theorem loaded (hacc : Accounted commands base s)
    (hbase : base name u.userId = some ((tableOf zones name).values a₀)) (ha : Loaded name a s)
    (hid : a.id = u.userId) (hversion : a.version = u.expectedVersion) : a = a₀ := by
  obtain ⟨v, hv, hrow⟩ := ha
  rw [hid, hacc.versions, hbase] at hv
  rcases List.mem_append.1 hv with hstaged | hbottom
  · rcases h.versions hacc hbase with hnil | ⟨t, a', now, happly, hone⟩
    · rw [hnil] at hstaged
      cases hstaged
    · rw [hone] at hstaged
      obtain rfl := List.mem_singleton.1 hstaged
      obtain rfl := values_inj hrow
      obtain ⟨-, hexpected, hok⟩ := apply_eq_some.1 happly
      have hnext := (rowUpdate_kept h.update hok).2.2
      omega
  · obtain rfl := List.mem_singleton.1 hbottom
    exact (values_inj hrow).symm

/-- A commit under the identity accepted the update, and wrote the row unless there was
nothing to change. -/
theorem committed {made : Commit W (database W zones fault)} {row : DurableRecord}
    (hgov : Governed D commands modes base since s) (hcons : Consistent job before s)
    (hbase : base name u.userId = some ((tableOf zones name).values a₀)) (hmade : made ∈ s.log)
    (hrow : made.installed k = some row) :
    a₀.id = u.userId ∧ a₀.version = u.expectedVersion ∧
      (∃ now changed a, u.change now a₀ = .ok (changed, a)) ∧
      (((show Uncommitted zones from made.staged) name u.userId).isSome = true ∨
        ∃ now, u.change now a₀ = .ok (false, a₀)) := by
  have hidentity : k = (job made.worker).identity := ((hcons.commits made hmade).own k row hrow).1
  have hupdate : rowUpdate zones name (commands made.worker) = some u := by
    rw [h.same _ hidentity.symm]
    exact h.update
  obtain ⟨stored, -, -, -, hkept⟩ := hgov.2.logged made hmade k row hrow
  obtain ⟨a, hid, -, ⟨b, now, changed, hloaded, hbid, hversion, hok⟩, -, hwrote⟩ :=
    hkept.update name u hupdate
  obtain rfl := h.loaded hgov.1 hbase hloaded hbid hversion
  refine ⟨hbid, hversion, ⟨now, changed, a, hok⟩, hwrote.imp_right ?_⟩
  rintro ⟨haloaded, haversion, now', hsame⟩
  obtain rfl := h.loaded hgov.1 hbase haloaded hid haversion
  exact ⟨now', hsame⟩

/-- After the commit that updated the row no copy commits a record: it would have updated the
row again, or found nothing to change in the version that was updated. -/
theorem nothing_later {new past : List (Commit W (database W zones fault))}
    {made : Commit W (database W zones fault)} {row : DurableRecord}
    {v : Version W (tableOf zones name).Row}
    (hgov : Governed D commands modes base since s) (hcons : Consistent job before s)
    (hbase : base name u.userId = some ((tableOf zones name).values a₀))
    (hlog : new ++ past = s.log) (hv : v ∈ stagedVersions name u.userId past) (hmade : made ∈ new)
    (hrow : made.installed k = some row) : False := by
  have hstaged : stagedVersions name u.userId s.log =
      stagedVersions name u.userId new ++ stagedVersions name u.userId past := by
    rw [← hlog]
    exact List.filterMap_append
  rcases h.versions hgov.1 hbase with hnil | ⟨t, a', now, happly, hone⟩
  · rw [hstaged, List.append_eq_nil_iff] at hnil
    rw [hnil.2] at hv
    cases hv
  · rw [hstaged] at hone
    have hnone : stagedVersions name u.userId new = [] := by
      rcases List.append_eq_singleton_iff.1 hone with ⟨hnil, -⟩ | ⟨-, hnil⟩
      · exact hnil
      · rw [hnil] at hv
        cases hv
    obtain ⟨-, -, -, hwrote⟩ := h.committed hgov hcons hbase
      (hlog ▸ List.mem_append_left past hmade) hrow
    rcases hwrote with hsome | ⟨now', hsame⟩
    · obtain ⟨content, hcontent⟩ := Option.isSome_iff_exists.1 hsome
      have hmem : (⟨some made.worker, content⟩ : Version W (tableOf zones name).Row) ∈
          stagedVersions name u.userId new :=
        List.mem_filterMap.2 ⟨made, hmade, by rw [hcontent]; rfl⟩
      rw [hnone] at hmem
      cases hmem
    · obtain ⟨-, -, hok⟩ := apply_eq_some.1 happly
      obtain ⟨a'', hagain⟩ := rowUpdate_later h.update hsame (rowUpdate_past h.update hok)
      rw [hok] at hagain
      cases hagain

/-- Once the row has been overtaken, no record is committed for the copies. -/
theorem expired {v : Version W DurableRecord} (hgov : Governed D commands modes base since s)
    (hcons : Consistent job before s)
    (hbase : base name u.userId = some ((tableOf zones name).values a₀))
    (hmissed : Consulted k before (Overtaken u base) none s)
    (hv : (s.records k).versions.head? = some v) : v.row.completed.expiresAt ≤ s.now := by
  obtain ⟨past, ⟨new, hlog⟩, ⟨x, hx, hother⟩, hrecord⟩ := hmissed
  have hinstalls : installs k s.log = installs k new ++ installs k past := by
    rw [← hlog]
    exact List.filterMap_append
  rw [hcons.versions k, hinstalls, List.append_assoc] at hv
  cases hnew : installs k new with
  | nil =>
    rw [hnew] at hv
    rcases hrecord v hv with hexpired | hfound
    · exact hexpired
    · cases hfound
  | cons y ys =>
    exfalso
    obtain ⟨made, hmade, hinstalled⟩ : ∃ made ∈ new,
        (made.installed k).map (fun row => (⟨some made.worker, row⟩ : Version W _)) = some y :=
      List.mem_filterMap.1 (hnew ▸ List.mem_cons_self : y ∈ installs k new)
    obtain ⟨row, hrow, -⟩ := Option.map_eq_some_iff.1 hinstalled
    rw [hbase] at hx
    rcases List.mem_append.1 hx with hx | hbottom
    · exact h.nothing_later hgov hcons hbase hlog hx hmade hrow
    · -- the version of before the run is the one that the copies expect
      obtain ⟨-, hversion, -⟩ := h.committed hgov hcons hbase
        (hlog ▸ List.mem_append_left past hmade) hrow
      obtain rfl := List.mem_singleton.1 hbottom
      rw [(lawful_tableOf zones name).version] at hother
      exact hother hversion

end Copies

/-! ### The run -/

theorem installed_of_live {stored : IdempotencyKey → Option DurableRecord} {record : DurableRecord}
    (hcons : Consistent job (fun k => (stored k).toList.map fun row => ⟨none, row⟩) s)
    (hexpired : ∀ old, stored k = some old → old.completed.expiresAt ≤ s.now)
    (hrecord : (s.records k).committed = some record) (hlive : s.now < record.completed.expiresAt) :
    ∃ made ∈ s.log, made.installed k = some record := by
  obtain ⟨v, hv, rfl⟩ := Option.map_eq_some_iff.1 hrecord
  have hmem := List.mem_of_mem_head? hv
  rw [hcons.versions k] at hmem
  rcases List.mem_append.1 hmem with hinstalled | hbefore
  · obtain ⟨made, hmade, hversion⟩ := List.mem_filterMap.1 hinstalled
    obtain ⟨row, hrow, rfl⟩ := Option.map_eq_some_iff.1 hversion
    exact ⟨made, hmade, hrow⟩
  · exfalso
    obtain ⟨old, hold, rfl⟩ := List.mem_map.1 hbefore
    have hover := hexpired old (Option.mem_toList.1 hold)
    exact absurd hlive (not_lt.2 hover)

section Sample

theorem cancelledRename_run : ∃ r s, Runs (machine Bool (redisHotStore Bool (sampleClient true))
    (database Bool moscowOnly Failures.any.fault) Failures.any) false
    (sampleExecution sampleRename).code
    (World.initial 20 (Redis.empty : Redis Bool) (Tables.stored somebody.rows) fun _ => none) r s ∧
    r = .error .cancelled ∧
    ∃ hot : Redis Bool, s = World.initial 20 hot (Tables.stored somebody.rows) fun _ => none := by
  refine Runs.exists_call (.error unavailable) ⟨_, .inr ⟨_, .inr ⟨"", rfl⟩, rfl, rfl⟩, rfl⟩ ?_
  refine Runs.exists_call (.error .cancelled) (.inr ⟨.cancelled, .inl rfl, rfl, rfl⟩) ?_
  exact ⟨_, _, .ret _ _, rfl, _, rfl⟩

theorem sampleRename_copies : ∃ u : RowUpdate moscowOnly .profiles, u.userId = 0 ∧
    Copies (fun _ : Bool =>
        (sampleExecution sampleRename : Request (database Bool moscowOnly Failures.any.fault)))
      (fun _ => sampleRename) sampleKey sampleRename u :=
  ⟨_, rfl, rfl, fun _ _ => rfl, fun _ _ _ _ => rfl⟩

end Sample
end ProfileService.Entrypoints
