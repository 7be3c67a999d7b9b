import ProfileService.Entrypoints.CommandRuns

/-!
# The owner's reads

`GET /profiles/me` and `GET /settings/me`: the query handlers over the reader of a session,
which is closed without a commit. What they answer is a committed version.
-/

namespace ProfileService.Entrypoints
open Domain Library Library.Machine Application Infrastructure Idempotency

section Handlers
variable {m : Type → Type} [Monad m] [MonadExcept Exn m] {zones : ZoneInfo}

def getMy {F ResultT : Type} (getById : UserId → m (Option (VersionedMutableEntity F)))
    (notFound : DomainError) (fromDomain : VersionedMutableEntity F → ResultT) (userId : UserId) :
    m ResultT := do
  match ← getById userId with
  | none => throw (.domain notFound)
  | some entity => return fromDomain entity

def getMyProfileHandler (getById : UserId → m (Option UserProfile)) : UserId → m ProfileDTO :=
  getMy getById .userProfileNotFound ProfileDTO.fromDomain

def getMySettingsHandler (getById : UserId → m (Option (UserSettings zones))) :
    UserId → m SettingsDTO :=
  getMy getById .userSettingsNotFound SettingsDTO.fromDomain

end Handlers

variable {W : Type} [DecidableEq W] {zones : ZoneInfo} {fault : Exn → Prop} {D : Deployment}
  {H : HotStore W} {F : Failures} {name : TableName} {id : UserId} {w : W} {α : Type}
  {s s' : World W H (database W zones fault)} {I : World W H (database W zones fault) → Prop}

/-- `async with sessionmaker() as session`: the first statement begins a transaction, and
closing the session rolls it back. -/
def readSession {B : Business W} (x : Code (stmtSig B) Exn α) : Code (dbSig B) Exn α := do
  Code.call .begin .ret
  Code.andFinally (x.lift (stmtInDb B)) (.call .rollback .ret)

def getMyProfile (D : Deployment) (userId : UserId) :
    Code (sig (database W zones fault)) Exn Response := do
  let profile ← (readSession (getMyProfileHandler (getById (statements .profiles)) userId)).lift
    (dbInSig _)
  return privateVersion (D.adapters.profile.dumpPython profile) profile.version

def getMySettings (D : Deployment) (userId : UserId) :
    Code (sig (database W zones fault)) Exn Response := do
  let settings ← (readSession (getMySettingsHandler (getById (statements .settings)) userId)).lift
    (dbInSig _)
  return privateVersion (D.adapters.settings.dumpPython settings) settings.version

/-! ### A session that reads -/

/-- What a session that only reads returns is true of the rows ever after. -/
theorem safe_readSession {P : α → World W H (database W zones fault) → Prop}
    {x : Code (stmtSig (database W zones fault)) Exn α}
    (hgrow : ∀ a s s', P a s → VersionsGrow s s' → P a s')
    (hbegin : ∀ s, I s → s.inTransaction w = false → I (s.begin w))
    (hrollback : ∀ s, I s → s.inTransaction w = true → I (s.rollback w))
    (hsound : ∀ s, I s → Sound s) (hidle : s.inTransaction w = false)
    (hx : ∀ s, I s → s.inTransaction w = true → (∀ name id, (rowOf name id s).own w = none) →
      SafeStmt F I w (fun r s => ∀ a, r = .ok a → P a s) x s) :
    Safe (dbRely F) I w (fun r s => ∀ a, r = .ok a → P a s) (readSession x) s := by
  have hclose : ∀ (r : Except Exn α) (s₁ : World W H (database W zones fault)),
      (∀ s₂, Frame w s₁ s₂ → I s₂ → ∀ a, r = .ok a → P a s₂) →
      Safe (dbRely F) I w (fun r s => ∀ a, r = .ok a → P a s)
        ((Code.call .rollback .ret : Code (dbSig (database W zones fault)) Exn Unit).onOutcome
          (Code.onReturn fun _ => .ret r)) s₁ := by
    intro r s₁ hp s₂ hf hi q s₃ he
    have hr := hp s₂ hf hi
    have hkept : I s₃ ∧ ∀ a, r = .ok a → P a s₃ := by
      change (if s₂.inTransaction w then _ else _) at he
      split at he
      · rename_i ht
        obtain ⟨rfl, -⟩ := he
        exact ⟨hrollback s₂ hi ht, fun a ha => hgrow a _ _ (hr a ha) .of_rollback⟩
      · obtain ⟨-, rfl⟩ := he
        exact ⟨hi, hr⟩
    refine ⟨hkept.1, ?_⟩
    cases q with
    | ok _ => exact fun s₄ hf₄ _ a ha => hgrow a _ _ (hkept.2 a ha) (.of_frame hf₄)
    | error e => exact fun s₄ _ _ a ha => by cases ha
  intro s₁ hf hi r s₂ he
  have ht : s₁.inTransaction w = false := hf.inTransaction.trans hidle
  have hcases : (r = .ok () ∧ s₂ = s₁.begin w) ∨ ∃ e, F.fault e ∧ r = .error e ∧ s₂ = s₁ :=
    (if_neg (by rw [ht]; exact Bool.false_ne_true)).mp he
  rcases hcases with ⟨rfl, rfl⟩ | ⟨e, -, rfl, rfl⟩
  · refine ⟨hbegin s₁ hi ht, ?_⟩
    have hnothing : ∀ name id, (rowOf name id (s₁.begin w)).own w = none :=
      (hsound s₁ hi).idle w ht
    have hbody : ∀ s₂, Frame w (s₁.begin w) s₂ → I s₂ →
        Safe (dbRely F) I w (fun r s => ∀ a, r = .ok a → P a s) (x.lift (stmtInDb _)) s₂ := by
      intro s₂ hf₂ hi₂
      refine safe_stmtInDb (hx s₂ hi₂ (hf₂.inTransaction.trans ?_) fun name id => ?_)
      · simp [World.begin]
      · exact (hf₂.business name id).own.trans (hnothing name id)
    show Safe (dbRely F) I w _ (Code.andFinally (x.lift (stmtInDb _)) (.call .rollback .ret))
      (s₁.begin w)
    exact (Safe.of_rely hbody).onOutcome hclose
  · exact ⟨hi, fun s₂ _ _ a ha => by cases ha⟩

theorem safe_getMy {ResultT : Type} {notFound : DomainError}
    {fromDomain : VersionedMutableEntity (FieldsOf zones name) → ResultT}
    (hI : ∀ s : World W H (database W zones fault), I s → Sound s)
    (ht : s.inTransaction w = true) (hown : (rowOf name id s).own w = none) :
    SafeStmt F I w (fun r s => ∀ result, r = .ok result →
      ∃ a, a.id = id ∧ Loaded name a s ∧ result = fromDomain a)
      (getMy (getById (statements name)) notFound fromDomain id) s := by
  refine (safe_getById hI ht hown).bind (fun found s₁ hp _ => ?_)
    fun e s₁ _ result hresult => by cases hresult
  cases found with
  | none => exact fun s₂ _ _ result hresult => by cases hresult
  | some a =>
    obtain ⟨hid, hloaded⟩ := hp.loaded a rfl
    exact fun s₂ hf _ result hresult =>
      ⟨a, hid, hloaded.frame hf, (Except.ok.inj hresult).symm⟩

end ProfileService.Entrypoints
