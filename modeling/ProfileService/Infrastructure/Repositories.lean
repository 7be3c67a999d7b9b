import ProfileService.Application.Handlers
import ProfileService.Infrastructure.Tables

/-!
# Repositories (`infrastructure/database/repositories/`)

The base repository over the statements of a session, and the two repositories made of it.
-/

namespace ProfileService.Infrastructure
open Domain Library Application

/-- The statements a repository executes on its table: `SELECT` and `EXISTS` by primary key,
`UPDATE ... WHERE pk [AND version] RETURNING` and `INSERT ... ON CONFLICT DO NOTHING
RETURNING`. -/
structure Statements (m : Type → Type) {F : Type} [ModelFields F] (table : Table F) where
  select : UserId → m (Option table.Row)
  exists_ : UserId → m Bool
  update : UserId → Option Nat → table.Row → m (Option table.Row)
  insertOrNothing : table.Row → m (Option table.Row)

section Base
variable {m : Type → Type} [Monad m] [MonadExcept Exn m] {F : Type} [ModelFields F]

def raise {α : Type} : Except Exn α → m α
  | .ok a => pure a
  | .error e => throw e

variable {table : Table F} (session : Statements m table) (missingError conflictError : Exn)

/-- `get_by_id` (`repositories/base.py:36-47`). -/
def getById (entityId : UserId) : m (Option (VersionedMutableEntity F)) := do
  match ← session.select entityId with
  | none => return none
  | some row => return some (← raise (table.modelValidate row))

/-- `update` (`repositories/base.py:68-89`). -/
def update (entity : VersionedMutableEntity F) (expectedVersion : Option Nat) :
    m (VersionedMutableEntity F) := do
  match ← session.update entity.id expectedVersion (table.values entity) with
  | some row => raise (table.modelValidate row)
  | none =>
    if ← session.exists_ entity.id then throw conflictError
    else throw missingError

/-- `create_default_if_absent`, the same in both repositories. -/
def createDefaultIfAbsent (createDefault : UserId → Instant → VersionedMutableEntity F)
    (userId : UserId) (now : Instant) : m (VersionedMutableEntity F) := do
  match ← session.insertOrNothing (table.values (createDefault userId now)) with
  | some row => raise (table.modelValidate row)
  | none =>
    match ← getById session userId with
    | some existing => return existing
    | none => throw missingError

end Base

variable {m : Type → Type} [Monad m] [MonadExcept Exn m] {zones : ZoneInfo}

/-- `except IntegrityError`: the unique index of the usernames has a domain error. -/
def usernameTaken : Exn → Exn
  | .sql (.integrity constraintName) =>
    if constraintName = "profiles_username_key" then .domain .usernameAlreadyTaken
    else .sql (.integrity constraintName)
  | e => e

def postgresProfileRepository (session : Statements m profilesTable) :
    RepositoryProtocol m ProfileFields where
  getById := getById session
  update entity expectedVersion :=
    tryCatch (update session (.domain .userProfileNotFound)
      (.domain (.profileVersionMismatch none)) entity expectedVersion) fun e => throw (usernameTaken e)
  createDefaultIfAbsent := createDefaultIfAbsent session (.domain .userProfileNotFound)
    UserProfile.createDefault

def postgresSettingsRepository (session : Statements m (settingsTable zones)) :
    RepositoryProtocol m (SettingsFields zones) where
  getById := getById session
  update := update session (.domain .userSettingsNotFound) (.domain (.settingsVersionMismatch none))
  createDefaultIfAbsent := createDefaultIfAbsent session (.domain .userSettingsNotFound)
    UserSettings.createDefault

end ProfileService.Infrastructure
