import ProfileService.Application.Commands
import ProfileService.Application.Exceptions
import ProfileService.Domain.Aggregates

/-!
# Command handlers (`application/commands/`)

The five handlers over the repository protocols and the clock, in whatever monad these
run in, and the DTOs they return.
-/

namespace ProfileService.Application
open Domain Library

structure RepositoryProtocol (m : Type → Type) (F : Type) where
  getById : UserId → m (Option (VersionedMutableEntity F))
  update : VersionedMutableEntity F → Option Nat → m (VersionedMutableEntity F)
  createDefaultIfAbsent : UserId → Instant → m (VersionedMutableEntity F)

@[ext] structure ProfileDTO where
  userId : UserId
  username : Option Str
  displayName : Str
  bio : Option Str
  avatarKey : Option Str
  status : UserProfileStatus
  isVerified : Bool
  version : Nat
  createdAt : Instant
  updatedAt : Option Instant
  deriving DecidableEq

def ProfileDTO.fromDomain (profile : UserProfile) : ProfileDTO where
  userId := profile.id
  username := profile.fields.username.map Subtype.val
  displayName := profile.fields.displayName.1
  bio := profile.fields.bio.map Subtype.val
  avatarKey := profile.fields.avatarKey
  status := profile.fields.status
  isVerified := profile.fields.isVerified
  version := profile.version
  createdAt := profile.createdAt
  updatedAt := profile.updatedAt

@[ext] structure SettingsDTO where
  userId : UserId
  theme : Theme
  locale : Domain.Locale
  timezone : Str
  privacy : PrivacySettings
  version : Nat
  createdAt : Instant
  updatedAt : Option Instant
  deriving DecidableEq

variable {zones : ZoneInfo}

def SettingsDTO.fromDomain (settings : UserSettings zones) : SettingsDTO where
  userId := settings.id
  theme := settings.fields.theme
  locale := settings.fields.locale
  timezone := settings.fields.timezone.1
  privacy := settings.fields.privacy
  version := settings.version
  createdAt := settings.createdAt
  updatedAt := settings.updatedAt

section Handlers
variable {m : Type → Type} [Monad m] [MonadExcept Exn m]

/-- A domain error raised where it is met. -/
def raiseDomain {α : Type} : Except DomainError α → m α
  | .ok a => pure a
  | .error e => throw (.domain e)

variable (profiles : RepositoryProtocol m ProfileFields)
  (settings : RepositoryProtocol m (SettingsFields zones)) (clock : m Instant)

def createDefaultProfileHandler (command : CreateDefaultProfileCommand) : m Unit := do
  let _ ← profiles.createDefaultIfAbsent command.userId command.registeredAt.instant
  let _ ← settings.createDefaultIfAbsent command.userId command.registeredAt.instant
  return ()

/-- What the four updating handlers share: load, compare the version, change, write back. -/
def changeVersioned {F : Type} (repository : RepositoryProtocol m F) (userId : UserId)
    (expectedVersion : Nat) (notFound : DomainError) (mismatch : Nat → DomainError)
    (change : Instant → VersionedMutableEntity F →
      Except DomainError (Bool × VersionedMutableEntity F)) : m (VersionedMutableEntity F) := do
  match ← repository.getById userId with
  | none => throw (.domain notFound)
  | some entity =>
    if entity.version ≠ expectedVersion then throw (.domain (mismatch entity.version))
    else
      let (changed, entity) ← raiseDomain (change (← clock) entity)
      if changed then repository.update entity (some expectedVersion) else return entity

def updateProfileHandler (command : UpdateProfileCommand) : m ProfileDTO := do
  let profile ← changeVersioned clock profiles command.userId command.expectedVersion
    .userProfileNotFound (fun version => .profileVersionMismatch (some version))
    fun now => UserProfile.updateProfile now command.displayName command.bio command.username
  return ProfileDTO.fromDomain profile

def updateAvatarHandler (command : UpdateAvatarCommand) : m ProfileDTO := do
  let profile ← changeVersioned clock profiles command.userId command.expectedVersion
    .userProfileNotFound (fun _ => .profileVersionMismatch none)
    fun now => UserProfile.updateAvatar command.avatarKey now
  return ProfileDTO.fromDomain profile

/-- The privacy an update asks for: every scope of its own, or the stored one. -/
def requestedPrivacy (command : UpdateSettingsCommand) (stored : PrivacySettings) :
    PrivacySettings where
  whoCanSeeAvatar := command.whoCanSeeAvatar.getD stored.whoCanSeeAvatar
  whoCanFindByUsername := command.whoCanFindByUsername.getD stored.whoCanFindByUsername
  whoCanSeeBio := command.whoCanSeeBio.getD stored.whoCanSeeBio

def updateSettingsHandler (command : UpdateSettingsCommand) : m SettingsDTO := do
  let settings ← changeVersioned clock settings command.userId command.expectedVersion
    .userSettingsNotFound (fun version => .settingsVersionMismatch (some version))
    fun now stored => UserSettings.updateSettings command.theme command.locale command.timezone
      (some (requestedPrivacy command stored.fields.privacy)) now stored
  return SettingsDTO.fromDomain settings

def resetSettingsHandler (command : ResetSettingsCommand) : m SettingsDTO := do
  let settings ← changeVersioned clock settings command.userId command.expectedVersion
    .userSettingsNotFound (fun _ => .settingsVersionMismatch none)
    fun now => UserSettings.resetToDefaults now
  return SettingsDTO.fromDomain settings

end Handlers

/-! ### What the updating commands ask of the loaded aggregate -/

abbrev Change (F : Type) :=
  Instant → VersionedMutableEntity F → Except DomainError (Bool × VersionedMutableEntity F)

def UpdateProfileCommand.change (command : UpdateProfileCommand) : Change ProfileFields :=
  fun now => UserProfile.updateProfile now command.displayName command.bio command.username

def UpdateAvatarCommand.change (command : UpdateAvatarCommand) : Change ProfileFields :=
  fun now => UserProfile.updateAvatar command.avatarKey now

def UpdateSettingsCommand.change (command : UpdateSettingsCommand) :
    Change (SettingsFields zones) :=
  fun now stored => UserSettings.updateSettings command.theme command.locale command.timezone
    (some (requestedPrivacy command stored.fields.privacy)) now stored

def ResetSettingsCommand.change (_ : ResetSettingsCommand) : Change (SettingsFields zones) :=
  fun now => UserSettings.resetToDefaults now

end ProfileService.Application
