/-!
# Domain exceptions (`domain/exceptions/`)
-/

namespace ProfileService.Domain

/-- The leaf classes of `DomainError`; the two mismatch errors carry the
`current_version` their raiser passed. -/
inductive DomainError where
  | invalidTimestamp
  | usernameAlreadyTaken
  | invalidUsername
  | reservedUsername
  | invalidDisplayName
  | invalidBio
  | userProfileNotFound
  | profileVersionMismatch (currentVersion : Option Nat)
  | invalidProfileStatus
  | invalidTheme
  | invalidLocale
  | invalidTimezone
  | invalidPrivacyScope
  | userSettingsNotFound
  | settingsVersionMismatch (currentVersion : Option Nat)
  deriving DecidableEq, Repr

/-- `str(error)`: only `InvalidTimestampError` overrides `default_message`. -/
def DomainError.message : DomainError → String
  | .invalidTimestamp => "updated_at must be strictly greater than created_at"
  | _ => "Domain error"

end ProfileService.Domain
