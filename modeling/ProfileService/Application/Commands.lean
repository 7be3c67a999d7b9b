import ProfileService.Domain.ValueObjects
import ProfileService.Library.PyValue

/-!
# Commands (`application/commands/`)

The five registered command classes. The bounds of their schemas are fields.
-/

namespace ProfileService.Application
open Domain Library

/-- `Field(default=None, min_length=lo, max_length=hi)` on an optional text. -/
def OptionalLength (lo hi : Nat) (s : Option Str) : Prop :=
  ∀ t, s = some t → lo ≤ t.length ∧ t.length ≤ hi

structure CreateDefaultProfileCommand where
  userId : UserId
  registeredAt : DateTime
  registeredAt_aware : registeredAt.utcoffset.isSome

@[ext] structure UpdateProfileCommand where
  userId : UserId
  expectedVersion : Nat
  displayName : Option Str
  bio : Option Str
  username : Option Str
  expectedVersion_pos : 1 ≤ expectedVersion
  displayName_length : OptionalLength 1 64 displayName
  bio_length : OptionalLength 0 255 bio
  username_length : OptionalLength 3 32 username

@[ext] structure UpdateAvatarCommand where
  userId : UserId
  expectedVersion : Nat
  avatarKey : Option Str
  expectedVersion_pos : 1 ≤ expectedVersion
  avatarKey_length : OptionalLength 1 512 avatarKey

@[ext] structure UpdateSettingsCommand where
  userId : UserId
  expectedVersion : Nat
  theme : Option Theme
  locale : Option Domain.Locale
  timezone : Option Str
  whoCanSeeAvatar : Option PrivacyScope
  whoCanFindByUsername : Option PrivacyScope
  whoCanSeeBio : Option PrivacyScope
  expectedVersion_pos : 1 ≤ expectedVersion
  timezone_length : OptionalLength 1 64 timezone

@[ext] structure ResetSettingsCommand where
  userId : UserId
  expectedVersion : Nat
  expectedVersion_pos : 1 ≤ expectedVersion

inductive Command where
  | createDefaultProfile (c : CreateDefaultProfileCommand)
  | updateProfile (c : UpdateProfileCommand)
  | updateAvatar (c : UpdateAvatarCommand)
  | updateSettings (c : UpdateSettingsCommand)
  | resetSettings (c : ResetSettingsCommand)

inductive CommandClass where
  | createDefaultProfile
  | updateProfile
  | updateAvatar
  | updateSettings
  | resetSettings
  deriving DecidableEq, Repr

def Command.commandClass : Command → CommandClass
  | .createDefaultProfile _ => .createDefaultProfile
  | .updateProfile _ => .updateProfile
  | .updateAvatar _ => .updateAvatar
  | .updateSettings _ => .updateSettings
  | .resetSettings _ => .resetSettings

def CreateDefaultProfileCommand.fields (c : CreateDefaultProfileCommand) : List (Str × Value) :=
  [("user_id".toList, .uuid c.userId), ("registered_at".toList, .datetime c.registeredAt)]

def UpdateProfileCommand.fields (c : UpdateProfileCommand) : List (Str × Value) :=
  [("user_id".toList, .uuid c.userId),
   ("expected_version".toList, .int c.expectedVersion),
   ("display_name".toList, .optional .str c.displayName),
   ("bio".toList, .optional .str c.bio),
   ("username".toList, .optional .str c.username)]

def UpdateAvatarCommand.fields (c : UpdateAvatarCommand) : List (Str × Value) :=
  [("user_id".toList, .uuid c.userId),
   ("expected_version".toList, .int c.expectedVersion),
   ("avatar_key".toList, .optional .str c.avatarKey)]

def UpdateSettingsCommand.fields (c : UpdateSettingsCommand) : List (Str × Value) :=
  [("user_id".toList, .uuid c.userId),
   ("expected_version".toList, .int c.expectedVersion),
   ("theme".toList, .optional (fun t => .enum (.str t.value)) c.theme),
   ("locale".toList, .optional (fun l => .enum (.str l.value)) c.locale),
   ("timezone".toList, .optional .str c.timezone),
   ("who_can_see_avatar".toList, .optional (fun p => .enum (.str p.value)) c.whoCanSeeAvatar),
   ("who_can_find_by_username".toList,
     .optional (fun p => .enum (.str p.value)) c.whoCanFindByUsername),
   ("who_can_see_bio".toList, .optional (fun p => .enum (.str p.value)) c.whoCanSeeBio)]

def ResetSettingsCommand.fields (c : ResetSettingsCommand) : List (Str × Value) :=
  [("user_id".toList, .uuid c.userId), ("expected_version".toList, .int c.expectedVersion)]

def Command.fields : Command → List (Str × Value)
  | .createDefaultProfile c => c.fields
  | .updateProfile c => c.fields
  | .updateAvatar c => c.fields
  | .updateSettings c => c.fields
  | .resetSettings c => c.fields

def Command.modelDump (c : Command) : Value := .record c.fields

/-- Equal commands of one class: every field equal, `registered_at` as an instant. -/
def Command.SameFields : Command → Command → Prop
  | .createDefaultProfile a, .createDefaultProfile b =>
    a.userId = b.userId ∧ a.registeredAt.instant = b.registeredAt.instant
  | .updateProfile a, .updateProfile b => a = b
  | .updateAvatar a, .updateAvatar b => a = b
  | .updateSettings a, .updateSettings b => a = b
  | .resetSettings a, .resetSettings b => a = b
  | _, _ => False

/-- The conversion of `registered_at` to UTC does not overflow. -/
def Command.InRange : Command → Prop
  | .createDefaultProfile c => Representable c.registeredAt.instant
  | _ => True

end ProfileService.Application
