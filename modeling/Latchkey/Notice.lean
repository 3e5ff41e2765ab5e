import Latchkey.Account
import Latchkey.ApiKey

/-!
# Notices

What the owner of an account is told, once the change it tells of is made.
-/

namespace Latchkey

/-- The subject of a notice, with the row that it is about. -/
inductive Notice.Subject where
  | accountCreated
  | keyCreated (key : ApiKey)
  | keyDeleted (key : ApiKey)
  | unrecognizedDevice (entry : SecurityEntry)
  | forgottenPassword
  | passwordReset
  deriving DecidableEq

/-- A notice to the owner of an account. -/
structure Notice where
  account : Account
  subject : Notice.Subject
  deriving DecidableEq

namespace Notice.Subject

/-- The kind of a notice, as templates are named. -/
def kind : Subject → String
  | .accountCreated => "account_created"
  | .keyCreated _ => "key_created"
  | .keyDeleted _ => "key_deleted"
  | .unrecognizedDevice _ => "unrecognized_device"
  | .forgottenPassword => "forgotten_password"
  | .passwordReset => "password_reset"

/-- The number of the row that a notice is about, if it is about one besides its account. -/
def about? : Subject → Option RowId
  | .keyCreated key => some key.id
  | .keyDeleted key => some key.id
  | .unrecognizedDevice entry => some entry.id
  | _ => none

end Notice.Subject

end Latchkey
