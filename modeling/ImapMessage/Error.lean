/-
# Errors

Everything that can go wrong in an answer to a client, by cause, and the wording of each
cause.

Key constructions:
* `Error`: the causes.
* `Error.message`: their wording.
-/
import ImapMessage.MailboxName

namespace ImapMessage

/-- Why an operation has no result. -/
inductive Error where
  /-- A section path leads nowhere. -/
  | noSuchPart
  /-- A name with a leading backslash is no system flag. -/
  | nonexistentFlag
  /-- A name cannot be a keyword. -/
  | unsafeName
  /-- The item of a store command is unknown. -/
  | unknownStoreItem
  /-- A written mailbox name is malformed. -/
  | mailboxName (e : MailboxName.DecodeError)
  /-- A configuration document is malformed or holds unusable values. -/
  | config
  deriving DecidableEq, Repr

/-- The wording of an error. -/
def Error.message : Error → String
  | .noSuchPart => "No such message part"
  | .nonexistentFlag => "Non-existent flag"
  | .unsafeName => "Unsafe flag or keyword name"
  | .unknownStoreItem => "Unknown STORE operation"
  | .mailboxName e => e.message
  | .config => "Invalid configuration"

end ImapMessage
