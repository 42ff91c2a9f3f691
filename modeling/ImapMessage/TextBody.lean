/-
# The text of a body

The text that readers of a message see in a body of type text: without its transfer encoding,
and with its charset taken into account.

Key constructions:
* `TextBody.decode?`: the text in the first bytes of an entity's body.
-/
import ImapMessage.Charset
import ImapMessage.Entity
import ImapMessage.Transfer

namespace ImapMessage

namespace TextBody

variable [FurtherCharsets]

/-- The text of some raw bytes of a body. -/
def textOf (c : Content) (raw : Bytes) : String :=
  let encoding := TransferEncoding.ofName (c.header.get? "Content-Transfer-Encoding")
  Charset.decodeLabelled (c.contentType.parameter? "charset") (encoding.decode raw)

/-- The text in at most the first `limit` raw bytes of an entity's body, if the entity has no
parts and is of type text. -/
def decode? (limit : Nat) : Entity → Option String
  | .leaf c => if c.contentType.isType "text" then some (textOf c (c.body.take limit)) else none
  | .multipart _ _ => none

end TextBody

end ImapMessage
