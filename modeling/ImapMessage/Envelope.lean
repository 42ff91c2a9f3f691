/-
# The envelope of a message

The fields of a message's header that its readers look at first.  A field that is missing or
cannot be read is empty.

Key constructions:
* `Envelope`, `EnvelopeAddress`: the fields.
* `Envelope.ofHeader`: the envelope of a message.
-/
import ImapMessage.Display
import ImapMessage.Field.Address
import ImapMessage.Field.DateTime
import ImapMessage.Header

namespace ImapMessage

/-- An address as a text. -/
structure EnvelopeAddress where
  /-- The display name, or empty. -/
  name : String
  /-- The part before the at sign. -/
  localPart : String
  /-- The domain, or empty. -/
  domain : String
  deriving DecidableEq, Repr

/-- A mailbox as a text. -/
def EnvelopeAddress.ofMailbox [FurtherCharsets] (m : Mailbox) : EnvelopeAddress :=
  ⟨Display.phrase m.name, Display.dotted m.spec.localPart, Display.dotted m.spec.domain⟩

/-- The fields that readers look at first. -/
structure Envelope where
  date : Option DateTime
  subject : String
  sentFrom : List EnvelopeAddress
  sender : List EnvelopeAddress
  replyTo : List EnvelopeAddress
  sentTo : List EnvelopeAddress
  cc : List EnvelopeAddress
  bcc : List EnvelopeAddress
  inReplyTo : String
  messageId : String
  deriving DecidableEq, Repr

namespace Envelope

variable [FurtherCharsets]

/-- The mailboxes in the first field of a name; groups are opened. -/
def addresses (h : Header) (name : String) : List EnvelopeAddress :=
  (((h.get? name).bind Address.parseList).getD []).flatMap fun a =>
    a.mailboxes.map EnvelopeAddress.ofMailbox

/-- The value of the first field of a name with one space for each run of white space. -/
def spacedValue (h : Header) (name : String) : String :=
  ((h.get? name).map Display.spaced).getD ""

/-- The envelope of a message with a given header. -/
def ofHeader (h : Header) : Envelope :=
  { date := (h.get? "Date").bind DateTime.parse
    subject := ((h.get? "Subject").map Display.unstructured).getD ""
    sentFrom := addresses h "From"
    sender := addresses h "Sender"
    replyTo := addresses h "Reply-To"
    sentTo := addresses h "To"
    cc := addresses h "Cc"
    bcc := addresses h "Bcc"
    inReplyTo := spacedValue h "In-Reply-To"
    messageId := spacedValue h "Message-ID" }

end Envelope

end ImapMessage
