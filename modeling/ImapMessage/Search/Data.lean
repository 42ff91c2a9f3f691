/-
# What is known of a message

The data of a message that criteria are about, as far as they have been loaded.  What has not
been loaded is unknown; what has been loaded and is missing is empty.

Key constructions:
* `SearchData`: the data.
* `SearchData.loadFlags`, `SearchData.loadMessage`: more data.
* `SearchData.headerLines`: the decoded fields of a header, by name.
* `SearchData.addressText`: address fields in a form that can be searched for exact addresses.
* `SearchData.gather`: the text of a message within a budget.
-/
import ImapMessage.Display
import ImapMessage.Field.Address
import ImapMessage.Field.DateTime
import ImapMessage.Flag
import ImapMessage.Search.Criteria
import ImapMessage.TextBody

namespace ImapMessage

/-- How much of a message is searched. -/
structure SearchLimits where
  /-- How many raw bytes of bodies are searched for patterns. -/
  contentReadLimit : Nat := 131072
  deriving DecidableEq, Repr

/-- What is known of a message. -/
structure SearchData where
  /-- The flags. -/
  flags : Option (List Flag) := none
  /-- The names of the header in lower case, each with its decoded values and a NUL between two of
  them. -/
  headers : Option (List (String × String)) := none
  /-- The addresses of the senders. -/
  sentFrom : Option String := none
  /-- The addresses of those who get a copy. -/
  cc : Option String := none
  /-- The addresses of those who get a copy that others do not know of. -/
  bcc : Option String := none
  /-- The addresses of the recipients. -/
  sentTo : Option String := none
  /-- When the message was sent; the epoch if it does not say so. -/
  date : Option DateTime := none
  /-- The subject, or empty. -/
  subject : Option String := none
  /-- The length of the body. -/
  size : Option Nat := none
  /-- The texts of the bodies of type text, each with a NUL after it. -/
  content : Option String := none

namespace SearchData

/-- A separator that occurs in no ordinary text. -/
def nul : String := "\x00"

variable [FurtherCharsets]

/-- The decoded values of a name in lower case, with a NUL between two of them. -/
def headerValue (h : Header) (name : String) : String :=
  nul.intercalate
    ((h.fields.filter fun f => Ascii.lowerName f.name == name).map fun f =>
      Display.unstructured f.value)

/-- The names of a header in lower case, each once and with its decoded values. -/
def headerLines (h : Header) : List (String × String) :=
  (h.fields.map fun f => Ascii.lowerName f.name).eraseDups.map fun name =>
    (name, headerValue h name)

/-- A mailbox in a form that can be searched: the name in quotes, and the address in angle
brackets. -/
def mailboxText (m : Mailbox) : String :=
  "\"" ++ Display.phrase m.name ++ "\" <" ++ Display.dotted m.spec.localPart ++
    (if m.spec.domain.isEmpty then "" else "@" ++ Display.dotted m.spec.domain) ++ ">, "

/-- An address in a form that can be searched. -/
def addressText : Address → String
  | .mailbox m => mailboxText m
  | .group name members =>
    "\"" ++ Display.phrase name ++ "\": " ++ String.join (members.map mailboxText) ++ "; "

/-- An address field in a form that can be searched; one that cannot be read is taken as it
stands. -/
def addressFieldText (value : Bytes) : String :=
  match Address.parseList value with
  | some addresses => String.join (addresses.map addressText)
  | none => Display.unstructured value ++ ", "

/-- All address fields of a name in a form that can be searched. -/
def addressesText (h : Header) (name : String) : String :=
  String.join ((h.getAll name).map addressFieldText)

mutual

/-- The texts of an entity and of its parts in order, and the budget of raw bytes that is left.
Once the budget is used up, nothing more is read. -/
def gather (budget : Nat) : Entity → List String × Nat
  | .leaf c =>
    if budget = 0 then ([], 0)
    else
      match TextBody.decode? budget (.leaf c) with
      | some text => ([text], budget - c.body.length)
      | none => ([], budget)
  | .multipart _ parts => gatherAll budget parts

/-- The texts of some entities in order, and the budget that is left. -/
def gatherAll (budget : Nat) : List Entity → List String × Nat
  | [] => ([], budget)
  | e :: es =>
    let (texts, budget) := gather budget e
    let (more, budget) := gatherAll budget es
    (texts ++ more, budget)

end

/-- The texts of a message, each with a NUL after it. -/
def contentText (limit : Nat) (message : Entity) : String :=
  String.join ((gather limit message).1.map fun text => text ++ nul)

/-- When a message was sent; the epoch if it does not say so. -/
def sentAt (h : Header) : DateTime :=
  ((h.get? "Date").bind DateTime.parse).getD DateTime.epoch

/-- The subject of a message, or empty. -/
def subjectText (h : Header) : String :=
  ((h.get? "Subject").map Display.unstructured).getD ""

/-- The data with the flags of the message. -/
def loadFlags (d : SearchData) (flags : List Flag) : SearchData :=
  { d with flags := some flags }

/-- A new value if it is wanted, or else the old one. -/
def replaceIf {α : Type} (wanted : Bool) (new : Unit → α) (old : Option α) : Option α :=
  if wanted then some (new ()) else old

/-- The data with the wanted parts of the message. -/
def loadMessage (d : SearchData) (wanted : SearchPart → Bool) (limits : SearchLimits)
    (message : Entity) : SearchData :=
  let h := message.header
  { flags := d.flags
    headers := replaceIf (wanted .headerMap) (fun _ => headerLines h) d.headers
    sentFrom := replaceIf (wanted .sentFrom) (fun _ => addressesText h "From") d.sentFrom
    cc := replaceIf (wanted .cc) (fun _ => addressesText h "Cc") d.cc
    bcc := replaceIf (wanted .bcc) (fun _ => addressesText h "Bcc") d.bcc
    sentTo := replaceIf (wanted .sentTo) (fun _ => addressesText h "To") d.sentTo
    date := replaceIf (wanted .date) (fun _ => sentAt h) d.date
    subject := replaceIf (wanted .subject) (fun _ => subjectText h) d.subject
    size := replaceIf (wanted .size) (fun _ => message.body.length) d.size
    content :=
      replaceIf (wanted .content) (fun _ => contentText limits.contentReadLimit message) d.content }

end SearchData

end ImapMessage
