/-
# Address fields in searches and in envelopes

An address field is searched in the addresses that the envelope of the message lists.  They stand in
the same order, and none is left out; the members of a group, which the envelope lists like all
others, stand between the name of the group and a semicolon.

Key constructions:
* `EnvelopeAddress.text`: an address of an envelope as it is searched.
* `Envelope.Shows`: an address list as the envelope lists it and as it is searched.
* `SearchData.addressField_eq_envelope`: searches and envelopes agree.
-/
import ImapMessage.Envelope
import ImapMessage.Proofs.Field.Domains
import ImapMessage.Search.Evaluate

namespace ImapMessage

/-- The name of an address field in a header. -/
def AddressField.name : AddressField → String
  | .bcc => "Bcc"
  | .cc => "Cc"
  | .sentFrom => "From"
  | .sentTo => "To"

/-! ## Addresses of an envelope -/

/-- An address of an envelope as it is searched: the name in quotes, and the address in angle
brackets, with an at sign unless the domain is empty. -/
def EnvelopeAddress.text (a : EnvelopeAddress) : String :=
  "\"" ++ a.name ++ "\" <" ++ a.localPart ++ (if a.domain = "" then "" else "@" ++ a.domain) ++ ">, "

namespace Envelope

/-- The addresses of a field. -/
def addressField (e : Envelope) : AddressField → List EnvelopeAddress
  | .bcc => e.bcc
  | .cc => e.cc
  | .sentFrom => e.sentFrom
  | .sentTo => e.sentTo

section

variable [FurtherCharsets]

/-- An address list as an envelope lists it, and as it is searched: each mailbox is one address, and
a group stands around the addresses of its members. -/
inductive Shows : List Address → List EnvelopeAddress → String → Prop where
  | nil : Shows [] [] ""
  | mailbox (m : Mailbox) {as : List Address} {es : List EnvelopeAddress} {s : String}
      (h : Shows as es s) :
      Shows (.mailbox m :: as) (.ofMailbox m :: es) ((EnvelopeAddress.ofMailbox m).text ++ s)
  | group (name : List Bytes) (members : List Mailbox) {as : List Address}
      {es : List EnvelopeAddress} {s : String} (h : Shows as es s) :
      Shows (.group name members :: as) (members.map .ofMailbox ++ es)
        ("\"" ++ Display.phrase name ++ "\": "
          ++ String.join ((members.map .ofMailbox).map EnvelopeAddress.text) ++ "; " ++ s)

theorem addresses_eq {h : Header} {field : AddressField} {value : Bytes} {as : List Address}
    (hfield : h.getAll field.name = [value]) (hvalue : Address.parseList value = some as) :
    (ofHeader h).addressField field = as.flatMap fun a => a.mailboxes.map .ofMailbox := by
  have haddresses : (ofHeader h).addressField field = addresses h field.name := by
    cases field <;> rfl
  rw [haddresses, addresses, Header.get?_eq_head?_getAll, hfield, List.head?_cons,
    Option.bind_some, hvalue, Option.getD_some]

/-- Without groups, the addresses of an envelope are searched one after another. -/
theorem Shows.eq_join {as : List Address} {es : List EnvelopeAddress} {s : String}
    (h : Shows as es s) (hgroups : ∀ a ∈ as, ∃ m, a = .mailbox m) :
    s = String.join (es.map EnvelopeAddress.text) := by
  induction h with
  | nil => rfl
  | mailbox m _ ih =>
    rw [List.map_cons, String.join_cons, ih fun a ha => hgroups a (List.mem_cons_of_mem _ ha)]
  | group name members _ _ =>
    obtain ⟨m, hm⟩ := hgroups _ List.mem_cons_self
    cases hm

end

end Envelope

/-! ## Searched addresses -/

namespace SearchData

section

variable [FurtherCharsets]

/-- A mailbox is searched as its address in an envelope. -/
theorem mailboxText_eq {m : Mailbox} (h : m.spec.HasWords) :
    mailboxText m = (EnvelopeAddress.ofMailbox m).text := by
  rw [mailboxText, EnvelopeAddress.text, EnvelopeAddress.ofMailbox]
  simp only [List.isEmpty_iff, ← h.dotted_eq_empty_iff]

theorem map_mailboxText {ms : List Mailbox} (h : ∀ m ∈ ms, m.spec.HasWords) :
    ms.map mailboxText = (ms.map .ofMailbox).map EnvelopeAddress.text := by
  rw [List.map_map]
  exact List.map_congr_left fun m hm => mailboxText_eq (h m hm)

/-- Addresses are searched in the order in which an envelope lists their mailboxes. -/
theorem shows_addresses {as : List Address}
    (h : ∀ a ∈ as, ∀ m ∈ a.mailboxes, m.spec.HasWords) :
    Envelope.Shows as (as.flatMap fun a => a.mailboxes.map .ofMailbox)
      (String.join (as.map addressText)) := by
  induction as with
  | nil => exact .nil
  | cons a as ih =>
    obtain ⟨ha, has⟩ := List.forall_mem_cons.mp h
    rw [List.flatMap_cons, List.map_cons, String.join_cons]
    cases a with
    | mailbox m =>
      rw [addressText, mailboxText_eq (ha m List.mem_cons_self)]
      exact .mailbox m (ih has)
    | group name members =>
      have hmembers : ∀ m ∈ members, m.spec.HasWords := ha
      rw [addressText, map_mailboxText hmembers]
      exact .group name members (ih has)

/-- **Searches and envelopes agree on addresses.**  If there is one field of the name, and it is an
address list, then it is searched in the addresses that the envelope lists, in the same order and with
none left over; groups stand around their members, and without groups there is nothing else. -/
theorem addressField_eq_envelope {message : Entity} {field : AddressField} {value : Bytes}
    {as : List Address} (hfield : message.header.getAll field.name = [value])
    (hvalue : Address.parseList value = some as) (d : SearchData) (wanted : SearchPart → Bool)
    (limits : SearchLimits) :
    ∃ text, (d.loadMessage wanted limits message).addressField field
        = (if wanted field.part then some text else d.addressField field)
      ∧ Envelope.Shows as ((Envelope.ofHeader message.header).addressField field) text
      ∧ ((∀ a ∈ as, ∃ m, a = .mailbox m) → text
        = String.join (((Envelope.ofHeader message.header).addressField field).map
          EnvelopeAddress.text)) := by
  have hshows := shows_addresses (Address.hasWords_of_parseList hvalue)
  rw [← Envelope.addresses_eq hfield hvalue] at hshows
  refine ⟨_, ?_, hshows, hshows.eq_join⟩
  have htext : String.join (as.map addressText) = addressesText message.header field.name := by
    rw [addressesText, hfield, List.map_singleton, addressFieldText, hvalue]
    simp
  rw [htext]
  cases field <;> rfl

end

/-- A group of two, one of them without a domain. -/
def groupValue : Bytes :=
  Utf8.encode "Us: Q. <a@b.c>, me;"

/-- The address list of `groupValue`. -/
def groupList : List Address :=
  [.group [Utf8.encode "Us"]
    [⟨[Utf8.encode "Q", Utf8.encode "."], ⟨[Utf8.encode "a"], [Utf8.encode "b", Utf8.encode "c"]⟩⟩,
      ⟨[], ⟨[Utf8.encode "me"], []⟩⟩]]

/-- A sender with a name. -/
def senderValue : Bytes :=
  Utf8.encode "Z <z@y>"

/-- The address list of `senderValue`. -/
def senderList : List Address :=
  [.mailbox ⟨[Utf8.encode "Z"], ⟨[Utf8.encode "z"], [Utf8.encode "y"]⟩⟩]

/-- A message to a group. -/
def toGroup : Entity :=
  .ofHeader ⟨[⟨"to", groupValue⟩, ⟨"From", senderValue⟩]⟩ []

/-- The members of the group stand between its name and a semicolon, and the sender stands alone. -/
theorem addressField_eq_envelope_group :
    toGroup.header.getAll AddressField.sentTo.name = [groupValue]
      ∧ Address.parseList groupValue = some groupList
      ∧ Envelope.Shows groupList [⟨"Q.", "a", "b.c"⟩, ⟨"", "me", ""⟩]
        "\"Us\": \"Q.\" <a@b.c>, \"\" <me>, ; "
      ∧ toGroup.header.getAll AddressField.sentFrom.name = [senderValue]
      ∧ Address.parseList senderValue = some senderList
      ∧ (loadMessage {} (fun _ => true) {} toGroup).sentFrom
        = some (String.join ([⟨"Z", "z", "y"⟩].map EnvelopeAddress.text)) := by
  have hto : toGroup.header.getAll AddressField.sentTo.name = [groupValue] := by decide +kernel
  have hgroup : Address.parseList groupValue = some groupList := by decide +kernel
  have hfrom : toGroup.header.getAll AddressField.sentFrom.name = [senderValue] := by decide +kernel
  have hsender : Address.parseList senderValue = some senderList := by decide +kernel
  have hmembers : (Envelope.ofHeader toGroup.header).addressField .sentTo
      = [⟨"Q.", "a", "b.c"⟩, ⟨"", "me", ""⟩] := by
    decide +kernel
  have hsenders : (Envelope.ofHeader toGroup.header).addressField .sentFrom
      = [⟨"Z", "z", "y"⟩] := by
    decide +kernel
  have htext : (loadMessage {} (fun _ => true) {} toGroup).sentTo
      = some "\"Us\": \"Q.\" <a@b.c>, \"\" <me>, ; " := by
    decide +kernel
  obtain ⟨text, hloaded, hshows, -⟩ := addressField_eq_envelope hto hgroup {} (fun _ => true) {}
  obtain ⟨text', hloaded', -, hjoin⟩ := addressField_eq_envelope hfrom hsender {} (fun _ => true) {}
  rw [hmembers, ← Option.some_inj.mp (htext.symm.trans hloaded)] at hshows
  rw [hsenders] at hjoin
  refine ⟨hto, hgroup, hshows, hfrom, hsender, hloaded'.trans ?_⟩
  rw [if_pos rfl, hjoin (List.forall_mem_singleton.mpr ⟨_, rfl⟩)]

end SearchData

end ImapMessage
