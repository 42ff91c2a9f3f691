/-
# Loading what criteria are about

Evaluation reads no part of a message that its criteria are not about, so it is enough to load
those parts.  With flags and those parts every truth value is known, and it is the ordinary,
two-valued one: all criteria together, negation, and choice.

Key constructions:
* `Criteria.evaluate_loadMessage_congr`, `Criteria.evaluate_loadMessage_needs`: it is enough to load
  what criteria are about.
* `MessageFacts`: all that criteria may ask about a message.
* `Criterion.Holds`, `Criteria.Holds`: the two-valued reading.
* `Criteria.evaluate_decides`: evaluation on everything is the two-valued reading.
-/
import ImapMessage.Proofs.Search.Knowledge

namespace ImapMessage

/-! ## Loading enough -/

/-- Loading a part gives the same knowledge of it, whatever else is loaded, and of the content if
limits let the same text be read. -/
theorem SearchData.belowOn_loadMessage [FurtherCharsets] (d : SearchData)
    {wanted loaded loaded' : SearchPart → Bool} {limits limits' : SearchLimits} {message : Entity}
    (h : ∀ p, wanted p = true → loaded p = loaded' p)
    (hcontent : wanted .content = true →
      contentText limits.contentReadLimit message
        = contentText limits'.contentReadLimit message) :
    BelowOn wanted (d.loadMessage loaded limits message)
      (d.loadMessage loaded' limits' message) := by
  unfold SearchData.loadMessage
  constructor
  case flags => exact Kleene.le_refl _
  case content =>
    intro hwanted
    dsimp only
    rw [h _ hwanted, hcontent hwanted]
    exact Kleene.le_refl _
  all_goals
    intro hwanted
    dsimp only
    rw [h _ hwanted]
    exact Kleene.le_refl _

section

variable [FurtherCharsets] [PatternLimit]

/-- Criteria have the same truth value if what they are about is loaded alike: neither tells less of
it than the other. -/
theorem Criteria.evaluate_loadMessage_congr (cs : Criteria) (d : SearchData)
    {loaded loaded' : SearchPart → Bool} {limits limits' : SearchLimits} {message : Entity}
    (h : ∀ p, needs p cs = true → loaded p = loaded' p)
    (hcontent : needs .content cs = true →
      SearchData.contentText limits.contentReadLimit message
        = SearchData.contentText limits'.contentReadLimit message) :
    evaluate (d.loadMessage loaded limits message) cs
      = evaluate (d.loadMessage loaded' limits' message) cs := by
  have hneeds : ∀ p, needs p cs = true → needs p cs = true := fun _ hp => hp
  have hbelow : SearchData.BelowOn (fun p => needs p cs) (d.loadMessage loaded limits message)
      (d.loadMessage loaded' limits' message) :=
    d.belowOn_loadMessage h hcontent
  have hbelow' : SearchData.BelowOn (fun p => needs p cs) (d.loadMessage loaded' limits' message)
      (d.loadMessage loaded limits message) :=
    d.belowOn_loadMessage (fun p hp => (h p hp).symm) fun hp => (hcontent hp).symm
  exact Kleene.le_antisymm (evaluate_le hbelow cs hneeds) (evaluate_le hbelow' cs hneeds)

/-- It is enough to load what criteria are about. -/
theorem Criteria.evaluate_loadMessage_needs (cs : Criteria) (d : SearchData)
    (limits : SearchLimits) (message : Entity) :
    Criteria.evaluate (d.loadMessage (fun p => needs p cs) limits message) cs
      = Criteria.evaluate (d.loadMessage (fun _ => true) limits message) cs :=
  cs.evaluate_loadMessage_congr d (fun _ hp => hp) fun _ => rfl

end

/-! ## The two-valued reading -/

/-- All that criteria may ask about a message. -/
structure MessageFacts where
  /-- The flags. -/
  flags : List Flag
  /-- The names of the header in lower case, each with its decoded values. -/
  headers : List (String × String)
  /-- The addresses of the senders. -/
  sentFrom : String
  /-- The addresses of those who get a copy. -/
  cc : String
  /-- The addresses of those who get a copy that others do not know of. -/
  bcc : String
  /-- The addresses of the recipients. -/
  sentTo : String
  /-- When the message was sent. -/
  date : DateTime
  /-- The subject. -/
  subject : String
  /-- The length of the body. -/
  size : Nat
  /-- The texts of the bodies. -/
  content : String

namespace MessageFacts

/-- The facts of a message with the given flags. -/
def ofMessage [FurtherCharsets] (limits : SearchLimits) (flags : List Flag) (message : Entity) :
    MessageFacts where
  flags := flags
  headers := SearchData.headerLines message.header
  sentFrom := SearchData.addressesText message.header "From"
  cc := SearchData.addressesText message.header "Cc"
  bcc := SearchData.addressesText message.header "Bcc"
  sentTo := SearchData.addressesText message.header "To"
  date := SearchData.sentAt message.header
  subject := SearchData.subjectText message.header
  size := message.body.length
  content := SearchData.contentText limits.contentReadLimit message

/-- An address field. -/
def addressField (m : MessageFacts) : AddressField → String
  | .bcc => m.bcc
  | .cc => m.cc
  | .sentFrom => m.sentFrom
  | .sentTo => m.sentTo

/-- Complete knowledge of the facts. -/
def data (m : MessageFacts) : SearchData where
  flags := some m.flags
  headers := some m.headers
  sentFrom := some m.sentFrom
  cc := some m.cc
  bcc := some m.bcc
  sentTo := some m.sentTo
  date := some m.date
  subject := some m.subject
  size := some m.size
  content := some m.content

/-- Flags and all parts of a message are complete knowledge. -/
theorem loadMessage_loadFlags [FurtherCharsets] (d : SearchData) (flags : List Flag)
    (limits : SearchLimits) (message : Entity) :
    (d.loadFlags flags).loadMessage (fun _ => true) limits message
      = (ofMessage limits flags message).data :=
  rfl

/-- A system flag is set, or not. -/
def TestHolds (m : MessageFacts) : FlagTest → Prop
  | .answered => .answered ∈ m.flags
  | .deleted => .deleted ∈ m.flags
  | .draft => .draft ∈ m.flags
  | .flagged => .flagged ∈ m.flags
  | .seen => .seen ∈ m.flags
  | .recent => .recent ∈ m.flags
  | .new => .recent ∈ m.flags ∧ .seen ∉ m.flags
  | .old => .recent ∉ m.flags
  | .unanswered => .answered ∉ m.flags
  | .undeleted => .deleted ∉ m.flags
  | .undraft => .draft ∉ m.flags
  | .unflagged => .flagged ∉ m.flags
  | .unseen => .seen ∉ m.flags

/-- The flag of a written form is set. -/
def HasKeyword (m : MessageFacts) (name : String) : Prop :=
  ∃ f, Flag.parse name = .ok f ∧ f ∈ m.flags

end MessageFacts

mutual

/-- A message meets a criterion. -/
def Criterion.Holds [PatternLimit] (m : MessageFacts) : Criterion → Prop
  | .before day => m.date.date.isBefore day = true
  | .since day => m.date.isAfterStartOf day = true
  | .on day => m.date.date = day
  | .address field pattern => Pattern.found pattern (m.addressField field) = true
  | .subject pattern => Pattern.found pattern m.subject = true
  | .body pattern => Pattern.found pattern m.content = true
  | .text pattern =>
    (∃ line ∈ m.headers, Pattern.found pattern (line.1 ++ ": " ++ line.2) = true)
      ∨ Pattern.found pattern m.content = true
  | .header name pattern =>
    ∃ value, m.headers.lookup (Ascii.lowerName name) = some value
      ∧ Pattern.found pattern value = true
  | .larger size => size < m.size
  | .smaller size => m.size < size
  | .flag test => m.TestHolds test
  | .keyword name => m.HasKeyword name
  | .unkeyword name => ¬ m.HasKeyword name
  | .negation criteria => ¬ Criteria.Holds m criteria
  | .either left right => Criteria.Holds m left ∨ Criteria.Holds m right

/-- A message meets all criteria. -/
def Criteria.Holds [PatternLimit] (m : MessageFacts) : List Criterion → Prop
  | [] => True
  | c :: cs => c.Holds m ∧ Criteria.Holds m cs

end

/-! ## Evaluation on complete knowledge -/

namespace Kleene

/-- A truth value is known, and it is that of a proposition. -/
def Decides (a : Option Bool) (P : Prop) : Prop :=
  ∃ b, a = some b ∧ (b = true ↔ P)

theorem decides_some {b : Bool} {P : Prop} (h : b = true ↔ P) : Decides (some b) P :=
  ⟨b, rfl, h⟩

theorem Decides.not {a : Option Bool} {P : Prop} (h : Decides a P) : Decides (not a) (¬ P) := by
  obtain ⟨b, rfl, hb⟩ := h
  refine decides_some ?_
  rw [← hb]
  cases b <;> decide

theorem Decides.and {a b : Option Bool} {P Q : Prop} (ha : Decides a P) (hb : Decides b Q) :
    Decides (and a b) (P ∧ Q) := by
  obtain ⟨x, rfl, hx⟩ := ha
  obtain ⟨y, rfl, hy⟩ := hb
  rw [← hx, ← hy]
  cases x <;> cases y <;> exact decides_some (by decide)

theorem Decides.or {a b : Option Bool} {P Q : Prop} (ha : Decides a P) (hb : Decides b Q) :
    Decides (or a b) (P ∨ Q) := by
  obtain ⟨x, rfl, hx⟩ := ha
  obtain ⟨y, rfl, hy⟩ := hb
  rw [← hx, ← hy]
  cases x <;> cases y <;> exact decides_some (by decide)

end Kleene

namespace MessageFacts

variable (m : MessageFacts)

theorem decides_addressField [PatternLimit] (field : AddressField) (pattern : String) :
    Kleene.Decides (Pattern.foundIn pattern (m.data.addressField field))
      (Pattern.found pattern (m.addressField field) = true) := by
  cases field <;> exact Kleene.decides_some Iff.rfl

theorem decides_hasFlag (f : Flag) : Kleene.Decides (m.data.hasFlag f) (f ∈ m.flags) :=
  Kleene.decides_some List.contains_iff_mem

theorem decides_testFlag (test : FlagTest) :
    Kleene.Decides (m.data.testFlag test) (m.TestHolds test) := by
  cases test with
  | answered | deleted | draft | flagged | seen | recent => exact m.decides_hasFlag _
  | new => exact (m.decides_hasFlag _).and (m.decides_hasFlag _).not
  | old | unanswered | undeleted | undraft | unflagged | unseen =>
    exact (m.decides_hasFlag _).not

theorem decides_hasKeyword (name : String) :
    Kleene.Decides (m.data.hasKeyword name) (m.HasKeyword name) := by
  refine Kleene.decides_some ?_
  unfold HasKeyword
  cases Flag.parse name with
  | ok f => simp
  | error e => simp

theorem decides_foundInHeader [PatternLimit] (pattern : String) :
    Kleene.Decides (m.data.foundInHeader pattern)
      (∃ line ∈ m.headers, Pattern.found pattern (line.1 ++ ": " ++ line.2) = true) := by
  refine Kleene.decides_some ?_
  -- A pattern that is no pattern is found in no line.
  unfold Pattern.found
  cases Pattern.ofString? pattern with
  | none => simp
  | some p => simp

theorem decides_foundInField [PatternLimit] (name pattern : String) :
    Kleene.Decides (m.data.foundInField name pattern)
      (∃ value, m.headers.lookup (Ascii.lowerName name) = some value
        ∧ Pattern.found pattern value = true) := by
  refine Kleene.decides_some ?_
  cases hvalue : m.headers.lookup (Ascii.lowerName name) with
  | none => simp [hvalue]
  | some value => simp [hvalue]

end MessageFacts

mutual

/-- Complete knowledge settles a criterion, in the ordinary way. -/
theorem Criterion.evaluate_decides [PatternLimit] (m : MessageFacts) :
    ∀ c : Criterion, Kleene.Decides (c.evaluate m.data) (c.Holds m)
  | .before _ | .since _ | .subject _ | .body _ => Kleene.decides_some Iff.rfl
  | .on _ => Kleene.decides_some beq_iff_eq
  | .address field pattern => m.decides_addressField field pattern
  | .text pattern => (m.decides_foundInHeader pattern).or (Kleene.decides_some Iff.rfl)
  | .header name pattern => m.decides_foundInField name pattern
  | .larger _ | .smaller _ => Kleene.decides_some decide_eq_true_iff
  | .flag test => m.decides_testFlag test
  | .keyword name => m.decides_hasKeyword name
  | .unkeyword name => (m.decides_hasKeyword name).not
  | .negation criteria => (Criteria.evaluate_decides m criteria).not
  | .either left right => (Criteria.evaluate_decides m left).or (Criteria.evaluate_decides m right)

/-- Complete knowledge settles criteria, in the ordinary way. -/
theorem Criteria.evaluate_decides [PatternLimit] (m : MessageFacts) :
    ∀ cs : Criteria, Kleene.Decides (Criteria.evaluate m.data cs) (Criteria.Holds m cs)
  | [] => Kleene.decides_some (iff_of_true rfl trivial)
  | c :: cs => (Criterion.evaluate_decides m c).and (Criteria.evaluate_decides m cs)

end

namespace Criteria

section

variable [FurtherCharsets] [PatternLimit]

/-- With flags, what criteria are about settles them in the ordinary way. -/
theorem decides_loadMessage_needs (cs : Criteria) (d : SearchData) (limits : SearchLimits)
    (flags : List Flag) (message : Entity) :
    Kleene.Decides
      (evaluate ((d.loadFlags flags).loadMessage (fun p => needs p cs) limits message) cs)
      (Holds (.ofMessage limits flags message) cs) := by
  rw [evaluate_loadMessage_needs, MessageFacts.loadMessage_loadFlags]
  exact evaluate_decides _ cs

/-- **Loading what criteria are about is loading everything.**  With flags and those parts of a
message the truth value is known, and it is the one with all parts, whatever else was loaded
before; without flags it is the one with all parts, too.  A message matches if and only if it
meets all criteria in the two-valued reading. -/
theorem evaluate_loaded_eq_all (cs : Criteria) (d : SearchData) (limits : SearchLimits)
    (flags : List Flag) (message : Entity) :
    (∃ b, evaluate ((d.loadFlags flags).loadMessage (fun p => needs p cs) limits message) cs
          = some b
        ∧ evaluate ((d.loadFlags flags).loadMessage (fun _ => true) limits message) cs = some b
        ∧ (b = true ↔ Holds (.ofMessage limits flags message) cs))
      ∧ evaluate (d.loadMessage (fun p => needs p cs) limits message) cs
          = evaluate (d.loadMessage (fun _ => true) limits message) cs
      ∧ (cs.matchesMessage flags message = true ↔ Holds (.ofMessage {} flags message) cs) := by
  refine ⟨?_, cs.evaluate_loadMessage_needs d limits message, ?_⟩
  · obtain ⟨b, hb, hholds⟩ := decides_loadMessage_needs cs d limits flags message
    refine ⟨b, hb, ?_, hholds⟩
    rw [← evaluate_loadMessage_needs, hb]
  · -- A known truth value is what the search answers.
    obtain ⟨b, hb, hholds⟩ := decides_loadMessage_needs cs {} {} flags message
    rw [matchesMessage, mayHold, hb]
    exact hholds

end

end Criteria

end ImapMessage
