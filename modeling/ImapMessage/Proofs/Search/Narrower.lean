/-
# Narrower searches

What a search in the subject, in the body or in the fields of a name finds, a text search finds, too.
A pattern that is found in a text is found in every longer one that contains it, and a text search
looks at longer texts: the values of a name stand in a line of the header, and the subject among the
values of its name.  A message without subject has an empty one, and what is found in nothing is
found in every text.

Key constructions:
* `Pattern.found_mono`: longer texts.
* `Criterion.Narrows`: the criteria that are narrower than a text search.
* `Criterion.Narrows.holds_text`: what they find.
* `Criteria.mayHold_singleton_iff`: criteria that are settled without flags.
-/
import ImapMessage.Proofs.Search.HeaderText
import ImapMessage.Proofs.Search.Separators

namespace ImapMessage

/-- A pattern that is found in a text is found in every text that contains it. -/
theorem Pattern.found_mono [PatternLimit] {written text text' : String}
    (hsub : text.toList <:+: text'.toList) (h : found written text = true) :
    found written text' = true := by
  rw [found_iff_means] at h ⊢
  obtain ⟨hadmits, part, hmeans, hpart⟩ := h
  exact ⟨hadmits, part, hmeans, hpart.trans hsub⟩

/-! ## Narrower criteria -/

/-- A criterion looks for a pattern in a part of what a text search looks at. -/
inductive Criterion.Narrows (pattern : String) : Criterion → Prop where
  | subject : Narrows pattern (.subject pattern)
  | body : Narrows pattern (.body pattern)
  | header (name : String) : Narrows pattern (.header name pattern)

namespace SearchData

section

variable [FurtherCharsets]

/-- A subject is empty, or stands in the line of its name. -/
theorem subjectText_cases (h : Header) :
    subjectText h = "" ∨ ∃ line ∈ headerLines h, (subjectText h).toList <:+: line.2.toList := by
  rw [subjectText, Header.get?]
  cases hfind : h.fields.find? fun f => f.hasName "Subject" with
  | none => exact .inl rfl
  | some f =>
    have hf := List.mem_of_find?_eq_some hfind
    exact .inr ⟨_, mem_headerLines hf, infix_headerValue hf⟩

/-- What is looked up by a name stands in a line. -/
theorem exists_line_of_lookup {h : Header} {name value : String}
    (hvalue : (headerLines h).lookup name = some value) :
    ∃ line ∈ headerLines h, line.2 = value := by
  rw [headerLines, lookup_map_self] at hvalue
  split at hvalue
  case isFalse => cases hvalue
  case isTrue hmem =>
    exact ⟨_, List.mem_map_of_mem hmem, Option.some_inj.mp hvalue⟩

end

end SearchData

namespace Criterion.Narrows

variable [FurtherCharsets] [PatternLimit] {pattern : String} {c : Criterion}

/-- What a narrower criterion finds is found by a text search. -/
theorem holds_text (hc : Narrows pattern c) {limits : SearchLimits} {flags : List Flag}
    {message : Entity} (h : c.Holds (.ofMessage limits flags message)) :
    (Criterion.text pattern).Holds (.ofMessage limits flags message) := by
  have hline : ∀ line : String × String, line.2.toList <:+: (line.1 ++ ": " ++ line.2).toList := by
    intro line
    rw [String.toList_append]
    exact (List.suffix_append _ _).isInfix
  cases hc with
  | subject =>
    rcases SearchData.subjectText_cases message.header with hnil | ⟨line, hmem, hsubject⟩
    · -- What is found in an empty subject is found in any text, so in the body.
      have hfound : Pattern.found pattern "" = true := hnil ▸ h
      refine .inr (Pattern.found_mono ?_ hfound)
      exact List.nil_infix
    · exact .inl ⟨line, hmem, Pattern.found_mono (hsubject.trans (hline line)) h⟩
  | body => exact .inr h
  | header name =>
    obtain ⟨value, hvalue, hfound⟩ := h
    obtain ⟨line, hmem, rfl⟩ := SearchData.exists_line_of_lookup hvalue
    exact .inl ⟨line, hmem, Pattern.found_mono (hline line) hfound⟩

end Criterion.Narrows

/-! ## Searching -/

namespace Criteria

/-- A criterion that reads no flags is settled by the message, whatever else is known. -/
theorem mayHold_singleton_iff [FurtherCharsets] [PatternLimit] {c : Criterion} {d : SearchData}
    {limits : SearchLimits} {flags : List Flag} {message : Entity}
    (h : c.evaluate (d.loadMessage (fun _ => true) limits message)
      = c.evaluate (MessageFacts.ofMessage limits flags message).data) :
    mayHold [c] (d.loadMessage (fun p => needs p [c]) limits message) = true
      ↔ c.Holds (.ofMessage limits flags message) := by
  obtain ⟨b, hb, hholds⟩ := c.evaluate_decides (.ofMessage limits flags message)
  rw [mayHold_singleton (h.trans hb)]
  exact hholds

section

variable [FurtherCharsets] [PatternLimit] {pattern : String} {c : Criterion}
  (hc : c.Narrows pattern)

include hc

/-- What is known of a message may meet a text search if it may meet a narrower criterion. -/
theorem mayHold_text_of_narrows (d : SearchData) (limits : SearchLimits) (message : Entity)
    (h : mayHold [c] (d.loadMessage (fun p => needs p [c]) limits message) = true) :
    mayHold [.text pattern] (d.loadMessage (fun p => needs p [.text pattern]) limits message)
      = true := by
  -- No flags are read, so that any will do.
  have hholds : c.Holds (.ofMessage limits [] message) := by
    cases hc with
    | subject | body | header name => exact (mayHold_singleton_iff rfl).mp h
  have htext : (Criterion.text pattern).Holds (.ofMessage limits [] message) :=
    hc.holds_text hholds
  exact (mayHold_singleton_iff rfl).mpr htext

/-- **A text search finds what narrower ones find.**  If a pattern is found in the subject of a
message, in its body or in its fields of a name, then a text search for that pattern finds the
message, with its flags or without them, and whatever limits are set to what is read of it. -/
theorem matches_text_of_narrows (message : Entity) :
    (∀ limits, matchesContent [c] limits message = true →
        matchesContent [.text pattern] limits message = true)
      ∧ ∀ flags, matchesMessage [c] flags message = true →
        matchesMessage [.text pattern] flags message = true :=
  ⟨fun limits => mayHold_text_of_narrows hc {} limits message,
    fun flags => mayHold_text_of_narrows hc (SearchData.loadFlags {} flags) {} message⟩

end

/-- White space is found in the subject of a message without header, and everywhere else; and a
value is found in the second field of its name, and in the line of the first. -/
theorem matches_text_of_narrows_blank :
    Criterion.Narrows " " (.subject " ") ∧ Criterion.Narrows "TWO" (.header "X-TAG" "TWO")
      ∧ matchesContent [.subject " "] ⟨0⟩ default = true
      ∧ matchesContent [.text " "] ⟨0⟩ default = true
      ∧ matchesMessage [.header "X-TAG" "TWO"] [.seen] twoOfEach = true
      ∧ matchesMessage [.text "TWO"] [.seen] twoOfEach = true := by
  have hsubject : matchesContent [.subject " "] ⟨0⟩ default = true := by decide +kernel
  have hheader : matchesMessage [.header "X-TAG" "TWO"] [.seen] twoOfEach = true := by
    decide +kernel
  exact ⟨.subject, .header "X-TAG", hsubject,
    (matches_text_of_narrows .subject default).1 ⟨0⟩ hsubject, hheader,
    (matches_text_of_narrows (.header "X-TAG") twoOfEach).2 [.seen] hheader⟩

end Criteria

end ImapMessage
