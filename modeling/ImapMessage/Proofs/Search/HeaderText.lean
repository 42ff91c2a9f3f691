/-
# Header lines that a text search sees

A text search looks at the header name by name: one line for each name, with the decoded values of
all its fields and a NUL between two of them.  It therefore sees every decoded value, and the whole
line of the first field of a name.  The lines of later fields of that name are no lines to it.

Key constructions:
* `SearchData.mem_headerLines`: the line that a field contributes to.
* `SearchData.prefix_headerValue`, `SearchData.infix_headerValue`: where in it the value stands.
* `Criteria.matchesContent_text`: what a text search looks at.
* `Criteria.matchesContent_text_of_infix`: what it sees of a field.
-/
import ImapMessage.Proofs.Search.Substring
import ImapMessage.Proofs.Text.Infix

namespace ImapMessage

/-- ASCII case does not change the folded form of a character. -/
theorem CaseFold.fold_toLower (c : Char) : fold c.toLower = fold c := by
  by_cases hascii : c.toNat < 0x80
  · have hall : ∀ n < 0x80, fold (Char.ofNat n).toLower = fold (Char.ofNat n) := by decide +kernel
    have := hall c.toNat hascii
    rwa [Char.ofNat_toNat] at this
  · have hlower : c.toLower = c := by
      apply dif_neg
      rintro ⟨-, hupper⟩
      have : c.toNat ≤ 90 := UInt32.le_iff_toNat_le.mp hupper
      omega
    rw [hlower]

/-! ## Lines of a header -/

namespace SearchData

section

variable [FurtherCharsets] {h : Header} {f : Field}

/-- The name of a field has a line of its own. -/
theorem mem_headerLines (hf : f ∈ h.fields) :
    (Ascii.lowerName f.name, headerValue h (Ascii.lowerName f.name)) ∈ headerLines h := by
  rw [headerLines, List.mem_map]
  refine ⟨Ascii.lowerName f.name, ?_, rfl⟩
  rw [List.mem_eraseDups, List.mem_map]
  exact ⟨f, hf, rfl⟩

/-- The values of a name begin with that of its first field. -/
theorem prefix_headerValue {pre post : List Field} (hfields : h.fields = pre ++ f :: post)
    (hfirst : ∀ g ∈ pre, Ascii.sameName g.name f.name = false) :
    (Display.unstructured f.value).toList
      <+: (headerValue h (Ascii.lowerName f.name)).toList := by
  have hpre : (pre.filter fun g => Ascii.lowerName g.name == Ascii.lowerName f.name) = [] :=
    List.filter_eq_nil_iff.mpr fun g hg => by
      have := hfirst g hg
      rw [Ascii.sameName] at this
      simp [this]
  rw [headerValue, hfields, List.filter_append, hpre, List.nil_append,
    List.filter_cons_of_pos (by simp), List.map_cons, String.toList_intercalate, List.map_cons]
  exact prefix_intercalate _ _ _

/-- The values of a name contain that of every field of that name. -/
theorem infix_headerValue (hf : f ∈ h.fields) :
    (Display.unstructured f.value).toList
      <:+: (headerValue h (Ascii.lowerName f.name)).toList := by
  rw [headerValue, String.toList_intercalate]
  apply infix_intercalate
  rw [List.mem_map]
  refine ⟨Display.unstructured f.value, ?_, rfl⟩
  rw [List.mem_map]
  exact ⟨f, List.mem_filter.mpr ⟨hf, by simp⟩, rfl⟩

end

end SearchData

/-! ## Searching -/

namespace Criteria

/-- A pattern is found in a header if it is found in the line of a name. -/
theorem foundInHeader_eq [PatternLimit] (d : SearchData) (pattern : String) :
    d.foundInHeader pattern = d.headers.map fun lines =>
      lines.any fun (name, value) => Pattern.found pattern (name ++ ": " ++ value) := by
  unfold SearchData.foundInHeader Pattern.found
  cases Pattern.ofString? pattern with
  | none => cases d.headers <;> simp
  | some p => rfl

/-- A text search looks at the lines of the header, name by name, and at the text parts. -/
theorem matchesContent_text [FurtherCharsets] [PatternLimit] (pattern : String)
    (limits : SearchLimits) (message : Entity) :
    matchesContent [.text pattern] limits message
      = (((SearchData.headerLines message.header).any fun (name, value) =>
            Pattern.found pattern (name ++ ": " ++ value))
          || Pattern.found pattern (SearchData.contentText limits.contentReadLimit message)) := by
  apply matchesContent_singleton
  rw [Criterion.evaluate, foundInHeader_eq, Pattern.foundIn]
  simp only [SearchData.loadMessage, SearchData.replaceIf, if_true, Option.map_some]
  generalize (SearchData.headerLines message.header).any _ = inHeader
  generalize Pattern.found pattern _ = inContent
  cases inHeader <;> cases inContent <;> rfl

section

variable [FurtherCharsets] [PatternLimit] (limits : SearchLimits) (message : Entity) (f : Field)

/-- A text search sees what stands in the line of a name. -/
theorem matchesContent_text_of_infix {pattern : String} (hlength : pattern.length ≤ 5000)
    (hplain : Pattern.IsPlain pattern) (hf : f ∈ message.header.fields)
    (h : pattern.toList.map CaseFold.fold <:+: (Ascii.lowerName f.name ++ ": "
      ++ SearchData.headerValue message.header (Ascii.lowerName f.name)).toList.map CaseFold.fold) :
    matchesContent [.text pattern] limits message = true := by
  rw [matchesContent_text, Bool.or_eq_true, List.any_eq_true]
  exact .inl ⟨_, SearchData.mem_headerLines hf,
    Pattern.found_of_infix (PatternLimit.admits_of_length_le hlength) hplain h⟩

/-- A text search sees the whole line of the first field of a name, and the decoded value of every
field, if white space in name and value consists of gaps. -/
theorem matchesContent_text_of_field (pre post : List Field)
    (hfields : message.header.fields = pre ++ f :: post)
    (hname : Pattern.HasOnlyGaps f.name.toList)
    (hvalue : Pattern.HasOnlyGaps (Display.unstructured f.value).toList)
    (hlength : (f.name ++ ": " ++ Display.unstructured f.value).length ≤ 5000) :
    ((∀ g ∈ pre, Ascii.sameName g.name f.name = false) →
        matchesContent [.text (f.name ++ ": " ++ Display.unstructured f.value)] limits message
          = true)
      ∧ matchesContent [.text (Display.unstructured f.value)] limits message = true := by
  have hf : f ∈ message.header.fields := by
    rw [hfields]
    exact List.mem_append_right pre List.mem_cons_self
  have hplain : Pattern.HasOnlyGaps (f.name ++ ": " ++ Display.unstructured f.value).toList := by
    rw [String.toList_append, String.toList_append]
    exact Pattern.hasOnlyGaps_append (Pattern.hasOnlyGaps_append hname (by decide)) hvalue
  have hline : ∀ {v v' : String}, v.toList <+: v'.toList →
      (f.name ++ ": " ++ v).toList.map CaseFold.fold
        <+: (Ascii.lowerName f.name ++ ": " ++ v').toList.map CaseFold.fold := by
    intro v v' hv
    have hlower : (Ascii.lowerName f.name).toList.map CaseFold.fold
        = f.name.toList.map CaseFold.fold := by
      rw [Ascii.lowerName, String.toList_ofList, List.map_map]
      exact List.map_congr_left fun c _ => CaseFold.fold_toLower c
    simp only [String.toList_append, List.map_append, hlower]
    exact (List.prefix_append_right_inj _).mpr (hv.map CaseFold.fold)
  refine ⟨fun hfirst => ?_, ?_⟩
  · refine matchesContent_text_of_infix limits message f hlength ?_ hf ?_
    · exact hplain.of_subset fun c hc => Blank.mem_of_mem_trimChars hc
    · exact (hline (SearchData.prefix_headerValue hfields hfirst)).isInfix
  · refine matchesContent_text_of_infix limits message f ?_ ?_ hf ?_
    · rw [String.length_append] at hlength
      omega
    · exact hvalue.of_subset fun c hc => Blank.mem_of_mem_trimChars hc
    · rw [String.toList_append]
      exact ((SearchData.infix_headerValue hf).trans (List.suffix_append _ _).isInfix).map _

end

/-- A message with two fields of one name. -/
def repeatedTag : Bytes :=
  Utf8.encode "X-Tag: one\r\nx-tag: two\r\n\r\n"

/-- The line of the first of two fields of a name is found, and so is the value of the second. -/
theorem matchesContent_text_of_field_first :
    matchesContent [.text "X-Tag: one"] {} (Entity.parse {} repeatedTag) = true
      ∧ matchesContent [.text "two"] {} (Entity.parse {} repeatedTag) = true := by
  have hone := matchesContent_text_of_field {} (Entity.parse {} repeatedTag)
    ⟨"X-Tag", Utf8.encode "one"⟩ [] [⟨"x-tag", Utf8.encode "two"⟩]
    (by decide +kernel) (by decide) (by decide +kernel) (by decide +kernel)
  have htwo := matchesContent_text_of_field {} (Entity.parse {} repeatedTag)
    ⟨"x-tag", Utf8.encode "two"⟩ [⟨"X-Tag", Utf8.encode "one"⟩] []
    (by decide +kernel) (by decide) (by decide +kernel) (by decide +kernel)
  have hline : "X-Tag" ++ ": " ++ Display.unstructured (Utf8.encode "one") = "X-Tag: one" := by
    decide +kernel
  have hvalue : Display.unstructured (Utf8.encode "two") = "two" := by decide +kernel
  rw [hline] at hone
  rw [hvalue] at htwo
  exact ⟨hone.1 (by simp), htwo.2⟩

/-- The line of the second of two fields of a name is not found. -/
theorem not_found_repeated_line :
    (Entity.parse {} repeatedTag).header.fields
        = [⟨"X-Tag", Utf8.encode "one"⟩, ⟨"x-tag", Utf8.encode "two"⟩]
      ∧ Display.unstructured (Utf8.encode "two") = "two"
      ∧ matchesContent [.text "x-tag: two"] {} (Entity.parse {} repeatedTag) = false := by
  decide +kernel

end Criteria

end ImapMessage
