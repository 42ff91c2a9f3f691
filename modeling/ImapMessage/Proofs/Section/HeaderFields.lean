/-
# The fields of a header that are asked for

A client asks for the fields of some names, or for all others.  Together the two answers hold every
field of the header, in order, and its name alone decides in which of them a field is.

Key constructions:
* `Field.isNamed`: the fields of some names.
* `Section.keeps_congr`, `Section.fetch_congr`: what makes no difference.
* `Section.fetch_fields`: what is fetched of a header.
* `Section.fetch_fields_divide`: the two answers divide the header.
-/
import ImapMessage.Proofs.BodyStructure.Paths
import ImapMessage.Proofs.Entity.HeaderRoundTrip
import ImapMessage.Proofs.Text.Ascii
import ImapMessage.Proofs.Text.Interleaving

namespace ImapMessage

/-! ## The fields of some names -/

namespace Field

/-- Whether one of some names is that of the field, in any letter case. -/
def isNamed (names : List String) (f : Field) : Bool :=
  names.any f.hasName

theorem isNamed_iff (names : List String) (f : Field) :
    f.isNamed names = true ↔ ∃ name ∈ names, Ascii.sameName f.name name = true :=
  List.any_eq_true

/-- Names count only in lower case. -/
theorem isNamed_iff_lowerName (names : List String) (f : Field) :
    f.isNamed names = true ↔ Ascii.lowerName f.name ∈ names.map Ascii.lowerName := by
  rw [isNamed_iff, List.mem_map]
  exact exists_congr fun name => and_congr_right fun _ =>
    (Ascii.sameName_iff _ _).trans eq_comm

/-- Fields of the same name, in any letter case, are both asked for or both not. -/
theorem isNamed_congr {f f' : Field} (h : Ascii.sameName f.name f'.name = true)
    (names : List String) : f.isNamed names = f'.isNamed names := by
  rw [Bool.eq_iff_iff, isNamed_iff_lowerName, isNamed_iff_lowerName, (Ascii.sameName_iff _ _).mp h]

/-- Neither the order of names nor their number nor their letter case matters. -/
theorem isNamed_congr_names {names names' : List String}
    (h : ∀ name, name ∈ names.map Ascii.lowerName ↔ name ∈ names'.map Ascii.lowerName) :
    isNamed names = isNamed names' := by
  funext f
  rw [Bool.eq_iff_iff, isNamed_iff_lowerName, isNamed_iff_lowerName, h]

end Field

namespace Section

/-! ## What makes no difference -/

section

variable {s s' : Section}

/-- Neither the order of the names in question nor their number nor their letter case matters to
which fields are asked for; and if there are none, nor does whether they are left out. -/
theorem keeps_congr
    (hnames : ∀ name, name ∈ s.names.map Ascii.lowerName ↔ name ∈ s'.names.map Ascii.lowerName)
    (homits : s.names ≠ [] → s.omits = s'.omits) : s.keeps = s'.keeps := by
  have hempty : s.names.isEmpty = s'.names.isEmpty := by
    rw [Bool.eq_iff_iff, List.isEmpty_iff, List.isEmpty_iff,
      ← List.map_eq_nil_iff (f := Ascii.lowerName) (l := s.names),
      ← List.map_eq_nil_iff (f := Ascii.lowerName) (l := s'.names),
      List.eq_nil_iff_forall_not_mem, List.eq_nil_iff_forall_not_mem]
    simp only [hnames]
  funext f
  have hnamed := congrFun (Field.isNamed_congr_names hnames) f
  rw [Field.isNamed, Field.isNamed] at hnamed
  rw [keeps, keeps, hnamed]
  by_cases hnil : s.names = []
  · rw [← hempty, hnil, List.isEmpty_nil, Bool.true_or, Bool.true_or]
  · rw [← hempty, homits hnil]

/-- The path, the portion, the fields that are asked for and the range decide what is fetched. -/
theorem fetch_congr (hpath : s.path = s'.path) (hportion : s.portion = s'.portion)
    (hkeeps : s.keeps = s'.keeps) (hrange : s.range = s'.range) (message : Entity) :
    s.fetch message = s'.fetch message := by
  have hbytes : s.bytesOf = s'.bytesOf := by
    funext e
    rw [bytesOf, bytesOf, portionBytes, portionBytes, headerBytes, headerBytes, hpath, hportion,
      hkeeps, hrange]
  rw [fetch, fetch, hpath, hbytes]

end

/-! ## Two answers -/

/-- Of a header, only what is asked for is fetched. -/
theorem bytesOf_header {s : Section} (hportion : s.portion = .header) (hrange : s.range = none)
    (e : Entity) : s.bytesOf e = s.headerBytes e.header := by
  rw [bytesOf, hrange]
  simp [portionBytes, hportion, Portion.hasHeader, Portion.hasBody]

variable {message e : Entity} {path : List Nat}

/-- The whole header. -/
theorem fetch_header (h : message.locate path = .ok e) (omits : Bool) :
    fetch { path, portion := .header, omits } message
      = .ok (answer (e.header.write ++ Ascii.crlf)) := by
  rw [fetch_of_locate h, bytesOf_header rfl rfl, headerBytes_of_nil rfl]

/-- The fields of some names, or all others. -/
theorem fetch_fields (h : message.locate path = .ok e) {names : List String} (hnames : names ≠ [])
    (omits : Bool) :
    fetch { path, portion := .header, names, omits } message
      = .ok (answer ((e.header.fields.filter fun f => f.isNamed names != omits).flatMap Field.write
        ++ Ascii.crlf)) := by
  have hkeeps : keeps { path, portion := .header, names, omits }
      = fun f => f.isNamed names != omits := by
    funext f
    have hempty : names.isEmpty = false := by simpa using hnames
    rw [keeps, hempty]
    rfl
  rw [fetch_of_locate h, bytesOf_header rfl rfl, headerBytes, hkeeps]

/-- **The fields of some names and all others divide a header.**  Every field is in exactly one of
the two answers, in order, and both end with an empty line.  A field is in the first one if its name
is one of those asked for, in any letter case; so fields of one name are all in the same answer, and
neither the order of the names asked for nor their number nor their letter case matters.  All of a
message is its header and, after it, its text. -/
theorem fetch_fields_divide (h : message.locate path = .ok e) {names : List String}
    (hnames : names ≠ []) :
    (∃ kept others : List Field, ∃ header,
        fetch { path, portion := .header, names } message
            = .ok (answer (kept.flatMap Field.write ++ Ascii.crlf))
          ∧ fetch { path, portion := .header, names, omits := true } message
            = .ok (answer (others.flatMap Field.write ++ Ascii.crlf))
          ∧ Interleaving kept others e.header.fields
          ∧ (∀ f ∈ e.header.fields,
            (f ∈ kept ↔ ∃ name ∈ names, Ascii.sameName f.name name = true)
              ∧ (f ∈ others ↔ ¬ ∃ name ∈ names, Ascii.sameName f.name name = true))
          ∧ (∀ f ∈ e.header.fields, ∀ f' ∈ e.header.fields, Ascii.sameName f.name f'.name = true →
            (f ∈ kept ↔ f' ∈ kept) ∧ (f ∈ others ↔ f' ∈ others))
          ∧ (∀ omits, fetch { path, portion := .header, omits } message = .ok header)
          ∧ (kept.flatMap Field.write ++ Ascii.crlf).length
              + (others.flatMap Field.write ++ Ascii.crlf).length = header.data.length + 2)
      ∧ (∀ names' : List String,
          (∀ name, name ∈ names.map Ascii.lowerName ↔ name ∈ names'.map Ascii.lowerName) →
          ∀ omits, fetch { path, portion := .header, names, omits } message
            = fetch { path, portion := .header, names := names', omits } message)
      ∧ ∀ omits, ∃ header text, fetch { portion := .header, omits } message = .ok header
          ∧ fetch { portion := .text, omits } message = .ok text
          ∧ fetch { omits } message = .ok (answer (header.data ++ text.data)) := by
  have hkept := fetch_fields h hnames false
  have hothers := fetch_fields h hnames true
  simp only [Bool.bne_false, Bool.bne_true] at hkept hothers
  have hdivide := Interleaving.filter (fun f => f.isNamed names) e.header.fields
  refine ⟨⟨_, _, _, hkept, hothers, hdivide, ?_, ?_, fetch_header h, ?_⟩,
    fun names' hsame omits => ?_, fun omits => ?_⟩
  · intro f hf
    rw [← Field.isNamed_iff, List.mem_filter, List.mem_filter]
    simp [hf]
  · intro f hf f' hf' hname
    rw [List.mem_filter, List.mem_filter, List.mem_filter, List.mem_filter,
      Field.isNamed_congr hname]
    simp [hf, hf']
  · have hlength := hdivide.length_flatMap Field.write
    have hcrlf : Ascii.crlf.length = 2 := rfl
    simp only [answer, Header.write, List.length_append, hcrlf]
    omega
  · have hkeeps : keeps { path, portion := .header, names, omits }
        = keeps { path, portion := .header, names := names', omits } :=
      keeps_congr hsame fun _ => rfl
    exact fetch_congr (by rfl) (by rfl) hkeeps (by rfl) message
  · exact ⟨_, _, fetch_header rfl omits, fetch_of_locate rfl, Entity.fetch_entire omits message⟩

/-- A part with a header in which one name occurs twice. -/
def threeLines : Entity :=
  .ofHeader ⟨[⟨"To", Utf8.encode "a"⟩, ⟨"X-Tag", Utf8.encode "b"⟩, ⟨"TO", Utf8.encode "c"⟩]⟩ []

/-- The two lines of one name are asked for, and the other one.  To ask for the name twice, in other
letters, is the same. -/
theorem fetch_fields_divide_three_lines :
    (Entity.withParts .empty [] [threeLines]).locate [1] = .ok threeLines
      ∧ ["to"] ≠ []
      ∧ (∃ kept others : List Field,
        fetch { path := [1], portion := .header, names := ["to"] }
              (.withParts .empty [] [threeLines])
            = .ok (answer (kept.flatMap Field.write ++ Ascii.crlf))
          ∧ fetch { path := [1], portion := .header, names := ["to"], omits := true }
              (.withParts .empty [] [threeLines])
            = .ok (answer (others.flatMap Field.write ++ Ascii.crlf))
          ∧ Interleaving kept others threeLines.header.fields)
      ∧ fetch { path := [1], portion := .header, names := ["to"] }
          (.withParts .empty [] [threeLines])
        = fetch { path := [1], portion := .header, names := ["TO", "tO"] }
          (.withParts .empty [] [threeLines]) := by
  have hlocate : (Entity.withParts .empty [] [threeLines]).locate [1] = .ok threeLines := rfl
  have hnames : ["to"] ≠ [] := List.cons_ne_nil "to" []
  obtain ⟨⟨kept, others, _, hkept, hothers, hdivide, -⟩, hsame, -⟩ :=
    fetch_fields_divide hlocate hnames
  have hlower : ["to"].map Ascii.lowerName = ["to"]
      ∧ ["TO", "tO"].map Ascii.lowerName = ["to", "to"] := by decide +kernel
  refine ⟨hlocate, hnames, ⟨kept, others, hkept, hothers, hdivide⟩,
    hsame ["TO", "tO"] (fun name => ?_) false⟩
  rw [hlower.1, hlower.2]
  simp

-- Which lines these are.
example : Section.fetch { portion := .header, names := ["to"] } threeLines
      = .ok (answer (Utf8.encode "To: a\r\nTO: c\r\n\r\n"))
    ∧ Section.fetch { portion := .header, names := ["to"], omits := true } threeLines
      = .ok (answer (Utf8.encode "X-Tag: b\r\n\r\n")) := by
  decide +kernel

end Section

end ImapMessage
