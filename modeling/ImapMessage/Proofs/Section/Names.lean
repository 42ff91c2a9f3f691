/-
# The name of a section

The name under which a section is reported tells its path, its portion, the names of the header
fields in question up to letter case, and where its range starts.  What it does not tell, apart from
the length of the range, makes no difference to what is fetched; so sections that are reported under
the same name hold the same data.

Key constructions:
* `Section.words`: the numbers and words at the beginning of the name.
* `Section.reportedNames`: the names of header fields in it.
* `Section.name_eq_iff`: what the name tells.
* `Section.fetch_eq_of_name_eq`: the name identifies the data.
-/
import ImapMessage.Proofs.Section.HeaderFields
import ImapMessage.Proofs.Text.Infix

namespace ImapMessage

/-- The word of a portion. -/
def Portion.words : Portion → List String
  | .entire => []
  | .header => ["HEADER"]
  | .mime => ["MIME"]
  | .text => ["TEXT"]

theorem Portion.words_injective : Function.Injective Portion.words := by
  intro p q
  cases p <;> cases q <;> decide

/-- Decimal digits tell the number. -/
theorem Ascii.toDigits_injective : Function.Injective (Nat.toDigits 10) :=
  Function.LeftInverse.injective (g := fun cs => Nat.ofDigitChars 10 cs 0)
    fun _ => Nat.ofDigitChars_ten_toDigits

/-- Words that are not empty and do not contain the separator can be told from what they are put
together to. -/
theorem eq_of_intercalate_toList {c : Char} {xs ys : List String}
    (hx : ∀ w ∈ xs, w ≠ "" ∧ c ∉ w.toList) (hy : ∀ w ∈ ys, w ≠ "" ∧ c ∉ w.toList)
    (h : [c].intercalate (xs.map String.toList) = [c].intercalate (ys.map String.toList)) :
    xs = ys := by
  have hinj : Function.Injective (List.map String.toList) :=
    List.map_injective_iff.mpr fun _ _ => String.toList_inj.mp
  have hwords : ∀ zs : List String, (∀ w ∈ zs, w ≠ "" ∧ c ∉ w.toList) →
      ∀ cs ∈ zs.map String.toList, cs ≠ [] ∧ c ∉ cs := by
    intro zs hz cs hcs
    obtain ⟨w, hw, rfl⟩ := List.mem_map.mp hcs
    obtain ⟨hne, hc⟩ := hz w hw
    exact ⟨fun hnil => hne (String.toList_eq_nil_iff.mp hnil), hc⟩
  exact hinj (intercalate_inj (hwords xs hx) (hwords ys hy) h)

namespace Section

variable {s s' : Section}

/-! ## The names of header fields -/

/-- The names of header fields that are reported, in upper case. -/
def reportedNames (s : Section) : List String :=
  if s.portion = .header then s.names.map Ascii.upperName else []

theorem portion_eq_header (h : s.reportedNames ≠ []) : s.portion = .header := by
  by_contra hportion
  exact h (if_neg hportion)

/-- Of a header all names are reported. -/
theorem reportedNames_eq_nil_iff (h : s.portion = .header) :
    s.reportedNames = [] ↔ s.names = [] := by
  rw [reportedNames, if_pos h, List.map_eq_nil_iff]

/-- The names of header fields stand between parentheses. -/
theorem toList_fieldNames (s : Section) :
    s.fieldNames.toList
      = if s.reportedNames = [] then []
        else ' ' :: '(' :: ([' '].intercalate (s.reportedNames.map String.toList) ++ [')']) := by
  by_cases hportion : s.portion = .header
  · by_cases hnames : s.names = []
    · simp [fieldNames, reportedNames, hnames]
    · simp [fieldNames, reportedNames, hportion, hnames, String.toList_intercalate]
  · simp [fieldNames, reportedNames, hportion]

/-- A name that interferes neither with the space before the next one nor with the bracket after all
of them. -/
def IsPlainName (name : String) : Prop :=
  name ≠ "" ∧ ' ' ∉ name.toList ∧ ']' ∉ name.toList

theorem IsPlainName.upperName {name : String} (h : IsPlainName name) :
    IsPlainName (Ascii.upperName name) := by
  obtain ⟨hne, hspace, hbracket⟩ := h
  refine ⟨?_, fun hc => hspace (Ascii.mem_of_mem_upperName (by decide) hc),
    fun hc => hbracket (Ascii.mem_of_mem_upperName (by decide) hc)⟩
  rw [Ne, ← String.toList_eq_nil_iff] at hne ⊢
  rwa [Ascii.upperName, String.toList_ofList, List.map_eq_nil_iff]

/-- The names in question are plain ones. -/
def HasPlainNames (s : Section) : Prop :=
  ∀ name ∈ s.names, IsPlainName name

theorem HasPlainNames.reportedNames (h : s.HasPlainNames) :
    ∀ name ∈ s.reportedNames, IsPlainName name := by
  intro name hname
  rw [Section.reportedNames] at hname
  split at hname
  · obtain ⟨name', hname', rfl⟩ := List.mem_map.mp hname
    exact (h name' hname').upperName
  · cases hname

/-- Plain names are told one by one. -/
theorem fieldNames_eq_iff (h : s.HasPlainNames) (h' : s'.HasPlainNames) :
    s.fieldNames = s'.fieldNames ↔ s.reportedNames = s'.reportedNames := by
  have hnames : ∀ s : Section, s.HasPlainNames →
      ∀ name ∈ s.reportedNames, name ≠ "" ∧ ' ' ∉ name.toList := by
    intro s h name hname
    obtain ⟨hne, hspace, -⟩ := h.reportedNames name hname
    exact ⟨hne, hspace⟩
  rw [← String.toList_inj, toList_fieldNames, toList_fieldNames]
  constructor
  · intro heq
    split at heq <;> split at heq
    · next hnil hnil' => rw [hnil, hnil']
    · cases heq
    · cases heq
    · rw [List.cons.injEq, List.cons.injEq, List.append_cancel_right_eq] at heq
      exact eq_of_intercalate_toList (hnames s h) (hnames s' h') heq.2.2
  · intro heq
    rw [heq]

/-! ## Numbers and words -/

/-- The words that say which fields of a header are in question. -/
def choiceWords (s : Section) : List String :=
  if s.reportedNames = [] then [] else if s.omits then ["FIELDS", "NOT"] else ["FIELDS"]

/-- The numbers and words of the name, up to the names of header fields. -/
def words (s : Section) : List String :=
  s.path.map toString ++ (s.portion.words ++ s.choiceWords)

theorem choiceWords_of_ne_header (h : s.portion ≠ .header) : s.choiceWords = [] :=
  if_pos (if_neg h)

theorem portionName_eq (s : Section) :
    s.portionName = ".".intercalate (s.portion.words ++ s.choiceWords) := by
  cases h : s.portion with
  | entire | mime | text =>
    rw [choiceWords_of_ne_header (by rw [h]; decide)]
    simp only [portionName, h]
    decide +kernel
  | header =>
    simp only [portionName, h, choiceWords, reportedNames_eq_nil_iff h, ← List.isEmpty_iff]
    cases s.names.isEmpty <;> cases s.omits <;> decide +kernel

/-- Between numbers and words there are dots. -/
theorem intercalate_words (s : Section) :
    s.pathName ++ (if s.path.isEmpty || s.portion == .entire then "" else ".") ++ s.portionName
      = ".".intercalate s.words := by
  have hnil : ".".intercalate [] = "" := rfl
  rw [portionName_eq, pathName, words]
  by_cases hpath : s.path = []
  · simp [hpath, hnil]
  · by_cases hportion : s.portion = .entire
    · rw [choiceWords_of_ne_header (by rw [hportion]; decide), hportion]
      simp [Portion.words, hnil]
    · have hwords : s.portion.words ++ s.choiceWords ≠ [] := by
        intro h
        exact hportion (Portion.words_injective (List.append_eq_nil_iff.mp h).1)
      rw [String.intercalate_append_of_ne_nil (by simpa using hpath) hwords]
      simp [hpath, hportion]

/-- The words say of a header whether the fields in question are left out. -/
theorem portionWords_eq_iff (h : s.reportedNames = s'.reportedNames) :
    s.portion.words ++ s.choiceWords = s'.portion.words ++ s'.choiceWords
      ↔ s.portion = s'.portion ∧ (s.reportedNames ≠ [] → s.omits = s'.omits) := by
  by_cases hnil : s.reportedNames = []
  · rw [choiceWords, choiceWords, if_pos hnil, if_pos (h ▸ hnil), List.append_nil, List.append_nil,
      Portion.words_injective.eq_iff]
    simp [hnil]
  · have hnil' : s'.reportedNames ≠ [] := h ▸ hnil
    have hportion : s.portion = s'.portion := by
      rw [portion_eq_header hnil, portion_eq_header hnil']
    rw [choiceWords, choiceWords, if_neg hnil, if_neg hnil', hportion, List.append_cancel_left_eq]
    cases s.omits <;> cases s'.omits <;> simp [hnil]

/-- Whether a word is a number. -/
def isNumber (w : String) : Bool :=
  w.toList.all Char.isDigit

theorem isNumber_toString (n : Nat) : isNumber (toString n) = true := by
  rw [isNumber, Nat.toString_eq_repr, Nat.toList_repr, List.all_eq_true]
  exact fun c hc => Nat.isDigit_of_mem_toDigits (by decide) (by decide) hc

theorem portionWords_subset (s : Section) :
    s.portion.words ++ s.choiceWords ⊆ ["HEADER", "MIME", "TEXT", "FIELDS", "NOT"] := by
  apply List.append_subset.mpr
  constructor
  · cases s.portion <;> decide
  · rw [choiceWords]
    split
    · exact List.nil_subset _
    · split <;> decide

/-- Numbers and words are not empty and consist of digits and letters. -/
theorem of_mem_words {w : String} (h : w ∈ s.words) :
    w ≠ "" ∧ ∀ c ∈ w.toList, c.isAlphanum = true := by
  rcases List.mem_append.mp h with h | h
  · obtain ⟨n, -, rfl⟩ := List.mem_map.mp h
    have hdigits := isNumber_toString n
    rw [isNumber, List.all_eq_true] at hdigits
    refine ⟨?_, fun c hc => Bool.or_eq_true_iff.mpr (.inr (hdigits c hc))⟩
    rw [Ne, ← String.toList_eq_nil_iff, Nat.toString_eq_repr, Nat.toList_repr]
    exact Nat.toDigits_ne_nil
  · have hall : ∀ w ∈ ["HEADER", "MIME", "TEXT", "FIELDS", "NOT"],
        w ≠ "" ∧ ∀ c ∈ w.toList, c.isAlphanum = true := by
      decide +kernel
    exact hall w (s.portionWords_subset h)

/-- The numbers among numbers and words are the path. -/
theorem filter_isNumber_words (s : Section) : s.words.filter isNumber = s.path.map toString := by
  have hnumbers : ∀ w ∈ s.path.map toString, isNumber w = true := by
    simpa using fun n _ => isNumber_toString n
  have hwords : ∀ w ∈ s.portion.words ++ s.choiceWords, ¬ isNumber w = true := by
    have hall : ∀ w ∈ ["HEADER", "MIME", "TEXT", "FIELDS", "NOT"], ¬ isNumber w = true := by
      decide +kernel
    exact fun w hw => hall w (s.portionWords_subset hw)
  rw [words, List.filter_append, List.filter_eq_self.mpr hnumbers,
    List.filter_eq_nil_iff.mpr hwords, List.append_nil]

/-- Numbers and words tell the path and the portion. -/
theorem words_eq_iff :
    s.words = s'.words ↔ s.path = s'.path
      ∧ s.portion.words ++ s.choiceWords = s'.portion.words ++ s'.choiceWords := by
  have hinj : Function.Injective (toString : Nat → String) := by
    intro m n h
    rw [Nat.toString_eq_repr, Nat.toString_eq_repr, ← String.toList_inj, Nat.toList_repr,
      Nat.toList_repr] at h
    exact Ascii.toDigits_injective h
  constructor
  · intro h
    have hpath : s.path = s'.path := by
      apply List.map_injective_iff.mpr hinj
      rw [← filter_isNumber_words, ← filter_isNumber_words, h]
    rw [words, words, hpath] at h
    exact ⟨hpath, List.append_cancel_left h⟩
  · rintro ⟨hpath, hportion⟩
    rw [words, words, hpath, hportion]

/-! ## The whole name -/

theorem originName_eq_iff :
    s.originName = s'.originName ↔ s.range.map ByteRange.start = s'.range.map ByteRange.start := by
  rw [originName, originName]
  cases s.range <;> cases s'.range <;> simp [← String.toList_inj, Ascii.toDigits_injective.eq_iff]

theorem toList_name (s : Section) :
    s.name.toList = "BODY[".toList ++ ((['.'].intercalate (s.words.map String.toList)
      ++ s.fieldNames.toList) ++ ']' :: s.originName.toList) := by
  have hdot : ".".toList = ['.'] := rfl
  rw [name, ← hdot, ← String.toList_intercalate, ← intercalate_words]
  simp

/-- Numbers, words and dots interfere with nothing that comes after them. -/
theorem not_mem_intercalate_words {c : Char} (hdot : c ≠ '.') (hc : c.isAlphanum = false) :
    c ∉ ['.'].intercalate (s.words.map String.toList) := by
  intro hmem
  rcases mem_of_mem_intercalate hmem with hmem | ⟨cs, hcs, hmem⟩
  · exact hdot hmem
  · obtain ⟨w, hw, rfl⟩ := List.mem_map.mp hcs
    rw [(of_mem_words hw).2 c hmem] at hc
    cases hc

/-- There is no bracket before the one at the end. -/
theorem HasPlainNames.bracket_notMem (h : s.HasPlainNames) :
    ']' ∉ ['.'].intercalate (s.words.map String.toList) ++ s.fieldNames.toList := by
  have hnames : ']' ∉ [' '].intercalate (s.reportedNames.map String.toList) := by
    intro hmem
    rcases mem_of_mem_intercalate hmem with hmem | ⟨cs, hcs, hmem⟩
    · exact absurd hmem (by decide)
    · obtain ⟨name, hname, rfl⟩ := List.mem_map.mp hcs
      exact (h.reportedNames name hname).2.2 hmem
  rw [List.mem_append, not_or]
  refine ⟨not_mem_intercalate_words (by decide) (by decide), ?_⟩
  rw [toList_fieldNames]
  split
  · exact List.not_mem_nil
  · simpa using hnames

/-- The names of header fields begin with a space. -/
theorem eq_space_of_head? : ∀ c ∈ s.fieldNames.toList.head?, c = ' ' := by
  intro c hc
  rw [toList_fieldNames] at hc
  split at hc
  · cases hc
  · exact (Option.some_inj.mp hc).symm

/-- The name is told part by part. -/
theorem name_eq_iff_parts (h : s.HasPlainNames) (h' : s'.HasPlainNames) :
    s.name = s'.name
      ↔ s.words = s'.words ∧ s.fieldNames = s'.fieldNames ∧ s.originName = s'.originName := by
  have hwords : ∀ s : Section, ∀ w ∈ s.words, w ≠ "" ∧ '.' ∉ w.toList := by
    intro s w hw
    obtain ⟨hne, halnum⟩ := of_mem_words hw
    exact ⟨hne, fun hdot => absurd (halnum '.' hdot) (by decide)⟩
  rw [← String.toList_inj, toList_name, toList_name, List.append_cancel_left_eq]
  constructor
  · intro heq
    -- The bracket ends the part in brackets, and a space begins the names of header fields.
    obtain ⟨heq, horigin⟩ := append_inj_of_notMem h.bracket_notMem h'.bracket_notMem
      (by simp) (by simp) heq
    obtain ⟨heq, hnames⟩ := append_inj_of_notMem
      (not_mem_intercalate_words (by decide) (by decide))
      (not_mem_intercalate_words (by decide) (by decide)) eq_space_of_head? eq_space_of_head? heq
    exact ⟨eq_of_intercalate_toList (hwords s) (hwords s') heq, String.toList_inj.mp hnames,
      String.toList_inj.mp (List.cons_inj_right _ |>.mp horigin)⟩
  · rintro ⟨hwords, hnames, horigin⟩
    rw [hwords, hnames, horigin]

/-- The name of a section tells its path, its portion, the names of header fields up to letter case
and, if there are any, whether these fields are left out, and where the range starts; and it tells
nothing else. -/
theorem name_eq_iff (h : s.HasPlainNames) (h' : s'.HasPlainNames) :
    s.name = s'.name
      ↔ s.path = s'.path ∧ s.portion = s'.portion ∧ s.reportedNames = s'.reportedNames
        ∧ (s.reportedNames ≠ [] → s.omits = s'.omits)
        ∧ s.range.map ByteRange.start = s'.range.map ByteRange.start := by
  rw [name_eq_iff_parts h h', words_eq_iff, fieldNames_eq_iff h h', originName_eq_iff]
  constructor
  · rintro ⟨⟨hpath, hwords⟩, hnames, hstart⟩
    obtain ⟨hportion, homits⟩ := (portionWords_eq_iff hnames).mp hwords
    exact ⟨hpath, hportion, hnames, homits, hstart⟩
  · rintro ⟨hpath, hportion, hnames, homits, hstart⟩
    exact ⟨⟨hpath, (portionWords_eq_iff hnames).mpr ⟨hportion, homits⟩⟩, hnames, hstart⟩

/-! ## The data -/

/-- A range is told by its start and its length. -/
theorem range_eq_of_parts {range range' : Option ByteRange}
    (hstart : range.map ByteRange.start = range'.map ByteRange.start)
    (hlength : range.bind ByteRange.length = range'.bind ByteRange.length) : range = range' := by
  cases range with
  | none =>
    cases range' with
    | none => rfl
    | some r' => cases hstart
  | some r =>
    cases range' with
    | none => cases hstart
    | some r' =>
      obtain ⟨start, length⟩ := r
      obtain ⟨start', length'⟩ := r'
      cases hstart
      cases hlength
      rfl

/-- **The name of a section identifies its data.**  Two sections with plain names of header fields,
and with none unless a header is asked for, that are reported under the same name and have ranges of
the same length give the same answer for every message: the same data, or that there is no such
part. -/
theorem fetch_eq_of_name_eq (h : s.HasPlainNames) (h' : s'.HasPlainNames)
    (hheader : s.portion ≠ .header → s.names = [])
    (hheader' : s'.portion ≠ .header → s'.names = []) (hname : s.name = s'.name)
    (hlength : s.range.bind ByteRange.length = s'.range.bind ByteRange.length) (message : Entity) :
    s.fetch message = s'.fetch message := by
  obtain ⟨hpath, hportion, hnames, homits, hstart⟩ := (name_eq_iff h h').mp hname
  have hreported : ∀ s : Section, (s.portion ≠ .header → s.names = []) →
      s.reportedNames = s.names.map Ascii.upperName := by
    intro s hheader
    by_cases hportion : s.portion = .header
    · rw [reportedNames, if_pos hportion]
    · rw [reportedNames, if_neg hportion, hheader hportion, List.map_nil]
  rw [hreported s hheader, hreported s' hheader'] at hnames
  rw [hreported s hheader, Ne, List.map_eq_nil_iff] at homits
  have hlower : s.names.map Ascii.lowerName = s'.names.map Ascii.lowerName := by
    have hmap := congrArg (List.map Ascii.lowerName) hnames
    simpa only [List.map_map, Function.comp_def, Ascii.lowerName_upperName] using hmap
  exact fetch_congr hpath hportion (keeps_congr (fun name => by rw [hlower]) homits)
    (range_eq_of_parts hstart hlength) message

/-- A range of the header of a part without some fields. -/
def someFields (names : List String) : Section :=
  { path := [1, 2], portion := .header, names, omits := true, range := some ⟨5, some 9⟩ }

/-- The names of the fields that are left out are reported alike in whatever letter case they are
written. -/
theorem fetch_eq_of_name_eq_letter_case :
    (someFields ["From", "to"]).HasPlainNames ∧ (someFields ["FROM", "To"]).HasPlainNames
      ∧ (someFields ["From", "to"]).name = "BODY[1.2.HEADER.FIELDS.NOT (FROM TO)]<5>"
      ∧ (someFields ["FROM", "To"]).name = "BODY[1.2.HEADER.FIELDS.NOT (FROM TO)]<5>"
      ∧ ∀ message, (someFields ["From", "to"]).fetch message
        = (someFields ["FROM", "To"]).fetch message := by
  have hplain : (someFields ["From", "to"]).HasPlainNames
      ∧ (someFields ["FROM", "To"]).HasPlainNames := by
    unfold HasPlainNames IsPlainName
    decide +kernel
  have hname : (someFields ["From", "to"]).name = "BODY[1.2.HEADER.FIELDS.NOT (FROM TO)]<5>" := by
    decide +kernel
  have hname' : (someFields ["FROM", "To"]).name = "BODY[1.2.HEADER.FIELDS.NOT (FROM TO)]<5>" := by
    decide +kernel
  exact ⟨hplain.1, hplain.2, hname, hname', fetch_eq_of_name_eq hplain.1 hplain.2
    (fun h => absurd rfl h) (fun h => absurd rfl h) (hname.trans hname'.symm) rfl⟩

end Section

end ImapMessage
