/-
# The structure of a message and its sections

The structure that is told about a message, the entities of its tree and the sections that can be
fetched are three walks along the same paths.  They lead to the same places, and the sizes that the
structure tells are those of what is fetched.

Key constructions:
* `BodyStructure.child?`, `BodyStructure.locate?`: the structure at a path of part numbers.
* `BodyStructure.locate?_ofEntity`: it is the structure of the entity there.
* `Section.fetch_of_locate`, `Section.fetch_of_error`: sections of entities that are there, and of
  those that are not.
-/
import ImapMessage.BodyStructure
import ImapMessage.Section

namespace ImapMessage

/-! ## Paths -/

/-- A path that leads nowhere is the only thing that can go wrong. -/
theorem Entity.eq_noSuchPart_of_locate {e : Entity} {path : List Nat} {err : Error}
    (h : e.locate path = .error err) : err = .noSuchPart := by
  induction path generalizing e with
  | nil => cases h
  | cons number path ih =>
    rw [locate] at h
    split at h
    · exact ih h
    · cases h
      rfl

namespace BodyStructure

/-- The structure of the part with a number, which counts from 1. -/
def child? (s : BodyStructure) (number : Nat) : Option BodyStructure :=
  match number with
  | 0 => none
  | n + 1 => s.children[n]?

/-- The structure at a path of part numbers. -/
def locate? (s : BodyStructure) : List Nat → Option BodyStructure
  | [] => some s
  | number :: path => (s.child? number).bind fun child => child.locate? path

section

variable [FurtherCharsets]

/-- The numbers of a structure are those of the parts. -/
theorem child?_ofEntity (extended : Bool) (e : Entity) (number : Nat) :
    (ofEntity extended e).child? number = (e.part? number).map (ofEntity extended) := by
  cases number with
  | zero => cases e <;> rfl
  | succ n =>
    cases e with
    | leaf c => rfl
    | multipart c parts =>
      change (ofEntities extended parts)[n]? = parts[n]?.map (ofEntity extended)
      rw [ofEntities_eq_map, List.getElem?_map]

/-- A path leads to the structure of the entity to which it leads. -/
theorem locate?_ofEntity (extended : Bool) (root : Entity) (path : List Nat) :
    (ofEntity extended root).locate? path
      = (root.locate path).toOption.map (ofEntity extended) := by
  induction path generalizing root with
  | nil => rfl
  | cons number path ih =>
    rw [locate?, child?_ofEntity, Entity.locate]
    cases root.part? number with
    | none => rfl
    | some part => exact ih part

theorem octets_ofEntity (extended : Bool) (e : Entity) :
    (ofEntity extended e).summary.octets = e.body.length := by
  cases e <;> rfl

theorem lines_ofEntity (extended : Bool) (e : Entity) :
    (ofEntity extended e).summary.lines = e.body.count Ascii.lf := by
  cases e <;> rfl

end

end BodyStructure

/-! ## Sections -/

namespace Section

variable {s : Section} {root : Entity}

theorem fetch_of_locate {e : Entity} (h : root.locate s.path = .ok e) :
    s.fetch root = .ok (answer (s.bytesOf e)) := by
  rw [fetch, h]
  rfl

theorem fetch_of_error {err : Error} (h : root.locate s.path = .error err) :
    s.fetch root = .error .noSuchPart := by
  rw [fetch, h, Entity.eq_noSuchPart_of_locate h]
  rfl

/-- The text of an entity is its body. -/
theorem bytesOf_text (hportion : s.portion = .text) (hrange : s.range = none) (e : Entity) :
    s.bytesOf e = e.body := by
  rw [bytesOf, hrange]
  simp [portionBytes, hportion, Portion.hasHeader, Portion.hasBody]

/-- Of a part, everything is the text. -/
theorem fetch_entire_eq_text (hpath : s.path ≠ []) (hportion : s.portion = .entire)
    (root : Entity) : s.fetch root = { s with portion := .text }.fetch root := by
  have hempty : s.path.isEmpty = false := by simpa using hpath
  have hbytes : ∀ e, s.bytesOf e = { s with portion := .text }.bytesOf e := by
    intro e
    simp [bytesOf, portionBytes, hportion, hempty, Portion.hasHeader, Portion.hasBody]
  simp only [fetch, hbytes]

end Section

/-! ## Agreement -/

namespace BodyStructure

/-- The structure of a message agrees with its tree and with its sections at every path.  A path
leads to a structure if and only if it leads to an entity, and then to the structure of that entity,
whose sizes are those of the text that is fetched; of a part, everything is the text.  Where a path
leads nowhere, no section can be fetched. -/
theorem ofEntity_agrees [FurtherCharsets] (extended : Bool) (root : Entity) (path : List Nat) :
    (ofEntity extended root).locate? path
        = (root.locate path).toOption.map (ofEntity extended)
      ∧ (∀ found, (ofEntity extended root).locate? path = some found → ∀ s : Section,
          s.path = path → s.portion = .text → s.range = none → ∃ fetched,
            s.fetch root = .ok fetched
              ∧ found.summary.octets = fetched.data.length
              ∧ found.summary.lines = fetched.data.count Ascii.lf)
      ∧ (path ≠ [] → ∀ s : Section, s.path = path → s.portion = .entire →
          s.fetch root = { s with portion := .text }.fetch root)
      ∧ ((ofEntity extended root).locate? path = none → ∀ s : Section, s.path = path →
          s.fetch root = .error .noSuchPart) := by
  have hlocate := locate?_ofEntity extended root path
  refine ⟨hlocate, ?_, ?_, ?_⟩
  · rintro found hfound s rfl hportion hrange
    rw [hlocate] at hfound
    cases he : root.locate s.path with
    | error err =>
      rw [he] at hfound
      cases hfound
    | ok e =>
      rw [he] at hfound
      obtain rfl : ofEntity extended e = found := Option.some_inj.mp hfound
      refine ⟨_, Section.fetch_of_locate he, ?_, ?_⟩
      · rw [Section.bytesOf_text hportion hrange, octets_ofEntity]
        rfl
      · rw [Section.bytesOf_text hportion hrange, lines_ofEntity]
        rfl
  · rintro hpath s rfl hportion
    exact Section.fetch_entire_eq_text hpath hportion root
  · rintro hnone s rfl
    rw [hlocate] at hnone
    cases he : root.locate s.path with
    | error err => exact Section.fetch_of_error he
    | ok e =>
      rw [he] at hnone
      cases hnone

/-- A part with two lines. -/
def note : Entity :=
  .ofHeader Header.empty (Utf8.encode "a\nb")

/-- A message with one part. -/
def oneNote : Entity :=
  .withParts Header.empty [] [note]

/-- The structure of a message with one part agrees with its sections at the paths 1 and 2. -/
theorem ofEntity_agrees_one_note :
    (ofEntity true oneNote).locate? [1] = some (ofEntity true note)
      ∧ (∃ fetched, Section.fetch { path := [1], portion := .text } oneNote = .ok fetched
          ∧ (ofEntity true note).summary.octets = fetched.data.length
          ∧ (ofEntity true note).summary.lines = fetched.data.count Ascii.lf)
      ∧ Section.fetch { path := [1] } oneNote
        = Section.fetch { path := [1], portion := .text } oneNote
      ∧ (ofEntity true oneNote).locate? [2] = none
      ∧ Section.fetch { path := [2], portion := .mime } oneNote = .error .noSuchPart := by
  obtain ⟨-, hsizes, hentire, -⟩ := ofEntity_agrees true oneNote [1]
  obtain ⟨-, -, -, hnowhere⟩ := ofEntity_agrees true oneNote [2]
  have hfound : (ofEntity true oneNote).locate? [1] = some (ofEntity true note) := rfl
  have hnone : (ofEntity true oneNote).locate? [2] = none := rfl
  exact ⟨hfound, hsizes _ hfound { path := [1], portion := .text } rfl rfl rfl,
    hentire (List.cons_ne_nil 1 []) { path := [1] } rfl rfl, hnone,
    hnowhere hnone { path := [2], portion := .mime } rfl⟩

end BodyStructure

end ImapMessage
