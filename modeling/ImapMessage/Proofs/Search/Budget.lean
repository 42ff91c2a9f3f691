/-
# The budget of a search

A search reads the text parts of a message one after another from one budget of raw bytes.  Every
part takes its length from the budget, or all that is left of it, and with nothing left no part is
read any more.  So the bytes that are read are the first ones of all bodies put together, and a part
that ends within the budget is read to its end.

Key constructions:
* `SearchData.budgets`: what is left of a budget before each part.
* `SearchData.readings`: the parts that are read, and how much of each.
* `SearchData.content_loadMessage`: what a message is searched in.
-/
import ImapMessage.Proofs.Search.TextLeaves
import Mathlib.Data.List.Forall2

namespace ImapMessage

namespace Entity

/-- The text parts of a message are of type text. -/
theorem isType_of_mem_textLeaves {e : Entity} {c : Content} (h : c ∈ e.textLeaves) :
    c.contentType.isType "text" = true := by
  induction e using Entity.inductionOn with
  | leaf c' =>
    rw [textLeaves] at h
    split at h
    · rename_i htext
      rwa [List.mem_singleton.mp h]
    · cases h
  | multipart c' parts ih =>
    rw [textLeaves] at h
    induction parts with
    | nil => cases h
    | cons part parts ihs =>
      rw [textLeavesAll, List.mem_append] at h
      rcases h with h | h
      · exact ih part List.mem_cons_self h
      · exact ihs (fun p hp => ih p (List.mem_cons_of_mem part hp)) h

end Entity

namespace SearchData

/-! ## What is left of a budget -/

/-- What is left of a budget before each of some bodies, and after the last one. -/
def budgets (budget : Nat) (cs : List Content) : List Nat :=
  cs.scanl (fun left c => left - min c.body.length left) budget

/-- The bodies that are read from a budget, each with what is left of it. -/
def readings (budget : Nat) (cs : List Content) : List (Content × Nat) :=
  (cs.zip (budgets budget cs)).filter fun r => 0 < r.2

theorem budgets_cons (budget : Nat) (c : Content) (cs : List Content) :
    budgets budget (c :: cs) = budget :: budgets (budget - c.body.length) cs := by
  have hleft : budget - min c.body.length budget = budget - c.body.length := by omega
  rw [budgets, List.scanl_cons, hleft, budgets]

theorem readings_cons {budget : Nat} (h : budget ≠ 0) (c : Content) (cs : List Content) :
    readings budget (c :: cs) = (c, budget) :: readings (budget - c.body.length) cs := by
  rw [readings, budgets_cons, List.zip_cons_cons,
    List.filter_cons_of_pos (by simpa using Nat.pos_of_ne_zero h), readings]

/-- Nothing is read from an empty budget. -/
theorem readings_zero (cs : List Content) : readings 0 cs = [] := by
  induction cs with
  | nil => rfl
  | cons c cs ih =>
    rw [readings, budgets_cons, Nat.zero_sub, List.zip_cons_cons,
      List.filter_cons_of_neg (by simp)]
    exact ih

/-- The bytes that are read are the first ones of all bodies. -/
theorem flatMap_readings (budget : Nat) (cs : List Content) :
    ((readings budget cs).flatMap fun r => r.1.body.take r.2)
      = (cs.flatMap fun c => c.body).take budget := by
  induction cs generalizing budget with
  | nil => rw [List.flatMap_nil, List.take_nil]; rfl
  | cons c cs ih =>
    by_cases h : budget = 0
    · rw [h, readings_zero, List.take_zero]
      rfl
    · rw [readings_cons h, List.flatMap_cons, List.flatMap_cons, List.take_append, ih]

/-- No more bytes are read than the budget allows. -/
theorem length_readings_le (budget : Nat) (cs : List Content) :
    ((readings budget cs).flatMap fun r => r.1.body.take r.2).length ≤ budget := by
  rw [flatMap_readings]
  exact List.length_take_le budget _

theorem mem_of_mem_readings {budget : Nat} {cs : List Content} {r : Content × Nat}
    (h : r ∈ readings budget cs) : r.1 ∈ cs :=
  (List.of_mem_zip (List.mem_of_mem_filter h)).1

/-! ## What is read -/

section

variable [FurtherCharsets]

/-- One after another, the readings are the texts that are read. -/
theorem readTexts_eq_map_readings (budget : Nat) (cs : List Content) :
    (readTexts budget cs).1
      = (readings budget cs).map fun r => TextBody.textOf r.1 (r.1.body.take r.2) := by
  induction cs generalizing budget with
  | nil => rfl
  | cons c cs ih =>
    by_cases h : budget = 0
    · rw [h, readTexts_zero, readings_zero]
      rfl
    · rw [readTexts_cons h, readings_cons h, List.map_cons, ih]

/-- Reading some texts takes the size of their bodies from the budget, as far as it goes. -/
theorem readTexts_left (budget : Nat) (cs : List Content) :
    (readTexts budget cs).2 = budget - (cs.flatMap fun c => c.body).length := by
  induction cs generalizing budget with
  | nil => rfl
  | cons c cs ih =>
    by_cases h : budget = 0
    · rw [h, readTexts_zero, Nat.zero_sub]
    · rw [readTexts_cons h, ih, List.flatMap_cons, List.length_append, Nat.sub_sub]

/-- A part that begins and ends within the budget is read to its end, like all parts before it. -/
theorem readTexts_within {budget : Nat} {before after : List Content} {c : Content}
    (hbegin : (before.flatMap fun c => c.body).length < budget)
    (hend : ((before ++ [c]).flatMap fun c => c.body).length ≤ budget) :
    ((before ++ [c]).map fun c => TextBody.textOf c c.body)
      <+: (readTexts budget (before ++ c :: after)).1 := by
  rw [List.flatMap_append, List.length_append, List.flatMap_singleton] at hend
  have hleft : (readTexts budget before).2 ≠ 0 := by
    rw [readTexts_left]
    omega
  have hbody : c.body.take (readTexts budget before).2 = c.body := by
    rw [readTexts_left]
    exact List.take_of_length_le (by omega)
  rw [readTexts_append, readTexts_of_lt hbegin, readTexts_cons hleft, hbody, List.map_append,
    List.map_singleton, List.prefix_append_right_inj, List.prefix_cons_iff]
  exact .inr ⟨[], rfl, List.nil_prefix⟩

/-! ## The content of a message -/

/-- **A message is searched in the text parts that a budget reaches.**  Its content is the text of
one part after another, each read up to what is left of the limit, and with a NUL after it.  The bytes
that are read are the first ones of all text parts, and no more than the limit; and a text part that
begins before the limit and ends within it is read to its end, like all text parts before it. -/
theorem content_loadMessage (d : SearchData) (wanted : SearchPart → Bool) (limits : SearchLimits)
    (message : Entity) :
    ∃ texts,
      (d.loadMessage wanted limits message).content
          = (if wanted .content then some (String.join (texts.map fun text => text ++ nul))
            else d.content)
        ∧ List.Forall₂ (fun r text => TextBody.decode? r.2 (.leaf r.1) = some text)
            (readings limits.contentReadLimit message.textLeaves) texts
        ∧ ((readings limits.contentReadLimit message.textLeaves).flatMap fun r => r.1.body.take r.2)
            = (message.textLeaves.flatMap fun c => c.body).take limits.contentReadLimit
        ∧ ((readings limits.contentReadLimit message.textLeaves).flatMap fun r =>
            r.1.body.take r.2).length ≤ limits.contentReadLimit
        ∧ ∀ before c after, message.textLeaves = before ++ c :: after →
            (before.flatMap fun c => c.body).length < limits.contentReadLimit →
            ((before ++ [c]).flatMap fun c => c.body).length ≤ limits.contentReadLimit →
            ((before ++ [c]).map fun c => TextBody.textOf c c.body) <+: texts := by
  refine ⟨(readTexts limits.contentReadLimit message.textLeaves).1, ?_, ?_, flatMap_readings _ _,
    length_readings_le _ _, ?_⟩
  · rw [← gather_eq_readTexts]
    rfl
  · rw [readTexts_eq_map_readings, List.forall₂_map_right_iff, List.forall₂_same]
    intro r hr
    rw [TextBody.decode?, if_pos (Entity.isType_of_mem_textLeaves (mem_of_mem_readings hr))]
  · intro before c after hsplit hbegin hend
    rw [hsplit]
    exact readTexts_within hbegin hend

end

/-- A note in plain text. -/
def note (text : String) : Content :=
  Entity.contentOf .empty (Utf8.encode text)

/-- A message with three notes and a picture, the last two notes in a part of their own. -/
def threeNotes : Entity :=
  .withParts .empty []
    [.leaf (note "first"), .ofHeader ⟨[⟨"Content-Type", Utf8.encode "image/png"⟩]⟩ [0x89, 0x50],
      .withParts .empty [] [.leaf (note "second"), .leaf (note "third")]]

/-- With a budget of seven bytes, the first note is read to its end, the second one is cut, and the
picture costs nothing. -/
theorem content_loadMessage_three_notes :
    threeNotes.textLeaves = [] ++ note "first" :: [note "second", note "third"]
      ∧ (loadMessage {} (fun _ => true) ⟨7⟩ threeNotes).content = some "first\x00se\x00"
      ∧ ∃ texts, String.join (texts.map fun text => text ++ nul) = "first\x00se\x00"
          ∧ ["first"] <+: texts := by
  have hleaves : threeNotes.textLeaves = [] ++ note "first" :: [note "second", note "third"] := by
    decide +kernel
  have hcontent : (loadMessage {} (fun _ => true) ⟨7⟩ threeNotes).content
      = some "first\x00se\x00" := by
    decide +kernel
  have hfirst : TextBody.textOf (note "first") (note "first").body = "first" := by decide +kernel
  obtain ⟨texts, htexts, -, -, -, hfull⟩ := content_loadMessage {} (fun _ => true) ⟨7⟩ threeNotes
  rw [hcontent, if_pos rfl, Option.some_inj] at htexts
  have hprefix := hfull [] (note "first") _ hleaves (by decide +kernel) (by decide +kernel)
  rw [List.nil_append, List.map_singleton, hfirst] at hprefix
  exact ⟨hleaves, hcontent, texts, htexts.symm, hprefix⟩

end SearchData

end ImapMessage
