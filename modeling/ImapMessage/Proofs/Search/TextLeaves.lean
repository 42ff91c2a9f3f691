/-
# The text parts of a message

The text of a message is gathered from its parts, at any depth, and from one budget of raw bytes.
This is the same as reading its text parts one after another, each of them up to what those before it
have left of the budget.  With a budget that is not used up all of them are read to their ends.

Key constructions:
* `Entity.textLeaves`: the text parts of a message, in order.
* `SearchData.readTexts`, `SearchData.gather_eq_readTexts`: one after another.
* `SearchData.contentText_of_lt`: with a budget for all of them.
-/
import ImapMessage.Search.Data

namespace ImapMessage

namespace Entity

mutual

/-- The entities of type text that have no parts, in order. -/
def textLeaves : Entity → List Content
  | .leaf c => if c.contentType.isType "text" then [c] else []
  | .multipart _ parts => textLeavesAll parts

/-- The text parts of some entities, in order. -/
def textLeavesAll : List Entity → List Content
  | [] => []
  | e :: es => textLeaves e ++ textLeavesAll es

end

/-- The number of raw bytes of all text parts. -/
def textSize (e : Entity) : Nat :=
  (e.textLeaves.flatMap fun c => c.body).length

end Entity

namespace SearchData

section

variable [FurtherCharsets]

/-- The texts of some bodies in order, each read up to what is left of a budget, and what is left in
the end.  Once the budget is used up, nothing more is read. -/
def readTexts (budget : Nat) : List Content → List String × Nat
  | [] => ([], budget)
  | c :: cs =>
    if budget = 0 then ([], 0)
    else
      let (texts, left) := readTexts (budget - c.body.length) cs
      (TextBody.textOf c (c.body.take budget) :: texts, left)

theorem readTexts_zero (cs : List Content) : readTexts 0 cs = ([], 0) := by
  cases cs <;> rfl

theorem readTexts_cons {budget : Nat} (h : budget ≠ 0) (c : Content) (cs : List Content) :
    readTexts budget (c :: cs)
      = (TextBody.textOf c (c.body.take budget) :: (readTexts (budget - c.body.length) cs).1,
          (readTexts (budget - c.body.length) cs).2) := by
  rw [readTexts, if_neg h]

/-- What is read of two lists is read of the first and, with what that leaves, of the second. -/
theorem readTexts_append (budget : Nat) (cs cs' : List Content) :
    readTexts budget (cs ++ cs')
      = ((readTexts budget cs).1 ++ (readTexts (readTexts budget cs).2 cs').1,
          (readTexts (readTexts budget cs).2 cs').2) := by
  induction cs generalizing budget with
  | nil => rfl
  | cons c cs ih =>
    by_cases h : budget = 0
    · rw [h, readTexts_zero, readTexts_zero, readTexts_zero]
      rfl
    · rw [List.cons_append, readTexts_cons h, readTexts_cons h, ih, List.cons_append]

theorem gatherAll_cons (budget : Nat) (e : Entity) (es : List Entity) :
    gatherAll budget (e :: es)
      = ((gather budget e).1 ++ (gatherAll (gather budget e).2 es).1,
          (gatherAll (gather budget e).2 es).2) :=
  rfl

/-- A walk through a tree of parts reads its text parts one after another. -/
theorem gather_eq_readTexts (e : Entity) (budget : Nat) :
    gather budget e = readTexts budget e.textLeaves := by
  induction e using Entity.inductionOn generalizing budget with
  | leaf c =>
    rw [gather, Entity.textLeaves, TextBody.decode?]
    by_cases h : budget = 0
    · rw [h, readTexts_zero, if_pos rfl]
    · cases c.contentType.isType "text" with
      | true =>
        rw [if_neg h, if_pos rfl, if_pos rfl, readTexts_cons h]
        rfl
      | false =>
        rw [if_neg h, if_neg Bool.false_ne_true, if_neg Bool.false_ne_true]
        rfl
  | multipart c parts ih =>
    rw [gather, Entity.textLeaves]
    induction parts generalizing budget with
    | nil => rfl
    | cons part parts ihs =>
      rw [gatherAll_cons, Entity.textLeavesAll, readTexts_append, ih part List.mem_cons_self,
        ihs fun p hp => ih p (List.mem_cons_of_mem part hp)]

/-- With a budget that is not used up, every text is read to its end. -/
theorem readTexts_of_lt {budget : Nat} {cs : List Content}
    (h : (cs.flatMap fun c => c.body).length < budget) :
    (readTexts budget cs).1 = cs.map fun c => TextBody.textOf c c.body := by
  induction cs generalizing budget with
  | nil => rfl
  | cons c cs ih =>
    rw [List.flatMap_cons, List.length_append] at h
    have hbody : c.body.take budget = c.body := List.take_of_length_le (by omega)
    rw [readTexts_cons (by omega), hbody, ih (by omega), List.map_cons]

/-- A message whose text parts are not larger than the budget is searched in all of their texts. -/
theorem contentText_of_lt {limit : Nat} {message : Entity} (h : message.textSize < limit) :
    contentText limit message
      = String.join ((message.textLeaves.map fun c => TextBody.textOf c c.body).map
        fun text => text ++ nul) := by
  rw [contentText, gather_eq_readTexts, readTexts_of_lt h]

end

end SearchData

end ImapMessage
