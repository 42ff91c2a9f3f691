/-
# Where a written mailbox name goes wrong

A text that is refused consists of the written form of some name and an element that is wrong: a
character that is not direct, or a shift sequence.  The error says what is wrong with the element and
where, and shows the name before it.  If a character in the middle of a shift sequence is wrong, the
characters of the sequence before it are shown as well.

Key constructions:
* `MailboxName.BeginsWrong`: what is wrong with the element that a text begins with.
* `MailboxName.GoesWrong`: a written name, and what is wrong after it.
* `MailboxName.decodeFrom_of_beginsWrong`, `MailboxName.goesWrong_of_decodeFrom`: the two
  directions.
* `MailboxName.decode_eq_error_iff`: what an error reports.
-/
import ImapMessage.Proofs.MailboxName.Canonical

namespace ImapMessage

namespace MailboxName

/-! ## Characters that cannot stand in a shift sequence -/

/-- What is wrong with an item of a shift sequence. -/
inductive WrongItem : Option Char → Fault → Prop where
  | unpaired : WrongItem none .unpairedSurrogate
  | redundant {c : Char} (hc : isDirect c = true) : WrongItem (some c) .redundantShift

/-- A wrong item is refused. -/
theorem WrongItem.pushShifted {item : Option Char} {fault : Fault} (h : WrongItem item fault)
    (done : List Char) (items : List (Option Char)) :
    pushShifted done (item :: items) = .error (fault, done) := by
  cases h with
  | unpaired => rfl
  | redundant hc => exact if_pos hc

/-- Items are refused at the first one that is wrong. -/
theorem exists_of_pushShifted_error {done done' : List Char} {items : List (Option Char)}
    {fault : Fault} (h : pushShifted done items = .error (fault, done')) :
    ∃ (run : List Char) (item : Option Char) (rest : List (Option Char)),
      items = run.map some ++ item :: rest ∧ (∀ c ∈ run, isDirect c = false)
        ∧ WrongItem item fault ∧ done' = run.reverse ++ done := by
  induction items generalizing done with
  | nil => cases h
  | cons item items ih =>
    cases item with
    | none =>
      cases h
      exact ⟨[], none, items, rfl, by simp, .unpaired, rfl⟩
    | some c =>
      rw [pushShifted] at h
      split at h
      · rename_i hc
        cases h
        exact ⟨[], some c, items, rfl, by simp, .redundant hc, rfl⟩
      · rename_i hc
        obtain ⟨run, item, rest, rfl, hrun, hitem, rfl⟩ := ih h
        refine ⟨c :: run, item, rest, rfl, ?_, hitem, by simp⟩
        exact List.forall_mem_cons.mpr ⟨Bool.eq_false_iff.mpr hc, hrun⟩

/-! ## Elements that are wrong -/

/-- What is wrong with the element that a text begins with, how many characters into the text this
is noticed, and which characters of a shift sequence stand before the one that is wrong.  A shift
sequence ends right before the text if `afterShift` says so. -/
inductive BeginsWrong (afterShift : Bool) : List Char → Fault → Nat → List Char → Prop where
  /-- A character that is not written directly. -/
  | direct {c : Char} {rest : List Char} (hc : isDirect c = false) :
      BeginsWrong afterShift (c :: rest) .illegalCharacter 0 []
  /-- A shift sequence right after another one. -/
  | adjacent {rest : List Char} (hafter : afterShift = true)
      (hescape : ∀ rest', rest ≠ '-' :: rest') :
      BeginsWrong afterShift ('&' :: rest) .nullShift 0 []
  /-- A shift sequence that does not end. -/
  | unterminated {digits : List Char} (hafter : afterShift = false)
      (hdigits : ∀ c ∈ digits, isShiftDigit c = true) :
      BeginsWrong afterShift ('&' :: digits) .unterminatedShift 0 []
  /-- A character in a shift sequence that is neither a digit nor the closing hyphen. -/
  | strange {digits rest : List Char} {c : Char} (hafter : afterShift = false)
      (hdigits : ∀ c ∈ digits, isShiftDigit c = true) (hc : isShiftDigit c = false)
      (hclose : c ≠ '-') :
      BeginsWrong afterShift ('&' :: (digits ++ c :: rest)) (faultAfterDigits c)
        (1 + digits.length) []
  /-- Digits that do not make up code units. -/
  | unreadable {digits rest : List Char} {fault : Fault} (hafter : afterShift = false)
      (hdigits : ∀ c ∈ digits, isShiftDigit c = true) (hne : digits ≠ [])
      (hread : readDigits digits = .error fault) :
      BeginsWrong afterShift ('&' :: (digits ++ '-' :: rest)) fault 1 []
  /-- Code units of which one is unpaired or stands for a character that is written directly. -/
  | item {digits rest run : List Char} {item : Option Char} {items : List (Option Char)}
      {fault : Fault} (hafter : afterShift = false)
      (hdigits : ∀ c ∈ digits, isShiftDigit c = true) (hne : digits ≠ [])
      (hread : readDigits digits = .ok (run.map some ++ item :: items))
      (hrun : ∀ c ∈ run, isDirect c = false) (hitem : WrongItem item fault) :
      BeginsWrong afterShift ('&' :: (digits ++ '-' :: rest)) fault 1 run

section

variable {afterShift : Bool} {text : List Char} {fault : Fault} {distance : Nat}
  {run : List Char}

/-- Characters of a shift sequence are shown only if another one is wrong. -/
theorem BeginsWrong.eq_nil_or (h : BeginsWrong afterShift text fault distance run) :
    run = [] ∨ fault = .unpairedSurrogate ∨ fault = .redundantShift := by
  cases h with
  | direct | adjacent | unterminated | strange | unreadable => exact .inl rfl
  | item _ _ _ _ _ hitem =>
    cases hitem with
    | unpaired => exact .inr (.inl rfl)
    | redundant => exact .inr (.inr rfl)

/-- A text that begins with an element that is wrong is refused. -/
theorem decodeFrom_of_beginsWrong (h : BeginsWrong afterShift text fault distance run)
    (done : List Char) (offset : Nat) :
    decodeFrom done offset afterShift text
      = failure fault (offset + distance) (run.reverse ++ done) := by
  cases h with
  | @direct c rest hc =>
    have hamp : c ≠ '&' := by
      rintro rfl
      cases hc
    rw [decodeFrom, if_neg (Bool.eq_false_iff.mp hc)]
    · rfl
    · intro rest' hc'
      exact absurd hc' hamp
    · exact hamp
  | adjacent hafter hescape =>
    rw [decodeFrom, if_pos hafter]
    · rfl
    · exact hescape
  | unterminated hafter hdigits =>
    rw [hafter, decodeFrom, if_neg Bool.false_ne_true]
    · split
      · rfl
      · rename_i c after hsome
        rw [List.dropWhile_eq_nil_iff.mpr hdigits] at hsome
        cases hsome
    · intro rest' h
      have hhyphen := hdigits '-' (h ▸ List.mem_cons_self)
      exact absurd hhyphen (by decide)
  | strange hafter hdigits hc hclose =>
    rw [hafter, decodeFrom_digits done _ offset hdigits hc (fun h => absurd h hclose),
      if_neg hclose, Nat.add_assoc]
    rfl
  | unreadable hafter hdigits hne hread =>
    rw [hafter, decodeFrom_digits done _ offset hdigits (by decide) (fun _ => hne), if_pos rfl,
      hread]
    rfl
  | item hafter hdigits hne hread hrun hitem =>
    rw [hafter, decodeFrom_digits done _ offset hdigits (by decide) (fun _ => hne), if_pos rfl,
      hread]
    simp only [pushShifted_append done hrun, hitem.pushShifted]

end

/-! ## Texts that go wrong -/

/-- A text goes wrong where an error says: after the written form of some characters it begins with
an element that is wrong, and the error shows these characters and those of the element, after the
text `done` (latest first). -/
def GoesWrong (done : List Char) (offset : Nat) (afterShift : Bool) (written : List Char)
    (e : DecodeError) : Prop :=
  ∃ cs text fault distance run, written = encodeChars cs ++ text
    ∧ (afterShift = true → StartsDirect cs)
    ∧ BeginsWrong (endsShifted afterShift cs) text fault distance run
    ∧ e = ⟨fault, offset + (encodeChars cs).length + distance,
        String.ofList (done.reverse ++ cs ++ run)⟩

section

variable {done written : List Char} {offset : Nat} {afterShift : Bool} {e : DecodeError}

/-- The first element is wrong. -/
theorem BeginsWrong.goesWrong {fault : Fault} {distance : Nat} {run : List Char}
    (h : BeginsWrong afterShift written fault distance run) (done : List Char) (offset : Nat) :
    GoesWrong done offset afterShift written
      ⟨fault, offset + distance, String.ofList (done.reverse ++ run)⟩ :=
  ⟨[], written, fault, distance, run, rfl, fun _ => by simp [StartsDirect], h, by simp⟩

/-- An element after a direct character is wrong. -/
theorem GoesWrong.direct {c : Char} (hc : isDirect c = true)
    (h : GoesWrong (c :: done) (offset + (escape c).length) false written e) :
    GoesWrong done offset afterShift (escape c ++ written) e := by
  obtain ⟨cs, text, fault, distance, run, rfl, -, hwrong, rfl⟩ := h
  refine ⟨c :: cs, text, fault, distance, run, ?_, fun _ => ?_, ?_, ?_⟩
  · rw [encodeChars_cons_of_direct cs hc, List.append_assoc]
  · intro x hx
    cases hx
    exact hc
  · rwa [endsShifted_cons hc]
  · rw [encodeChars_cons_of_direct cs hc, List.length_append, Nat.add_assoc offset]
    simp

/-- An element after a shift sequence is wrong. -/
theorem GoesWrong.shifted {run : List Char} (hrun : run ≠ [])
    (hshift : ∀ c ∈ run, isDirect c = false)
    (h : GoesWrong (run.reverse ++ done) (offset + (shift run).length) true written e) :
    GoesWrong done offset false (shift run ++ written) e := by
  obtain ⟨cs, text, fault, distance, run', rfl, hnext, hwrong, rfl⟩ := h
  refine ⟨run ++ cs, text, fault, distance, run', ?_, fun h => absurd h Bool.false_ne_true, ?_, ?_⟩
  · rw [encodeChars_append_of_shifted hrun hshift (hnext rfl), List.append_assoc]
  · rwa [endsShifted_append hrun hshift]
  · rw [encodeChars_append_of_shifted hrun hshift (hnext rfl), List.length_append,
      Nat.add_assoc offset]
    simp

/-- A text that is refused goes wrong where the error says. -/
theorem goesWrong_of_decodeFrom (h : decodeFrom done offset afterShift written = .error e) :
    GoesWrong done offset afterShift written e := by
  fun_induction decodeFrom done offset afterShift written with
  | case1 => cases h
  | case2 done offset afterShift rest ih => exact (ih h).direct (by decide)
  | case3 done offset rest hescape =>
    cases h
    simpa using (BeginsWrong.adjacent rfl hescape).goesWrong done offset
  | case4 done offset afterShift rest _ hafter hdrop =>
    cases h
    have hdigits := List.dropWhile_eq_nil_iff.mp hdrop
    simpa using
      (BeginsWrong.unterminated (Bool.eq_false_iff.mpr hafter) hdigits).goesWrong done offset
  | case5 done offset afterShift rest hescape hafter after digits fault hread hdrop =>
    cases h
    obtain ⟨hrest, hdigits, -⟩ := eq_digits_append hdrop
    have hne : digits ≠ [] := digits_ne_nil hescape hdrop
    rw [hrest]
    simpa using (BeginsWrong.unreadable (Bool.eq_false_iff.mpr hafter) hdigits hne hread).goesWrong
      done offset
  | case6 done offset afterShift rest hescape hafter after digits items hread fault done' hpush
      hdrop =>
    cases h
    obtain ⟨hrest, hdigits, -⟩ := eq_digits_append hdrop
    have hne : digits ≠ [] := digits_ne_nil hescape hdrop
    obtain ⟨run, item, items, rfl, hrun, hitem, rfl⟩ := exists_of_pushShifted_error hpush
    rw [hrest]
    simpa using (BeginsWrong.item (Bool.eq_false_iff.mpr hafter) hdigits hne hread hrun
      hitem).goesWrong done offset
  | case7 done offset afterShift rest hescape hafter after digits items hread done' hpush hdrop
      ih =>
    obtain ⟨hrest, hdigits, -⟩ := eq_digits_append hdrop
    -- The shift sequence is read, so it is the one that is written for its characters.
    obtain ⟨run, rfl, hshift, rfl⟩ := exists_of_pushShifted hpush
    have hread : digits = shiftDigits run := eq_shiftDigits_of_readDigits hdigits hread
    have hrun : run ≠ [] := by
      rintro rfl
      exact digits_ne_nil hescape hdrop hread
    have hshape : '&' :: rest = shift run ++ after := by
      rw [hrest, shift, ← hread]
      simp [digits]
    have hlength : offset + digits.length + 2 = offset + (shift run).length := by
      simp [shift, hread]
      omega
    rw [hlength] at ih h
    rw [hshape, Bool.eq_false_iff.mpr hafter]
    exact GoesWrong.shifted hrun hshift (ih h)
  | case8 done offset afterShift rest _ hafter c after hdrop digits hclose =>
    cases h
    obtain ⟨hrest, hdigits, hc⟩ := eq_digits_append hdrop
    rw [hrest]
    simpa [Nat.add_assoc] using (BeginsWrong.strange (Bool.eq_false_iff.mpr hafter) hdigits hc
      hclose).goesWrong done offset
  | case9 done offset afterShift c rest _ hamp hc ih =>
    have hescape : escape c = [c] := if_neg hamp
    have hrest := ih h
    rw [← List.singleton_append, ← hescape]
    exact GoesWrong.direct hc (by rwa [hescape])
  | case10 done offset afterShift c rest _ _ hc =>
    cases h
    simpa using (BeginsWrong.direct (Bool.eq_false_iff.mpr hc)).goesWrong done offset

end

/-- **What an error reports.**  A text is refused with an error if and only if it consists of a text
that is read as a name and of an element that is wrong, the error says what is wrong with the element
and where, and shows the name and the characters of the element before the one that is wrong.  There
are none, so that what is shown is what the text before the element is read as, unless a character
of a shift sequence is unpaired or stands in it without need. -/
theorem decode_eq_error_iff (written : String) (e : DecodeError) :
    decode written = .error e ↔ ∃ (before after name : String) (distance : Nat) (run : List Char),
      written = before ++ after ∧ (∀ c ∈ before.toList, isDirect c = true)
        ∧ decode before = .ok name
        ∧ BeginsWrong (endsShifted false name.toList) after.toList e.fault distance run
        ∧ e.offset = before.length + distance ∧ e.decoded = name ++ String.ofList run
        ∧ (run = [] ∨ e.fault = .unpairedSurrogate ∨ e.fault = .redundantShift)
        ∧ (decode before = .ok e.decoded ↔ run = []) := by
  constructor
  · intro h
    obtain ⟨cs, text, fault, distance, run, hwritten, -, hwrong, rfl⟩ := goesWrong_of_decodeFrom h
    have hbefore : (encode (String.ofList cs)).toList = encodeChars cs := by
      rw [toList_encode, String.toList_ofList]
    refine ⟨encode (String.ofList cs), String.ofList text, String.ofList cs, distance, run, ?_, ?_,
      decode_encode _, ?_, ?_, ?_, hwrong.eq_nil_or, ?_⟩
    · rw [← String.toList_inj, hwritten, String.toList_append, hbefore, String.toList_ofList]
    · rw [hbefore]
      exact isDirect_of_mem_encodeChars cs
    · rwa [String.toList_ofList, String.toList_ofList]
    · rw [← String.length_toList, hbefore, Nat.zero_add]
    · simp
    · rw [decode_encode, Except.ok.injEq, ← String.toList_inj]
      simp
  · rintro ⟨before, after, name, distance, run, rfl, -, hbefore, hwrong, hoffset, hdecoded, -, -⟩
    have hwritten : before.toList = encodeChars name.toList := by
      rw [eq_encode_of_decode hbefore, toList_encode]
    rw [decode, String.toList_append, hwritten,
      decodeFrom_append_encodeChars _ _ _ _ _ (fun h => absurd h Bool.false_ne_true),
      decodeFrom_of_beginsWrong hwrong, failure]
    obtain ⟨fault, offset, decoded⟩ := e
    dsimp only at hoffset hdecoded
    rw [hoffset, hdecoded, ← String.length_toList, hwritten]
    simp

/-- A letter after another character in a shift sequence is wrong; the character before it is shown,
although the sequence begins at the start of the text, which is read as the empty name. -/
theorem not_prefix_redundant :
    decode "&JjoAYQ-" = .error ⟨.redundantShift, 1, "☺"⟩
      ∧ ∀ k ≤ 1, decode (String.ofList ("&JjoAYQ-".toList.take k)) ≠ .ok "☺" := by
  have hnone : decode "" = .ok "" := by decide +kernel
  have hopen : decode "&" = .error ⟨.unterminatedShift, 0, ""⟩ := by decide +kernel
  refine ⟨by decide +kernel, fun k hk => ?_⟩
  obtain rfl | rfl : k = 0 ∨ k = 1 := by omega
  · rw [List.take_zero, String.ofList_nil, hnone]
    decide
  · have htake : String.ofList ("&JjoAYQ-".toList.take 1) = "&" := by decide
    rw [htake, hopen]
    decide

end MailboxName

end ImapMessage
