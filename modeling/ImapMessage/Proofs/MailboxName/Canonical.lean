/-
# Written mailbox names are canonical

Every name has one written form, and reading accepts nothing else: what is read as a name is
what writing the name produces.

Key constructions:
* `MailboxName.encodeChars`: the written form as characters, with one equation for each piece.
* `MailboxName.pieceInduction`: induction on a name, one run of characters after another.
* `MailboxName.StartsDirect`: texts before which a shift sequence may end.
* `MailboxName.endsShifted`, `MailboxName.decodeFrom_append_encodeChars`: reading a written form that
  more text follows.
* `MailboxName.decode_encode`, `MailboxName.eq_encode_of_decode`: the two directions.
-/
import ImapMessage.MailboxName
import ImapMessage.Proofs.Text.Ascii
import ImapMessage.Proofs.Text.Base64Canonical
import ImapMessage.Proofs.Text.Utf16Canonical
import Mathlib.Data.List.SplitBy
import Mathlib.Data.List.TakeWhile

namespace ImapMessage

namespace MailboxName

/-! ## Writing piece by piece -/

/-- The written form of some characters. -/
def encodeChars (cs : List Char) : List Char :=
  (runs cs).flatMap encodeRun

theorem toList_encode (name : String) : (encode name).toList = encodeChars name.toList := by
  rw [encode, String.toList_ofList, encodeChars]

/-- Texts that are empty or begin with a direct character. -/
def StartsDirect (cs : List Char) : Prop :=
  ∀ c ∈ cs.head?, isDirect c = true

@[simp] theorem encodeChars_nil : encodeChars [] = [] := rfl

/-- A run that is all direct or all not, before a text that begins differently, is written by
itself. -/
theorem encodeChars_append_of_forall {run rest : List Char} {b : Bool} (hrun : run ≠ [])
    (hb : ∀ c ∈ run, isDirect c = b) (hrest : ∀ c ∈ rest.head?, isDirect c = !b) :
    encodeChars (run ++ rest) = encodeRun run ++ encodeChars rest := by
  have hchain : run.IsChain fun x y => isDirect x == isDirect y := by
    refine List.Pairwise.isChain ((List.pairwise_iff_forall_sublist).mpr ?_)
    intro x y hxy
    have hx : x ∈ run := hxy.subset (by simp)
    have hy : y ∈ run := hxy.subset (by simp)
    rw [hb x hx, hb y hy, beq_self_eq_true]
  have hsplit : runs (run ++ rest) = [run] ++ runs rest := by
    rw [runs, List.splitBy_append, List.splitBy_of_isChain hrun hchain, ← runs]
    intro x hx y hy
    rw [hb x (List.mem_of_mem_getLast? hx), hrest y hy]
    cases b <;> rfl
  rw [encodeChars, hsplit, List.flatMap_append, List.flatMap_singleton, ← encodeChars]

/-- What stops a run does not belong to it. -/
theorem eq_false_of_mem_head?_dropWhile (p : Char → Bool) (cs : List Char) :
    ∀ c ∈ (cs.dropWhile p).head?, p c = false := by
  intro c hc
  have h := List.head?_dropWhile_not p cs
  rw [Option.mem_def.mp hc] at h
  exact h

/-- Direct characters before one that is not, or before nothing, are written one by one. -/
theorem encodeChars_append_of_head {run rest : List Char} (hrun : ∀ c ∈ run, isDirect c = true)
    (hrest : ∀ c ∈ rest.head?, isDirect c = false) :
    encodeChars (run ++ rest) = run.flatMap escape ++ encodeChars rest := by
  by_cases hnil : run = []
  · subst hnil
    rfl
  · rw [encodeChars_append_of_forall hnil hrun hrest, encodeRun,
      if_pos (List.all_eq_true.mpr hrun)]

/-- Direct characters are written one by one, whatever follows. -/
theorem encodeChars_append_of_direct {run : List Char} (rest : List Char)
    (hrun : ∀ c ∈ run, isDirect c = true) :
    encodeChars (run ++ rest) = run.flatMap escape ++ encodeChars rest := by
  have hfirst : ∀ c ∈ rest.takeWhile isDirect, isDirect c = true :=
    fun _ hc => List.mem_takeWhile_imp hc
  have hnext : ∀ c ∈ (rest.dropWhile isDirect).head?, isDirect c = false :=
    eq_false_of_mem_head?_dropWhile isDirect rest
  have hrest := encodeChars_append_of_head hfirst hnext
  rw [List.takeWhile_append_dropWhile] at hrest
  -- `run` and the direct characters after it are one run.
  have hboth : ∀ c ∈ run ++ rest.takeWhile isDirect, isDirect c = true := by
    intro c hc
    rcases List.mem_append.mp hc with hc | hc
    · exact hrun c hc
    · exact hfirst c hc
  have hall := encodeChars_append_of_head hboth hnext
  rw [List.append_assoc, List.takeWhile_append_dropWhile] at hall
  rw [hall, hrest, List.flatMap_append, List.append_assoc]

/-- A direct character is written by itself. -/
theorem encodeChars_cons_of_direct {c : Char} (rest : List Char) (hc : isDirect c = true) :
    encodeChars (c :: rest) = escape c ++ encodeChars rest := by
  have hrun : ∀ x ∈ [c], isDirect x = true := by
    intro x hx
    rw [List.mem_singleton.mp hx]
    exact hc
  have h := encodeChars_append_of_direct rest hrun
  rwa [List.singleton_append, List.flatMap_singleton] at h

/-- A run of characters that are not direct is one shift sequence, if it ends where a direct
character follows. -/
theorem encodeChars_append_of_shifted {run rest : List Char} (hrun : run ≠ [])
    (hshift : ∀ c ∈ run, isDirect c = false) (hrest : StartsDirect rest) :
    encodeChars (run ++ rest) = shift run ++ encodeChars rest := by
  have hnot : ¬ run.all isDirect = true := by
    intro hall
    obtain ⟨c, hc⟩ := List.exists_mem_of_ne_nil run hrun
    have hdirect := List.all_eq_true.mp hall c hc
    rw [hshift c hc] at hdirect
    cases hdirect
  rw [encodeChars_append_of_forall hrun hshift hrest, encodeRun, if_neg hnot]

/-- A text that begins with a character that is not direct is a run of such characters and a shorter
rest before which a shift sequence may end. -/
theorem exists_run_append {c : Char} (rest : List Char) (hc : isDirect c = false) :
    ∃ run rest', c :: rest = run ++ rest' ∧ run ≠ [] ∧ (∀ x ∈ run, isDirect x = false)
      ∧ StartsDirect rest' ∧ rest'.length ≤ rest.length := by
  refine ⟨c :: rest.takeWhile fun x => !isDirect x, rest.dropWhile fun x => !isDirect x, ?_,
    List.cons_ne_nil _ _, ?_, ?_, (List.dropWhile_suffix _).length_le⟩
  · rw [List.cons_append, List.takeWhile_append_dropWhile]
  · intro x hx
    rcases List.mem_cons.mp hx with rfl | hx
    · exact hc
    · simpa using List.mem_takeWhile_imp hx
  · intro x hx
    simpa using eq_false_of_mem_head?_dropWhile _ _ x hx

/-- Names are built from their end, by a direct character or by a run of other characters before
which nothing stands that would belong to the run. -/
@[elab_as_elim]
theorem pieceInduction {motive : List Char → Prop} (cs : List Char) (nil : motive [])
    (direct : ∀ c rest, isDirect c = true → motive rest → motive (c :: rest))
    (shifted : ∀ run rest, run ≠ [] → (∀ c ∈ run, isDirect c = false) → StartsDirect rest →
      motive rest → motive (run ++ rest)) : motive cs := by
  induction hn : cs.length using Nat.strongRecOn generalizing cs with
  | ind n ih =>
    cases cs with
    | nil => exact nil
    | cons c rest =>
      rw [List.length_cons] at hn
      by_cases hc : isDirect c = true
      · exact direct c rest hc (ih rest.length (by omega) rest rfl)
      · obtain ⟨run, rest', hsplit, hrun, hshift, hnext, hlength⟩ :=
          exists_run_append rest (Bool.eq_false_iff.mpr hc)
        rw [hsplit]
        exact shifted run rest' hrun hshift hnext (ih rest'.length (by omega) rest' rfl)

/-- Two texts are written one after the other if the second begins where a shift sequence may end. -/
theorem encodeChars_append {rest : List Char} (hrest : StartsDirect rest) (cs : List Char) :
    encodeChars (cs ++ rest) = encodeChars cs ++ encodeChars rest := by
  induction cs using pieceInduction with
  | nil => rfl
  | direct c cs hc ih =>
    rw [List.cons_append, encodeChars_cons_of_direct _ hc, encodeChars_cons_of_direct _ hc, ih,
      List.append_assoc]
  | shifted run cs hrun hshift hnext ih =>
    have hboth : StartsDirect (cs ++ rest) := by
      cases cs with
      | nil => exact hrest
      | cons c cs => exact hnext
    rw [List.append_assoc, encodeChars_append_of_shifted hrun hshift hboth,
      encodeChars_append_of_shifted hrun hshift hnext, ih, List.append_assoc]

/-! ## The digits of a shift sequence -/

/-- The digits of a shift sequence are digits of mailbox names. -/
theorem isShiftDigit_of_mem_shiftDigits (run : List Char) :
    ∀ c ∈ shiftDigits run, isShiftDigit c = true := by
  have hdigit : ∀ n < 64, isShiftDigit (Char.ofNat (Base64.mailbox.digit n).toNat) = true := by
    decide
  intro c hc
  obtain ⟨b, hb, rfl⟩ := List.mem_map.mp hc
  obtain ⟨n, hn, rfl⟩ := List.mem_map.mp hb
  exact hdigit n (Base64.lt_of_mem_sextets _ n hn)

/-- Digits of mailbox names are printable ASCII. -/
theorem toNat_of_isShiftDigit {c : Char} (h : isShiftDigit c = true) :
    32 ≤ c.toNat ∧ c.toNat < 127 := by
  unfold isShiftDigit at h
  rw [Bool.or_eq_true, Bool.or_eq_true, beq_iff_eq, beq_iff_eq] at h
  rcases h with (h | rfl) | rfl
  · rw [Ascii.isAlphanum_iff] at h
    omega
  · decide
  · decide

/-- Digits of mailbox names are direct characters. -/
theorem isDirect_of_isShiftDigit {c : Char} (h : isShiftDigit c = true) : isDirect c = true := by
  have hc := toNat_of_isShiftDigit h
  rw [isDirect, Bool.and_eq_true, decide_eq_true_eq, decide_eq_true_eq]
  exact hc

/-- The character of the byte of a digit. -/
theorem ofNat_toUInt8_of_isShiftDigit {c : Char} (h : isShiftDigit c = true) :
    Char.ofNat c.toUInt8.toNat = c := by
  have hc := (toNat_of_isShiftDigit h).2
  have hbyte : c.toUInt8.toNat = c.toNat := by
    show c.toNat % 2 ^ 8 = c.toNat
    omega
  rw [hbyte, Char.ofNat_toNat]

/-- No digit of mailbox names is padding. -/
theorem pad_not_mem_of_isShiftDigit {digits : List Char}
    (hdigits : ∀ c ∈ digits, isShiftDigit c = true) :
    Base64.pad ∉ digits.map Char.toUInt8 := by
  intro h
  obtain ⟨c, hc, hpad⟩ := List.mem_map.mp h
  have hchar := ofNat_toUInt8_of_isShiftDigit (hdigits c hc)
  have hdigit := hdigits c hc
  rw [hpad] at hchar
  rw [← hchar] at hdigit
  revert hdigit
  decide

/-- The digits of a run are read as the run. -/
theorem readDigits_shiftDigits (run : List Char) :
    readDigits (shiftDigits run) = .ok (run.map some) := by
  have hbytes : (shiftDigits run).map Char.toUInt8
      = Base64.encode Base64.mailbox (Utf16.bigEndian (Utf16.units run)) := by
    rw [shiftDigits, List.map_map]
    exact List.map_id'' Ascii.toUInt8_ofNat_toNat _
  rw [readDigits, hbytes, Base64.decode_encode Base64.mailbox_isProper]
  simp only [Utf16.ofBigEndian_bigEndian, Utf16.scan_units]

/-- Digits that are read as a run are the digits of the run. -/
theorem eq_shiftDigits_of_readDigits {digits run : List Char}
    (hdigits : ∀ c ∈ digits, isShiftDigit c = true)
    (h : readDigits digits = .ok (run.map some)) : digits = shiftDigits run := by
  unfold readDigits at h
  split at h
  · cases h
  · rename_i bytes hbytes
    split at h
    · cases h
    · rename_i units hunits
      have hscan : Utf16.scan units = run.map some := by injection h
      have hback : (digits.map Char.toUInt8).map (fun b => Char.ofNat b.toNat) = digits := by
        rw [List.map_map]
        refine (List.map_congr_left ?_).trans (List.map_id digits)
        intro c hc
        exact ofNat_toUInt8_of_isShiftDigit (hdigits c hc)
      rw [shiftDigits, ← Utf16.eq_units_of_scan hscan,
        ← Utf16.eq_bigEndian_of_ofBigEndian hunits,
        ← Base64.eq_encode_of_decode (pad_not_mem_of_isShiftDigit hdigits) hbytes, hback]

/-- Characters that are not direct may stand in a shift sequence, whatever follows. -/
theorem pushShifted_append (done : List Char) {run : List Char}
    (hrun : ∀ c ∈ run, isDirect c = false) (items : List (Option Char)) :
    pushShifted done (run.map some ++ items) = pushShifted (run.reverse ++ done) items := by
  induction run generalizing done with
  | nil => rfl
  | cons c run ih =>
    have hc : ¬ isDirect c = true := Bool.eq_false_iff.mp (hrun c List.mem_cons_self)
    rw [List.map_cons, List.cons_append, pushShifted, if_neg hc,
      ih (c :: done) fun x hx => hrun x (List.mem_cons_of_mem c hx)]
    simp

theorem pushShifted_map_some (done : List Char) {run : List Char}
    (hrun : ∀ c ∈ run, isDirect c = false) :
    pushShifted done (run.map some) = .ok (run.reverse ++ done) := by
  have h := pushShifted_append done hrun []
  rwa [List.append_nil] at h

/-- Nothing else may stand in a shift sequence. -/
theorem exists_of_pushShifted {done done' : List Char} {items : List (Option Char)}
    (h : pushShifted done items = .ok done') :
    ∃ run : List Char, items = run.map some ∧ (∀ c ∈ run, isDirect c = false)
      ∧ done' = run.reverse ++ done := by
  induction items generalizing done with
  | nil =>
    cases h
    exact ⟨[], rfl, by simp, rfl⟩
  | cons item items ih =>
    cases item with
    | none => cases h
    | some c =>
      rw [pushShifted] at h
      split at h
      · cases h
      · rename_i hc
        obtain ⟨run, rfl, hrun, rfl⟩ := ih h
        refine ⟨c :: run, rfl, ?_, by simp⟩
        intro x hx
        rcases List.mem_cons.mp hx with rfl | hx
        · exact Bool.eq_false_iff.mpr hc
        · exact hrun x hx

/-- A run that is not empty has digits. -/
theorem shiftDigits_ne_nil {run : List Char} (hrun : run ≠ []) : shiftDigits run ≠ [] := by
  intro hnil
  -- Without digits the run would be read as the empty run.
  have hread := readDigits_shiftDigits run
  have hempty : readDigits [] = .ok [] := readDigits_shiftDigits []
  rw [hnil, hempty] at hread
  injection hread with hitems
  exact hrun (List.map_eq_nil_iff.mp hitems.symm)

/-! ## Reading piece by piece -/

/-- An escaped ampersand is read as an ampersand. -/
theorem decodeFrom_escape (done rest : List Char) (offset : Nat) (afterShift : Bool) :
    decodeFrom done offset afterShift ('&' :: '-' :: rest)
      = decodeFrom ('&' :: done) (offset + 2) false rest := by
  rw [decodeFrom]

/-- Any other direct character is read as itself. -/
theorem decodeFrom_direct {c : Char} (done rest : List Char) (offset : Nat) (afterShift : Bool)
    (hc : isDirect c = true) (hne : c ≠ '&') :
    decodeFrom done offset afterShift (c :: rest)
      = decodeFrom (c :: done) (offset + 1) false rest := by
  rw [decodeFrom, if_pos hc]
  · intro rest' h
    exact absurd h hne
  · exact hne

/-- The written form of a direct character is read as the character. -/
theorem decodeFrom_append_escape {c : Char} (done rest : List Char) (offset : Nat)
    (afterShift : Bool) (hc : isDirect c = true) :
    decodeFrom done offset afterShift (escape c ++ rest)
      = decodeFrom (c :: done) (offset + (escape c).length) false rest := by
  by_cases hamp : c = '&'
  · subst hamp
    exact decodeFrom_escape done rest offset afterShift
  · rw [escape, if_neg hamp]
    exact decodeFrom_direct done rest offset afterShift hc hamp

/-- Digits after an ampersand, and the character that ends them, unless they are an escaped
ampersand or a shift sequence ends right before them. -/
theorem decodeFrom_digits {digits : List Char} {c : Char} (done rest : List Char) (offset : Nat)
    (hdigits : ∀ c ∈ digits, isShiftDigit c = true) (hc : isShiftDigit c = false)
    (hescape : c = '-' → digits ≠ []) :
    decodeFrom done offset false ('&' :: (digits ++ c :: rest))
      = if c = '-' then
          match readDigits digits with
          | .error fault => failure fault (offset + 1) done
          | .ok items =>
            match pushShifted done items with
            | .error (fault, done') => failure fault (offset + 1) done'
            | .ok done' => decodeFrom done' (offset + digits.length + 2) true rest
        else failure (faultAfterDigits c) (offset + 1 + digits.length) done := by
  have hstop : ¬ isShiftDigit c = true := Bool.eq_false_iff.mp hc
  have htake : (digits ++ c :: rest).takeWhile isShiftDigit = digits := by
    rw [List.takeWhile_append_of_pos hdigits, List.takeWhile_cons_of_neg hstop, List.append_nil]
  have hdrop : (digits ++ c :: rest).dropWhile isShiftDigit = c :: rest := by
    rw [List.dropWhile_append_of_pos hdigits, List.dropWhile_cons_of_neg hstop]
  rw [decodeFrom, if_neg Bool.false_ne_true]
  · simp only [htake]
    split
    · rename_i hnone
      rw [hdrop] at hnone
      cases hnone
    · rename_i c after hsome
      rw [hdrop] at hsome
      cases hsome
      rfl
  · intro rest' h
    cases digits with
    | nil =>
      injection h with hhyphen
      exact hescape hhyphen rfl
    | cons d ds =>
      injection h with hhyphen
      have hd := hdigits d List.mem_cons_self
      rw [hhyphen] at hd
      exact absurd hd (by decide)

/-- The written form of a run that is not direct is read as the run, unless a shift sequence
ends right before it. -/
theorem decodeFrom_append_shift {run : List Char} (done rest : List Char) (offset : Nat)
    (hrun : run ≠ []) (hshift : ∀ c ∈ run, isDirect c = false) :
    decodeFrom done offset false (shift run ++ rest)
      = decodeFrom (run.reverse ++ done) (offset + (shift run).length) true rest := by
  have hshape : shift run ++ rest = '&' :: (shiftDigits run ++ '-' :: rest) := by
    simp [shift]
  have hlength : offset + (shift run).length = offset + (shiftDigits run).length + 2 := by
    simp [shift]
    omega
  rw [hshape, hlength, decodeFrom_digits done rest offset (isShiftDigit_of_mem_shiftDigits run)
    (by decide) (fun _ => shiftDigits_ne_nil hrun), if_pos rfl]
  simp only [readDigits_shiftDigits, pushShifted_map_some done hshift]

/-- Whether a shift sequence ends where a text ends; `afterShift` says whether one ends where it
begins. -/
def endsShifted (afterShift : Bool) (cs : List Char) : Bool :=
  (cs.getLast?.map fun c => !isDirect c).getD afterShift

theorem endsShifted_cons {c : Char} (hc : isDirect c = true) (afterShift : Bool) (cs : List Char) :
    endsShifted afterShift (c :: cs) = endsShifted false cs := by
  cases cs with
  | nil => simp [endsShifted, hc]
  | cons d cs => simp [endsShifted, List.getLast?_cons]

theorem endsShifted_append {run : List Char} (hrun : run ≠ [])
    (hshift : ∀ c ∈ run, isDirect c = false) (afterShift : Bool) (cs : List Char) :
    endsShifted afterShift (run ++ cs) = endsShifted true cs := by
  cases cs with
  | nil =>
    have hlast := hshift _ (List.getLast_mem hrun)
    simp [endsShifted, List.getLast?_eq_getLast_of_ne_nil hrun, hlast]
  | cons d cs => simp [endsShifted, List.getLast?_append, List.getLast?_cons]

/-- What is written for a text is read as the text, whatever follows, unless a shift sequence ends
right before a text that needs one. -/
theorem decodeFrom_append_encodeChars (done cs rest : List Char) (offset : Nat) (afterShift : Bool)
    (hafter : afterShift = true → StartsDirect cs) :
    decodeFrom done offset afterShift (encodeChars cs ++ rest)
      = decodeFrom (cs.reverse ++ done) (offset + (encodeChars cs).length)
          (endsShifted afterShift cs) rest := by
  induction cs using pieceInduction generalizing done offset afterShift with
  | nil => rfl
  | direct c cs hc ih =>
    rw [encodeChars_cons_of_direct cs hc, List.append_assoc, decodeFrom_append_escape _ _ _ _ hc,
      ih _ _ _ (fun h => absurd h Bool.false_ne_true), endsShifted_cons hc, List.length_append,
      List.reverse_cons, List.append_assoc, Nat.add_assoc]
    rfl
  | shifted run cs hrun hshift hnext ih =>
    -- No shift sequence ends right before a text that begins with one.
    have hfalse : afterShift = false := by
      obtain ⟨c, run, rfl⟩ := List.exists_cons_of_ne_nil hrun
      refine Bool.eq_false_iff.mpr fun h => ?_
      have hc := hafter h c rfl
      rw [hshift c List.mem_cons_self] at hc
      cases hc
    rw [encodeChars_append_of_shifted hrun hshift hnext, List.append_assoc, hfalse,
      decodeFrom_append_shift _ _ _ hrun hshift, ih _ _ _ (fun _ => hnext),
      endsShifted_append hrun hshift, List.length_append, List.reverse_append, List.append_assoc,
      Nat.add_assoc]

/-- What is written for a text is read as the text, unless a shift sequence ends right before a
text that needs one. -/
theorem decodeFrom_encodeChars (done cs : List Char) (offset : Nat) (afterShift : Bool)
    (hafter : afterShift = true → StartsDirect cs) :
    decodeFrom done offset afterShift (encodeChars cs)
      = .ok (String.ofList (done.reverse ++ cs)) := by
  have h := decodeFrom_append_encodeChars done cs [] offset afterShift hafter
  rw [List.append_nil] at h
  rw [h, decodeFrom, List.reverse_append, List.reverse_reverse]

/-- The digits after an ampersand, and what ends them. -/
theorem eq_digits_append {rest after : List Char} {c : Char}
    (hdrop : rest.dropWhile isShiftDigit = c :: after) :
    rest = rest.takeWhile isShiftDigit ++ c :: after
      ∧ (∀ d ∈ rest.takeWhile isShiftDigit, isShiftDigit d = true) ∧ isShiftDigit c = false := by
  refine ⟨?_, fun _ hd => List.mem_takeWhile_imp hd, ?_⟩
  · rw [← hdrop, List.takeWhile_append_dropWhile]
  · exact eq_false_of_mem_head?_dropWhile isShiftDigit rest c (by rw [hdrop]; rfl)

/-- An ampersand that is not escaped has digits before the closing hyphen. -/
theorem digits_ne_nil {rest after : List Char} (hescape : ∀ rest', rest ≠ '-' :: rest')
    (hdrop : rest.dropWhile isShiftDigit = '-' :: after) :
    rest.takeWhile isShiftDigit ≠ [] := by
  intro hnil
  have hrest := (eq_digits_append hdrop).1
  rw [hnil] at hrest
  exact hescape after hrest

/-- What is read as a text is what is written for it, and begins with a direct character if a
shift sequence ends right before it. -/
theorem exists_of_decodeFrom {done written : List Char} {offset : Nat} {afterShift : Bool}
    {name : String} (h : decodeFrom done offset afterShift written = .ok name) :
    ∃ cs, name = String.ofList (done.reverse ++ cs) ∧ written = encodeChars cs
      ∧ (afterShift = true → StartsDirect cs) := by
  fun_induction decodeFrom done offset afterShift written with
  | case1 done offset afterShift =>
    cases h
    exact ⟨[], by rw [List.append_nil], rfl, fun _ => by simp [StartsDirect]⟩
  | case2 done offset afterShift rest ih =>
    obtain ⟨cs, rfl, rfl, -⟩ := ih h
    refine ⟨'&' :: cs, by simp, ?_, fun _ => ?_⟩
    · rw [encodeChars_cons_of_direct cs (by decide)]
      rfl
    · intro c hc
      cases hc
      decide
  | case7 done offset afterShift rest hescape hafter after digits items hread done' hpush hdrop
      ih =>
    -- A shift sequence that is closed: its digits are those of a run that is not direct.
    obtain ⟨cs, rfl, rfl, hnext⟩ := ih h
    obtain ⟨run, rfl, hshift, rfl⟩ := exists_of_pushShifted hpush
    obtain ⟨hrest, hdigits, -⟩ := eq_digits_append hdrop
    have hread : digits = shiftDigits run := eq_shiftDigits_of_readDigits hdigits hread
    have hrun : run ≠ [] := by
      rintro rfl
      exact digits_ne_nil hescape hdrop hread
    refine ⟨run ++ cs, by simp, ?_, fun h => absurd h hafter⟩
    rw [encodeChars_append_of_shifted hrun hshift (hnext rfl), shift, hrest, ← hread]
    simp [digits]
  | case9 done offset afterShift c rest _ hamp hc ih =>
    obtain ⟨cs, rfl, rfl, -⟩ := ih h
    refine ⟨c :: cs, by simp, ?_, fun _ => ?_⟩
    · rw [encodeChars_cons_of_direct cs hc, escape, if_neg hamp]
      rfl
    · intro x hx
      cases hx
      exact hc
  | case3 | case4 | case5 | case6 | case8 | case10 =>
    -- everything else is refused
    cases h

/-! ## Whole names -/

/-- Everything that is written is a direct character. -/
theorem isDirect_of_mem_encodeChars (cs : List Char) :
    ∀ c ∈ encodeChars cs, isDirect c = true := by
  intro c hc
  obtain ⟨run, -, hc⟩ := List.mem_flatMap.mp hc
  unfold encodeRun at hc
  split at hc
  · rename_i hrun
    obtain ⟨x, hx, hc⟩ := List.mem_flatMap.mp hc
    unfold escape at hc
    split at hc
    · rcases List.mem_pair.mp hc with rfl | rfl
      · decide
      · decide
    · rw [List.mem_singleton.mp hc]
      exact List.all_eq_true.mp hrun x hx
  · rcases List.mem_append.mp hc with hc | hc
    · rcases List.mem_cons.mp hc with rfl | hc
      · decide
      · exact isDirect_of_isShiftDigit (isShiftDigit_of_mem_shiftDigits run c hc)
    · rw [List.mem_singleton.mp hc]
      decide

/-- A written name is read back. -/
theorem decode_encode (name : String) : decode (encode name) = .ok name := by
  rw [decode, toList_encode, decodeFrom_encodeChars _ _ _ _ (fun h => absurd h Bool.false_ne_true)]
  simp

/-- No two names have the same written form. -/
theorem encode_injective : Function.Injective encode := by
  intro s t h
  have := decode_encode s
  rw [h, decode_encode] at this
  injection this with this
  exact this.symm

/-- What is read as a name is its written form. -/
theorem eq_encode_of_decode {written name : String} (h : decode written = .ok name) :
    written = encode name := by
  obtain ⟨cs, rfl, hwritten, -⟩ := exists_of_decodeFrom h
  rw [← String.toList_inj, hwritten, toList_encode]
  simp

/-- **Names and written forms correspond one to one.**  A text is read as a name if and only if it
is what writing the name produces, and refused if and only if writing produces it for no name;
what is written is printable ASCII. -/
theorem decode_eq_ok_iff (written name : String) :
    (decode written = .ok name ↔ written = encode name)
      ∧ ((∃ e, decode written = .error e) ↔ ∀ s, written ≠ encode s)
      ∧ ∀ c ∈ (encode name).toList, isDirect c = true := by
  refine ⟨⟨eq_encode_of_decode, ?_⟩, ⟨?_, ?_⟩, ?_⟩
  · rintro rfl
    exact decode_encode name
  · rintro ⟨e, he⟩ s rfl
    rw [decode_encode] at he
    cases he
  · intro hnone
    cases h : decode written with
    | error e => exact ⟨e, rfl⟩
    | ok s => exact absurd (eq_encode_of_decode h) (hnone s)
  · rw [toList_encode]
    exact isDirect_of_mem_encodeChars name.toList

example : decode "&Jjo-&Jjo-" = .error ⟨.nullShift, 5, "☺"⟩ := by cbv

example : encode "\x00𐀀&¡¡" = "&AADYANwA-&-&AKEAoQ-" := by cbv

end MailboxName

end ImapMessage
