/-
# Dates as they are written

A date-time is written as an optional day of the week, day, month, year, time of day and the offset
of its zone, with gaps between them.  There is room for dates, times and offsets that no calendar
and no clock has; those are refused, and all others are read back.

Key constructions:
* `Comment.IsSeparator`: a gap that is not empty.
* `DateTime.MonthForm`, `DateTime.YearForm`: how months and years are written.
* `DateTime.DateForm`, `DateTime.TimeForm`, `DateTime.OffsetForm`: how the parts are written.
* `DateTime.Stem`, `DateTime.Written`: what stands before the zone, and all of it.
* `DateTime.stem`, `DateTime.reader_stem`: what is read up to the zone, whatever the zone is.
* `DateTime.reader_written`, `DateTime.parse_of_written`: what is read from a written date-time.
* `DateTime.exists_written`: which date-times can be written.
-/
import ImapMessage.Field.DateTime
import ImapMessage.Proofs.Field.Tokens
import ImapMessage.Proofs.Text.Ascii

namespace ImapMessage

/-! ## Tokens of a date -/

theorem Word.isAtomByte_of_isDigit {b : UInt8} (hb : Ascii.isDigit b = true) :
    isAtomByte b = true := by
  simp [isAtomByte, Ascii.isAlnum, hb]

theorem Word.isAtomByte_of_isLetter {b : UInt8} (hb : Ascii.isLetter b = true) :
    isAtomByte b = true := by
  simp [isAtomByte, Ascii.isAlnum, hb]

/-- An atom stands at the start of a text, with no gap before it. -/
theorem Word.IsAtom.starts {w : Bytes} (hw : IsAtom w) (rest : Bytes) : Starts (w ++ rest) :=
  Starts.append (AtomForm.starts ⟨hw, [], .nil, (List.append_nil w).symm⟩) rest

/-- Digits are an atom. -/
theorem Word.isAtom_decimalDigits (width n : Nat) : IsAtom (Ascii.decimalDigits (width + 1) n) := by
  refine ⟨List.ne_nil_of_length_eq_add_one (Ascii.length_decimalDigits (width + 1) n), ?_⟩
  intro b hb
  exact isAtomByte_of_isDigit (Ascii.isDigit_of_mem_decimalDigits hb)

/-- A run of white space and comments that is not empty. -/
def Comment.IsSeparator (g : Bytes) : Prop :=
  IsGap g ∧ g ≠ []

theorem Comment.isSeparator_sp : IsSeparator [Ascii.sp] :=
  ⟨isGap_sp, List.cons_ne_nil _ _⟩

/-- A separator ends every atom. -/
theorem Comment.IsSeparator.head {g : Bytes} (hg : IsSeparator g) (rest : Bytes) :
    ∀ b ∈ (g ++ rest).head?, Word.isAtomByte b = false := by
  have hhead : ∀ b ∈ (g ++ []).head?, Word.isAtomByte b = false :=
    hg.1.head_append (by decide) (by rintro b ⟨⟩)
  rwa [List.append_nil, ← List.head?_append_of_ne_nil g hg.2] at hhead

/-- A separator ends every number. -/
theorem Comment.IsSeparator.head_isDigit {g : Bytes} (hg : IsSeparator g) (rest : Bytes) :
    ∀ b ∈ (g ++ rest).head?, Ascii.isDigit b = false := by
  intro b hb
  rw [← Bool.not_eq_true]
  intro hdigit
  have hatom := hg.head rest b hb
  rw [Word.isAtomByte_of_isDigit hdigit] at hatom
  cases hatom

namespace Reader

/-- Digits are read back if there are as many as may be, or no digit follows. -/
theorem digits_written {least most : Nat} {ds rest : Bytes} (hleast : least ≤ ds.length)
    (hmost : ds.length ≤ most) (hds : ∀ b ∈ ds, Ascii.isDigit b = true)
    (hrest : ds.length = most ∨ ∀ b ∈ rest.head?, Ascii.isDigit b = false) :
    digits least most (ds ++ rest) = some (ds, rest) := by
  have hstop : (rest.take (most - ds.length)).takeWhile Ascii.isDigit = [] := by
    rcases hrest with hfull | hrest
    · rw [hfull, Nat.sub_self, List.take_zero, List.takeWhile_nil]
    · cases rest with
      | nil => rw [List.take_nil, List.takeWhile_nil]
      | cons b rest =>
        cases most - ds.length with
        | zero => rw [List.take_zero, List.takeWhile_nil]
        | succ n => rw [List.take_succ_cons, List.takeWhile_cons_of_neg (by simp [hrest b rfl])]
  have htake : ((ds ++ rest).take most).takeWhile Ascii.isDigit = ds := by
    rw [List.take_append, List.take_of_length_le hmost, List.takeWhile_append_of_pos hds, hstop,
      List.append_nil]
  rw [digits, htake, if_pos hleast, List.drop_left]

/-- A number is written in digits that are read back. -/
theorem digits_decimalDigits {least most width : Nat} (n : Nat) {rest : Bytes}
    (hleast : least ≤ width) (hmost : width ≤ most)
    (hrest : width = most ∨ ∀ b ∈ rest.head?, Ascii.isDigit b = false) :
    digits least most (Ascii.decimalDigits width n ++ rest)
      = some (Ascii.decimalDigits width n, rest) := by
  refine digits_written ?_ ?_ (fun b => Ascii.isDigit_of_mem_decimalDigits) ?_
  · rwa [Ascii.length_decimalDigits]
  · rwa [Ascii.length_decimalDigits]
  · rwa [Ascii.length_decimalDigits]

/-- A word is read back from the same letters in any case. -/
theorem anyCase_written {w : List Char} {s : Bytes} (h : s.map Ascii.lower = w.map Char.toUInt8)
    (rest : Bytes) : anyCase w (s ++ rest) = some ((), rest) := by
  have hlength : s.length = w.length := by simpa using congrArg List.length h
  rw [anyCase, ← hlength, List.take_left, List.drop_left, if_pos h]

end Reader

namespace DateTime

/-- Digits are read as the number that they write. -/
theorem number_written {least most width n : Nat} {rest : Bytes} (hleast : least ≤ width)
    (hmost : width ≤ most) (hn : n < 10 ^ width)
    (hrest : width = most ∨ ∀ b ∈ rest.head?, Ascii.isDigit b = false) :
    number least most (Ascii.decimalDigits width n ++ rest) = some (n, rest) := by
  rw [number, Reader.digits_decimalDigits n hleast hmost hrest, Option.map_some]
  dsimp only
  rw [Ascii.decimal_decimalDigits, Nat.mod_eq_of_lt hn]

/-- The gap after a token is skipped. -/
theorem token_written {α : Type} {p : Reader α} {s g rest : Bytes} {a : α}
    (h : p s = some (a, g ++ rest)) (hg : Comment.IsGap g) (hrest : Word.Starts rest) :
    token p s = some (a, rest) := by
  rw [token, h, Option.map_some]
  dsimp only
  rw [Comment.skip_gap hg, hrest.skip_eq]

/-- An entry of a table is found if its word is next, and that of no other entry. -/
theorem named_of_mem {α : Type} {table : List (List Char × α)} {w : List Char} {a : α}
    {s rest : Bytes} (hmem : (w, a) ∈ table) (hw : Reader.anyCase w s = some ((), rest))
    (honly : ∀ e ∈ table, (Reader.anyCase e.1 s).isSome → e = (w, a)) :
    named table s = some (a, rest) := by
  induction table with
  | nil => cases hmem
  | cons e table ih =>
    obtain ⟨w', a'⟩ := e
    rw [named, List.findSome?_cons]
    dsimp only
    cases hw' : Reader.anyCase w' s with
    | some r =>
      obtain ⟨rfl, rfl⟩ := Prod.mk.inj (honly (w', a') List.mem_cons_self (by rw [hw']; rfl))
      rw [← hw', hw, Option.map_some]
    | none =>
      have hne : (w, a) ≠ (w', a') := by
        rintro ⟨⟩
        rw [hw] at hw'
        cases hw'
      exact ih ((List.mem_cons.mp hmem).resolve_left hne)
        fun e he => honly e (List.mem_cons_of_mem _ he)

/-! ## Day, month and year -/

/-- A day is written with one digit or two. -/
inductive DayForm : Nat → Bytes → Prop where
  | one {day : Nat} (hday : day < 10) : DayForm day (Ascii.decimalDigits 1 day)
  | two {day : Nat} (hday : day < 100) : DayForm day (Ascii.decimalDigits 2 day)

/-- The first three letters of the name of a month. -/
def monthLetters (month : Nat) : Bytes :=
  ((Utf8.encode "janfebmaraprmayjunjulaugsepoctnovdec").drop (3 * (month - 1))).take 3

/-- A month is written by the first three letters of its name, each in either case. -/
def MonthForm (month : Nat) (s : Bytes) : Prop :=
  1 ≤ month ∧ month ≤ 12 ∧ s.map Ascii.lower = monthLetters month

/-- A year is written with four digits, one from 1900 on with three, and one near 2000 with two. -/
inductive YearForm : Int → Bytes → Prop where
  | four {n : Nat} (hn : n < 10000) : YearForm n (Ascii.decimalDigits 4 n)
  | three {n : Nat} (hn : n < 1000) : YearForm (n + 1900) (Ascii.decimalDigits 3 n)
  | old {n : Nat} (hlow : 50 ≤ n) (hn : n < 100) : YearForm (n + 1900) (Ascii.decimalDigits 2 n)
  | new {n : Nat} (hn : n < 50) : YearForm (n + 2000) (Ascii.decimalDigits 2 n)

/-- A date is written as day, month and year, with separators after them. -/
inductive DateForm : CalendarDate → Bytes → Prop where
  | mk {day month : Nat} {year : Int} {d g m g' y g'' : Bytes} (hday : DayForm day d)
      (hg : Comment.IsSeparator g) (hmonth : MonthForm month m) (hg' : Comment.IsSeparator g')
      (hyear : YearForm year y) (hg'' : Comment.IsSeparator g'') :
      DateForm ⟨year, month, day⟩ (d ++ (g ++ (m ++ (g' ++ (y ++ g'')))))

theorem DayForm.isAtom {day : Nat} {s : Bytes} (h : DayForm day s) : Word.IsAtom s := by
  cases h <;> exact Word.isAtom_decimalDigits _ _

theorem YearForm.isAtom {year : Int} {s : Bytes} (h : YearForm year s) : Word.IsAtom s := by
  cases h <;> exact Word.isAtom_decimalDigits _ _

/-- The letters of a month are in the table of names. -/
theorem MonthForm.exists_name {month : Nat} {s : Bytes} (h : MonthForm month s) :
    ∃ name, (name, month) ∈ monthNames.zip (List.range' 1 12)
      ∧ s.map Ascii.lower = name.map Char.toUInt8 := by
  have htable : ∀ month < 13, 1 ≤ month → ∃ name ∈ monthNames,
      (name, month) ∈ monthNames.zip (List.range' 1 12)
        ∧ monthLetters month = name.map Char.toUInt8 := by decide
  obtain ⟨hlow, hhigh, hletters⟩ := h
  obtain ⟨name, -, hmem, hname⟩ := htable month (Nat.lt_succ_of_le hhigh) hlow
  exact ⟨name, hmem, hletters.trans hname⟩

theorem MonthForm.isAtom {month : Nat} {s : Bytes} (h : MonthForm month s) : Word.IsAtom s := by
  obtain ⟨name, hmem, hname⟩ := h.exists_name
  have hnames : ∀ name ∈ monthNames,
      name ≠ [] ∧ (name.all fun c => Ascii.isLetter c.toUInt8) = true := by decide
  obtain ⟨hne, hletters⟩ := hnames name (List.of_mem_zip hmem).1
  constructor
  · rintro rfl
    exact hne (List.map_eq_nil_iff.mp hname.symm)
  · intro b hb
    have hlower : Ascii.lower b ∈ name.map Char.toUInt8 := hname ▸ List.mem_map_of_mem hb
    obtain ⟨c, hc, heq⟩ := List.mem_map.mp hlower
    exact Word.isAtomByte_of_isLetter
      (Ascii.isLetter_of_lower (heq ▸ List.all_eq_true.mp hletters c hc))

theorem day_written {day : Nat} {s rest : Bytes} (h : DayForm day s)
    (hrest : ∀ b ∈ rest.head?, Ascii.isDigit b = false) :
    number 1 2 (s ++ rest) = some (day, rest) := by
  cases h with
  | one hday => exact number_written (by decide) (by decide) hday (.inr hrest)
  | two hday => exact number_written (by decide) (by decide) hday (.inr hrest)

theorem month_written {m : Nat} {s : Bytes} (h : MonthForm m s) (rest : Bytes) :
    month (s ++ rest) = some (m, rest) := by
  obtain ⟨name, hmem, hname⟩ := h.exists_name
  have hlengths : ∀ e ∈ monthNames.zip (List.range' 1 12), e.1.length = 3 := by decide
  have hdistinct : ∀ e ∈ monthNames.zip (List.range' 1 12),
      ∀ e' ∈ monthNames.zip (List.range' 1 12),
        e.1.map Char.toUInt8 = e'.1.map Char.toUInt8 → e = e' := by decide
  have hlength : s.length = 3 := by
    rw [← hlengths _ hmem]
    simpa using congrArg List.length hname
  refine named_of_mem hmem (Reader.anyCase_written hname rest) fun e he hsome => ?_
  -- All names have three letters, and so another one would have the letters that are next.
  have hnext : s.map Ascii.lower = e.1.map Char.toUInt8 := by
    by_contra hne
    rw [Reader.anyCase, hlengths e he, ← hlength, List.take_left, if_neg hne] at hsome
    cases hsome
  exact hdistinct e he _ hmem (hnext.symm.trans hname)

/-- The year of digits depends on how many there are. -/
theorem yearOf_decimalDigits {width n : Nat} (hn : n < 10 ^ width) :
    yearOf (Ascii.decimalDigits width n)
      = if width = 2 then if n < 50 then (n : Int) + 2000 else n + 1900
        else if width = 3 then n + 1900 else n := by
  simp only [yearOf, Ascii.length_decimalDigits, Ascii.decimal_decimalDigits, Nat.mod_eq_of_lt hn]

theorem year_written {year : Int} {s rest : Bytes} (h : YearForm year s)
    (hrest : ∀ b ∈ rest.head?, Ascii.isDigit b = false) :
    Reader.digits 2 4 (s ++ rest) = some (s, rest) ∧ yearOf s = year := by
  have hdigits : ∀ width n, 2 ≤ width → width ≤ 4 →
      Reader.digits 2 4 (Ascii.decimalDigits width n ++ rest)
        = some (Ascii.decimalDigits width n, rest) := fun width n hleast hmost =>
    Reader.digits_decimalDigits n hleast hmost (.inr hrest)
  cases h with
  | @four n hn => exact ⟨hdigits 4 n (by decide) (by decide), yearOf_decimalDigits hn⟩
  | @three n hn => exact ⟨hdigits 3 n (by decide) (by decide), yearOf_decimalDigits hn⟩
  | @old n hlow hn =>
    refine ⟨hdigits 2 n (by decide) (by decide), ?_⟩
    rw [yearOf_decimalDigits hn, if_pos rfl, if_neg (Nat.not_lt.mpr hlow)]
  | @new n hn =>
    refine ⟨hdigits 2 n (by decide) (by decide), ?_⟩
    rw [yearOf_decimalDigits (show n < 10 ^ 2 by omega), if_pos rfl, if_pos hn]

/-- A written date is read back. -/
theorem calendarDate_written {date : CalendarDate} {s rest : Bytes} (h : DateForm date s)
    (hrest : Word.Starts rest) : calendarDate (s ++ rest) = some (date, rest) := by
  cases h with
  | @mk day m year ds g ms g' ys g'' hday hg hmonth hg' hyear hg'' =>
    obtain ⟨hdigits, hyearOf⟩ := year_written hyear (hg''.head_isDigit rest)
    have hday := token_written (day_written hday (hg.head_isDigit _)) hg.1
      (hmonth.isAtom.starts (g' ++ (ys ++ (g'' ++ rest))))
    have hmonth := token_written (month_written hmonth (g' ++ (ys ++ (g'' ++ rest))))
      hg'.1 (hyear.isAtom.starts _)
    have hyear := token_written hdigits hg''.1 hrest
    simp only [calendarDate, List.append_assoc, hday, hmonth, hyear, hyearOf, Option.bind_eq_bind,
      Option.bind_some, Option.pure_def]

theorem DateForm.starts {date : CalendarDate} {s : Bytes} (h : DateForm date s) (rest : Bytes) :
    Word.Starts (s ++ rest) := by
  cases h with
  | mk hday => exact (hday.isAtom.starts _).append rest

/-! ## Time of day -/

/-- A minute or a second is written as two digits behind a colon, with a gap on either side of the
colon. -/
inductive ColonForm : Nat → Bytes → Prop where
  | mk {n : Nat} {g g' : Bytes} (hg : Comment.IsGap g) (hg' : Comment.IsGap g') (hn : n < 100) :
      ColonForm n (g ++ ':'.toUInt8 :: (g' ++ Ascii.decimalDigits 2 n))

/-- A time is written as hour, minute and second.  A second of 0 may be left out. -/
inductive TimeForm : (hour minute second : Nat) → Bytes → Prop where
  | short {hour minute : Nat} {m : Bytes} (hhour : hour < 100) (hminute : ColonForm minute m) :
      TimeForm hour minute 0 (Ascii.decimalDigits 2 hour ++ m)
  | full {hour minute second : Nat} {m s : Bytes} (hhour : hour < 100)
      (hminute : ColonForm minute m) (hsecond : ColonForm second s) :
      TimeForm hour minute second (Ascii.decimalDigits 2 hour ++ (m ++ s))

theorem TimeForm.starts {hour minute second : Nat} {s : Bytes} (h : TimeForm hour minute second s)
    (rest : Bytes) : Word.Starts (s ++ rest) := by
  cases h <;> exact ((Word.isAtom_decimalDigits 1 _).starts _).append rest

theorem twoDigits_written {n : Nat} (hn : n < 100) (rest : Bytes) :
    number 2 2 (Ascii.decimalDigits 2 n ++ rest) = some (n, rest) :=
  number_written (Nat.le_refl 2) (Nat.le_refl 2) hn (.inl rfl)

theorem colonNumber_written {n : Nat} {s : Bytes} (h : ColonForm n s) (rest : Bytes) :
    colonNumber (s ++ rest) = some (n, rest) := by
  cases h with
  | @mk g g' hg hg' hn =>
    have hcolon : Comment.skip (g ++ ':'.toUInt8 :: (g' ++ (Ascii.decimalDigits 2 n ++ rest)))
        = ':'.toUInt8 :: (g' ++ (Ascii.decimalDigits 2 n ++ rest)) := by
      rw [Comment.skip_gap hg, Comment.skip_cons rfl (by decide)]
    have hbyte := token_written (Reader.byte_cons ':' (g' ++ (Ascii.decimalDigits 2 n ++ rest))) hg'
      ((Word.isAtom_decimalDigits 1 n).starts rest)
    simp only [colonNumber, List.append_assoc, List.cons_append, hcolon, hbyte,
      twoDigits_written hn, Option.bind_eq_bind, Option.bind_some]

/-- No second is read where the next token is not a colon. -/
theorem colonNumber_eq_none {s : Bytes} (h : Word.Starts (Comment.skip s)) :
    colonNumber s = none := by
  have hbyte : Reader.byte ':' (Comment.skip s) = none := h.byte_eq_none (by decide)
  rw [colonNumber, token, hbyte]
  rfl

/-- A written time is read back. -/
theorem timeOfDay_written {hour minute second : Nat} {s g rest : Bytes}
    (h : TimeForm hour minute second s) (hg : Comment.IsGap g) (hrest : Word.Starts rest) :
    timeOfDay (s ++ (g ++ rest)) = some ((hour, minute, second), rest) := by
  have hskip : Comment.skip (g ++ rest) = rest := by rw [Comment.skip_gap hg, hrest.skip_eq]
  cases h with
  | short hhour hminute =>
    have hnone : colonNumber (g ++ rest) = none := colonNumber_eq_none (by rwa [hskip])
    simp only [timeOfDay, List.append_assoc, twoDigits_written hhour, colonNumber_written hminute,
      Reader.optional, hnone, hskip, Option.bind_eq_bind, Option.bind_some, Option.pure_def,
      Option.getD_none]
  | full hhour hminute hsecond =>
    simp only [timeOfDay, List.append_assoc, twoDigits_written hhour, colonNumber_written hminute,
      Reader.optional, colonNumber_written hsecond, hskip, Option.bind_eq_bind, Option.bind_some,
      Option.pure_def, Option.getD_some]

/-! ## Day of the week -/

/-- The day of the week is an atom with a comma behind it, or missing. -/
inductive WeekdayForm : Bytes → Prop where
  | missing : WeekdayForm []
  | named {w s g : Bytes} (hw : Word.AtomForm w s) (hg : Comment.IsGap g) :
      WeekdayForm (s ++ ','.toUInt8 :: g)

/-- No day of the week is read from a date: there is no comma after the first token. -/
theorem weekday_date {date : CalendarDate} {d rest x : Bytes} (h : DateForm date d)
    (hx : Comment.skip x = d ++ rest) : weekday x = none := by
  cases h with
  | @mk day m year ds g ms g' ys g'' hday hg hmonth =>
    have hrest : Word.Starts (ms ++ (g' ++ (ys ++ (g'' ++ rest)))) := hmonth.isAtom.starts _
    have hatom : Word.atom x = some (ds, ms ++ (g' ++ (ys ++ (g'' ++ rest)))) := by
      simp only [List.append_assoc] at hx
      rw [Word.atom, Reader.run_written hx hday.isAtom.1 hday.isAtom.2 (hg.head _),
        Comment.skip_gap hg.1, hrest.skip_eq]
    have hcomma : Reader.byte ',' (ms ++ (g' ++ (ys ++ (g'' ++ rest)))) = none :=
      hrest.byte_eq_none (by decide)
    simp only [weekday, hatom, token, hcomma, Option.bind_eq_bind, Option.bind_some,
      Option.map_none]

/-- A day of the week is left out, and so are the gaps around it. -/
theorem weekday_written {lead w d : Bytes} {date : CalendarDate} (hlead : Comment.IsGap lead)
    (h : WeekdayForm w) (hdate : DateForm date d) (rest : Bytes) :
    Comment.skip (Reader.optional weekday (lead ++ (w ++ (d ++ rest)))).2 = d ++ rest := by
  have hstarts : Word.Starts (d ++ rest) := hdate.starts rest
  cases h with
  | missing =>
    have hskip : Comment.skip (lead ++ (d ++ rest)) = d ++ rest := by
      rw [Comment.skip_gap hlead, hstarts.skip_eq]
    rw [List.nil_append, Reader.optional, weekday_date hdate hskip, hskip]
  | @named w s g hw hg =>
    have hskip : Comment.skip (lead ++ (s ++ ','.toUInt8 :: (g ++ (d ++ rest))))
        = s ++ ','.toUInt8 :: (g ++ (d ++ rest)) := by
      rw [Comment.skip_gap hlead, (hw.starts.append _).skip_eq]
    have hatom := Word.atom_form hw (BeginsIn.cons (by decide) _) _ hskip
    have hcomma := token_written (Reader.byte_cons ',' (g ++ (d ++ rest))) hg hstarts
    simp only [Reader.optional, weekday, List.append_assoc, List.cons_append, hatom, hcomma,
      Option.bind_eq_bind, Option.bind_some]
    exact hstarts.skip_eq

/-! ## Up to the zone -/

/-- Before the zone stand the day of the week, the date and the time. -/
inductive Stem : CalendarDate → (hour minute second : Nat) → Bytes → Prop where
  | mk {date : CalendarDate} {hour minute second : Nat} {lead w d t g : Bytes}
      (hlead : Comment.IsGap lead) (hweekday : WeekdayForm w) (hdate : DateForm date d)
      (htime : TimeForm hour minute second t) (hg : Comment.IsSeparator g) :
      Stem date hour minute second (lead ++ (w ++ (d ++ (t ++ g))))

/-- Date and time of day, up to the zone. -/
def stem : Reader (CalendarDate × Nat × Nat × Nat) := fun s => do
  let (_, s) := Reader.optional weekday s
  let (date, s) ← calendarDate (Comment.skip s)
  let (time, s) ← timeOfDay s
  return ((date, time), s)

/-- A date-time is read as its date and time, and then its zone. -/
theorem reader_eq_stem (s : Bytes) :
    reader s = (stem s).bind fun ((date, hour, minute, second), z) =>
      (token zone z).map fun (offset, rest) => (⟨date, hour, minute, second, offset⟩, rest) := by
  unfold reader stem
  dsimp only
  cases calendarDate (Comment.skip (Reader.optional weekday s).2) with
  | none => rfl
  | some r =>
    simp only [Option.bind_eq_bind, Option.bind_some]
    cases timeOfDay r.2 with
    | none => rfl
    | some r' =>
      obtain ⟨⟨hour, minute, second⟩, z⟩ := r'
      simp only [Option.bind_some, Option.pure_def]
      cases token zone z <;> rfl

/-- What stands before the zone is read as date and time. -/
theorem stem_written {date : CalendarDate} {hour minute second : Nat} {s z : Bytes}
    (h : Stem date hour minute second s) (hz : Word.Starts z) :
    stem (s ++ z) = some ((date, hour, minute, second), z) := by
  cases h with
  | @mk lead w d t g hlead hweekday hdate htime hg =>
    have hskip := weekday_written hlead hweekday hdate (t ++ (g ++ z))
    have hcalendar := calendarDate_written hdate (htime.starts (g ++ z))
    have htimeOfDay := timeOfDay_written htime hg.1 hz
    simp only [stem, List.append_assoc, hskip, hcalendar, htimeOfDay, Option.bind_eq_bind,
      Option.bind_some, Option.pure_def]

/-- Date and time are read before any zone. -/
theorem reader_stem {date : CalendarDate} {hour minute second : Nat} {s z : Bytes}
    (h : Stem date hour minute second s) (hz : Word.Starts z) :
    reader (s ++ z)
      = (token zone z).map fun (offset, rest) => (⟨date, hour, minute, second, offset⟩, rest) := by
  rw [reader_eq_stem, stem_written h hz, Option.bind_some]

/-! ## Offsets -/

/-- An offset is written as hours and minutes with a sign. -/
inductive OffsetForm : Int → Bytes → Prop where
  | ahead {hours minutes : Nat} (hhours : hours < 100) (hminutes : minutes < 100) :
      OffsetForm (hours * 3600 + minutes * 60)
        ('+'.toUInt8 :: (Ascii.decimalDigits 2 hours ++ Ascii.decimalDigits 2 minutes))
  | behind {hours minutes : Nat} (hhours : hours < 100) (hminutes : minutes < 100) :
      OffsetForm (-(hours * 3600 + minutes * 60))
        ('-'.toUInt8 :: (Ascii.decimalDigits 2 hours ++ Ascii.decimalDigits 2 minutes))

theorem OffsetForm.starts {offset : Int} {s : Bytes} (h : OffsetForm offset s) (rest : Bytes) :
    Word.Starts (s ++ rest) := by
  cases h <;> exact ⟨_, _, rfl, .inl (by decide)⟩

/-- The four digits of an offset are those of its hours and those of its minutes. -/
theorem digits_offset {hours minutes : Nat} (hhours : hours < 100) (hminutes : minutes < 100)
    (rest : Bytes) :
    Reader.digits 4 4 (Ascii.decimalDigits 2 hours ++ Ascii.decimalDigits 2 minutes ++ rest)
        = some (Ascii.decimalDigits 2 hours ++ Ascii.decimalDigits 2 minutes, rest)
      ∧ offsetOf (Ascii.decimalDigits 2 hours ++ Ascii.decimalDigits 2 minutes)
        = hours * 3600 + minutes * 60 := by
  constructor
  · refine Reader.digits_written (by simp) (by simp) ?_ (.inl (by simp))
    intro b hb
    exact (List.mem_append.mp hb).elim Ascii.isDigit_of_mem_decimalDigits
      Ascii.isDigit_of_mem_decimalDigits
  · have hdecimal : Ascii.decimal (Ascii.decimalDigits 2 hours ++ Ascii.decimalDigits 2 minutes)
        = hours * 100 + minutes := by
      rw [Ascii.decimal_append_decimalDigits, Ascii.decimal_decimalDigits]
      omega
    rw [offsetOf, hdecimal]
    omega

/-- A written offset is read back. -/
theorem zone_written {offset : Int} {s : Bytes} (h : OffsetForm offset s) (rest : Bytes) :
    zone (s ++ rest) = some (offset, rest) := by
  have hnumeric : numericZone (s ++ rest) = some (offset, rest) := by
    cases h with
    | ahead hhours hminutes =>
      obtain ⟨hdigits, hoffset⟩ := digits_offset hhours hminutes rest
      rw [List.cons_append, numericZone, if_pos rfl, hdigits, Option.map_some, ← hoffset]
    | behind hhours hminutes =>
      obtain ⟨hdigits, hoffset⟩ := digits_offset hhours hminutes rest
      rw [List.cons_append, numericZone, if_neg (by decide), if_pos rfl, hdigits, Option.map_some,
        ← hoffset]
  rw [zone, Reader.orElse, hnumeric]

/-! ## Date-times -/

/-- A date-time is written with the offset of its zone. -/
inductive Written : DateTime → Bytes → Prop where
  | mk {date : CalendarDate} {hour minute second : Nat} {offset : Int} {s z g : Bytes}
      (hstem : Stem date hour minute second s) (hzone : OffsetForm offset z)
      (hg : Comment.IsGap g) : Written ⟨date, hour, minute, second, offset⟩ (s ++ (z ++ g))

/-- A written date-time is read to its end. -/
theorem reader_written {t : DateTime} {s : Bytes} (h : Written t s) : reader s = some (t, []) := by
  cases h with
  | @mk date hour minute second offset s z g hstem hzone hg =>
    have htoken : token zone (z ++ g) = some (offset, []) := by
      rw [token, zone_written hzone g, Option.map_some]
      dsimp only
      rw [← List.append_nil g, Comment.skip_gap hg, Comment.skip]
    rw [reader_stem hstem (hzone.starts g), htoken, Option.map_some]

/-- A text is a way to write one date-time at most. -/
theorem Written.unique {t t' : DateTime} {s : Bytes} (h : Written t s) (h' : Written t' s) :
    t = t' :=
  congrArg Prod.fst (Option.some.inj ((reader_written h).symm.trans (reader_written h')))

/-- A written date-time is read back if there is one, and refused if there is none. -/
theorem parse_of_written {t : DateTime} {s : Bytes} (h : Written t s) :
    parse s = if t.IsValid then some t else none := by
  rw [parse, reader_written h]
  rfl

/-- A date with a comment in a comment, on two lines. -/
theorem parse_of_written_commented :
    Written ⟨⟨2020, 2, 13⟩, 10, 0, 1, -5400⟩
        (Utf8.encode "Thu,\r\n 13 (x(x)) fEB 20 10 : 00:01 (x) -0130")
      ∧ parse (Utf8.encode "Thu,\r\n 13 (x(x)) fEB 20 10 : 00:01 (x) -0130")
        = some ⟨⟨2020, 2, 13⟩, 10, 0, 1, -5400⟩ := by
  have hsp : Comment.IsSeparator (Utf8.encode " ") := Comment.isSeparator_sp
  have hfold : Comment.IsGap (Utf8.encode "\r\n ") := .fold rfl (.fold rfl Comment.isGap_sp)
  have hletter : ∀ s, Comment.IsContent s → Comment.IsContent ('x'.toUInt8 :: s) := fun s hs =>
    .byte (by decide) (by decide) (by decide) hs
  have hx : Comment.IsContent (Utf8.encode "x") := hletter [] .nil
  have hcomment : Comment.IsSeparator (Utf8.encode " (x) ") :=
    ⟨.fold rfl (.comment hx Comment.isGap_sp), by decide +kernel⟩
  have hnested : Comment.IsSeparator (Utf8.encode " (x(x)) ") :=
    ⟨.fold rfl (.comment (hletter _ (.comment hx .nil)) Comment.isGap_sp), by decide +kernel⟩
  have hweekday : Word.AtomForm (Utf8.encode "Thu") (Utf8.encode "Thu") :=
    ⟨⟨by decide +kernel, by decide +kernel⟩, [], .nil, rfl⟩
  have hmonth : MonthForm 2 (Utf8.encode "fEB") := ⟨by decide, by decide, by decide +kernel⟩
  have hdate : DateForm ⟨2020, 2, 13⟩ _ :=
    .mk (.two (by decide)) hnested hmonth hsp (.new (show 20 < 50 by decide)) hsp
  have htime : TimeForm 10 0 1 _ :=
    .full (by decide) (.mk hsp.1 hsp.1 (by decide)) (.mk .nil .nil (by decide))
  have hzone : OffsetForm (-5400) _ := .behind (show 1 < 100 by decide) (show 30 < 100 by decide)
  have h : Written ⟨⟨2020, 2, 13⟩, 10, 0, 1, -5400⟩
      (Utf8.encode "Thu,\r\n 13 (x(x)) fEB 20 10 : 00:01 (x) -0130") :=
    cast (congrArg (Written _) (by decide +kernel))
      (Written.mk (.mk .nil (.named hweekday hfold) hdate htime hcomment) hzone .nil)
  exact ⟨h, (parse_of_written h).trans (if_pos (by decide +kernel))⟩

/-! ## Which date-times can be written -/

/-- A month has 31 days at most. -/
theorem daysInMonth_le (year : Int) (month : Nat) : CalendarDate.daysInMonth year month ≤ 31 := by
  unfold CalendarDate.daysInMonth
  split_ifs <;> decide

/-- Every month can be written in lower case. -/
theorem monthForm_monthLetters {month : Nat} (hlow : 1 ≤ month) (hhigh : month ≤ 12) :
    MonthForm month (monthLetters month) := by
  have hlower : ∀ month < 13, (monthLetters month).map Ascii.lower = monthLetters month := by
    decide
  exact ⟨hlow, hhigh, hlower month (Nat.lt_succ_of_le hhigh)⟩

/-- Every offset of less than 100 hours in whole minutes can be written. -/
theorem exists_offsetForm {offset : Int} (hlow : -360000 < offset) (hhigh : offset < 360000)
    (hminutes : 60 ∣ offset) : ∃ s, OffsetForm offset s := by
  obtain ⟨n, hn⟩ := hminutes
  rcases Int.le_total 0 n with hpos | hneg
  · obtain ⟨m, rfl⟩ := Int.eq_ofNat_of_zero_le hpos
    have heq : offset = ((m / 60 : Nat) : Int) * 3600 + ((m % 60 : Nat) : Int) * 60 := by omega
    rw [heq]
    exact ⟨_, .ahead (by omega) (by omega)⟩
  · obtain ⟨m, hm⟩ := Int.eq_ofNat_of_zero_le (Int.neg_nonneg.mpr hneg)
    have heq : offset = -(((m / 60 : Nat) : Int) * 3600 + ((m % 60 : Nat) : Int) * 60) := by omega
    rw [heq]
    exact ⟨_, .behind (by omega) (by omega)⟩

/-- Every date-time of the years to 9999 can be written if its offset is told in minutes. -/
theorem exists_written {t : DateTime} (ht : t.IsValid) (hlow : 0 ≤ t.date.year)
    (hhigh : t.date.year < 10000) (hoffset : 60 ∣ t.offset) : ∃ s, Written t s := by
  obtain ⟨⟨year, month, day⟩, hour, minute, second, offset⟩ := t
  obtain ⟨⟨hfirst, hlast, -, hday⟩, hhour, hminute, hsecond, hbehind, hahead⟩ := ht
  dsimp only at *
  obtain ⟨y, rfl⟩ := Int.eq_ofNat_of_zero_le hlow
  have hdays := daysInMonth_le y month
  have hmonth := monthForm_monthLetters hfirst hlast
  obtain ⟨z, hzone⟩ := exists_offsetForm (by omega) (by omega) hoffset
  have hdate : DateForm ⟨y, month, day⟩ _ :=
    .mk (.two (by omega)) Comment.isSeparator_sp hmonth Comment.isSeparator_sp (.four (by omega))
      Comment.isSeparator_sp
  have htime : TimeForm hour minute second _ :=
    .full (by omega) (.mk .nil .nil (by omega)) (.mk .nil .nil (by omega))
  exact ⟨_, .mk (.mk .nil .missing hdate htime Comment.isSeparator_sp) hzone .nil⟩

end DateTime

end ImapMessage
