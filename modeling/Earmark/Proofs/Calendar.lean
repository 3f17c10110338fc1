import Earmark.Proofs.Numerals

/-!
Universal times as text. The date of a day is on the calendar and names that day again
(`Time.daysOfFields_dateOfDays`), so a time of universal time on the calendar is read back from the
text that shows it (`Time.ofText_toText`).
-/

namespace Earmark.Time

/-! ### Dates -/

private theorem findRev?_append {p : Nat → Bool} (years : List Nat) (year : Nat) :
    (years ++ [year]).findRev? p = if p year then some year else years.findRev? p := by
  rw [List.findRev?_eq_findRev?TR, List.findRev?TR, List.findRev?TR, List.reverse_append]
  simp only [List.reverse_singleton, List.singleton_append, List.find?_cons]
  split <;> simp_all

/-- The last of some years that begins by a day, if the first one does. -/
private theorem exists_year {p : Nat → Bool} {guess : Nat} (begun : p guess = true) (count : Nat) :
    ∃ year, ((List.range (count + 1)).map (guess + ·)).findRev? p = some year ∧ p year = true ∧
      guess ≤ year ∧ year ≤ guess + count ∧
      ∀ later, year < later → later ≤ guess + count → p later = false := by
  induction count with
  | zero => exact ⟨guess, by simp [begun], begun, le_rfl, le_rfl, by omega⟩
  | succ count ih =>
    rw [List.range_succ, List.map_append, List.map_singleton, findRev?_append]
    by_cases last : p (guess + (count + 1)) = true
    · exact ⟨_, if_pos last, last, by omega, le_rfl, by omega⟩
    · obtain ⟨year, found, holds, low, high, others⟩ := ih
      refine ⟨year, by rw [if_neg last, found], holds, low, by omega, fun later after within => ?_⟩
      rcases Nat.lt_or_eq_of_le within with before | rfl
      · exact others later after (by omega)
      · exact Bool.eq_false_iff.mpr last

/-- A year ends where the next one begins. -/
private theorem daysBeforeYear_succ {year : Nat} (positive : 0 < year) :
    daysBeforeYear (year + 1) = daysBeforeYear year + (monthLengths year).sum := by
  obtain ⟨y, rfl⟩ : ∃ y, year = y + 1 := ⟨year - 1, by omega⟩
  have total : (monthLengths (y + 1)).sum = if isLeap (y + 1) then 366 else 365 := by
    simp only [monthLengths]
    split <;> rfl
  have leap : isLeap (y + 1) = true ↔
      (y + 1) % 4 = 0 ∧ ((y + 1) % 100 ≠ 0 ∨ (y + 1) % 400 = 0) := by
    simp [isLeap]
  have order : y / 100 ≤ y / 4 := by omega
  rw [total]
  simp only [daysBeforeYear, Nat.add_sub_cancel]
  by_cases found : isLeap (y + 1) = true
  · rw [if_pos found]
    obtain ⟨fourth, other | fifth⟩ := leap.mp found
    · have quarters : (y + 1) / 4 = y / 4 + 1 := by omega
      have hundreds : (y + 1) / 100 = y / 100 := by omega
      have cycles : (y + 1) / 400 = y / 400 := by omega
      omega
    · have quarters : (y + 1) / 4 = y / 4 + 1 := by omega
      have hundreds : (y + 1) / 100 = y / 100 + 1 := by omega
      have cycles : (y + 1) / 400 = y / 400 + 1 := by omega
      omega
  · rw [if_neg found]
    rw [leap] at found
    by_cases fourth : (y + 1) % 4 = 0
    · have quarters : (y + 1) / 4 = y / 4 + 1 := by omega
      have hundreds : (y + 1) / 100 = y / 100 + 1 := by omega
      have cycles : (y + 1) / 400 = y / 400 := by omega
      omega
    · have quarters : (y + 1) / 4 = y / 4 := by omega
      have hundreds : (y + 1) / 100 = y / 100 := by omega
      have cycles : (y + 1) / 400 = y / 400 := by omega
      omega

private theorem daysBeforeYear_mono {m n : Nat} (le : m ≤ n) :
    daysBeforeYear m ≤ daysBeforeYear n := by
  induction n, le using Nat.le_induction with
  | base => rfl
  | succ n _ ih =>
    refine ih.trans ?_
    rcases Nat.eq_zero_or_pos n with rfl | positive
    · rfl
    · rw [daysBeforeYear_succ positive]
      exact Nat.le_add_right _ _

/-- The month and the day of a day of the year. -/
private theorem monthOfDay_spec (lengths : List Nat) {day : Nat} (month : Nat)
    (within : day < lengths.sum) :
    ∃ k d, monthOfDay lengths month day = (month + k, d + 1) ∧ k < lengths.length ∧
      d < lengths.getD k 0 ∧ (lengths.take k).sum + d = day := by
  induction lengths generalizing month day with
  | nil => simp at within
  | cons length rest ih =>
    rw [monthOfDay]
    by_cases first : day < length
    · exact ⟨0, day, by rw [if_pos first]; rfl, by simp, by simpa using first, by simp⟩
    · rw [List.sum_cons] at within
      obtain ⟨k, d, found, inside, room, total⟩ := ih (month + 1) (by omega : day - length < rest.sum)
      refine ⟨k + 1, d, ?_, by simpa using inside, by simpa using room, ?_⟩
      · rw [if_neg first, found, Nat.add_assoc, Nat.add_comm 1 k]
      · rw [List.take_succ_cons, List.sum_cons]
        omega

/-- The year of a day begins by that day and ends after it. -/
private theorem exists_dateOfDays {days : Nat} (within : days < 3652059) :
    ∃ year, dateOfDays days =
        (year, monthOfDay (monthLengths year) 1 (days - daysBeforeYear year)) ∧
      0 < year ∧ year ≤ 9999 ∧ daysBeforeYear year ≤ days ∧ days < daysBeforeYear (year + 1) := by
  have begun : decide (daysBeforeYear (days / 366 + 1) ≤ days) = true := by
    rw [decide_eq_true_iff, daysBeforeYear, Nat.add_sub_cancel]
    omega
  obtain ⟨year, found, holds, low, high, others⟩ :=
    exists_year (p := fun year => decide (daysBeforeYear year ≤ days)) begun 29
  rw [decide_eq_true_iff] at holds
  have early : year < days / 366 + 1 + 29 := by
    refine Nat.lt_of_le_of_ne high ?_
    rintro rfl
    rw [daysBeforeYear] at holds
    omega
  have next := others (year + 1) (by omega) (by omega)
  rw [decide_eq_false_iff_not] at next
  refine ⟨year, by rw [dateOfDays, found]; rfl, by omega, ?_, holds, by omega⟩
  by_contra late
  have whole : daysBeforeYear 10000 = 3652059 := by decide
  have := daysBeforeYear_mono (show 10000 ≤ year by omega)
  omega

/-- The date of a day is on the calendar and names that day. -/
theorem daysOfFields_dateOfDays {days : Nat} (within : days < 3652059) :
    ∃ year month day, dateOfDays days = (year, month, day) ∧ year < 10 ^ 4 ∧ month < 10 ^ 2 ∧
      day < 10 ^ 2 ∧ daysOfFields year month day = .ok days := by
  obtain ⟨year, date, positive, last, begun, next⟩ := exists_dateOfDays within
  rw [daysBeforeYear_succ positive] at next
  obtain ⟨k, d, found, inside, room, total⟩ :=
    monthOfDay_spec (monthLengths year) 1
      (show days - daysBeforeYear year < (monthLengths year).sum by omega)
  have twelve : (monthLengths year).length = 12 := rfl
  have longest : (monthLengths year).getD k 0 ≤ 31 := by
    rw [twelve] at inside
    simp only [monthLengths]
    interval_cases k <;> simp
    split <;> omega
  refine ⟨year, 1 + k, d + 1, by rw [date, found], by omega, by omega, by omega, ?_⟩
  rw [daysOfFields, if_neg (by omega), if_neg (by omega), Nat.add_sub_cancel_left,
    if_neg (by omega), daysOfDate, Nat.add_sub_cancel_left, Nat.add_sub_cancel]
  exact congrArg Except.ok (by omega)

/-! ### Fields of digits -/

variable {width n : Nat} {cs rest : List Char}

/-- Digits of a given width that say a number. -/
structure IsField (width n : Nat) (cs : List Char) : Prop where
  length : cs.length = width
  digits : ∀ c ∈ cs, c.isDigit = true
  value : Nat.ofDigitChars 10 cs 0 = n

theorem isField_padded (width : Nat) (positive : 0 < width) (fits : n < 10 ^ width) :
    IsField width n (padded width n).toList := by
  have short : (Nat.repr n).length ≤ width := by
    rw [← String.length_toList, Nat.toList_repr]
    exact (Nat.length_toDigits_le_iff (by decide) positive).mpr fits
  refine ⟨?_, fun c mem => ?_, ofDigitChars_padded width n⟩
  · rw [String.length_toList, padded, String.length_append, String.length_ofList,
      List.length_replicate]
    omega
  · rw [padded, String.toList_append, String.toList_ofList, Nat.toList_repr, List.mem_append] at mem
    rcases mem with zero | digit
    · rw [List.eq_of_mem_replicate zero]
      rfl
    · exact Text.isDigit_of_mem_toDigits c digit

private theorem mapM_asciiDigit? (digits : ∀ c ∈ cs, c.isDigit = true) :
    cs.mapM Text.asciiDigit? = some (cs.filterMap Text.asciiDigit?) := by
  induction cs with
  | nil => rfl
  | cons c rest ih =>
    have first := Text.asciiDigit?_of_isDigit (digits c (by simp))
    have later := ih fun c mem => digits c (by simp [mem])
    rw [List.mapM_cons, first, later, List.filterMap_cons, first]
    rfl

theorem IsField.readDigits? (field : IsField width n cs) (rest : List Char) :
    readDigits? width (cs ++ rest) = some (n, rest) := by
  have count : (cs.filterMap Text.asciiDigit?).length = width := by
    rw [Text.filterMap_asciiDigit? field.digits, List.length_map, field.length]
  rw [Time.readDigits?, List.take_left' field.length, List.drop_left' field.length,
    mapM_asciiDigit? field.digits]
  simp only [Option.bind_eq_bind, Option.bind_some, count, ↓reduceIte,
    Text.ofDigits_filterMap field.digits, field.value]

/-- A field that is not empty begins with a digit. -/
theorem IsField.exists_cons (field : IsField width n cs) (positive : 0 < width) :
    ∃ c more, cs = c :: more ∧ c.isDigit = true := by
  cases cs with
  | nil => simp [← field.length] at positive
  | cons c more => exact ⟨c, more, rfl, field.digits c (by simp)⟩

/-! ### The date and the time of day -/

section Fields

variable {year month day hour minute second micro : Nat}
  {yearChars monthChars dayChars hourChars minuteChars secondChars microChars : List Char}

theorem readDate?_chars (hasYear : IsField 4 year yearChars) (hasMonth : IsField 2 month monthChars)
    (hasDay : IsField 2 day dayChars) :
    readDate? (yearChars ++ '-' :: (monthChars ++ '-' :: dayChars)) =
      some (.monthDay year month day) := by
  have last := hasDay.readDigits? []
  rw [List.append_nil] at last
  obtain ⟨c, more, rfl, digit⟩ := hasMonth.exists_cons (by decide)
  have noWeek : c ≠ 'W' := by
    rintro rfl
    cases digit
  have middle := hasMonth.readDigits? ('-' :: dayChars)
  rw [List.cons_append] at middle ⊢
  simp only [readDate?, hasYear.readDigits?, Option.bind_eq_bind, Option.bind_some]
  split
  · rename_i week
    exact absurd (List.cons.inj week).1 noWeek
  · simp only [middle, Option.bind_some, readHyphen?, ↓reduceIte, last]

theorem dateLength_chars (hasYear : IsField 4 year yearChars)
    (hasMonth : IsField 2 month monthChars) (long : 3 < rest.length) :
    dateLength (yearChars ++ '-' :: (monthChars ++ rest)) = 10 := by
  have size : (yearChars ++ '-' :: (monthChars ++ rest)).length ≠ 7 := by
    simp only [List.length_append, List.length_cons, hasYear.length, hasMonth.length]
    omega
  obtain ⟨c, more, rfl, digit⟩ := hasMonth.exists_cons (by decide)
  have noWeek : c ≠ 'W' := by
    rintro rfl
    cases digit
  rw [dateLength, if_neg size, List.drop_left' hasYear.length]
  split
  · rename_i week
    exact absurd (List.cons.inj (List.cons.inj week).2).1 noWeek
  · rfl
  · rename_i week
    cases week
  · rename_i other _
    exact absurd rfl (other _)

/-- A part of a time of day in front of a colon. -/
private theorem readParts?_colon {colons : Bool} {part fuel : Nat} (clock : Clock)
    (field : IsField 2 n cs) (begun : part = 0 ∨ colons = true) (more : rest ≠ []) :
    readParts? colons part clock (cs ++ ':' :: rest) (fuel + 1) =
      readParts? true (part + 1) (clock.set part n) rest fuel := by
  obtain ⟨c, later, rfl⟩ := List.exists_cons_of_ne_nil more
  have colon : (if part = 0 then true else colons) = true := by
    rcases begun with rfl | rfl
    · rfl
    · simp
  simp only [readParts?, field.readDigits?, Option.bind_eq_bind, Option.bind_some,
    beq_self_eq_true, colon, Bool.and_self, ↓reduceIte]

/-- The fraction of a second as it is written. -/
def fractionChars (micro : Nat) : List Char := (fractionText micro).toList

private theorem readParts?_seconds (clock : Clock) (field : IsField 2 n cs) (fits : micro < 10 ^ 6) :
    readParts? true 2 { clock with micro := 0 } (cs ++ fractionChars micro) 1 =
      some ({ clock with second := n, micro }, false) := by
  by_cases zero : micro = 0
  · simp only [readParts?, fractionChars, fractionText, zero, ↓reduceIte, String.toList_empty,
      field.readDigits?, Option.bind_eq_bind, Option.bind_some, Clock.set]
  · have behind := isField_padded 6 (by decide) fits
    have read := behind.readDigits? []
    rw [List.append_nil] at read
    obtain ⟨c, more, chars, digit⟩ := behind.exists_cons (by decide)
    have written : fractionChars micro = '.' :: (padded 6 micro).toList := by
      simp [fractionChars, fractionText, zero]
    have fraction : readFraction? { clock with second := n, micro := 0 } (padded 6 micro).toList =
        some ({ clock with second := n, micro }, false) := by
      simp [readFraction?, behind.length, read, isLeft]
    rw [written]
    rw [chars] at fraction ⊢
    simpa [readParts?, field.readDigits?, Clock.set] using fraction

theorem readClock?_chars (hasHour : IsField 2 hour hourChars)
    (hasMinute : IsField 2 minute minuteChars) (hasSecond : IsField 2 second secondChars)
    (fits : micro < 10 ^ 6) :
    readClock? (hourChars ++ ':' :: (minuteChars ++ ':' :: (secondChars ++ fractionChars micro))) =
      some ({ hour, minute, second, micro }, false) := by
  rw [readClock?, readParts?_colon _ hasHour (.inl rfl) (by simp),
    readParts?_colon _ hasMinute (.inr rfl) ?_]
  · exact readParts?_seconds { hour, minute } hasSecond fits
  · obtain ⟨c, more, rfl, -⟩ := hasSecond.exists_cons (by decide)
    simp

/-- A character of a time of day. -/
private def IsClockChar (c : Char) : Prop := c.isDigit = true ∨ c = ':' ∨ c = '.'

private theorem isClockChar_fractionChars (fits : micro < 10 ^ 6) :
    ∀ c ∈ fractionChars micro, IsClockChar c := by
  intro c mem
  by_cases zero : micro = 0
  · simp [fractionChars, fractionText, zero] at mem
  · have written : fractionChars micro = '.' :: (padded 6 micro).toList := by
      simp [fractionChars, fractionText, zero]
    rw [written] at mem
    rcases List.mem_cons.mp mem with point | digit
    · exact .inr (.inr point)
    · exact .inl ((isField_padded 6 (by decide) fits).digits c digit)

theorem readDaytime?_chars (hasHour : IsField 2 hour hourChars)
    (hasMinute : IsField 2 minute minuteChars) (hasSecond : IsField 2 second secondChars)
    (fits : micro < 10 ^ 6) :
    readDaytime? ((hourChars ++ ':' :: (minuteChars ++ ':' :: (secondChars ++
        fractionChars micro))) ++ (offsetText 0).toList) =
      some ({ hour, minute, second, micro }, some 0) := by
  have zone : (offsetText 0).toList = ['+', '0', '0', ':', '0', '0'] := by decide
  have offset : readOffset? ['+', '0', '0', ':', '0', '0'] = some 0 := by decide
  have clock : ∀ c ∈ hourChars ++ ':' :: (minuteChars ++ ':' :: (secondChars ++
      fractionChars micro)), (c != '+' && c != '-' && c != 'Z') = true := by
    intro c mem
    have char : IsClockChar c := by
      simp only [List.mem_append, List.mem_cons] at mem
      rcases mem with digit | colon | digit | colon | digit | fraction
      · exact .inl (hasHour.digits c digit)
      · exact .inr (.inl colon)
      · exact .inl (hasMinute.digits c digit)
      · exact .inr (.inl colon)
      · exact .inl (hasSecond.digits c digit)
      · exact isClockChar_fractionChars fits c fraction
    rcases char with digit | rfl | rfl
    · simp only [Bool.and_eq_true, bne_iff_ne]
      refine ⟨⟨?_, ?_⟩, ?_⟩ <;> rintro rfl <;> cases digit
    · rfl
    · rfl
  rw [zone, readDaytime?, List.takeWhile_append_of_pos clock, List.dropWhile_append_of_pos clock]
  simp only [List.takeWhile_cons, List.dropWhile_cons, bne_self_eq_false, Bool.false_and,
    Bool.false_eq_true, ↓reduceIte, List.append_nil,
    readClock?_chars hasHour hasMinute hasSecond fits, offset]
  rfl

/-- A date and a time of day are read apart at the character between them. -/
theorem readForm?_chars {clock : Clock} {offset : Option Int} (hasYear : IsField 4 year yearChars)
    (hasMonth : IsField 2 month monthChars) (hasDay : IsField 2 day dayChars)
    (daytime : readDaytime? rest = some (clock, offset)) :
    readForm? (yearChars ++ '-' :: (monthChars ++ '-' :: (dayChars ++ 'T' :: rest))) =
      some (.monthDay year month day, clock, offset) := by
  have size : (yearChars ++ '-' :: (monthChars ++ '-' :: dayChars)).length = 10 := by
    simp only [List.length_append, List.length_cons, hasYear.length, hasMonth.length,
      hasDay.length]
  have length : dateLength (yearChars ++ '-' :: (monthChars ++ '-' :: (dayChars ++ 'T' :: rest))) =
      10 := by
    refine dateLength_chars hasYear hasMonth ?_
    simp only [List.length_cons, List.length_append, hasDay.length]
    omega
  have parts : yearChars ++ '-' :: (monthChars ++ '-' :: (dayChars ++ 'T' :: rest)) =
      (yearChars ++ '-' :: (monthChars ++ '-' :: dayChars)) ++ 'T' :: rest := by
    simp only [List.append_assoc, List.cons_append]
  have long : ¬((yearChars ++ '-' :: (monthChars ++ '-' :: dayChars)) ++ 'T' :: rest).length < 7 := by
    rw [List.length_append, size]
    omega
  rw [parts] at length ⊢
  simp only [readForm?, if_neg long, length, List.take_left' size, List.drop_left' size,
    readDate?_chars hasYear hasMonth hasDay, Option.bind_eq_bind, Option.bind_some,
    WrittenDate.isForm, daytime, Bool.not_true, Bool.false_eq_true, ↓reduceIte]

end Fields

/-- The parts of a time on the calendar name it. -/
theorem fields_spec {t : Time} (known : onCalendar t.micros = true) :
    ∃ days, t.fields.year < 10 ^ 4 ∧ t.fields.month < 10 ^ 2 ∧ t.fields.day < 10 ^ 2 ∧
      t.fields.hour < 24 ∧ t.fields.minute < 60 ∧ t.fields.second < 60 ∧
      t.fields.micro < 10 ^ 6 ∧
      daysOfFields t.fields.year t.fields.month t.fields.day = .ok days ∧
      t.micros = days * dayMicros + Clock.micros
        { hour := t.fields.hour, minute := t.fields.minute, second := t.fields.second
          micro := t.fields.micro } := by
  have last : dayCount * dayMicros = 315537897600000000 := rfl
  simp only [onCalendar, Bool.and_eq_true, decide_eq_true_eq, last] at known
  obtain ⟨low, high⟩ := known
  obtain ⟨year, month, day, date, y, m, d, days⟩ :=
    daysOfFields_dateOfDays (show t.micros.toNat / 1000000 / 86400 < 3652059 by omega)
  refine ⟨t.micros.toNat / 1000000 / 86400, ?_⟩
  simp only [fields, date, Clock.micros, Clock.seconds, dayMicros, secondMicros]
  refine ⟨y, m, d, by omega, by omega, by omega, by omega, days, ?_⟩
  push_cast
  omega

/-- A time of universal time on the calendar is read back from its text. -/
theorem ofText_toText {t : Time} (universal : t.offset = some 0)
    (known : onCalendar t.micros = true) : ofText t.toText = .ok t := by
  obtain ⟨days, year, month, day, hour, minute, second, micro, found, total⟩ := fields_spec known
  have hasYear := isField_padded 4 (by decide) year
  have hasMonth := isField_padded 2 (by decide) month
  have hasDay := isField_padded 2 (by decide) day
  have hasHour := isField_padded 2 (n := t.fields.hour) (by decide) (by omega)
  have hasMinute := isField_padded 2 (n := t.fields.minute) (by decide) (by omega)
  have hasSecond := isField_padded 2 (n := t.fields.second) (by decide) (by omega)
  have daytime := readDaytime?_chars hasHour hasMinute hasSecond micro
  have form := readForm?_chars hasYear hasMonth hasDay daytime
  have text : t.toText.toList = (padded 4 t.fields.year).toList ++ '-' ::
      ((padded 2 t.fields.month).toList ++ '-' :: ((padded 2 t.fields.day).toList ++ 'T' ::
        (((padded 2 t.fields.hour).toList ++ ':' :: ((padded 2 t.fields.minute).toList ++ ':' ::
          ((padded 2 t.fields.second).toList ++ fractionChars t.fields.micro))) ++
            (offsetText 0).toList))) := by
    simp [toText, clockText, universal, fractionChars]
  have fine : Clock.fault? { hour := t.fields.hour, minute := t.fields.minute
                             second := t.fields.second, micro := t.fields.micro } = none := by
    rw [Clock.fault?, if_neg (by simpa using by omega), if_neg (by simpa using by omega),
      if_neg (by simpa using by omega)]
  have whole : ({ micros := t.micros, offset := some 0 } : Time) = t := by rw [← universal]
  rw [ofText, text, form]
  simp only [WrittenDate.days, found, fine, ← total, if_neg (show ¬dayMicros ≤ (0 : Int).natAbs by
    decide), bind, Except.bind, whole]

end Earmark.Time
