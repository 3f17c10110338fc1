import Earmark.Proofs.Milestones

/-!
Decimal numbers as text. A number is read back from the text that shows it, digit by digit and with
its exponent, as long as its leading digit and its exponent are within what a written number may
have (`Decimal.ofText?_toText`).
-/

namespace Earmark

namespace Text

variable {cs whole fraction rest : List Char} {c : Char}

/-! ### Digits -/

/-- A character that may stand in a number and that reading leaves as it is. -/
def IsPlain (c : Char) : Prop := isBlank c = false ∧ c ≠ '_' ∧ c.toNat < 128

theorem isPlain_of_isDigit (digit : c.isDigit = true) : IsPlain c := by
  obtain ⟨low, high⟩ := Char.isDigit_iff_toNat.mp digit
  have low : 48 ≤ c.toNat := low
  have high : c.toNat ≤ 57 := high
  refine ⟨?_, ?_, by omega⟩
  · simp only [isBlank, Bool.or_eq_false_iff, Bool.and_eq_false_imp, decide_eq_false_iff_not,
      decide_eq_true_eq, beq_eq_false_iff_ne]
    omega
  · rintro rfl
    cases digit

theorem asciiDigit?_of_isDigit (digit : c.isDigit = true) :
    asciiDigit? c = some (c.toNat - '0'.toNat) := by
  obtain ⟨low, high⟩ := Char.isDigit_iff_toNat.mp digit
  exact if_pos ⟨low, high⟩

theorem toLower_of_isDigit (digit : c.isDigit = true) : c.toLower = c := by
  obtain ⟨-, high⟩ := Char.isDigit_iff_toNat.mp digit
  have high : c.val.toNat ≤ 57 := high
  have small : ¬(c.val ≥ 'A'.val ∧ c.val ≤ 'Z'.val) := by
    rintro ⟨capital, -⟩
    have capital : 65 ≤ c.val.toNat := UInt32.le_iff_toNat_le.mp capital
    omega
  rw [Char.toLower, dif_neg small]

theorem filterMap_asciiDigit? (digits : ∀ c ∈ cs, c.isDigit = true) :
    cs.filterMap asciiDigit? = cs.map fun c => c.toNat - '0'.toNat := by
  rw [← List.filterMap_eq_map]
  exact List.filterMap_congr fun c mem => asciiDigit?_of_isDigit (digits c mem)

theorem ofDigits_filterMap (digits : ∀ c ∈ cs, c.isDigit = true) :
    ofDigits (cs.filterMap asciiDigit?) = Nat.ofDigitChars 10 cs 0 := by
  rw [filterMap_asciiDigit? digits, ofDigits, List.foldl_map, Nat.ofDigitChars_eq_foldl]

theorem filterMap_asciiDigit?_ne_nil (digits : ∀ c ∈ cs, c.isDigit = true) (nonempty : cs ≠ []) :
    cs.filterMap asciiDigit? ≠ [] := by
  simpa [filterMap_asciiDigit? digits] using nonempty

theorem isDigit_of_mem_toDigits {n : Nat} : ∀ c ∈ Nat.toDigits 10 n, c.isDigit = true :=
  fun _ mem => Nat.isDigit_of_mem_toDigits (by decide) (by decide) mem

/-- Digits end where something else begins. -/
theorem takeDigits_append (digits : ∀ c ∈ cs, c.isDigit = true)
    (ends : ∀ c ∈ rest.head?, c.isDigit = false) :
    takeDigits (cs ++ rest) = (cs.filterMap asciiDigit?, rest) := by
  have taken : rest.takeWhile Char.isDigit = [] ∧ rest.dropWhile Char.isDigit = rest := by
    cases rest with
    | nil => exact ⟨rfl, rfl⟩
    | cons c rest =>
      have other := ends c rfl
      simp [other]
  rw [takeDigits, List.takeWhile_append_of_pos digits, List.dropWhile_append_of_pos digits, taken.1,
    taken.2, List.append_nil]

/-! ### Literals -/

/-- An exponent as it is written. -/
def exponentChars (neg : Bool) (n : Nat) : List Char :=
  'E' :: (if neg then '-' else '+') :: Nat.toDigits 10 n

theorem readExponent?_exponentChars (neg : Bool) (n : Nat) :
    readExponent? (exponentChars neg n) = some (if neg then -(n : Int) else n) := by
  have taken : takeDigits (Nat.toDigits 10 n) = ((Nat.toDigits 10 n).filterMap asciiDigit?, []) := by
    have split : takeDigits (Nat.toDigits 10 n ++ []) = _ :=
      takeDigits_append isDigit_of_mem_toDigits (by simp)
    rwa [List.append_nil] at split
  have value : ofDigits ((Nat.toDigits 10 n).filterMap asciiDigit?) = n := by
    rw [ofDigits_filterMap isDigit_of_mem_toDigits, Nat.ofDigitChars_ten_toDigits]
  have nonempty := filterMap_asciiDigit?_ne_nil (isDigit_of_mem_toDigits (n := n))
    Nat.toDigits_ne_nil
  have signed : takeSign ((if neg then '-' else '+') :: Nat.toDigits 10 n) =
      (neg, Nat.toDigits 10 n) := by
    cases neg <;> rfl
  simp only [exponentChars, readExponent?, or_true, ↓reduceIte, signed, taken, value]

/-- Digits on both sides of a point are read as one coefficient. -/
theorem readUnsigned?_point (neg : Bool) (digits : ∀ c ∈ whole ++ fraction, c.isDigit = true)
    (nonempty : whole ≠ []) (ends : ∀ c ∈ rest.head?, c.isDigit = false) :
    readUnsigned? neg (whole ++ '.' :: (fraction ++ rest)) =
      (readExponent? rest).map fun exp =>
        { neg, coeff := Nat.ofDigitChars 10 (whole ++ fraction) 0
          exp := exp - fraction.length } := by
  have left : ∀ c ∈ whole, c.isDigit = true := fun c mem => digits c (by simp [mem])
  have right : ∀ c ∈ fraction, c.isDigit = true := fun c mem => digits c (by simp [mem])
  have begun := filterMap_asciiDigit?_ne_nil left nonempty
  have count : (fraction.filterMap asciiDigit?).length = fraction.length := by
    simp [filterMap_asciiDigit? right]
  have pointed : takeDigits (whole ++ '.' :: (fraction ++ rest)) =
      (whole.filterMap asciiDigit?, '.' :: (fraction ++ rest)) :=
    takeDigits_append left (by simp)
  simp only [readUnsigned?, pointed, takeDigits_append right ends, List.append_eq_nil_iff, begun,
    false_and, ↓reduceIte, count]
  rw [← List.filterMap_append, ofDigits_filterMap digits]

theorem readUnsigned?_whole (neg : Bool) (digits : ∀ c ∈ whole, c.isDigit = true)
    (nonempty : whole ≠ []) (ends : ∀ c ∈ rest.head?, c.isDigit = false ∧ c ≠ '.') :
    readUnsigned? neg (whole ++ rest) =
      (readExponent? rest).map fun exp => { neg, coeff := Nat.ofDigitChars 10 whole 0, exp } := by
  have begun := filterMap_asciiDigit?_ne_nil digits nonempty
  simp only [readUnsigned?, takeDigits_append digits fun c mem => (ends c mem).1]
  split
  · exact absurd rfl (ends '.' rfl).2
  · simp only [begun, ↓reduceIte, List.append_nil, ofDigits_filterMap digits, List.length_nil,
      Nat.cast_zero, sub_zero]

/-- What may follow the digits of a literal: an exponent or nothing. -/
structure IsTail (rest : List Char) (exp : Int) : Prop where
  read : readExponent? rest = some exp
  plain : ∀ c ∈ rest, IsPlain c
  ends : ∀ c ∈ rest.head?, c.isDigit = false ∧ c ≠ '.'

theorem isTail_nil : IsTail [] 0 := ⟨rfl, by simp, by simp⟩

theorem isTail_exponentChars (neg : Bool) (n : Nat) :
    IsTail (exponentChars neg n) (if neg then -(n : Int) else n) := by
  refine ⟨readExponent?_exponentChars neg n, fun c mem => ?_, by simp [exponentChars]⟩
  rcases List.mem_cons.mp mem with rfl | mem
  · exact ⟨by decide, by decide, by decide⟩
  · rcases List.mem_cons.mp mem with rfl | mem
    · cases neg <;> exact ⟨by decide, by decide, by decide⟩
    · exact isPlain_of_isDigit (isDigit_of_mem_toDigits c mem)

/-- An unsigned literal in plain characters that begins with a digit and says `coeff · 10 ^ exp`. -/
structure Spells (cs : List Char) (coeff : Nat) (exp : Int) : Prop where
  begins : ∃ first more, cs = first :: more ∧ first.isDigit = true
  plain : ∀ c ∈ cs, IsPlain c
  read : ∀ neg, readUnsigned? neg cs = some { neg, coeff, exp }

private theorem begins_append (digits : ∀ c ∈ whole, c.isDigit = true) (nonempty : whole ≠ []) :
    ∃ first more, whole ++ rest = first :: more ∧ first.isDigit = true := by
  cases whole with
  | nil => exact absurd rfl nonempty
  | cons first more => exact ⟨first, more ++ rest, rfl, digits first (by simp)⟩

theorem spells_point {exp : Int} (digits : ∀ c ∈ whole ++ fraction, c.isDigit = true)
    (nonempty : whole ≠ []) (tail : IsTail rest exp) :
    Spells (whole ++ '.' :: (fraction ++ rest)) (Nat.ofDigitChars 10 (whole ++ fraction) 0)
      (exp - fraction.length) := by
  refine ⟨begins_append (fun c mem => digits c (by simp [mem])) nonempty, fun c mem => ?_,
    fun neg => ?_⟩
  · rcases List.mem_append.mp mem with left | right
    · exact isPlain_of_isDigit (digits c (by simp [left]))
    · rcases List.mem_cons.mp right with rfl | right
      · exact ⟨by decide, by decide, by decide⟩
      · rcases List.mem_append.mp right with right | behind
        · exact isPlain_of_isDigit (digits c (by simp [right]))
        · exact tail.plain c behind
  · rw [readUnsigned?_point neg digits nonempty fun c mem => (tail.ends c mem).1, tail.read]
    rfl

theorem spells_whole {exp : Int} (digits : ∀ c ∈ whole, c.isDigit = true) (nonempty : whole ≠ [])
    (tail : IsTail rest exp) : Spells (whole ++ rest) (Nat.ofDigitChars 10 whole 0) exp := by
  refine ⟨begins_append digits nonempty, fun c mem => ?_, fun neg => ?_⟩
  · rcases List.mem_append.mp mem with left | behind
    · exact isPlain_of_isDigit (digits c left)
    · exact tail.plain c behind
  · rw [readUnsigned?_whole neg digits nonempty tail.ends, tail.read]
    rfl

end Text

namespace Decimal

open Text

private theorem isTail_power (power : Int) :
    IsTail ("E" ++ (if power < 0 then "-" else "+") ++ Nat.repr power.natAbs).toList power := by
  by_cases negative : power < 0
  · have tail := isTail_exponentChars true power.natAbs
    rw [if_pos rfl, show -(power.natAbs : Int) = power by omega] at tail
    simpa [exponentChars, negative] using tail
  · have tail := isTail_exponentChars false power.natAbs
    rw [if_neg Bool.false_ne_true, show (power.natAbs : Int) = power by omega] at tail
    simpa [exponentChars, negative] using tail

/-- Digits with a point behind some of them and with an exponent. -/
private theorem spells_split {ds rest : List Char} {power : Int}
    (digits : ∀ c ∈ ds, c.isDigit = true) (place : Nat) (begun : 0 < place)
    (within : place ≤ ds.length) (tail : IsTail rest power) :
    Spells (ds.take place ++ '.' :: (ds.drop place ++ rest)) (Nat.ofDigitChars 10 ds 0)
      (power - (ds.length - place : Nat)) := by
  have whole : ds.take place ++ ds.drop place = ds := List.take_append_drop place ds
  have nonempty : ds.take place ≠ [] := by
    rw [← List.length_pos_iff, List.length_take]
    omega
  have spelt := spells_point (whole.symm ▸ digits) nonempty tail
  rwa [whole, List.length_drop] at spelt

/-- A number spells its coefficient and its exponent. -/
theorem spells_unsignedText (coeff : Nat) (exp : Int) :
    Spells (unsignedText coeff exp).toList coeff exp := by
  have value : Nat.ofDigitChars 10 (Nat.toDigits 10 coeff) 0 = coeff :=
    Nat.ofDigitChars_ten_toDigits
  have digits := isDigit_of_mem_toDigits (n := coeff)
  have nonempty : Nat.toDigits 10 coeff ≠ [] := Nat.toDigits_ne_nil
  have size : 0 < (Nat.toDigits 10 coeff).length := List.length_pos_iff.mpr nonempty
  have count : (Nat.repr coeff).length = (Nat.toDigits 10 coeff).length := by
    rw [← String.length_toList, Nat.toList_repr]
  simp only [unsignedText, count, Nat.toList_repr]
  by_cases inPlace : exp ≤ 0 ∧ -6 < exp + (Nat.toDigits 10 coeff).length
  · rw [if_pos inPlace]
    by_cases small : exp + (Nat.toDigits 10 coeff).length ≤ 0
    · -- Zeros stand between the point and the digits.
      have zeroes : ∀ c ∈ ['0'] ++ (List.replicate (-(exp + (Nat.toDigits 10 coeff).length)).toNat
          '0' ++ Nat.toDigits 10 coeff), c.isDigit = true := by
        simp only [List.mem_append, List.mem_singleton, List.mem_replicate]
        rintro c (rfl | ⟨-, rfl⟩ | mem)
        · rfl
        · rfl
        · exact digits c mem
      have spelt := spells_point zeroes (by simp) isTail_nil
      rw [if_pos small]
      convert spelt using 1
      · simp [zeros]
      · simp [Nat.ofDigitChars_append, Nat.ofDigitChars_cons, Nat.ofDigitChars_replicate_zero, value]
      · simp only [List.length_append, List.length_replicate]
        omega
    · rw [if_neg small]
      by_cases whole : exp = 0
      · simpa [whole, value] using spells_whole digits nonempty isTail_nil
      · have place : ((exp + (Nat.toDigits 10 coeff).length).toNat : Int) =
            exp + (Nat.toDigits 10 coeff).length := by omega
        have spelt := spells_split digits (exp + (Nat.toDigits 10 coeff).length).toNat
          (by omega) (by omega) isTail_nil
        rw [if_neg whole]
        convert spelt using 1
        · simp
        · exact value.symm
        · omega
  · rw [if_neg inPlace]
    have tail := isTail_power (exp + (Nat.toDigits 10 coeff).length - 1)
    by_cases single : (Nat.toDigits 10 coeff).length = 1
    · have spelt := spells_whole digits nonempty tail
      rw [if_pos single]
      convert spelt using 1
      · simp
      · exact value.symm
      · omega
    · have spelt := spells_split digits 1 one_pos size tail
      rw [if_neg single]
      convert spelt using 1
      · simp
      · exact value.symm
      · omega

/-- A finite number that a text can say. -/
def IsWritten : Decimal → Prop
  | .finite _ coeff exp =>
    exp + digitCount coeff - 1 ≤ maxWrittenPlace ∧ minWrittenExponent ≤ exp
  | _ => False

private theorem toAsciiDigits?_eq_self {cs : List Char} (plain : ∀ c ∈ cs, IsPlain c) :
    toAsciiDigits? cs = some cs := by
  rw [toAsciiDigits?]
  induction cs with
  | nil => rfl
  | cons c rest ih =>
    have ascii := (plain c (by simp)).2.2
    have later := ih fun c mem => plain c (by simp [mem])
    rw [List.mapM_cons, if_pos ascii, later]
    rfl

private theorem dropWhile_eq_self {cs : List Char} (plain : ∀ c ∈ cs, IsPlain c) :
    cs.dropWhile isBlank = cs := by
  cases cs with
  | nil => rfl
  | cons c rest => simp [(plain c (by simp)).1]

private theorem strip_of_plain {s : String} (plain : ∀ c ∈ s.toList, IsPlain c) : strip s = s := by
  have backward : ∀ c ∈ s.toList.reverse, IsPlain c := fun c mem => plain c (by simpa using mem)
  rw [strip, stripChars, dropWhile_eq_self plain, dropWhile_eq_self backward, List.reverse_reverse,
    String.ofList_toList]

/-- A text that begins with a digit, its sign aside, is no name of a special value. -/
private theorem ofChars?_eq {neg : Bool} {coeff : Nat} {exp : Int} {cs : List Char}
    (spells : Spells cs coeff exp) (written : (finite neg coeff exp).IsWritten) :
    ofChars? ((if neg then ['-'] else []) ++ cs) = some (.finite neg coeff exp) := by
  obtain ⟨⟨first, more, rfl, digit⟩, -, read⟩ := spells
  obtain ⟨place, least⟩ := written
  have other {c : Char} (noDigit : c.isDigit = false) : first ≠ c := by
    rintro rfl
    simp [noDigit] at digit
  have signed : takeSign ((if neg then ['-'] else []) ++ first :: more) = (neg, first :: more) := by
    cases neg with
    | true => rfl
    | false =>
      simp only [Bool.false_eq_true, ↓reduceIte, List.nil_append, takeSign]
      split
      · rename_i begun
        exact absurd (List.cons.inj begun).1 (other rfl)
      · rename_i begun
        exact absurd (List.cons.inj begun).1 (other rfl)
      · rfl
  have low : lowerAscii (first :: more) = first :: lowerAscii more := by
    rw [lowerAscii, List.map_cons, toLower_of_isDigit digit]
    rfl
  simp only [ofChars?, signed, low]
  split
  · rename_i begun
    exact absurd (List.cons.inj begun).1 (other rfl)
  · rename_i begun
    exact absurd (List.cons.inj begun).1 (other rfl)
  · rename_i begun
    exact absurd (List.cons.inj begun).1 (other rfl)
  · simp [read, not_lt.mpr place, not_lt.mpr least]

/-- The number that a literal in plain characters says. -/
private theorem ofText?_eq {s : String} {neg : Bool} {coeff : Nat} {exp : Int} {cs : List Char}
    (text : s.toList = (if neg then ['-'] else []) ++ cs) (spells : Spells cs coeff exp)
    (written : (finite neg coeff exp).IsWritten) : ofText? s = some (.finite neg coeff exp) := by
  have plain : ∀ c ∈ s.toList, IsPlain c := by
    rw [text]
    intro c mem
    rcases List.mem_append.mp mem with sign | mem
    · cases neg with
      | true => exact List.mem_singleton.mp sign ▸ ⟨by decide, by decide, by decide⟩
      | false => cases sign
    · exact spells.plain c mem
  have filtered : s.toList.filter (· != '_') = s.toList :=
    List.filter_eq_self.mpr fun c mem => by simpa using (plain c mem).2.1
  rw [ofText?, strip_of_plain plain, filtered, toAsciiDigits?_eq_self plain, text]
  exact ofChars?_eq spells written

/-- A number is read back from the text that shows it. -/
theorem ofText?_toText {d : Decimal} (written : d.IsWritten) : ofText? d.toText = some d := by
  cases d with
  | infinity neg => exact written.elim
  | nan neg signalling payload => exact written.elim
  | finite neg coeff exp =>
    refine ofText?_eq ?_ (spells_unsignedText coeff exp) written
    cases neg <;> simp [toText]

theorem IsAmount.isWritten {d : Decimal} (amount : d.IsAmount) : d.IsWritten := by
  obtain ⟨neg, coeff, rfl, small⟩ := amount.exists_finite
  have few := (digitCount_le_iff coeff precision (by decide)).mpr small
  simp only [IsWritten, maxWrittenPlace, minWrittenExponent, precision] at few ⊢
  omega

private theorem not_isFinite_of_readPayload? {neg signalling : Bool} {cs : List Char} {d : Decimal}
    (read : readPayload? neg signalling cs = some d) : d.isFinite = false := by
  rw [readPayload?] at read
  split at read
  · cases read
    rfl
  · cases read

/-- A finite number that was read from a text can be written. -/
theorem isWritten_of_ofText? {s : String} {d : Decimal} (read : ofText? s = some d)
    (finite : d.isFinite) : d.IsWritten := by
  obtain ⟨cs, -, read⟩ := Option.bind_eq_some_iff.mp read
  simp only [ofChars?] at read
  split at read
  · split at read
    · cases read
      cases finite
    · cases read
  · simp [not_isFinite_of_readPayload? read] at finite
  · simp [not_isFinite_of_readPayload? read] at finite
  · obtain ⟨literal, -, read⟩ := Option.bind_eq_some_iff.mp read
    split at read
    · cases read
    · split at read
      · cases read
      · cases read
        exact ⟨by omega, by omega⟩

/-! ### Results of arithmetic -/

private theorem dropDigits_le_precision {coeff : Nat} {exp floor : Int}
    (few : exp + digitCount coeff - precision ≤ floor) :
    dropDigits .toEven coeff (floor - exp).toNat ≤ 10 ^ precision := by
  refine roundQuotient_le (by positivity) ?_
  rw [← pow_add]
  exact (lt_pow_digitCount coeff).le.trans (Nat.pow_le_pow_right (by omega) (by omega))

/-- A rounded number can be written. -/
theorem isWritten_of_round {neg : Bool} {coeff : Nat} {exp : Int} {r : Decimal}
    (rounded : round neg coeff exp = .ok r) : r.IsWritten := by
  have count := digitCount_pos coeff
  have zeroCount : digitCount 0 = 1 := by rw [digitCount]; rfl
  simp only [round] at rounded
  by_cases zero : coeff = 0
  · rw [if_pos zero] at rounded
    cases rounded
    simp only [IsWritten, zeroCount, maxWrittenPlace, minWrittenExponent, minExponent, maxExponent,
      precision]
    omega
  · rw [if_neg zero] at rounded
    split at rounded
    · cases rounded
    · rename_i inRange
      generalize start : max (exp + (digitCount coeff : Int) - precision) minExponent = floor
        at rounded
      have kept : dropDigits .toEven coeff (floor - exp).toNat ≤ 10 ^ precision :=
        dropDigits_le_precision (by omega)
      simp only [maxExponent, minExponent, precision] at inRange start kept
      split at rounded
      · cases rounded
        simp only [IsWritten, maxWrittenPlace, minWrittenExponent]
        omega
      · split at rounded
        · cases rounded
          simp only [IsWritten, zeroCount, maxWrittenPlace, minWrittenExponent]
          omega
        · generalize dropDigits .toEven coeff (floor - exp).toNat = digits at rounded kept
          split at rounded
          · rename_i few
            cases rounded
            simp only [IsWritten, maxWrittenPlace, minWrittenExponent, precision] at few ⊢
            omega
          · split at rounded
            · cases rounded
            · cases rounded
              have few : digitCount (digits / 10) ≤ 28 :=
                (digitCount_le_iff _ _ (by decide)).mpr (by omega)
              simp only [IsWritten, maxWrittenPlace, minWrittenExponent]
              omega

/-- The sum of finite numbers can be written. -/
theorem isWritten_of_add {a b r : Decimal} (finiteA : a.isFinite) (finiteB : b.isFinite)
    (added : a.add b = .ok r) : r.IsWritten := by
  cases a with
  | infinity neg => cases finiteA
  | nan neg signalling payload => cases finiteA
  | finite na ca ea =>
    cases b with
    | infinity neg => cases finiteB
    | nan neg signalling payload => cases finiteB
    | finite nb cb eb =>
      simp only [add, isNaN, Bool.or_self, Bool.false_eq_true, ↓reduceIte, addFinite,
        addAligned] at added
      split_ifs at added <;> exact isWritten_of_round added

theorem IsWritten.isFinite_eq {d : Decimal} (written : d.IsWritten) : d.isFinite = true := by
  cases d with
  | finite neg coeff exp => rfl
  | infinity neg => exact written.elim
  | nan neg signalling payload => exact written.elim

/-- The difference of finite numbers can be written. -/
theorem isWritten_of_sub {a b r : Decimal} (finiteA : a.isFinite) (finiteB : b.isFinite)
    (subtracted : a.sub b = .ok r) : r.IsWritten := by
  cases b with
  | infinity neg => cases finiteB
  | nan neg signalling payload => cases finiteB
  | finite nb cb eb =>
    refine isWritten_of_add finiteA (b := (finite nb cb eb).negate) rfl ?_
    cases a with
    | infinity neg => cases finiteA
    | nan neg signalling payload => cases finiteA
    | finite na ca ea => exact subtracted

/-- A total of finite numbers can be written. -/
theorem isWritten_of_sum {ds : List Decimal} {r : Decimal} (finite : ∀ d ∈ ds, d.isFinite)
    (summed : sum ds = .ok r) : r.IsWritten := by
  rw [sum] at summed
  generalize begun : zero = start at summed
  have written : start.IsWritten := begun ▸ isAmount_zero.isWritten
  clear begun
  induction ds generalizing start with
  | nil => exact Except.ok.inj summed ▸ written
  | cons d rest ih =>
    rw [List.foldlM_cons] at summed
    obtain ⟨next, added, summed⟩ := bind_ok_iff.mp summed
    exact ih (fun d mem => finite d (by simp [mem])) next summed
      (isWritten_of_add written.isFinite_eq (finite d (by simp)) added)

end Decimal

end Earmark
