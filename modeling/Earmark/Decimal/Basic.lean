import Earmark.Whole

/-!
Decimal numbers as pairs of a coefficient and a power of ten.

A number keeps the exponent it was written with, so `1.0` and `1.00` are equal in value and
different in text. Zero has a sign. Infinities and not-a-number values are ordinary members, and
`compare?` refuses to order the latter.
-/

namespace Earmark

open scoped Earmark.Whole

/-- A decimal number; `finite neg coeff exp` stands for `± coeff · 10 ^ exp`. -/
inductive Decimal
  | finite (neg : Bool) (coeff : Nat) (exp : Int)
  | infinity (neg : Bool)
  | nan (neg : Bool) (signalling : Bool) (payload : Nat)
  deriving DecidableEq, Repr, Inhabited

/-- What the arithmetic of decimals refuses to do. -/
inductive Decimal.Fault
  /-- The operation has no defined result, or its result has too many digits. -/
  | undefinedResult
  /-- The result lies beyond the greatest exponent. -/
  | tooLarge
  deriving DecidableEq, Repr

/-- The number of decimal digits of `n`; zero has one. -/
def digitCount (n : Nat) : Nat :=
  if n < 10 then 1 else digitCount (n / 10) + 1

theorem digitCount_pos (n : Nat) : 0 < digitCount n := by
  rw [digitCount]; split <;> omega

/-- A number is below ten to the number of its digits. -/
theorem lt_pow_digitCount (n : Nat) : n < 10 ^ digitCount n := by
  induction n using Nat.strongRecOn with
  | ind n ih =>
    rw [digitCount]
    split
    · omega
    · have := ih (n / 10) (by omega)
      rw [Nat.pow_succ]
      omega

/-- A positive number is at least ten to the number of its digits less one. -/
theorem pow_digitCount_le (n : Nat) (h : 0 < n) : 10 ^ (digitCount n - 1) ≤ n := by
  induction n using Nat.strongRecOn with
  | ind n ih =>
    rw [digitCount]
    split
    · simp only [Nat.sub_self, Nat.pow_zero]; omega
    · have := ih (n / 10) (by omega) (by omega)
      have pos := digitCount_pos (n / 10)
      obtain ⟨k, hk⟩ : ∃ k, digitCount (n / 10) = k + 1 := ⟨digitCount (n / 10) - 1, by omega⟩
      rw [hk] at this ⊢
      simp only [Nat.add_sub_cancel] at this ⊢
      rw [Nat.pow_succ]
      omega

namespace Decimal

/-- Zero to the cent. -/
def zero : Decimal := .finite false 0 (-2)

def ofNat (n : Nat) : Decimal := .finite false n 0

def ofInt (n : Int) : Decimal := .finite (n < 0) n.natAbs 0

/-- The number of cents `c`, written with two places. -/
def ofCents (c : Int) : Decimal := .finite (c < 0) c.natAbs (-2)

def isFinite : Decimal → Bool
  | .finite .. => true
  | _ => false

def isNaN : Decimal → Bool
  | .nan .. => true
  | _ => false

def isSignalling : Decimal → Bool
  | .nan _ signalling _ => signalling
  | _ => false

def negate : Decimal → Decimal
  | .finite neg coeff exp => .finite (!neg) coeff exp
  | .infinity neg => .infinity (!neg)
  | .nan neg signalling payload => .nan (!neg) signalling payload

/-- The coefficient under its sign. -/
def signed (neg : Bool) (coeff : Nat) : Int := if neg then -(coeff : Int) else coeff

/--
Compares two magnitudes `a · 10 ^ ea` and `b · 10 ^ eb`. The places of their leading digits decide
where they differ, so coefficients are brought to one exponent only when that costs few digits.
-/
def compareMagnitude (a : Nat) (ea : Int) (b : Nat) (eb : Int) : Ordering :=
  if a = 0 then compare 0 b
  else if b = 0 then .gt
  else
    let ta := ea + digitCount a
    let tb := eb + digitCount b
    if ta < tb then .lt
    else if tb < ta then .gt
    else if ea ≤ eb then compare a (b * 10 ^ (eb - ea).toNat)
    else compare (a * 10 ^ (ea - eb).toNat) b

/-- Compares two numbers that are not not-a-number; the two zeros are equal. -/
def compareNumbers : Decimal → Decimal → Ordering
  | .infinity na, .infinity nb => if na = nb then .eq else if na then .lt else .gt
  | .infinity na, _ => if na then .lt else .gt
  | _, .infinity nb => if nb then .gt else .lt
  | .finite na a ea, .finite nb b eb =>
    match na && a != 0, nb && b != 0 with
    | false, false => compareMagnitude a ea b eb
    | true, true => compareMagnitude b eb a ea
    | true, false => .lt
    | false, true => .gt
  | _, _ => .eq

/-- Orders two numbers; not-a-number has no place in the order. -/
def compare? (a b : Decimal) : Except Fault Ordering :=
  if a.isNaN || b.isNaN then .error .undefinedResult else .ok (compareNumbers a b)

def lt? (a b : Decimal) : Except Fault Bool := (· == .lt) <$> compare? a b

def le? (a b : Decimal) : Except Fault Bool := (· != .gt) <$> compare? a b

def gt? (a b : Decimal) : Except Fault Bool := lt? b a

/-- Equality of values, which a quiet not-a-number never has. -/
def eq? (a b : Decimal) : Except Fault Bool :=
  if a.isSignalling || b.isSignalling then .error .undefinedResult
  else if a.isNaN || b.isNaN then .ok false
  else .ok (compareNumbers a b == .eq)

end Decimal

end Earmark
