/-!
Powers and sums of whole numbers, read the same way in every module.

A module that brings an algebraic hierarchy into scope would find the hierarchy's instances first;
with these open, a definition means the core library's arithmetic wherever it is read. The type of
an exponent is written where the exponent is a numeral, for otherwise it is found by default.
-/

namespace Earmark.Whole

scoped instance natZero : Zero Nat := Zero.ofOfNat0

scoped instance natPow : Pow Nat Nat := instPowNat

scoped instance intPow : Pow Int Nat := instPowNat

end Earmark.Whole
