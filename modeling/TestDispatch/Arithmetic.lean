/-! The arithmetic the program's numbers use whatever other instances are in scope: a power
with a natural exponent is the one `NatPow` gives, and a sum starts from the literal `0`. -/
namespace TestDispatch.Arithmetic

/-- A power with a natural exponent is the one that `NatPow` gives. -/
scoped instance (priority := high) natPow {α : Type} [NatPow α] : Pow α Nat := instPowNat

/-- A sum starts from the literal `0`. -/
scoped instance (priority := high) zeroOfLiteral {α : Type} [OfNat α 0] : Zero α := Zero.ofOfNat0

end TestDispatch.Arithmetic
