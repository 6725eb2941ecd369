/-
  The bounds of whole numbers of a fixed number of bits.
-/

namespace QueryClient.Number

/-- The greatest number of `bits` bits without a sign. -/
def unsignedMax (bits : Nat) : Nat := Nat.pow 2 bits - 1

/-- The greatest number of `bits` bits with a sign. -/
def signedMax (bits : Nat) : Int := unsignedMax (bits - 1)

/-- The least number of `bits` bits with a sign. -/
def signedMin (bits : Nat) : Int := -signedMax bits - 1

/-- Whether a number has `bits` bits with a sign. -/
def isSigned (bits : Nat) (i : Int) : Bool := signedMin bits ≤ i ∧ i ≤ signedMax bits

end QueryClient.Number
