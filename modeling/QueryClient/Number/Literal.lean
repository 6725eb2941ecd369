/-
  Numbers written as text: signed integers within a range, and floating point numbers with an
  optional fraction and exponent.
-/
import QueryClient.Number.Double
import QueryClient.Number.Width

namespace QueryClient.Number

/-- The value of an ASCII decimal digit. -/
def digitValue? (c : Char) : Option Nat :=
  if '0' ≤ c ∧ c ≤ '9' then some (c.toNat - 0x30) else none

/-- The number that a list of decimal digits spells after the digits of `acc`. -/
def natOfDigits (acc : Nat) (ds : List Char) : Nat :=
  ds.foldl (fun n d => 10 * n + (d.toNat - 0x30)) acc

/-- The digits at the front of a text, and the rest. -/
def spanDigits (cs : List Char) : List Char × List Char :=
  cs.span fun c => (digitValue? c).isSome

/-- Why a text is not the integer asked for. -/
inductive IntegerError
  | empty
  | invalidDigit
  | tooLarge
  | tooSmall
  deriving DecidableEq, Repr

def IntegerError.message : IntegerError → String
  | .empty => "cannot parse integer from empty string"
  | .invalidDigit => "invalid digit found in string"
  | .tooLarge => "number too large to fit in target type"
  | .tooSmall => "number too small to fit in target type"

/-- Reads digits from the left; each must be a digit and keep the number at most `max`, and the
first one that does not decides the error. -/
def readDigits (max : Nat) (overflow : IntegerError) :
    Nat → List Char → Except IntegerError Nat
  | acc, [] => .ok acc
  | acc, c :: rest =>
    match digitValue? c with
    | none => .error .invalidDigit
    | some d =>
      if 10 * acc + d ≤ max then readDigits max overflow (10 * acc + d) rest
      else .error overflow

/-- The integer of 64 bits with a sign that a text spells. -/
def readInt64 (s : String) : Except IntegerError Int :=
  match s.toList with
  | [] => .error .empty
  | ['+'] | ['-'] => .error .invalidDigit
  | '-' :: ds => (readDigits (unsignedMax 63 + 1) .tooSmall 0 ds).map fun n => -(n : Int)
  | '+' :: ds | ds => (readDigits (unsignedMax 63) .tooLarge 0 ds).map fun n => (n : Int)

/-- An integer that has to lie between two bounds. -/
def checkRange (min max i : Int) : Except IntegerError Int :=
  if max < i then .error .tooLarge else if i < min then .error .tooSmall else .ok i

/-- The number nearest to `± digits * 10 ^ exponent`, where exponents beyond the range of the
format are cut off before the power is formed. -/
def Double.ofDecimal (negative : Bool) (digits : Nat) (exponent : Int) : Double :=
  let places := (Nat.toDigits 10 digits).length + exponent
  if digits = 0 ∨ places < -400 then .ofMagnitude negative 0
  else if 400 < places then .ofMagnitude negative double.infinity
  else .ofRatio negative (digits * Nat.pow 10 exponent.toNat) (Nat.pow 10 (-exponent).toNat)

/-- Why a text is not a floating point number. -/
inductive FloatError
  | empty
  | invalid
  deriving DecidableEq, Repr

def FloatError.message : FloatError → String
  | .empty => "cannot parse float from empty string"
  | .invalid => "invalid float literal"

/-- The exponent that follows the digits of a literal, which must end with it. -/
def readExponent? : List Char → Option Int
  | [] => some 0
  | c :: rest =>
    if c ≠ 'e' ∧ c ≠ 'E' then none else
      let (negative, ds) := match rest with
        | '-' :: ds => (true, ds)
        | '+' :: ds => (false, ds)
        | ds => (false, ds)
      let (digits, tail) := spanDigits ds
      if digits.isEmpty || !tail.isEmpty then none
      else
        let n := (natOfDigits 0 digits : Int)
        some (if negative then -n else n)

/-- A literal without its sign: digits with at most one point among or around them, and an
optional exponent. -/
def readUnsigned? (negative : Bool) (cs : List Char) : Option Double :=
  let (whole, rest) := spanDigits cs
  let (fraction, rest) := match rest with
    | '.' :: more => spanDigits more
    | rest => ([], rest)
  if whole.isEmpty && fraction.isEmpty then none else
    (readExponent? rest).map fun e =>
      .ofDecimal negative (natOfDigits 0 (whole ++ fraction)) (e - fraction.length)

/-- The names of the numbers that are not finite, in any case of letters. -/
def readNamed? (negative : Bool) (cs : List Char) : Option Double :=
  match String.ofList (cs.map Char.toLower) with
  | "nan" => some (.ofMagnitude negative (double.infinity + Nat.pow 2 51))
  | "inf" | "infinity" => some (.ofMagnitude negative double.infinity)
  | _ => none

/-- The floating point number that a text spells. -/
def readDouble (s : String) : Except FloatError Double :=
  match s.toList with
  | [] => .error .empty
  | cs =>
    let (negative, body) := match cs with
      | '-' :: body => (true, body)
      | '+' :: body => (false, body)
      | body => (false, body)
    match readUnsigned? negative body <|> readNamed? negative body with
    | some x => .ok x
    | none => .error .invalid

end QueryClient.Number
