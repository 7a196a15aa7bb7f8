set_option autoImplicit false

namespace McFront

inductive Radix where
  | binary | decimal | hexadecimal
deriving DecidableEq

namespace Radix

def base : Radix → Nat
  | binary => 2
  | decimal => 10
  | hexadecimal => 16

def lead : Radix → String
  | binary => "0b"
  | decimal => ""
  | hexadecimal => "0x"

def name : Radix → String
  | binary => "binary-integer"
  | decimal => "decimal-integer"
  | hexadecimal => "hexadecimal-integer"

def ofLetter? (letter : Char) : Option Radix :=
  if letter = 'b' ∨ letter = 'B' then some binary
  else if letter = 'x' ∨ letter = 'X' then some hexadecimal
  else none

def digitValue (c : Char) : Option Nat :=
  if '0' ≤ c ∧ c ≤ '9' then some (c.toNat - '0'.toNat)
  else if 'a' ≤ c ∧ c ≤ 'f' then some (c.toNat - 'a'.toNat + 10)
  else if 'A' ≤ c ∧ c ≤ 'F' then some (c.toNat - 'A'.toNat + 10)
  else none

def isDigit (radix : Radix) (c : Char) : Bool :=
  match digitValue c with
  | some value => value < radix.base
  | none => false

def value (radix : Radix) (digits : List Char) : Nat :=
  digits.foldl (fun total c => total * radix.base + (digitValue c).getD 0) 0

-- The value of digits as it is read into a word, unless a total on the way is beyond its bound.
def checked? (radix : Radix) (bound : Nat) (digits : List Char) : Option Nat :=
  digits.foldlM (fun total c =>
    let next := total * radix.base + (digitValue c).getD 0
    if next ≤ bound then some next else none) 0

def digits (radix : Radix) (number : Nat) : List Char := Nat.toDigits radix.base number

end Radix
end McFront
