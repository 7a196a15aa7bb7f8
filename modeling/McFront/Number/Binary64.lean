set_option autoImplicit false

namespace McFront

-- A finite number is significand · 2 ^ exponent, in the normal form of `Binary64.Normal`.
inductive Binary64 where
  | nan
  | infinite (negative : Bool)
  | finite (negative : Bool) (significand : Nat) (exponent : Int)
deriving DecidableEq

namespace Binary64

def precision : Nat := 53
def leastExponent : Int := -1074
def greatestExponent : Int := 971

def Normal : Binary64 → Prop
  | finite _ significand exponent =>
      significand < Nat.pow 2 precision ∧ leastExponent ≤ exponent ∧ exponent ≤ greatestExponent ∧
        (Nat.pow 2 (precision - 1) ≤ significand ∨ exponent = leastExponent)
  | _ => True

def zero (negative : Bool) : Binary64 := finite negative 0 leastExponent

def roundQuotient (numerator denominator : Nat) : Nat :=
  let below := numerator / denominator
  let rest := numerator % denominator
  if 2 * rest < denominator then below
  else if denominator < 2 * rest then below + 1
  else below + below % 2

def scaled (base numerator denominator : Nat) (power : Int) : Nat × Nat :=
  match power with
  | .ofNat up => (numerator, denominator * Nat.pow base up)
  | .negSucc down => (numerator * Nat.pow base (down + 1), denominator)

def magnitude (numerator denominator : Nat) : Int :=
  let guess : Int := (Nat.log2 numerator : Int) - Nat.log2 denominator
  let (top, bottom) := scaled 2 numerator denominator guess
  if bottom ≤ top then guess else guess - 1

def ofQuotient (negative : Bool) (numerator denominator : Nat) : Binary64 :=
  if numerator = 0 then zero negative
  else
    let exponent := max (magnitude numerator denominator - 52) leastExponent
    let (top, bottom) := scaled 2 numerator denominator exponent
    let significand := roundQuotient top bottom
    let (significand, exponent) :=
      if significand = Nat.pow 2 precision then (Nat.pow 2 (precision - 1), exponent + 1)
      else (significand, exponent)
    if greatestExponent < exponent then infinite negative
    else finite negative significand exponent

def digitCount (number : Nat) : Nat := (Nat.toDigits 10 number).length

-- The number nearest to `digits · 10 ^ power`. Far beyond the range the power is not worked out.
def ofDecimal (negative : Bool) (digits : Nat) (power : Int) : Binary64 :=
  if digits = 0 then zero negative
  else if 400 < power + digitCount digits then infinite negative
  else if power + digitCount digits < -400 then zero negative
  else
    let (top, bottom) := scaled 10 digits 1 (-power)
    ofQuotient negative top bottom

end Binary64
end McFront
