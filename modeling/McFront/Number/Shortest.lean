import McFront.Number.Binary64

set_option autoImplicit false

namespace McFront.Shortest

-- The reals that are rounded to a number, as numerators over one denominator. The ends are
-- rounded to it too if the significand is even.
structure Interval where
  low : Nat
  middle : Nat
  high : Nat
  denominator : Nat
  closed : Bool

-- Below a power of two the next number is only half as far away.
def interval (significand : Nat) (exponent : Int) : Interval :=
  let half :=
    if significand = Nat.pow 2 (Binary64.precision - 1) ∧ Binary64.leastExponent < exponent then 1
    else 2
  let closed := significand % 2 = 0
  match exponent - 2 with
  | .ofNat up =>
      let scale := Nat.pow 2 up
      ⟨(4 * significand - half) * scale, 4 * significand * scale, (4 * significand + 2) * scale, 1,
        closed⟩
  | .negSucc down =>
      ⟨4 * significand - half, 4 * significand, 4 * significand + 2, Nat.pow 2 (down + 1), closed⟩

namespace Interval

def holds (within : Interval) (digits : Nat) (power : Int) : Bool :=
  let (top, bottom) := Binary64.scaled 10 digits 1 (-power)
  let point := top * within.denominator
  if within.closed then within.low * bottom ≤ point ∧ point ≤ within.high * bottom
  else within.low * bottom < point ∧ point < within.high * bottom

def decade (within : Interval) : Int :=
  if within.denominator ≤ within.middle then
    Binary64.digitCount (within.middle / within.denominator) - 1
  else -(Binary64.digitCount ((within.denominator - 1) / within.middle) : Int)

-- The better neighbour on the grid of multiples of `10 ^ power`; of two equally near the upper.
def neighbour? (within : Interval) (power : Int) : Option Nat :=
  let (top, bottom) := Binary64.scaled 10 within.middle within.denominator power
  let below := top / bottom
  match within.holds below power, within.holds (below + 1) power with
  | true, true => some (if 2 * (top % bottom) < bottom then below else below + 1)
  | true, false => some below
  | false, true => some (below + 1)
  | false, false => none

end Interval

def decimal (significand : Nat) (exponent : Int) : Nat × Int :=
  let within := interval significand exponent
  let found := (List.range 17).findSome? fun (more : Nat) =>
    let power := within.decade - (more : Int)
    (within.neighbour? power).map (·, power)
  found.getD (significand, exponent)

end McFront.Shortest
