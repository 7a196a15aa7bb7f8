import McFront.Number.Shortest

set_option autoImplicit false

namespace McFront.Binary64

def withoutTrailingZeros (digits : List Char) : List Char :=
  (digits.reverse.dropWhile (· == '0')).reverse

def positional (digits : List Char) (whole : Int) : List Char :=
  match whole with
  | .negSucc gap => ['0', '.'] ++ List.replicate (gap + 1) '0' ++ digits
  | .ofNat 0 => ['0', '.'] ++ digits
  | .ofNat whole =>
      if digits.length ≤ whole then
        digits ++ List.replicate (whole - digits.length) '0' ++ ['.', '0']
      else digits.take whole ++ ['.'] ++ digits.drop whole

def scientific (digits : List Char) (whole : Int) : List Char :=
  digits.take 1 ++ (if digits.length ≤ 1 then [] else '.' :: digits.drop 1)
    ++ ['e'] ++ (toString (whole - 1)).toList

-- `whole` is the number of digits before the point: the value is 0.d₁d₂… · 10 ^ whole.
def written (digits : List Char) (whole : Int) : List Char :=
  if -4 < whole ∧ whole ≤ 16 then positional digits whole else scientific digits whole

def magnitudeText (significand : Nat) (exponent : Int) : List Char :=
  if significand = 0 then ['0', '.', '0']
  else
    let (number, power) := Shortest.decimal significand exponent
    let digits := Nat.toDigits 10 number
    written (withoutTrailingZeros digits) (power + digits.length)

def text : Binary64 → String
  | nan => "NaN"
  | infinite negative => if negative then "-inf" else "inf"
  | finite negative significand exponent =>
      (if negative then "-" else "") ++ String.ofList (magnitudeText significand exponent)

def digitsValue (digits : List Char) : Nat :=
  digits.foldl (fun total c => total * 10 + (c.toNat - '0'.toNat)) 0

def ofFraction (whole fraction : List Char) : Binary64 :=
  ofDecimal false (digitsValue (whole ++ fraction)) (-fraction.length)

def exponentValue? (text : List Char) : Option Int :=
  let value? (digits : List Char) : Option Nat :=
    if digits.isEmpty ∨ digits.any (!·.isDigit) then none else some (digitsValue digits)
  match text with
  | '-' :: digits => (value? digits).map fun value => -(value : Int)
  | '+' :: digits => (value? digits).map Int.ofNat
  | digits => (value? digits).map Int.ofNat

def unsigned? (negative : Bool) (text : List Char) : Option Binary64 :=
  let lower := text.map Char.toLower
  if lower = ['n', 'a', 'n'] then some nan
  else if lower = ['i', 'n', 'f'] ∨ lower = ['i', 'n', 'f', 'i', 'n', 'i', 't', 'y'] then
    some (infinite negative)
  else
    let whole := text.takeWhile Char.isDigit
    let rest := text.dropWhile Char.isDigit
    let (fraction, rest) := match rest with
      | '.' :: rest => (rest.takeWhile Char.isDigit, rest.dropWhile Char.isDigit)
      | rest => ([], rest)
    if whole.isEmpty ∧ fraction.isEmpty then none
    else
      let power? := match rest with
        | [] => some 0
        | c :: exponent => if c = 'e' ∨ c = 'E' then exponentValue? exponent else none
      power?.map fun power =>
        ofDecimal negative (digitsValue (whole ++ fraction)) (power - fraction.length)

def ofText? (text : String) : Option Binary64 :=
  match text.toList with
  | '-' :: rest => unsigned? true rest
  | '+' :: rest => unsigned? false rest
  | rest => unsigned? false rest

end McFront.Binary64
