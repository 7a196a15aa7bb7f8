import McFront.Complaint
import McFront.Lexicon.Escape
import McFront.Number.Decimal
import McFront.Token.Basic

set_option autoImplicit false

namespace McFront

-- A fault names the characters `lead` from the start of the lexeme to the place it is found at, and
-- `read`, all those that were looked at and passed.
inductive Lexeme where
  | absent
  | token (kind : Token.Kind) (spelling rest : List Char)
  | fault (complaint : Complaint) (lead read rest : List Char)

namespace Lexeme

def isBlank (c : Char) : Bool := c = ' ' || c = '\t' || c = '\r' || c = '\n'

def isWordStart (c : Char) : Bool := c.isAlpha || c = '_'

def isWordPart (c : Char) : Bool := c.isAlphanum || c = '_'

def gap (inComment : Bool) : List Char → List Char × List Char
  | [] => ([], [])
  | c :: rest =>
      if isBlank c then
        let (passed, rest) := gap (inComment && c != '\n') rest
        (c :: passed, rest)
      else if inComment || c = '#' then
        let (passed, rest) := gap true rest
        (c :: passed, rest)
      else ([], c :: rest)

def wordKind (name : String) : Token.Kind :=
  match Keyword.ofWord? name with
  | some word => .ofKeyword word
  | none => .identifier name

def word (c : Char) (rest : List Char) : Lexeme :=
  let spelling := c :: rest.takeWhile isWordPart
  token (wordKind (String.ofList spelling)) spelling (rest.dropWhile isWordPart)

-- A literal is read into a signed word of 64 bits and must fit in one of 32.
def greatestWord : Nat := 9223372036854775807

def greatestInteger : Nat := 2147483647

def integer (radix : Radix) (lead digits rest : List Char) : Lexeme :=
  match (radix.checked? greatestWord digits).filter (· ≤ greatestInteger) with
  | some value => token (.integer radix value) (lead ++ digits) rest
  | none => fault (.integerOutOfRange (radix.lead ++ String.ofList digits)) [] (lead ++ digits) rest

def radixInteger (radix : Radix) (lead rest : List Char) : Lexeme :=
  let digits := rest.takeWhile radix.isDigit
  if digits.isEmpty then fault (.missingDigits radix.lead) [] lead rest
  else integer radix lead digits (rest.dropWhile radix.isDigit)

def decimal (text : List Char) : Lexeme :=
  let whole := text.takeWhile Char.isDigit
  match text.dropWhile Char.isDigit with
  | '.' :: rest =>
      let fraction := rest.takeWhile Char.isDigit
      token (.float (.ofFraction whole fraction)) (whole ++ '.' :: fraction)
        (rest.dropWhile Char.isDigit)
  | rest => integer .decimal [] whole rest

def number (text : List Char) : Lexeme :=
  match text with
  | '0' :: letter :: rest =>
      match Radix.ofLetter? letter with
      | some radix => radixInteger radix ['0', letter] rest
      | none => decimal text
  | text => decimal text

def escape : List Char → Except Complaint (Char × Char × List Char)
  | [] => .error .unterminatedEscape
  | letter :: rest =>
      match Escape.unescape letter with
      | some value => .ok (letter, value, rest)
      | none => .error (.invalidEscape letter)

def characterBody : List Char → Except Complaint (List Char × Char × List Char)
  | '\\' :: rest => (escape rest).map fun (letter, value, rest) => (['\\', letter], value, rest)
  | c :: rest => .ok ([c], c, rest)
  | [] => .error .unterminatedEscape

def character (text : List Char) : Lexeme :=
  match text with
  | [] => fault (.unterminatedLiteral "character") [] ['\''] []
  | '\n' :: _ => fault (.multiLineLiteral "character") [] ['\''] text
  | '\'' :: _ => fault .emptyCharacter [] ['\''] text
  | _ =>
      match characterBody text with
      | .error complaint => fault complaint ['\''] ['\'', '\\'] (text.drop 1)
      | .ok (written, value, rest) =>
          match rest with
          | '\'' :: rest => token (.character value) ('\'' :: written ++ ['\'']) rest
          | [] | '\n' :: _ => fault (.unterminatedLiteral "character") [] ('\'' :: written) rest
          | _ => fault .overlongCharacter [] ('\'' :: written) rest

-- What follows the opening quote of a string: a body with its closing quote, a body that a line
-- feed or the end of the text cuts short, or one that is stuck at a backslash.
inductive Body where
  | closed (content spelling rest : List Char)
  | cut (read rest : List Char)
  | stuck (complaint : Complaint) (read rest : List Char)

def Body.after (written : List Char) (value : Char) : Body → Body
  | closed content spelling rest => closed (value :: content) (written ++ spelling) rest
  | cut read rest => cut (written ++ read) rest
  | stuck complaint read rest => stuck complaint (written ++ read) rest

def body : List Char → Body
  | [] => .cut [] []
  | c :: rest =>
      if c = '\n' then .cut [] (c :: rest)
      else if c = '"' then .closed [] [c] rest
      else if c = '\\' then
        match rest with
        | [] => .stuck .unterminatedEscape [] rest
        | letter :: rest =>
            match Escape.unescape letter with
            | some value => (body rest).after [c, letter] value
            | none => .stuck (.invalidEscape letter) [] (letter :: rest)
      else (body rest).after [c] c

def string (text : List Char) : Lexeme :=
  match body text with
  | .closed content spelling rest => token (.text (String.ofList content)) ('"' :: spelling) rest
  | .cut read [] => fault (.unterminatedLiteral "string") [] ('"' :: read) []
  | .cut read rest => fault (.multiLineLiteral "string") [] ('"' :: read) rest
  | .stuck complaint read rest => fault complaint ('"' :: read) ('"' :: read ++ ['\\']) rest

def symbols : List (List Char × Token.Kind) :=
  Operator.all.map (fun operator => (operator.spelling.toList, .operator operator)) ++
    Punctuation.all.map (fun mark => (mark.spelling.toList, .punctuation mark))

def symbolKind? (spelling : List Char) : Option Token.Kind := symbols.lookup spelling

def symbol (c : Char) (rest : List Char) : Lexeme :=
  let single : Lexeme := match symbolKind? [c] with
    | some kind => token kind [c] rest
    | none => fault (.unexpectedCharacter c) [] [c] rest
  match rest with
  | [] => single
  | d :: more =>
      match symbolKind? [c, d] with
      | some kind => token kind [c, d] more
      | none => single

def head : List Char → Lexeme
  | [] => absent
  | c :: rest =>
      if c = '\'' then character rest
      else if c = '"' then string rest
      else if c.isDigit then number (c :: rest)
      else if isWordStart c then word c rest
      else symbol c rest

end Lexeme
end McFront
