import McFront.Text.Invisible

set_option autoImplicit false

namespace McFront

def hexText (number : Nat) : String := String.ofList (Nat.toDigits 16 number)

def quotedContent (c : Char) : String :=
  if c = '\x00' then "\\0"
  else if c = '\t' then "\\t"
  else if c = '\r' then "\\r"
  else if c = '\n' then "\\n"
  else if c = '\'' then "\\'"
  else if c = '\\' then "\\\\"
  else if isInvisible c then "\\u\x7b" ++ hexText c.toNat ++ "\x7d"
  else String.singleton c

def quoted (c : Char) : String := "'" ++ quotedContent c ++ "'"

end McFront
