set_option autoImplicit false

namespace McFront.Escape

def table : List (Char × Char) :=
  [('\'', '\''), ('"', '"'), ('\\', '\\'), ('a', '\x07'), ('b', '\x08'), ('f', '\x0c'),
    ('n', '\n'), ('r', '\r'), ('t', '\t'), ('v', '\x0b')]

def unescape (letter : Char) : Option Char := (table.find? (·.1 == letter)).map Prod.snd

def escape (value : Char) : Option (List Char) :=
  (table.find? (·.2 == value)).map fun entry => ['\\', entry.1]

def shown (c : Char) : List Char := (escape c).getD [c]

def shownText (text : List Char) : String := String.ofList (text.flatMap shown)

end McFront.Escape
