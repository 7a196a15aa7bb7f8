set_option autoImplicit false

namespace McFront

inductive Slot where
  | file | lex | parse | check
deriving DecidableEq

def Slot.all : List Slot := [file, lex, parse, check]

structure Arguments where
  file : Option String
  lex : Option String
  parse : Option String
  check : Option String
deriving DecidableEq

namespace Arguments

inductive Refusal where
  | unknown | missingValue | unwantedValue | conflict | help | version
deriving DecidableEq

def Refusal.exitCode : Refusal → Nat
  | help | version => 0
  | _ => 2

def empty : Arguments := ⟨none, none, none, none⟩

def get (arguments : Arguments) : Slot → Option String
  | .file => arguments.file
  | .lex => arguments.lex
  | .parse => arguments.parse
  | .check => arguments.check

def fill (arguments : Arguments) (slot : Slot) (path : String) : Arguments :=
  match slot with
  | .file => { arguments with file := path }
  | .lex => { arguments with lex := path }
  | .parse => { arguments with parse := path }
  | .check => { arguments with check := path }

def put (arguments : Arguments) (slot : Slot) (path : String) : Except Refusal Arguments :=
  if (arguments.get slot).isSome then .error .conflict
  else if path.isEmpty then .error .missingValue
  else .ok (arguments.fill slot path)

-- Reading from left to right. The last slot that was named is filled when the next one is named
-- or the arguments end, so a mistake in between is found first.
structure Progress where
  filled : Arguments
  open? : Option (Slot × Option String)
  onlyFiles : Bool
  fileSeen : Bool

namespace Progress

def start : Progress := ⟨.empty, none, false, false⟩

def settle (progress : Progress) : Except Refusal Progress :=
  match progress.open? with
  | none => .ok progress
  | some (_, none) => .error .missingValue
  | some (slot, some path) => do
      let filled ← progress.filled.put slot path
      return { progress with filled, open? := none }

def named? : List Char → Option Slot
  | ['l', 'e', 'x'] => some .lex
  | ['p', 'a', 'r', 's', 'e'] => some .parse
  | ['c', 'h', 'e', 'c', 'k'] => some .check
  | _ => none

def stop (progress : Progress) (refusal : Refusal) : Except Refusal Progress := do
  let _ ← progress.settle
  .error refusal

def long (progress : Progress) (text : List Char) : Except Refusal Progress :=
  let name := text.takeWhile (· != '=')
  let value := text.dropWhile (· != '=')
  match named? name with
  | some slot => do
      let progress ← progress.settle
      match value with
      | [] => return { progress with open? := some (slot, none) }
      | _ :: path => return { progress with filled := ← progress.filled.put slot (.ofList path) }
  | none =>
      if name = "help".toList then
        if value.isEmpty then progress.stop .help else .error .unwantedValue
      else if name = "version".toList then
        if value.isEmpty then progress.stop .version else .error .unwantedValue
      else .error .unknown

def short (progress : Progress) (letter : Char) : Except Refusal Progress :=
  if letter = 'h' then progress.stop .help
  else if letter = 'V' then progress.stop .version
  else .error .unknown

def positional (progress : Progress) (path : String) : Except Refusal Progress :=
  if progress.fileSeen then .error .unknown
  else do
    let progress ← progress.settle
    return { progress with open? := some (.file, some path), fileSeen := true }

def value (progress : Progress) (path : String) : Except Refusal Progress :=
  match progress.open? with
  | some (slot, none) => .ok { progress with open? := some (slot, some path) }
  | _ => progress.positional path

def step (progress : Progress) (argument : String) : Except Refusal Progress :=
  if progress.onlyFiles then progress.positional argument
  else
    match argument.toList with
    | ['-', '-'] => .ok { progress with onlyFiles := true }
    | '-' :: '-' :: text => progress.long text
    | '-' :: letter :: _ => progress.short letter
    | _ => progress.value argument

end Progress

def settled (arguments : Arguments) : Except Refusal Arguments :=
  if arguments.file.isSome ∧ (arguments.lex.isSome ∨ arguments.parse.isSome ∨ arguments.check.isSome)
  then .error .conflict
  else .ok arguments

def read (arguments : List String) : Except Refusal Arguments := do
  let progress ← arguments.foldlM Progress.step Progress.start
  let progress ← progress.settle
  progress.filled.settled

end Arguments
end McFront
