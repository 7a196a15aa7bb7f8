import McFront.Command.Arguments
import McFront.Compile
import McFront.Diagnostic
import McFront.Tree.Outline

set_option autoImplicit false

namespace McFront

-- A file as it is found: its size in bytes, and its text or why it cannot be read as one.
structure File where
  size : Nat
  text : Except String String

def File.ofText (text : String) : File := ⟨text.utf8ByteSize, .ok text⟩

namespace Source

-- No larger file is read: 100 MB.
def maxSize : Nat := 100 * 1024 * 1024

-- A source, or the message that there is none. A path that leads to no file comes with the reason.
def read (path : String) (found : Except String File) : Except String Source :=
  match found with
  | .error reason => .error s!"Cannot access file '{path}': {reason}"
  | .ok file =>
      if maxSize < file.size then
        .error s!"Source file '{path}' is too large ({file.size} bytes, max {maxSize} bytes)"
      else
        match file.text with
        | .error reason => .error s!"Error reading file '{path}': {reason}"
        | .ok text => .ok ⟨path, text⟩

end Source

def Fault.explain (source : Source) : Fault → String
  | .error found =>
      let help := match (found.diagnose source).help with
        | some help => "\n" ++ help
        | none => ""
      s!"{source.path}:{found.location.text}: {found.headline}{help}"
  | .breach broken => broken.message

inductive Task where
  | lex | parse | check
deriving DecidableEq

structure Report where
  output : String
  message : String
  exitCode : Nat
deriving DecidableEq

namespace Task

def output (task : Task) (source : Source) : Except Fault String :=
  match task with
  | lex => ((McFront.lex source.text .empty).1.mapError .error).map Token.listing
  | parse => (compile source.text .empty).1.map Declaration.dump
  | check => (compile source.text .empty).1.map fun _ => s!"{source.path}: ok\n"

def report (task : Task) (path : String) (found : Except String File) : Report :=
  match Source.read path found with
  | .error message => ⟨"", message, 1⟩
  | .ok source =>
      match task.output source with
      | .ok output => ⟨output, "", 0⟩
      | .error fault => ⟨"", fault.explain source, 1⟩

end Task

namespace Arguments

def task? (arguments : Arguments) : Option (Task × String) :=
  match arguments.lex, arguments.parse, arguments.check, arguments.file with
  | some path, _, _, _ => some (.lex, path)
  | none, some path, _, _ => some (.parse, path)
  | none, none, some path, _ => some (.check, path)
  | none, none, none, some path => some (.check, path)
  | none, none, none, none => none

def noTask : Report := ⟨"", "no input file (try `mcc --help`)", 1⟩

end Arguments

def run (arguments : List String) (contents : String → Option String) : Report :=
  match Arguments.read arguments with
  | .error refusal => ⟨"", "", refusal.exitCode⟩
  | .ok arguments =>
      match arguments.task? with
      | none => Arguments.noTask
      | some (task, path) =>
          task.report path <| match contents path with
            | some text => .ok (.ofText text)
            | none => .error "No such file or directory (os error 2)"

end McFront
