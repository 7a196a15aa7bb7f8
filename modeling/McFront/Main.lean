import McFront.Command.Task

set_option autoImplicit false

namespace McFront

def usage : String :=
  "Lexer, parser and semantic analyzer for the MC language\n\n" ++
    "Usage: mcc [OPTIONS] [FILE]\n\n" ++
    "Arguments:\n  [FILE]  File to check (default action)\n\n" ++
    "Options:\n" ++
    "      --lex <FILE>    Tokenize only (debug)\n" ++
    "      --parse <FILE>  Parse and print the typed tree (debug)\n" ++
    "      --check <FILE>  Check only (debug)\n" ++
    "  -h, --help          Print help\n" ++
    "  -V, --version       Print version\n"

-- What a path leads to. Files are taken as bytes first, since too large ones are not read as texts.
def find (path : String) : IO (Except String File) := do
  try
    let bytes ← IO.FS.readBinFile path
    let text := match String.fromUTF8? bytes with
      | some text => .ok text
      | none => .error "stream did not contain valid UTF-8"
    return .ok ⟨bytes.size, text⟩
  catch error =>
    return .error (toString error)

def Report.give (report : Report) : IO UInt32 := do
  IO.print report.output
  unless report.message.isEmpty do
    IO.eprintln report.message
  return report.exitCode.toUInt32

end McFront

open McFront in
def main (given : List String) : IO UInt32 := do
  match Arguments.read given with
  | .error refusal =>
      match refusal with
      | .help => IO.print usage
      | .version => IO.println "mcc 0.1.0"
      | _ => IO.eprintln usage
      return refusal.exitCode.toUInt32
  | .ok arguments =>
      match arguments.task? with
      | some (task, path) => (task.report path (← find path)).give
      | none => Arguments.noTask.give
