import Radius.Inspector.Run

/-!
The inspector as a program.
-/

namespace Radius.Inspector

def readFile? (name : String) : IO (Option String) := do
  try
    return some (← IO.FS.readFile name)
  catch _ =>
    return none

end Radius.Inspector

open Radius.Inspector in
def main (arguments : List String) : IO UInt32 := do
  match Invocation.parse? arguments with
  | none =>
      IO.eprintln ("usage: radius-inspect [-d FILE] [-c FILE] decode -s SECRET [-r HEX] " ++
        "[--validate MODE] PACKET")
      IO.eprintln "       radius-inspect [-d FILE] [-c FILE] lookup ATTRIBUTE"
      return 2
  | some invocation =>
      let contents ← invocation.fileNames.mapM fun name => do return (name, ← readFile? name)
      let files := fun name => (contents.find? fun entry => entry.1 = name).bind Prod.snd
      let outcome := run files invocation
      IO.print outcome.output
      match outcome.failure with
      | none => return 0
      | some cause =>
          IO.eprintln ("Error: " ++ cause.message)
          return 1
