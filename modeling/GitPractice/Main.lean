import GitPractice.CommandLine

set_option autoImplicit false

namespace GitPractice.CommandLine

def findFile (name : String) : IO (String × Document) := do
  try
    let bytes ← IO.FS.readBinFile name
    return (name, .ofBytes bytes)
  catch _ => return (name, .missing)

def lookUp (found : List (String × Document)) (name : String) : Document :=
  (found.lookup name).getD .missing

partial def converseLive (input output : IO.FS.Stream) (session : Session) : IO Unit := do
  output.putStr Prompt.mark
  output.flush
  let line ← input.getLine
  if line.isEmpty then output.putStrLn ""
  else
    match Prompt.respond session line with
    | none => return
    | some (printed, after) =>
        output.putStr printed
        converseLive input output after

def finishLive (input output errors : IO.FS.Stream) : Work → IO UInt32
  | .converse session => do
      output.putStr (Prompt.banner session.repository)
      converseLive input output session
      return 0
  | work => do
      let completion := work.finish ""
      output.putStr completion.output
      if let some complaint := completion.complaint then errors.putStrLn ("Error: " ++ complaint)
      return completion.code.toUInt32

end GitPractice.CommandLine

open GitPractice GitPractice.CommandLine in
def main (arguments : List String) : IO UInt32 := do
  let names := ((parse arguments).map fileNames).getD []
  let found ← names.mapM findFile
  let start ← IO.rand 0 (IdSource.wordSize - 1)
  let surroundings : Surroundings :=
    { file := lookUp found
      ids := fun id => .scattered (start + id.bits.toNat) }
  finishLive (← IO.getStdin) (← IO.getStdout) (← IO.getStderr) (CommandLine.start surroundings arguments)
