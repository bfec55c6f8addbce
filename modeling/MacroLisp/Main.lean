/-
  The program: reads the files, runs the command line, and writes what it
  answers.
-/
import MacroLisp.CommandLine

namespace MacroLisp

/-- The number of an error of the system, which may come with a minus sign. -/
def errorNumber (code : UInt32) : UInt32 :=
  min code (0 - code)

/-- What an error of the system says about a file. -/
def fileError : IO.Error → FileError
  | .noFileOrDirectory .. => .missing
  | .permissionDenied .. => .denied
  | .inappropriateType _ code _ => if errorNumber code = 20 then .notDirectory else .directory
  | e@(.invalidArgument _ code _) =>
    if errorNumber code = 36 then .nameTooLong else .other (toString e)
  | e => .other (toString e)

/-- The text of a file, or why there is none. -/
def readText (name : String) : IO (Except FileError String) := do
  match ← (IO.FS.readBinFile name).toBaseIO with
  | .error e => return .error (fileError e)
  | .ok bytes =>
    match String.fromUTF8? bytes with
    | some text => return .ok text
    | none => return .error .notText

/-- The rest of the standard input. -/
partial def readInput (input : IO.FS.Stream) (text : String) : IO String := do
  let line ← input.getLine
  if line.isEmpty then return text else readInput input (text ++ line)

end MacroLisp

open MacroLisp CommandLine in
/-- Reads what the command asks for, and runs it. -/
def main (args : List String) : IO UInt32 := do
  let exit ← match command args with
    | .error reason => pure (refused reason)
    | .ok ⟨maxDepth, none⟩ => runLines maxDepth <$> readInput (← IO.getStdin) ""
    | .ok ⟨maxDepth, some name⟩ => runFile maxDepth name <$> readText name
  (← IO.getStdout).putStr exit.stdout
  (← IO.getStderr).putStr exit.stderr
  return exit.code.toUInt32
