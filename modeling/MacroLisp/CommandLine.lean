/-
  The command line: an optional limit on the depth, and an optional script.

  With a script, its value is printed, or its error is reported and the exit
  code is 1.  Without one, each line of the standard input is a program of
  its own, all of them in one scope, and the value or the error of each is
  printed.  Everything here is a function of the arguments and the files; the
  reading and writing is in `Main`.
-/
import MacroLisp.Files
import MacroLisp.Interpreter
import MacroLisp.Text.Backspace

namespace MacroLisp

namespace CommandLine

/-- What the program writes, and its exit code. -/
structure Exit where
  code : Nat
  stdout : String
  stderr : String
deriving DecidableEq, Repr

/-- What the arguments ask for. -/
structure Command where
  maxDepth : Nat
  script : Option String
deriving DecidableEq, Repr

/-! ## Arguments -/

def usage : String := "usage: plisp [--max-depth N] [script]"

/-- Why a text is no 64-bit natural number. -/
inductive NaturalError where
  | empty
  | invalidDigit
  | tooLarge
deriving DecidableEq, Repr

def NaturalError.message : NaturalError → String
  | empty => "cannot parse integer from empty string"
  | invalidDigit => "invalid digit found in string"
  | tooLarge => "number too large to fit in target type"

/-- The digits of a number, after `n`.  The first digit that is none, or that
    leads out of 64 bits, decides. -/
def digits (n : Nat) : List Char → Except NaturalError Nat
  | [] => .ok n
  | c :: rest =>
    if c.isDigit then
      let next := 10 * n + (c.toNat - '0'.toNat)
      if next < UInt64.size then digits next rest else .error .tooLarge
    else .error .invalidDigit

/-- A 64-bit natural number, which may have a plus sign. -/
def natural (text : String) : Except NaturalError Nat :=
  match text.toList with
  | [] => .error .empty
  | ['+'] => .error .invalidDigit
  | '+' :: rest => digits 0 rest
  | cs => digits 0 cs

/-- Takes the arguments from left to right. -/
def Command.ofArguments (c : Command) : List String → Except String Command
  | [] => .ok c
  | "--max-depth" :: [] => .error usage
  | "--max-depth" :: n :: rest =>
    match natural n with
    | .ok maxDepth => ofArguments { c with maxDepth } rest
    | .error e => .error ("plisp: bad --max-depth " ++ n ++ ": " ++ e.message)
  | name :: rest =>
    match c.script with
    | none => ofArguments { c with script := some name } rest
    | some _ => .error usage

/-- The command without arguments. -/
def Command.default : Command := ⟨Interpreter.defaultMaxDepth, none⟩

/-- The refusal to run at all. -/
def refused (reason : String) : Exit :=
  ⟨1, "", "Error: " ++ Text.quoted reason ++ "\n"⟩

/-! ## The stack of a run

Every level of the depth needs room on the stack, so the limit on the depth
decides how large a stack a run asks for.  A limit that asks for too much is
refused before anything is read. -/

/-- The bytes of stack that a run asks for: 8 MiB, and 4 KiB for each level of
    the depth, as far as 64 bits can count. -/
def stackSize (maxDepth : Nat) : Nat :=
  min (8 * 1024 * 1024 + 4096 * maxDepth) (UInt64.size - 1)

/-- The page beyond the end of a stack, which nothing may write to. -/
def guardSize : Nat := 4096

/-- The bytes that can be set aside for one stack: 32 GiB. -/
def largestStack : Nat := 32 * 1024 * 1024 * 1024

/-- Why there is no stack for a run. -/
inductive StackError where
  | invalidSize
  | noRoom
deriving DecidableEq, Repr

def StackError.message : StackError → String
  | invalidSize => "Invalid argument (os error 22)"
  | noRoom => "Resource temporarily unavailable (os error 11)"

/-- Asks for the stack of a run.  With its guard it is no larger than the memory
    that 64 bits can address, and no larger than the room there is. -/
def checkStack (maxDepth : Nat) : Except StackError Unit :=
  let size := stackSize maxDepth + guardSize
  if UInt64.size ≤ size then .error .invalidSize
  else if largestStack < size then .error .noRoom
  else .ok ()

/-- The command that the arguments ask for, once there is a stack to run it on;
    otherwise the reason to refuse. -/
def command (args : List String) : Except String Command :=
  match Command.default.ofArguments args with
  | .error reason => .error reason
  | .ok c =>
    match checkStack c.maxDepth with
    | .error e => .error ("plisp: can't start interpreter: " ++ e.message)
    | .ok () => .ok c

/-! ## Runs -/

/-- The refusal of a script that cannot be read. -/
def unreadable (name : String) (e : FileError) : Exit :=
  refused ("plisp: failed to read " ++ name ++ ": " ++ e.message)

/-- The world that a run starts in, and its scope. -/
def start : Env × World :=
  World.empty.addTable Table.default

/-- Runs a script. -/
def runScript (maxDepth : Nat) (source : String) : Exit :=
  let (env, w) := start
  let o := (Interpreter.idle maxDepth).run .none w source env
  match o.result with
  | .ok v => ⟨0, o.world.output ++ v.text ++ "\n", ""⟩
  | .error e => ⟨1, o.world.output, e.message ++ "\n"⟩

/-- Runs the script `name`, given its text or why there is none. -/
def runFile (maxDepth : Nat) (name : String) : Except FileError String → Exit
  | .ok source => runScript maxDepth source
  | .error e => unreadable name e

/-- A line without the carriage return before its end. -/
def withoutReturn (line : String) : String :=
  if line.toList.getLast? = some '\r' then String.ofList line.toList.dropLast else line

/-- The lines of a text.  A line may end in a carriage return and a line feed,
    and the last one need not end at all. -/
def lines (text : String) : List String :=
  match (text.splitOn "\n").reverse with
  | [] => []
  | last :: ended => (ended.map withoutReturn).reverse ++ if last.isEmpty then [] else [last]

/-- The value or the error of a program, as it is shown. -/
def shown : Except ProgramError Value → String
  | .ok v => v.text
  | .error e => e.message

/-- Runs a line and prints what comes of it.  Blank lines are skipped. -/
def runLine (env : Env) (i : Interpreter) (w : World) (line : String) : Interpreter × World :=
  if Text.isBlank line then (i, w)
  else
    let o := i.run .none w line env
    (o.interpreter, o.world.print (shown o.result ++ "\n"))

/-- Runs lines as they were typed.  A line that a backspace has broken ends the
    run. -/
def runTyped (env : Env) (i : Interpreter) (w : World) : List String → Exit
  | [] => ⟨0, w.output, ""⟩
  | line :: rest =>
    match Text.typed line with
    | none => { refused "plisp: interpreter panicked" with stdout := w.output }
    | some line =>
      let (i, w) := runLine env i w line
      runTyped env i w rest

/-- Runs the lines of the standard input. -/
def runLines (maxDepth : Nat) (input : String) : Exit :=
  let (env, w) := start
  runTyped env (Interpreter.idle maxDepth) w (lines input)

/-- Does what the arguments ask for.  `readFile` answers the text of a file, or
    why there is none. -/
def run (args : List String) (readFile : String → Except FileError String) (input : String) :
    Exit :=
  match command args with
  | .error reason => refused reason
  | .ok ⟨maxDepth, none⟩ => runLines maxDepth input
  | .ok ⟨maxDepth, some name⟩ => runFile maxDepth name (readFile name)

end CommandLine

end MacroLisp
