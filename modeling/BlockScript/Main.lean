import BlockScript.Console.Arguments
import BlockScript.Console.Conversation

/-! The command line. -/
namespace BlockScript.Console

/-- More rounds than a loop can take in a lifetime. -/
def patience : Nat := 0x1000000000000000

def fileError (error : IO.Error) : FileError :=
  match error with
  | .permissionDenied .. => .denied
  | .inappropriateType .. => .directory
  | _ => .notFound

def readScript (path : String) : IO (Except FileError ByteArray) := do
  try
    return .ok (← IO.FS.readBinFile path)
  catch error => return .error (fileError error)

def createTarget (path : String) : IO (Except FileError Unit) := do
  try
    IO.FS.writeBinFile path .empty
    return .ok ()
  catch error => return .error (fileError error)

def exitCode (succeeded : Bool) : UInt32 := if succeeded then 0 else 1

def present (outcome : Option Outcome) (path : Option String) : IO UInt32 := do
  match outcome with
  | none =>
    IO.eprintln "out of rounds"
    return 1
  | some outcome =>
    (← IO.getStdout).write outcome.output
    IO.eprint outcome.notes
    match path, outcome.written with
    | some path, some written => IO.FS.writeBinFile path written
    | _, _ => pure ()
    return exitCode outcome.succeeded

/-- The target is created only after the script has been read. -/
def runFile (options : Options) (path : String) (output : Option String) : IO UInt32 := do
  let script ← readScript path
  let target ←
    match decodeScript script, output with
    | .ok _, some output => do pure (Target.file (← createTarget output))
    | _, _ => pure .screen
  present (runScript patience options script target) output

partial def converseOn (verbose : Bool) (state : State) : IO UInt32 := do
  let stdout ← IO.getStdout
  stdout.putStr prompt
  stdout.flush
  let line ← (← IO.getStdin).getLine
  if line.isEmpty then return exitCode true
  match answer patience verbose line state with
  | none => return exitCode false
  | some reply =>
    IO.eprint reply.notes
    stdout.write reply.output
    converseOn verbose reply.state

end BlockScript.Console

open BlockScript BlockScript.Console in
def main (arguments : List String) : IO UInt32 := do
  match parse? arguments with
  | none =>
    IO.eprint usage
    return 2
  | some (request,.run file) =>
    runFile ⟨request.verbose,request.keepGoing⟩ file request.output
  | some (_,.list file) => present (some (listScript (← readScript file))) none
  | some (request,.converse) =>
    IO.print greeting
    converseOn request.verbose (.initial .unlimited)
