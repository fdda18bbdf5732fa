/-! The words of a command line. -/
namespace BlockScript.Console

inductive Command
  | run (file : String)
  | converse
  | list (file : String)

structure Request where
  verbose : Bool
  keepGoing : Bool
  output : Option String
  words : List String

namespace Request

/-- Sorts the arguments into options and words. An option with a value takes the next argument. -/
def sort (request : Request) : List String → Option Request
  | [] => some { request with words := request.words.reverse }
  | "-v" :: rest | "--verbose" :: rest => { request with verbose := true }.sort rest
  | "--keep-going" :: rest => { request with keepGoing := true }.sort rest
  | "-o" :: path :: rest | "--output" :: path :: rest =>
    { request with output := some path }.sort rest
  | word :: rest =>
    if word.startsWith "-" then none else { request with words := word :: request.words }.sort rest

/-- Options of a script run belong to no other command. -/
def command? (request : Request) : Option Command :=
  let plain := !request.keepGoing && request.output.isNone
  match request.words with
  | ["run",file] => some (.run file)
  | ["tokens",file] => if plain then some (.list file) else none
  | ["repl"] | [] => if plain then some .converse else none
  | _ => none

end Request

def parse? (arguments : List String) : Option (Request × Command) :=
  match Request.sort ⟨false,false,none,[]⟩ arguments with
  | some request => request.command?.map fun command => (request,command)
  | none => none

def usage : String :=
  "Usage: doscript [-v] [run [-o <OUTPUT>] [--keep-going] <FILE> | repl | tokens <FILE>]\n"

end BlockScript.Console
