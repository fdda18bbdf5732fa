import BlockScript.Build.Error
import BlockScript.Eval.State
import BlockScript.Text.Quoted

/-! Log lines. Warnings are always shown, the rest only on request. -/
namespace BlockScript

inductive LogLevel
  | debug
  | info
  | warn
deriving DecidableEq

def LogLevel.label : LogLevel → String
  | debug => "DEBUG"
  | info => "INFO"
  | warn => "WARN"

structure LogLine where
  level : LogLevel
  source : String
  message : String

namespace LogLine

def isShown (verbose : Bool) (line : LogLine) : Bool := verbose || line.level == .warn

def render (line : LogLine) : String :=
  line.level.label ++ " " ++ line.source ++ ": " ++ line.message ++ "\n"

end LogLine

def buildSource : String := "doscript::tree_builder"

def runSource : String := "doscript::tree_walk_interpreter"

def handlerSource : String := "doscript::tree_walk_interpreter::handler"

def Report.logLine (report : Report) : LogLine :=
  ⟨.debug,buildSource,
    "build error error=" ++ report.error.message ++ " token=" ++ report.token.render⟩

def HandlerCommand.word : HandlerCommand → String
  | start => "run"
  | stop => "stop"

def HandlerNotice.level (notice : HandlerNotice) : LogLevel :=
  if notice.isWarning then .warn else .info

/-- A command to a handler takes two lines: the request, and what it met. -/
def Event.logLines : Event → List LogLine
  | executing statement => [⟨.debug,runSource,"executing statement=" ++ statement.render⟩]
  | failed fault => [⟨.debug,runSource,"statement failed error=" ++ fault.message⟩]
  | called function arity depth =>
    [⟨.debug,runSource,"call function=<function " ++ function ++ " " ++ toString arity
      ++ "> depth=" ++ toString depth⟩]
  | handler command name notice =>
    [⟨.debug,runSource,command.word ++ " handler=" ++ name⟩,
     ⟨notice.level,handlerSource,notice.message ++ " handler=" ++ Text.quoted name⟩]

def renderLog (verbose : Bool) (lines : List LogLine) : String :=
  String.join ((lines.filter (·.isShown verbose)).map LogLine.render)

end BlockScript
