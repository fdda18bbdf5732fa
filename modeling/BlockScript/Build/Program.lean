import BlockScript.Build.Assembly
import BlockScript.Build.Declaration
import BlockScript.Build.Postfix

/-! A whole file built from tokens. Each token goes to the declaration reader first; what that
declines is put into postfix order and assembled. -/
namespace BlockScript

structure Builder where
  reader : Declaration.Reader
  converter : Postfix.Converter
  assembly : Assembly

namespace Builder

def empty : Builder := ⟨.idle,.empty,.empty⟩

def report (builder : Builder) (error : BuildError) (token : Token) : Builder :=
  { builder with assembly := builder.assembly.report error token }

def convertOnce (builder : Builder) (token : Token) : Bool × Builder :=
  match builder.converter.feed token with
  | (.ok ready,converter) =>
    (true,{ builder with converter, assembly := ready.foldl Assembly.feed builder.assembly })
  | (.error error,converter) => (false,{ builder with converter }.report error token)

/-- A structural token outlives the broken statement before it, so it is offered again. -/
def convert (builder : Builder) (token : Token) : Builder :=
  match builder.convertOnce token with
  | (true,next) => next
  | (false,next) => if token.kind.isStructural then (next.convertOnce token).2 else next

def feed (builder : Builder) (token : Token) : Builder :=
  match builder.reader.feed token with
  | (.ok (.complete declaration),reader) =>
    { builder with reader, assembly := builder.assembly.declare declaration token }
  | (.ok .consumed,reader) => { builder with reader }
  | (.ok .declined,reader) => { builder with reader }.convert token
  | (.error error,reader) =>
    let next := { builder with reader }.report error token
    if token.kind.isStructural then next.convert token else next

end Builder

def lastToken (tokens : List Token) : Token :=
  tokens.getLast?.getD (.fileEnd ⟨0,0⟩)

def build (tokens : List Token) : Built :=
  (tokens.foldl Builder.feed .empty).assembly.finish (lastToken tokens)

def Built.strict (built : Built) : Except (List Report) (List Node) :=
  if built.reports.isEmpty then .ok built.roots else .error built.reports

end BlockScript
