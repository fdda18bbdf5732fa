import BlockScript.Build.Error
import BlockScript.Tree.Basic

/-! Declarations, read token by token: `int x;`, `system_handler h;` and function headers such as
`int f(int a, float b)`. Tokens that belong to no declaration are declined. -/
namespace BlockScript.Declaration

inductive Recognition
  | declined
  | consumed
  | complete (declaration : Node)

structure Header where
  called : String
  returns : TypeName
  parameters : List TypedName

inductive Expecting
  | firstParameter
  | parameterType
  | parameterName (type : TypeName)
  | commaOrClosing

inductive Reader
  | idle
  | typed (type : TypeName)
  | named (type : TypeName) (called : String)
  | parameters (header : Header) (expecting : Expecting)
  /-- A broken declaration is discarded through its semicolon. -/
  | skipping

def specifier (token : Token) : Except BuildError TypeName :=
  match TypeName.ofSpelling? token.lexeme with
  | some type => .ok type
  | none => .error (.unknownSpecifier token.lexeme)

def simple (type : TypeName) (called : String) : Node :=
  if type = .systemHandler then .handler called else .typed ⟨called,type⟩

/-- A function starts with an empty body. -/
def Header.toNode (header : Header) : Node :=
  .function header.called header.returns header.parameters []

def Header.addParameter (header : Header) (parameter : TypedName) : Header :=
  { header with parameters := header.parameters ++ [parameter] }

def parameterError (expecting : Expecting) (kind : TokenKind) : BuildError :=
  if kind = .fileEnd then .unfinishedDeclaration
  else
    match expecting with
    | .parameterName _ => .expected .parameterName
    | .commaOrClosing => .expected .commaOrClosing
    | .firstParameter | .parameterType => .expected .parameterType

def readParameter (header : Header) (expecting : Expecting) (token : Token) :
    Except BuildError (Recognition × Reader) :=
  match expecting, token.kind with
  | .firstParameter, .closing | .commaOrClosing, .closing =>
    .ok (.complete header.toNode,.idle)
  | .firstParameter, .specifier | .parameterType, .specifier =>
    (specifier token).map fun type => (.consumed,.parameters header (.parameterName type))
  | .parameterName type, .name =>
    .ok (.consumed,.parameters (header.addParameter ⟨token.lexeme,type⟩) .commaOrClosing)
  | .commaOrClosing, .comma => .ok (.consumed,.parameters header .parameterType)
  | expecting, kind => .error (parameterError expecting kind)

namespace Reader

def advance (reader : Reader) (token : Token) : Except BuildError (Recognition × Reader) :=
  match reader with
  | idle =>
    if token.kind = .specifier then (specifier token).map fun type => (.consumed,typed type)
    else .ok (.declined,idle)
  | typed type =>
    if token.kind = .name then .ok (.consumed,named type token.lexeme)
    else .error (.expected .name)
  | named type called =>
    match token.kind with
    | .semicolon => .ok (.complete (simple type called),idle)
    | .opening =>
      if type = .systemHandler then .error .handlerParameters
      else .ok (.consumed,parameters ⟨called,type,[]⟩ .firstParameter)
    | _ => .error (.expected .endOrParameters)
  | parameters header expecting => readParameter header expecting token
  | skipping =>
    if token.kind = .semicolon then .ok (.consumed,idle)
    else if token.kind.isStructural then .ok (.declined,idle)
    else .ok (.consumed,skipping)

/-- After an error the rest of the declaration is discarded, unless the token ended it. -/
def feed (reader : Reader) (token : Token) : Except BuildError Recognition × Reader :=
  match reader.advance token with
  | .ok (recognition,next) => (.ok recognition,next)
  | .error error => (.error error,if token.kind.endsStatement then idle else skipping)

end Reader

end BlockScript.Declaration
