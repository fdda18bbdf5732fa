import BlockScript.Build.Error

/-! Statements in postfix order, one token at a time. Operators wait on a stack until one of lower
precedence, a closing parenthesis or the end of the statement releases them. -/
namespace BlockScript.Postfix

inductive Waiting
  | binary (operator : Token)
  /-- A word that leads a statement comes out after everything else in it. -/
  | leading (word : Token)
  | parenthesis
  /-- A call remembers how much output there was when its parenthesis opened. -/
  | call (called : Token) (before : Nat)

/-- Output and stack hold the most recent token first. A name waits by itself for the next token,
which tells whether it is called. -/
structure Converter where
  output : List Token
  stack : List Waiting
  pending : Option Token
  skipping : Bool

def precedence : TokenKind → Nat
  | .comma => 1
  | .assign => 2
  | .orWord => 3
  | .andWord => 4
  | .comparison => 5
  | .additive => 6
  | .multiplicative => 7
  | .dot => 8
  | _ => 0

/-- Whether a waiting operator takes its operands before the one that comes in. Of two with the
same precedence the left one does, except for assignments. -/
def yields (waiting incoming : TokenKind) : Bool :=
  precedence incoming < precedence waiting
    || (precedence waiting == precedence incoming && incoming != .assign)

def release (goes : TokenKind → Bool) : List Waiting → List Token → List Waiting × List Token
  | .binary operator :: stack, output =>
    if goes operator.kind then release goes stack (operator :: output)
    else (.binary operator :: stack,output)
  | stack, output => (stack,output)

/-- Empties the stack at the end of a statement; an open parenthesis prevents that. -/
def unwind : List Waiting → List Token → Except BuildError (List Token)
  | [], output => .ok output
  | .binary token :: stack, output | .leading token :: stack, output =>
    unwind stack (token :: output)
  | .parenthesis :: _, _ | .call _ _ :: _, _ => .error .unbalancedParenthesis

namespace Converter

def empty : Converter := ⟨[],[],none,false⟩

def emit (converter : Converter) (token : Token) : Converter :=
  { converter with output := token :: converter.output }

def push (converter : Converter) (waiting : Waiting) : Converter :=
  { converter with stack := waiting :: converter.stack }

def settle (converter : Converter) : Converter :=
  match converter.pending with
  | some name => { converter with output := name :: converter.output, pending := none }
  | none => converter

def releaseBinaries (goes : TokenKind → Bool) (converter : Converter) : Converter :=
  let (stack,output) := release goes converter.stack converter.output
  { converter with stack, output }

def pushBinary (converter : Converter) (operator : Token) : Converter :=
  (converter.releaseBinaries (yields · operator.kind)).push (.binary operator)

/-- A comma separates arguments, so it stands right above a call. -/
def pushComma (converter : Converter) (comma : Token) : Except BuildError Converter :=
  let next := converter.pushBinary comma
  match next.stack with
  | _ :: .call _ _ :: _ => .ok next
  | _ => .error .commaOutsideCall

def closeIterator (converter : Converter) : Except BuildError Converter :=
  let next := converter.releaseBinaries fun _ => true
  match next.stack with
  | .leading word :: _ => if word.kind = .forWord then .ok next else .error .inOutsideFor
  | _ => .error .inOutsideFor

/-- A closed call covers its name through the closing parenthesis. -/
def closeParenthesis (converter : Converter) (closing : Token) : Except BuildError Converter :=
  let next := converter.releaseBinaries fun _ => true
  match next.stack with
  | .parenthesis :: stack => .ok { next with stack }
  | .call called before :: stack =>
    let kind := if next.output.length = before then .callNoArgs else .call
    .ok { next with
      stack
      output := ⟨kind,called.lexeme,called.span.cover closing.span⟩ :: next.output }
  | _ => .error .unbalancedParenthesis

def finish (converter : Converter) (last : Token) : Except BuildError (List Token) :=
  (unwind converter.stack converter.output).map fun output =>
    output.reverse ++ [last.retyped .statementEnd]

def convert (converter : Converter) (token : Token) : Except BuildError (List Token × Converter) :=
  match converter.pending, token.kind with
  | some name, .opening =>
    .ok ([],{ converter with pending := none }.push (.call name converter.output.length))
  | _, kind =>
    let settled := converter.settle
    match kind with
    | .name => .ok ([],{ settled with pending := some token })
    | .integer | .real | .string => .ok ([],settled.emit token)
    | .putWord | .retWord | .ifWord | .whileWord | .forWord =>
      .ok ([],settled.push (.leading token))
    | .inWord => settled.closeIterator.map ([],·)
    | .additive | .multiplicative | .comparison | .andWord | .orWord | .assign | .dot =>
      .ok ([],settled.pushBinary token)
    | .comma => (settled.pushComma token).map ([],·)
    | .opening => .ok ([],settled.push .parenthesis)
    | .closing => (settled.closeParenthesis token).map ([],·)
    | .semicolon | .fileEnd => (settled.finish token).map (·,empty)
    | .doneWord => (settled.finish token).map fun ready => (ready ++ [token],empty)
    | .doWord | .elseWord =>
      (settled.finish token).map fun ready =>
        (ready ++ [token,token.retyped .statementEnd],empty)
    | .specifier | .call | .callNoArgs | .statementEnd => .error (.unexpected kind)

/-- After an error the rest of the statement is discarded, unless the token ended it. -/
def feed (converter : Converter) (token : Token) : Except BuildError (List Token) × Converter :=
  if converter.skipping && !token.kind.endsStatement then (.ok [],converter)
  else
    match { converter with skipping := false }.convert token with
    | .ok (ready,next) => (.ok ready,next)
    | .error error => (.error error,{ empty with skipping := !token.kind.endsStatement })

end Converter

end BlockScript.Postfix
