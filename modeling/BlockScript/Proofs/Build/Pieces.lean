import BlockScript.Proofs.Build.Clean
import Mathlib.Algebra.BigOperators.Group.Multiset.Basic
import Mathlib.Algebra.Order.Group.Multiset
import Mathlib.Tactic.Abel

/-! What a tree is made of. A name, a literal, an operator, a leading word and a block are one piece
each, and so is each token that stands for one of them. A stage of building hands every piece on
that it takes in, either at once or later. -/
namespace BlockScript

inductive Piece
  | name (text : String)
  | int (value : Int64)
  | real (value : Float)
  | string (text : String)
  | arithmetic (operator : Arithmetic)
  | test (operator : Test)
  | assign
  | field
  | put
  | ret
  | ifThen
  | whileDo
  | forIn
  | block

/-- All other kinds only say how pieces belong together. -/
def TokenKind.hasPiece : TokenKind → Bool
  | specifier | elseWord | inWord | doneWord | comma | semicolon | opening | closing
  | statementEnd | fileEnd => false
  | _ => true

def Token.piece? (token : Token) : Option Piece :=
  match token.kind with
  | .name | .call | .callNoArgs => some (.name token.lexeme)
  | .integer => (Decimal.integer? token.lexeme).map .int
  | .real => (Decimal.real? token.lexeme).map .real
  | .string => some (.string token.lexeme)
  | .additive | .multiplicative => (Arithmetic.ofSpelling? token.lexeme).map .arithmetic
  | .comparison => (Relation.ofSpelling? token.lexeme).map fun relation => .test (.compare relation)
  | .andWord => some (.test .both)
  | .orWord => some (.test .either)
  | .assign => some .assign
  | .dot => some .field
  | .putWord => some .put
  | .retWord => some .ret
  | .ifWord => some .ifThen
  | .whileWord => some .whileDo
  | .forWord => some .forIn
  | .doWord => some .block
  | _ => none

namespace Node

mutual

/-- The pieces of a tree. A block that belongs to a statement is a piece as any other block. -/
def pieces : Node → List Piece
  | int value => [.int value]
  | real value => [.real value]
  | name text => [.name text]
  | string text => [.string text]
  | arithmetic operator left right => .arithmetic operator :: (left.pieces ++ right.pieces)
  | test operator left right => .test operator :: (left.pieces ++ right.pieces)
  | assign target value => .assign :: (target.pieces ++ value.pieces)
  | field object member => .field :: (object.pieces ++ member.pieces)
  | argument left right => left.pieces ++ right.pieces
  | lastArgument operand => operand.pieces
  | typed declared => [.name declared.name]
  | function called _ parameters body =>
    .name called :: (parameters.map (Piece.name ·.name) ++ statementPieces body)
  | call called arguments => .name called :: arguments.pieces
  | callNoArgs called => [.name called]
  | handler called => [.name called]
  | ifThen condition body otherwise =>
    .ifThen :: (condition.pieces ++ slotPieces body ++ slotPieces otherwise)
  | whileDo condition body => .whileDo :: (condition.pieces ++ slotPieces body)
  | forIn iterator collection body =>
    .forIn :: (iterator.pieces ++ collection.pieces ++ slotPieces body)
  | put operand => .put :: operand.pieces
  | ret operand => .ret :: operand.pieces
  | block statements => .block :: statementPieces statements
  | elseMark | doMark | lineMark => []
termination_by structural node => node

def slotPieces : Option (List Node) → List Piece
  | none => []
  | some statements => .block :: statementPieces statements
termination_by structural slot => slot

def statementPieces : List Node → List Piece
  | [] => []
  | statement :: rest => statement.pieces ++ statementPieces rest
termination_by structural statements => statements

end

end Node

/-- Pieces regardless of their order. What cannot be read counts as `none`. -/
abbrev Trace := Multiset (Option Piece)

def Token.trace (token : Token) : Trace := if token.kind.hasPiece then {token.piece?} else 0

def piecesTrace (pieces : List Piece) : Trace := (pieces.map some : List (Option Piece))

def Node.trace (node : Node) : Trace := piecesTrace node.pieces

def tokensTrace (tokens : List Token) : Trace := (tokens.map Token.trace).sum

def nodesTrace (nodes : List Node) : Trace := (nodes.map Node.trace).sum

@[simp]
theorem piecesTrace_nil : piecesTrace [] = 0 := rfl

@[simp]
theorem piecesTrace_cons (piece : Piece) (pieces : List Piece) :
    piecesTrace (piece :: pieces) = {some piece} + piecesTrace pieces := by
  simp [piecesTrace]

@[simp]
theorem piecesTrace_append (left right : List Piece) :
    piecesTrace (left ++ right) = piecesTrace left + piecesTrace right := by
  simp [piecesTrace]

theorem Token.trace_eq_zero (token : Token) (bare : token.kind.hasPiece = false) :
    token.trace = 0 := by
  simp [trace,bare]

@[simp]
theorem tokensTrace_nil : tokensTrace [] = 0 := rfl

theorem tokensTrace_cons (token : Token) (tokens : List Token) :
    tokensTrace (token :: tokens) = token.trace + tokensTrace tokens := by
  simp [tokensTrace]

theorem tokensTrace_append (left right : List Token) :
    tokensTrace (left ++ right) = tokensTrace left + tokensTrace right := by
  simp [tokensTrace]

theorem tokensTrace_reverse (tokens : List Token) :
    tokensTrace tokens.reverse = tokensTrace tokens := by
  simp [tokensTrace]

theorem tokensTrace_eq (tokens : List Token) :
    tokensTrace tokens = ((tokens.filter (·.kind.hasPiece)).map Token.piece? : List _) := by
  induction tokens with
  | nil => rfl
  | cons token tokens ih =>
    rw [tokensTrace_cons,ih,Token.trace]
    cases counts : token.kind.hasPiece <;> simp [counts]

@[simp]
theorem nodesTrace_nil : nodesTrace [] = 0 := rfl

theorem nodesTrace_cons (node : Node) (nodes : List Node) :
    nodesTrace (node :: nodes) = node.trace + nodesTrace nodes := by
  simp [nodesTrace]

theorem nodesTrace_append (left right : List Node) :
    nodesTrace (left ++ right) = nodesTrace left + nodesTrace right := by
  simp [nodesTrace]

theorem nodesTrace_reverse (nodes : List Node) :
    nodesTrace nodes.reverse = nodesTrace nodes := by
  simp [nodesTrace]

theorem nodesTrace_eq (nodes : List Node) :
    nodesTrace nodes = piecesTrace (nodes.flatMap Node.pieces) := by
  induction nodes with
  | nil => rfl
  | cons node nodes ih => rw [nodesTrace_cons,ih,List.flatMap_cons,piecesTrace_append,Node.trace]

theorem trace_statementPieces (statements : List Node) :
    piecesTrace (Node.statementPieces statements) = nodesTrace statements := by
  induction statements with
  | nil => rfl
  | cons statement rest ih =>
    rw [nodesTrace_cons,← ih,Node.statementPieces,piecesTrace_append,Node.trace]

theorem ok_of_map {α β : Type} (change : α → β) (result : Except BuildError α) (value : β)
    (worked : result.map change = .ok value) : ∃ before, result = .ok before ∧ change before = value := by
  cases result <;> simp_all [Except.map]

namespace Declaration

def Reader.trace : Reader → Trace
  | idle | typed _ | skipping => 0
  | named _ called => {some (.name called)}
  | parameters header _ => header.toNode.trace

/-- The pieces that leave the reader. A declined token takes its own with it. -/
def Recognition.trace (token : Token) : Recognition → Trace
  | declined => token.trace
  | consumed => 0
  | complete declaration => declaration.trace

theorem trace_simple (type : TypeName) (called : String) :
    (simple type called).trace = {some (.name called)} := by
  unfold simple
  split <;> simp [Node.trace,Node.pieces]

theorem trace_addParameter (header : Header) (parameter : TypedName) :
    (header.addParameter parameter).toNode.trace =
      header.toNode.trace + {some (.name parameter.name)} := by
  simp only [Node.trace,Header.toNode,Header.addParameter,Node.pieces,Node.statementPieces,
    List.map_append,List.map_cons,List.map_nil,piecesTrace_cons,piecesTrace_append,piecesTrace_nil]
  abel

/-- What leaves a reader and what stays in it has the pieces of what was there before and of the
token. -/
theorem Reader.feed_trace (reader next : Reader) (token : Token) (recognition : Recognition)
    (reading : reader ≠ .skipping) (read : reader.feed token = (.ok recognition,next)) :
    recognition.trace token + next.trace = reader.trace + token.trace := by
  have name (kind : token.kind = .name) : token.trace = {some (.name token.lexeme)} := by
    simp [Token.trace,kind,TokenKind.hasPiece,Token.piece?]
  cases reader.reads next token recognition reading read with
  | declined => rw [Recognition.trace,trace,zero_add,add_zero]
  | named type kind => rw [Recognition.trace,trace,trace,name kind]
  | simple type called kind =>
    have bare := token.trace_eq_zero (by simp [kind,TokenKind.hasPiece])
    rw [Recognition.trace,trace,trace,trace_simple,bare]
  | opened type called kind =>
    have bare := token.trace_eq_zero (by simp [kind,TokenKind.hasPiece])
    simp [Recognition.trace,trace,bare,Header.toNode,Node.trace,Node.pieces,Node.statementPieces]
  | parameterName header type kind =>
    rw [Recognition.trace,trace,trace,trace_addParameter,name kind,zero_add]
  | typed _ kind | closed _ _ kind | parameterType _ _ _ kind | comma _ kind =>
    have bare := token.trace_eq_zero (by simp [kind,TokenKind.hasPiece])
    simp [Recognition.trace,trace,bare]

end Declaration

namespace Postfix

def Waiting.trace : Waiting → Trace
  | binary token | leading token => token.trace
  | parenthesis => 0
  | call called _ => {some (.name called.lexeme)}

def stackTrace (stack : List Waiting) : Trace := (stack.map Waiting.trace).sum

theorem stackTrace_cons (waiting : Waiting) (stack : List Waiting) :
    stackTrace (waiting :: stack) = waiting.trace + stackTrace stack := by
  simp [stackTrace]

theorem stackTrace_held (held : List Token) (stack : List Waiting) :
    stackTrace (held.map .binary ++ stack) = tokensTrace held + stackTrace stack := by
  simp [stackTrace,tokensTrace,Function.comp_def,Waiting.trace]

theorem unwind_trace (stack : List Waiting) (output result : List Token)
    (unwound : unwind stack output = .ok result) :
    tokensTrace result = stackTrace stack + tokensTrace output := by
  induction stack generalizing output with
  | nil =>
    obtain rfl : output = result := Except.ok.inj unwound
    simp [stackTrace]
  | cons waiting stack ih =>
    cases waiting with
    | binary token | leading token =>
      rw [ih (token :: output) unwound,stackTrace_cons,tokensTrace_cons,Waiting.trace]
      abel
    | parenthesis => contradiction
    | call called before => contradiction

namespace Converter

def trace (converter : Converter) : Trace :=
  tokensTrace converter.output + stackTrace converter.stack + tokensTrace converter.pending.toList

def Named (converter : Converter) : Prop :=
  ∀ token, converter.pending = some token → token.kind = .name

theorem named_empty : empty.Named := by
  simp [Named,empty]

theorem trace_empty : empty.trace = 0 := by
  simp [trace,empty,tokensTrace,stackTrace]

theorem trace_settle (converter : Converter) : converter.settle.trace = converter.trace := by
  obtain ⟨output,stack,pending,skipping⟩ := converter
  cases pending with
  | none => rfl
  | some name =>
    simp only [settle,trace,tokensTrace_cons,Option.toList]
    abel

theorem trace_push (converter : Converter) (waiting : Waiting) :
    (converter.push waiting).trace = converter.trace + waiting.trace := by
  simp only [push,trace,stackTrace_cons]
  abel

theorem trace_releaseBinaries (converter : Converter) (goes : TokenKind → Bool) :
    (converter.releaseBinaries goes).trace = converter.trace := by
  obtain ⟨held,rest,same,released⟩ := converter.releaseBinaries_split goes
  rw [released,trace,trace,same,stackTrace_held,tokensTrace_append,tokensTrace_reverse]
  abel

theorem trace_pushBinary (converter : Converter) (operator : Token) :
    (converter.pushBinary operator).trace = converter.trace + operator.trace := by
  rw [pushBinary,trace_push,trace_releaseBinaries,Waiting.trace]

theorem trace_emit (converter : Converter) (token : Token) :
    (converter.emit token).trace = converter.trace + token.trace := by
  simp only [emit,trace,tokensTrace_cons]
  abel

theorem trace_closeParenthesis (converter next : Converter) (closing : Token)
    (closed : converter.closeParenthesis closing = .ok next) :
    next.pending = converter.pending ∧ next.trace = converter.trace := by
  have released := converter.trace_releaseBinaries fun _ => true
  unfold closeParenthesis at closed
  dsimp only at closed
  split at closed
  next rest stack =>
    obtain rfl := Except.ok.inj closed
    refine ⟨rfl,?_⟩
    rw [← released,trace,trace,stack,stackTrace_cons,Waiting.trace,zero_add]
  next called before rest stack =>
    obtain rfl := Except.ok.inj closed
    have counts (kind : TokenKind) (calls : kind = .call ∨ kind = .callNoArgs) (span : Span) :
        Token.trace ⟨kind,called.lexeme,span⟩ = {some (.name called.lexeme)} := by
      rcases calls with rfl | rfl <;> rfl
    refine ⟨rfl,?_⟩
    rw [← released,trace,trace,stack,stackTrace_cons,Waiting.trace,tokensTrace_cons,
      counts _ (by split <;> simp)]
    abel
  next => contradiction

theorem finish_trace (converter : Converter) (last : Token) (ready : List Token)
    (pending : converter.pending = none) (finished : converter.finish last = .ok ready) :
    tokensTrace ready = converter.trace := by
  unfold finish at finished
  cases unwound : unwind converter.stack converter.output with
  | error error => simp [unwound,Except.map] at finished
  | ok output =>
    obtain rfl : _ = ready := by simpa [unwound,Except.map] using finished
    have ends : tokensTrace [last.retyped .statementEnd] = 0 := by
      simp [tokensTrace,Token.trace,Token.retyped,TokenKind.hasPiece]
    rw [tokensTrace_append,tokensTrace_reverse,unwind_trace _ _ output unwound,ends,trace,pending]
    simp only [Option.toList,tokensTrace_nil]
    abel

theorem ended_trace (converter next : Converter) (token : Token) (tail ready : List Token)
    (pieces : tokensTrace tail = token.trace)
    (same : ((converter.settle.finish token).map fun ready => (ready ++ tail,empty)) =
      .ok (ready,next)) :
    next.Named ∧ tokensTrace ready + next.trace = converter.trace + token.trace := by
  obtain ⟨all,finished,same⟩ := ok_of_map _ _ _ same
  obtain ⟨rfl,rfl⟩ := Prod.mk.inj same
  refine ⟨named_empty,?_⟩
  rw [tokensTrace_append,finish_trace _ token all converter.settle_pending finished,pieces,
    trace_empty,add_zero,trace_settle]

/-- What comes out of the converter and what stays in it has the pieces of what was there before and
of the token. -/
theorem convert_trace (converter next : Converter) (token : Token) (ready : List Token)
    (named : converter.Named) (ran : converter.convert token = .ok (ready,next)) :
    next.Named ∧ tokensTrace ready + next.trace = converter.trace + token.trace := by
  have quiet (after : Converter) (same : Except.ok ([],after) =
        (.ok (ready,next) : Except BuildError (List Token × Converter)))
      (settled : after.pending = none) (kept : after.trace = converter.settle.trace + token.trace) :
      next.Named ∧ tokensTrace ready + next.trace = converter.trace + token.trace := by
    obtain ⟨rfl,rfl⟩ := Prod.mk.inj (Except.ok.inj same)
    exact ⟨by simp [Named,settled],by rw [kept,trace_settle,tokensTrace_nil,zero_add]⟩
  have pending := converter.settle_pending
  unfold convert at ran
  split at ran
  next name called kind =>
    obtain ⟨rfl,rfl⟩ := Prod.mk.inj (Except.ok.inj ran)
    refine ⟨by simp [Named,push],?_⟩
    have counts : name.trace = {some (.name name.lexeme)} := by
      simp [Token.trace,Token.piece?,named name called,TokenKind.hasPiece]
    have bare := token.trace_eq_zero (by simp [kind,TokenKind.hasPiece])
    simp only [push,trace,stackTrace_cons,Waiting.trace,called,Option.toList,tokensTrace_cons,
      tokensTrace_nil,counts,bare]
    abel
  next =>
    cases kind : token.kind with
    | name =>
      obtain ⟨rfl,rfl⟩ : [] = ready ∧ _ = next := by simpa [kind] using ran
      refine ⟨?_,?_⟩
      · intro other same
        obtain rfl := Option.some.inj same
        exact kind
      · rw [← converter.trace_settle]
        simp only [trace,pending,Option.toList,tokensTrace_cons,tokensTrace_nil]
        abel
    | integer | real | string =>
      rw [kind] at ran
      exact quiet _ ran pending (trace_emit _ token)
    | putWord | retWord | ifWord | whileWord | forWord =>
      rw [kind] at ran
      exact quiet _ ran pending (trace_push _ _)
    | additive | multiplicative | comparison | andWord | orWord | assign | dot =>
      rw [kind] at ran
      exact quiet _ ran pending (trace_pushBinary _ token)
    | comma =>
      rw [kind] at ran
      obtain ⟨after,pushed,same⟩ := ok_of_map _ _ _ ran
      unfold pushComma at pushed
      dsimp only at pushed
      split at pushed
      · obtain rfl := Except.ok.inj pushed
        exact quiet _ (congrArg Except.ok same) pending (trace_pushBinary _ token)
      · contradiction
    | inWord =>
      rw [kind] at ran
      obtain ⟨after,closed,same⟩ := ok_of_map _ _ _ ran
      have bare := token.trace_eq_zero (by simp [kind,TokenKind.hasPiece])
      unfold closeIterator at closed
      dsimp only at closed
      split at closed
      · split at closed
        · obtain rfl := Except.ok.inj closed
          exact quiet _ (congrArg Except.ok same) pending
            (by rw [trace_releaseBinaries,bare,add_zero])
        · contradiction
      · contradiction
    | opening =>
      rw [kind] at ran
      have bare := token.trace_eq_zero (by simp [kind,TokenKind.hasPiece])
      exact quiet _ ran pending (by rw [trace_push,Waiting.trace,bare])
    | closing =>
      rw [kind] at ran
      obtain ⟨after,closed,same⟩ := ok_of_map _ _ _ ran
      have bare := token.trace_eq_zero (by simp [kind,TokenKind.hasPiece])
      obtain ⟨settled,kept⟩ := trace_closeParenthesis _ after token closed
      exact quiet after (congrArg Except.ok same) (settled.trans pending)
        (by rw [kept,bare,add_zero])
    | semicolon | fileEnd =>
      rw [kind] at ran
      refine ended_trace converter next token [] ready ?_ (by simpa using ran)
      rw [tokensTrace_nil,token.trace_eq_zero (by simp [kind,TokenKind.hasPiece])]
    | doneWord =>
      rw [kind] at ran
      exact ended_trace converter next token [token] ready (by simp [tokensTrace]) ran
    | doWord | elseWord =>
      rw [kind] at ran
      refine ended_trace converter next token [token,token.retyped .statementEnd] ready ?_ ran
      rw [tokensTrace_cons,tokensTrace_cons,tokensTrace_nil,
        Token.trace_eq_zero (token.retyped .statementEnd) rfl,add_zero,add_zero]
    | specifier | call | callNoArgs | statementEnd => simp [kind] at ran

end Converter

end Postfix

end BlockScript
