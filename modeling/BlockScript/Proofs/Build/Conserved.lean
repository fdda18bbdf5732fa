import BlockScript.Proofs.Build.Finish
import BlockScript.Proofs.Build.Pieces
import BlockScript.Proofs.Grammar.Basic

/-! Building without a report loses no piece and makes none up. Whatever a token stands for is, at
any time, in exactly one of the places where a builder keeps things. -/
namespace BlockScript
open Postfix

theorem Attached.trace (body before after : List Node) (attached : Attached body before after) :
    nodesTrace after = nodesTrace before + nodesTrace body + {some .block} := by
  cases attached <;>
    simp only [nodesTrace_cons,Node.trace,Node.pieces,Node.slotPieces,Node.statementPieces,
      piecesTrace_cons,piecesTrace_append,piecesTrace_nil,trace_statementPieces] <;>
    abel

theorem trace_chain (operand : Node) : (Assembly.chain operand).trace = operand.trace := by
  cases operand <;> rfl

namespace Assembly

def trace (assembly : Assembly) : Trace :=
  nodesTrace assembly.operands + nodesTrace assembly.roots +
    assembly.openBlocks.length • {some .block}

structure Smooth (assembly : Assembly) : Prop where
  awake : assembly.skipping = false
  silent : assembly.reports = []
  counted : assembly.openBlocks.length =
    assembly.operands.countP Node.isDoMark + assembly.roots.countP Node.isDoMark

/-- Nothing went wrong with the token either, and its piece was added. -/
structure Conserved (token : Token) (before after : Assembly) : Prop where
  smooth : after.Smooth
  trace : after.trace = before.trace + token.trace

section
variable (assembly : Assembly) (smooth : assembly.Smooth) (token : Token)
include smooth

theorem conserved_push (node : Node) (same : node.trace = token.trace)
    (plain : node.isDoMark = false) : Conserved token assembly (assembly.pushOperand node) := by
  refine ⟨⟨smooth.awake,smooth.silent,?_⟩,?_⟩
  · simpa [pushOperand,plain] using smooth.counted
  · simp only [trace,pushOperand,nodesTrace_cons,same]
    abel

theorem conserved_one (make : Node → Node) (next : Assembly)
    (made : ∀ operand, (make operand).trace = token.trace + operand.trace ∧
      (make operand).isDoMark = false)
    (taken : assembly.takeOne token make = (next,none)) : Conserved token assembly next := by
  obtain ⟨awake,silent,counted⟩ := smooth
  obtain ⟨operands,roots,openBlocks,reports,skipping⟩ := assembly
  unfold takeOne at taken
  split at taken
  next operand rest same =>
    obtain rfl : operands = operand :: rest := same
    split at taken
    · simp at taken
    next plain =>
      obtain rfl := (Prod.mk.inj taken).1
      refine ⟨⟨awake,silent,?_⟩,?_⟩
      · simpa [plain,(made operand).2] using counted
      · simp only [trace,nodesTrace_cons,(made operand).1]
        abel
  next => simp at taken

theorem conserved_two (make : Node → Node → Node) (next : Assembly)
    (made : ∀ left right, (make left right).trace = token.trace + (left.trace + right.trace) ∧
      (make left right).isDoMark = false)
    (taken : assembly.takeTwo token make = (next,none)) : Conserved token assembly next := by
  obtain ⟨awake,silent,counted⟩ := smooth
  obtain ⟨operands,roots,openBlocks,reports,skipping⟩ := assembly
  unfold takeTwo at taken
  split at taken
  next right left rest same =>
    obtain rfl : operands = right :: left :: rest := same
    split at taken
    · simp at taken
    next plain =>
      obtain rfl := (Prod.mk.inj taken).1
      simp only [Bool.or_eq_true,not_or,Bool.not_eq_true] at plain
      refine ⟨⟨awake,silent,?_⟩,?_⟩
      · simpa [plain,(made left right).2] using counted
      · simp only [trace,nodesTrace_cons,(made left right).1]
        abel
  next => simp at taken

theorem conserved_done (kind : token.kind = .doneWord) (next : Assembly)
    (closed : assembly.closeBlock token = (next,none)) (fine : next.reports = []) :
    Conserved token assembly next := by
  obtain ⟨awake,silent,counted⟩ := smooth
  obtain ⟨inner,outer,after,same,apart,-,attached,rfl⟩ :=
    closeBlock_ok assembly next token closed (fine.trans silent.symm)
  have nothing : inner.countP Node.isDoMark = 0 := by simpa using apart
  have mark : (Node.doMark.isDoMark) = true := rfl
  rw [same,List.countP_append,List.countP_cons,nothing,if_pos mark] at counted
  cases opened : assembly.openBlocks with
  | nil => simp [opened] at counted
  | cons word openBlocks =>
    rw [opened,List.length_cons] at counted
    have bare := token.trace_eq_zero (by simp [kind,TokenKind.hasPiece])
    have unmarked : Node.doMark.trace = 0 := rfl
    -- The block that is made now was counted while it was open.
    refine ⟨⟨awake,silent,?_⟩,?_⟩
    · simp only [List.drop_succ_cons,List.drop_zero,attached.countP_doMark]
      omega
    · simp only [trace,same,opened,bare,unmarked,attached.trace,nodesTrace_append,nodesTrace_cons,
        nodesTrace_reverse,List.drop_succ_cons,List.drop_zero,List.length_cons,succ_nsmul]
      abel

end

theorem promoted_ok (token : Token) (nodes : List Node) (assembly : Assembly)
    (fine : (nodes.foldl (promote token) assembly).reports = []) :
    nodes.foldl (promote token) assembly =
      { assembly with roots := nodes.reverse ++ assembly.roots } := by
  induction nodes generalizing assembly with
  | nil => rfl
  | cons node nodes ih =>
    have first : (promote token assembly node).reports = [] :=
      nil_of_suffix (reports_promoted _ token nodes) fine
    have promoted : promote token assembly node =
        { assembly with roots := node :: assembly.roots } := by
      unfold promote at first ⊢
      split at first
      next mark => rw [if_pos mark]
      next plain =>
        have before := nil_of_suffix (assembly.reports_dropHeader token) first
        rw [if_neg plain,assembly.dropHeader_calm token
          (calm_of_dropHeader assembly token (first.trans before.symm))]
    rw [List.foldl_cons,promoted] at fine ⊢
    rw [ih _ fine]
    simp

theorem conserved_end (assembly : Assembly) (smooth : assembly.Smooth) (token : Token)
    (kind : token.kind = .statementEnd) (fine : (assembly.flush token).reports = []) :
    Conserved token assembly (assembly.flush token) := by
  have bare := token.trace_eq_zero (by simp [kind,TokenKind.hasPiece])
  have flushed : assembly.flush token =
      { assembly with operands := [], roots := assembly.operands.reverse ++ assembly.roots } := by
    unfold flush at fine ⊢
    rw [promoted_ok token assembly.operands assembly fine]
  rw [flushed]
  refine ⟨⟨smooth.awake,smooth.silent,?_⟩,?_⟩
  · simpa using smooth.counted
  · simp only [trace,bare,nodesTrace_append,nodesTrace_reverse,nodesTrace_nil]
    abel

theorem conserved_apply (assembly : Assembly) (smooth : assembly.Smooth) (token : Token)
    (next : Assembly) (applied : assembly.apply token = (next,none)) (fine : next.reports = []) :
    Conserved token assembly next := by
  have push (node : Node) (same : node.trace = token.trace) (plain : node.isDoMark = false)
      (pushed : (assembly.pushOperand node,none) = (next,(none : Option BuildError))) :
      Conserved token assembly next := by
    obtain rfl := (Prod.mk.inj pushed).1
    exact conserved_push assembly smooth token node same plain
  have one := conserved_one assembly smooth token
  have two := conserved_two assembly smooth token
  cases kind : token.kind with
  | integer | real =>
    simp only [apply,kind] at applied
    split at applied
    next value read =>
      exact push _ (by simp [Node.trace,Node.pieces,Token.trace,kind,TokenKind.hasPiece,
        Token.piece?,read]) rfl applied
    next => simp at applied
  | name | string | callNoArgs =>
    simp only [apply,kind] at applied
    exact push _ (by simp [Node.trace,Node.pieces,Token.trace,kind,TokenKind.hasPiece,
      Token.piece?]) rfl applied
  | additive | multiplicative | comparison =>
    simp only [apply,kind] at applied
    split at applied
    next operator read =>
      refine two _ next (fun left right => ⟨?_,rfl⟩) applied
      simp [Node.trace,Node.pieces,Token.trace,kind,TokenKind.hasPiece,Token.piece?,read]
    next => simp at applied
  | andWord | orWord | assign | dot | comma | forWord =>
    simp only [apply,kind] at applied
    refine two _ next (fun left right => ⟨?_,rfl⟩) applied
    simp [Node.trace,Node.pieces,Node.slotPieces,Token.trace,kind,TokenKind.hasPiece,Token.piece?]
  | putWord | retWord | ifWord | whileWord =>
    simp only [apply,kind] at applied
    refine one _ next (fun operand => ⟨?_,rfl⟩) applied
    simp [Node.trace,Node.pieces,Node.slotPieces,Token.trace,kind,TokenKind.hasPiece,Token.piece?]
  | call =>
    simp only [apply,kind] at applied
    refine one _ next (fun operand => ⟨?_,rfl⟩) applied
    rw [← trace_chain operand]
    simp [Node.trace,Node.pieces,Token.trace,kind,TokenKind.hasPiece,Token.piece?]
  | elseWord =>
    simp only [apply,kind] at applied
    have bare := token.trace_eq_zero (by simp [kind,TokenKind.hasPiece])
    exact push .elseMark bare.symm rfl applied
  | doWord =>
    simp only [apply,kind] at applied
    obtain rfl := (Prod.mk.inj applied).1
    have block : token.trace = {some .block} := by
      simp [Token.trace,kind,TokenKind.hasPiece,Token.piece?]
    have unmarked : Node.doMark.trace = 0 := rfl
    refine ⟨⟨smooth.awake,smooth.silent,?_⟩,?_⟩
    · have counted := smooth.counted
      have mark : Node.doMark.isDoMark = true := rfl
      simp only [pushOperand,List.length_cons,List.countP_cons,if_pos mark]
      omega
    · simp only [trace,pushOperand,nodesTrace_cons,unmarked,block,List.length_cons,succ_nsmul]
      abel
  | doneWord =>
    simp only [apply,kind] at applied
    exact conserved_done assembly smooth token kind next applied fine
  | statementEnd =>
    simp only [apply,kind] at applied
    obtain rfl := (Prod.mk.inj applied).1
    exact conserved_end assembly smooth token kind fine
  | specifier | inWord | semicolon | opening | closing | fileEnd => simp [apply,kind] at applied

theorem conserved_feed (assembly : Assembly) (smooth : assembly.Smooth) (token : Token)
    (fine : (assembly.feed token).reports = []) :
    Conserved token assembly (assembly.feed token) := by
  have fed : assembly.feed token = recover token (assembly.apply token) := by
    simp [feed,smooth.awake]
  rw [fed] at fine ⊢
  cases applied : assembly.apply token with | mk next failed =>
  rw [applied] at fine
  cases failed with
  | some error => simp [recover,report] at fine
  | none => exact conserved_apply assembly smooth token next applied fine

/-- Assembling tokens adds the pieces of these tokens and no others. -/
theorem conserved_fed (tokens : List Token) (assembly : Assembly) (smooth : assembly.Smooth)
    (fine : (tokens.foldl feed assembly).reports = []) :
    (tokens.foldl feed assembly).trace = assembly.trace + tokensTrace tokens := by
  induction tokens generalizing assembly with
  | nil => simp
  | cons token tokens ih =>
    obtain ⟨next,same⟩ :=
      conserved_feed assembly smooth token (nil_of_suffix (reports_fed _ tokens) fine)
    rw [List.foldl_cons,ih _ next fine,same,tokensTrace_cons]
    abel

end Assembly

namespace Builder

/-- Every piece that was read and has not been lost is in one of three places. -/
def trace (builder : Builder) : Trace :=
  builder.reader.trace + builder.converter.trace + builder.assembly.trace

theorem Ran.trace (token : Token) (builder next : Builder) (clean : builder.Clean)
    (counted : builder.Counted) (named : builder.converter.Named) (ran : Ran token builder next)
    (fine : next.assembly.reports = []) :
    next.converter.Named ∧ next.trace = builder.trace + token.trace := by
  obtain ⟨reader,converter,roots,openBlocks,reading,plain,awake⟩ := clean
  cases ran with
  | consumed _ after _ _ _ read =>
    have same := reader.feed_trace after token _ reading read
    refine ⟨named,?_⟩
    simp only [Declaration.Recognition.trace,zero_add] at same
    simp only [Builder.trace,Builder.clean,same]
    abel
  | declared _ after _ declaration _ _ read calm =>
    have same := reader.feed_trace after token _ reading read
    have added : (Assembly.resting (declaration :: roots) openBlocks []).trace =
        declaration.trace + (Assembly.resting roots openBlocks []).trace := by
      simp only [Assembly.trace,Assembly.resting,nodesTrace_cons]
      abel
    refine ⟨named,?_⟩
    simp only [Builder.trace,Builder.clean]
    calc after.trace + converter.trace + (Assembly.resting (declaration :: roots) openBlocks []).trace
      _ = (declaration.trace + after.trace) + converter.trace +
          (Assembly.resting roots openBlocks []).trace := by rw [added]; abel
      _ = (reader.trace + token.trace) + converter.trace +
          (Assembly.resting roots openBlocks []).trace := by rw [← same]; rfl
      _ = reader.trace + converter.trace + (Assembly.resting roots openBlocks []).trace +
          token.trace := by abel
  | converted _ after ready _ _ specifier ran =>
    obtain ⟨stays,same⟩ := converter.convert_trace after token ready named ran
    have smooth : (Assembly.resting roots openBlocks []).Smooth :=
      ⟨rfl,rfl,by simpa [Assembly.resting,Builder.Counted,Builder.clean] using counted⟩
    have fed := Assembly.conserved_fed ready _ smooth fine
    refine ⟨stays,?_⟩
    simp only [Builder.trace,Builder.clean,Declaration.Reader.trace,zero_add]
    calc after.trace + (ready.foldl Assembly.feed (.resting roots openBlocks [])).trace
      _ = (tokensTrace ready + after.trace) + (Assembly.resting roots openBlocks []).trace := by
        rw [fed]; abel
      _ = (converter.trace + token.trace) + (Assembly.resting roots openBlocks []).trace := by
        rw [same]
      _ = converter.trace + (Assembly.resting roots openBlocks []).trace + token.trace := by abel

theorem trace_fed (tokens : List Token) (builder : Builder) (clean : builder.Clean)
    (counted : builder.Counted) (named : builder.converter.Named)
    (fine : (tokens.foldl feed builder).assembly.reports = []) :
    (tokens.foldl feed builder).trace = builder.trace + tokensTrace tokens := by
  induction tokens generalizing builder with
  | nil => simp
  | cons token tokens ih =>
    have before := nil_of_suffix (reports_fed _ tokens) fine
    obtain ⟨next,moves⟩ := clean.feed builder token before
    obtain ⟨stays,same⟩ :=
      (clean.ran builder token before).trace token builder _ clean counted named before
    rw [List.foldl_cons,ih _ next (moves.counted token builder _ counted) stays fine,same,
      tokensTrace_cons]
    abel

end Builder

theorem Moves.of_fileEnd (token : Token) (builder next : Builder) (moves : Moves token builder next)
    (kind : token.kind = .fileEnd) : ∃ roots openBlocks, next = .clean .idle .empty roots openBlocks := by
  cases moves with
  | consumed _ _ _ _ _ _ within => simp [kind,TokenKind.isStructural] at within
  | declared _ _ _ _ _ _ _ _ within => simp [kind,TokenKind.isStructural] at within
  | kept _ _ _ _ _ within => simp [Converter.tail?,kind] at within
  | ended _ _ _ after _ still => exact ⟨after,still,rfl⟩

/-- No piece is lost or made on the way from the tokens to the statements. -/
theorem build_trace (tokens : List Token) (fileEnd : Grammar.Of .fileEnd)
    (fine : (build (tokens ++ [fileEnd.val])).reports = []) :
    tokensTrace (tokens ++ [fileEnd.val]) = nodesTrace (build (tokens ++ [fileEnd.val])).roots := by
  have before := Assembly.reports_finish _ _ fine
  have conserved := Builder.trace_fed (tokens ++ [fileEnd.val]) .empty Builder.clean_empty rfl
    Converter.named_empty before
  unfold build at fine ⊢
  rw [List.foldl_append] at fine before conserved ⊢
  obtain ⟨clean,counted⟩ := Builder.clean_empty.fed (fun _ builder => builder.Counted)
    (fun token _ builder next moves counted => moves.counted token builder next counted) tokens
    .empty rfl (nil_of_suffix (Builder.reports_feed _ _) before)
  obtain ⟨_,moves⟩ := clean.feed _ fileEnd.val before
  have counted := moves.counted _ _ _ counted
  obtain ⟨roots,openBlocks,ended⟩ := moves.of_fileEnd _ _ _ fileEnd.property
  simp only [List.foldl_cons,List.foldl_nil,ended] at fine conserved ⊢
  rw [ended] at counted
  obtain ⟨same,-,apart,-⟩ := Assembly.finish_ok roots openBlocks _ counted fine
  -- Nothing is half read and no block is open, so all pieces are among the roots.
  have none : openBlocks.length = 0 := by
    refine counted.trans (List.countP_eq_zero.mpr fun node member => ?_)
    simp [apart node member]
  refine Eq.trans ?_ (congrArg nodesTrace same).symm
  have all : (Builder.clean .idle .empty roots openBlocks).trace = nodesTrace roots := by
    simp [Builder.trace,Builder.clean,Declaration.Reader.trace,Converter.trace_empty,
      Assembly.trace,Assembly.resting,none]
  have nothing : Builder.empty.trace = 0 := by
    simp [Builder.trace,Builder.empty,Declaration.Reader.trace,Converter.trace_empty,
      Assembly.trace,Assembly.empty]
  rw [all,nothing,zero_add] at conserved
  rw [nodesTrace_reverse,conserved]

/-- What a build without a report returns holds every piece of the tokens once, and nothing else. -/
theorem build_pieces (tokens : List Token) (fileEnd : Grammar.Of .fileEnd)
    (fine : (build (tokens ++ [fileEnd.val])).reports = []) :
    (((tokens ++ [fileEnd.val]).filter (·.kind.hasPiece)).map Token.piece?).Perm
      (((build (tokens ++ [fileEnd.val])).roots.flatMap Node.pieces).map some) := by
  have same := build_trace tokens fileEnd fine
  rw [tokensTrace_eq,nodesTrace_eq] at same
  exact Multiset.coe_eq_coe.mp same

/-- `int f(int n) do put n 1; done`, where the statement of the block is two statements. -/
def crowded : List Token :=
  let word (kind : TokenKind) (text : String) : Token := ⟨kind,text,⟨.start,.start⟩⟩
  [word .specifier "int",word .name "f",word .opening "(",word .specifier "int",word .name "n",
    word .closing ")",word .doWord "do",word .putWord "put",word .name "n",word .integer "1",
    word .semicolon ";",word .doneWord "done"]

theorem crowded_pieces :
    (build (crowded ++ [.fileEnd .start])).reports = [] ∧
      [some (Piece.name "f"),some (.name "n"),some .block,some .put,some (.name "n"),
          some (.int 1)].Perm
        (((build (crowded ++ [.fileEnd .start])).roots.flatMap Node.pieces).map some) := by
  have fine : (build (crowded ++ [.fileEnd .start])).reports = [] := by decide
  exact ⟨fine,build_pieces crowded ⟨.fileEnd .start,rfl⟩ fine⟩

end BlockScript
