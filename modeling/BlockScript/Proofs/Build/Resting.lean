import BlockScript.Proofs.Build.Feed
import Mathlib.Data.List.TakeDrop
import Mathlib.Data.List.TakeWhile

/-! Builders between two statements. Nothing is half read there, so all that a builder knows is
its roots, its open blocks and its reports. -/
namespace BlockScript

def Node.wantsBlock : Node → Bool
  | .elseMark | .function _ _ _ [] => true
  | node => node.awaitsBody

theorem Node.awaitsBody_of_not_wantsBlock (node : Node) (settled : node.wantsBlock = false) :
    node.awaitsBody = false := by
  unfold wantsBlock at settled
  split at settled
  · contradiction
  · contradiction
  · exact settled

theorem Node.isElseMark_of_not_wantsBlock (node : Node) (settled : node.wantsBlock = false) :
    node.isElseMark = false := by
  cases node <;> simp_all [wantsBlock,isElseMark]

def Settled (roots : List Node) : Prop :=
  ∀ root below, roots = root :: below → root.wantsBlock = false

theorem Settled.cons (root : Node) (below : List Node) (settled : root.wantsBlock = false) :
    Settled (root :: below) := by
  intro other rest same
  obtain ⟨rfl,-⟩ : root = other ∧ below = rest := by simpa using same
  exact settled

theorem Settled.nil : Settled [] := by
  intro root below same
  contradiction

namespace Assembly

def resting (roots : List Node) (openBlocks : List Token) (reports : List Report) : Assembly :=
  ⟨[],roots,openBlocks,reports,false⟩

theorem dropHeader_of_not_awaits (assembly : Assembly) (token : Token)
    (closed : ∀ root below, assembly.roots = root :: below → root.awaitsBody = false) :
    assembly.dropHeader token = assembly := by
  unfold dropHeader
  split
  next root below same => simp [closed root below same]
  next => rfl

theorem dropHeader_of_settled (assembly : Assembly) (token : Token)
    (settled : Settled assembly.roots) : assembly.dropHeader token = assembly :=
  assembly.dropHeader_of_not_awaits token fun root below same =>
    root.awaitsBody_of_not_wantsBlock (settled root below same)

theorem attach_of_settled (assembly : Assembly) (body : List Node)
    (settled : Settled assembly.roots) :
    assembly.attach body = ({ assembly with roots := .block body :: assembly.roots },none) := by
  unfold attach
  split
  next same => simpa [Node.wantsBlock] using settled _ _ same
  next same => simpa [Node.wantsBlock] using settled _ _ same
  next same => simpa [Node.wantsBlock] using settled _ _ same
  next same => simpa [Node.wantsBlock,Node.awaitsBody] using settled _ _ same
  next same => simpa [Node.wantsBlock,Node.awaitsBody] using settled _ _ same
  next same => simpa [Node.wantsBlock,Node.awaitsBody] using settled _ _ same
  next => rfl

theorem feed_statementEnd (node : Node) (roots : List Node) (openBlocks : List Token)
    (reports : List Report) (token : Token) (kind : token.kind = .statementEnd)
    (settled : Settled roots) :
    ((resting roots openBlocks reports).pushOperand node).feed token =
      resting (node :: roots) openBlocks reports := by
  refine feed_awake _ _ token rfl ?_
  have kept (assembly : Assembly) (same : assembly.roots = roots) :
      assembly.dropHeader token = assembly :=
    assembly.dropHeader_of_settled token (by rw [same]; exact settled)
  simp only [apply,kind,flush,pushOperand,resting,List.foldl_cons,List.foldl_nil,promote]
  split
  · rfl
  · rw [kept _ rfl]

theorem feed_statementEnd_resting (roots : List Node) (openBlocks : List Token)
    (reports : List Report) (token : Token) (kind : token.kind = .statementEnd) :
    (resting roots openBlocks reports).feed token = resting roots openBlocks reports := by
  refine feed_awake _ _ token rfl ?_
  simp [apply,kind,flush,resting]

theorem feed_do (roots : List Node) (openBlocks : List Token) (reports : List Report)
    (token after : Token) (kind : token.kind = .doWord) (ends : after.kind = .statementEnd) :
    ((resting roots openBlocks reports).feed token).feed after =
      resting (.doMark :: roots) (token :: openBlocks) reports := by
  have first : (resting roots openBlocks reports).feed token =
      { (resting roots openBlocks reports).pushOperand .doMark with
        openBlocks := token :: openBlocks } := by
    refine feed_awake _ _ token rfl ?_
    simp [apply,kind,resting]
  rw [first]
  refine feed_awake _ _ after rfl ?_
  simp [apply,ends,flush,pushOperand,resting,promote,Node.isDoMark]

theorem feed_else (roots : List Node) (openBlocks : List Token) (reports : List Report)
    (token after : Token) (kind : token.kind = .elseWord) (ends : after.kind = .statementEnd)
    (settled : Settled roots) :
    ((resting roots openBlocks reports).feed token).feed after =
      resting (.elseMark :: roots) openBlocks reports := by
  have first : (resting roots openBlocks reports).feed token =
      (resting roots openBlocks reports).pushOperand .elseMark := by
    refine feed_awake _ _ token rfl ?_
    simp [apply,kind]
  rw [first]
  exact feed_statementEnd .elseMark roots openBlocks reports after ends settled

theorem beforeOpenBlock?_eq_none_iff (roots : List Node) :
    beforeOpenBlock? roots = none ↔ ∀ node ∈ roots, node.isDoMark = false := by
  unfold beforeOpenBlock?
  rw [List.span_eq_takeWhile_dropWhile]
  have plain : roots.dropWhile (fun root => !root.isDoMark) = [] ↔
      ∀ node ∈ roots, node.isDoMark = false := by
    simp [List.dropWhile_eq_nil_iff]
  rw [← plain]
  cases roots.dropWhile fun root => !root.isDoMark with
  | nil => simp
  | cons mark after =>
    dsimp only
    split
    · split <;> simp
    · simp

/-- Whole statements are returned as they are. -/
theorem finish_resting (roots : List Node) (reports : List Report) (last : Token)
    (closed : ∀ root below, roots = root :: below → root.awaitsBody = false)
    (apart : ∀ node ∈ roots, node.isDoMark = false)
    (elses : ∀ node ∈ roots, node.isElseMark = false) :
    (resting roots [] reports).finish last = ⟨roots.reverse,reports.reverse⟩ := by
  have flushed : (resting roots [] reports).flush last = resting roots [] reports := rfl
  have opened : beforeOpenBlock? roots.reverse = none :=
    (beforeOpenBlock?_eq_none_iff roots.reverse).mpr (by simpa using apart)
  have kept : (resting roots [] reports).closeOpenBlocks = resting roots [] reports := by
    simp only [closeOpenBlocks,resting]
    rw [opened]
  unfold finish
  dsimp only
  rw [flushed,dropHeader_of_not_awaits _ last closed,kept]
  unfold dropElseMarks
  rw [if_neg (by simpa [resting] using elses)]
  rfl

/-- A `done` makes a block of the roots behind the innermost `do` and attaches it. -/
theorem feed_done (body before after : List Node) (word : Token) (openBlocks : List Token)
    (reports : List Report) (token : Token) (kind : token.kind = .doneWord)
    (settled : Settled body) (plain : ∀ node ∈ body, node.isDoMark = false)
    (attached : (resting before openBlocks reports).attach body.reverse =
      (resting after openBlocks reports,none)) :
    (resting (body ++ .doMark :: before) (word :: openBlocks) reports).feed token =
      resting after openBlocks reports := by
  refine feed_awake _ _ token rfl ?_
  have kept : Settled (body ++ .doMark :: before) := by
    cases body with
    | nil => exact Settled.cons _ _ rfl
    | cons root below => exact Settled.cons _ _ (settled root below rfl)
  have cut : (body ++ .doMark :: before).span (fun root => !root.isDoMark) =
      (body,.doMark :: before) := by
    rw [List.span_eq_takeWhile_dropWhile,
      List.takeWhile_append_of_pos (by simpa using plain),
      List.dropWhile_append_of_pos (by simpa using plain)]
    simp [Node.isDoMark]
  simp only [apply,kind,closeBlock]
  rw [dropHeader_of_settled _ token kept]
  simp only [resting] at attached ⊢
  rw [cut]
  exact attached

end Assembly

def Builder.resting (roots : List Node) (openBlocks : List Token) (reports : List Report) :
    Builder :=
  ⟨.idle,.empty,.resting roots openBlocks reports⟩

/-- The end of a statement finds nothing to read where nothing, or nothing any more, is half
read. -/
theorem Builder.feed_stop (skipping : Bool) (roots : List Node) (openBlocks : List Token)
    (reports : List Report) (token : Token) (kind : token.kind = .semicolon ∨ token.kind = .fileEnd) :
    feed ⟨.idle,{ Postfix.Converter.empty with skipping },.resting roots openBlocks reports⟩ token =
      .resting roots openBlocks reports := by
  have fed : Postfix.Converter.feed { Postfix.Converter.empty with skipping } token =
      (.ok [token.retyped .statementEnd],.empty) := by
    rcases kind with kind | kind <;>
      simp [Postfix.Converter.feed,kind,TokenKind.endsStatement,TokenKind.isStructural,
        Postfix.Converter.convert,Postfix.Converter.empty,Postfix.Converter.settle,
        Postfix.Converter.finish,Postfix.unwind,Except.map]
  have plain : token.kind ≠ .specifier := by rcases kind with kind | kind <;> simp [kind]
  have declined := Declaration.Reader.feed_idle token plain
  have ended := Assembly.feed_statementEnd_resting roots openBlocks reports
    (token.retyped .statementEnd) rfl
  simp only [feed,declined,convert,convertOnce,fed,List.foldl_cons,List.foldl_nil,ended]
  rfl

theorem Builder.feed_fileEnd (skipping : Bool) (roots : List Node) (openBlocks : List Token)
    (reports : List Report) (token : Token) (kind : token.kind = .fileEnd) :
    feed ⟨.idle,{ Postfix.Converter.empty with skipping },.resting roots openBlocks reports⟩ token =
      .resting roots openBlocks reports :=
  feed_stop skipping roots openBlocks reports token (.inr kind)

end BlockScript
