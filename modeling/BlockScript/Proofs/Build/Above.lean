import BlockScript.Proofs.Build.Finish

/-! Building over roots that are finished. Whatever the tokens are and whatever goes wrong, it goes
on as if these roots were not there. -/
namespace BlockScript

/-- Roots that nothing behind them can change: the last one wants neither a block nor an `else`, and
there are no marks. -/
structure Finished (base : List Node) : Prop where
  settled : Settled base
  apart : ∀ node ∈ base, node.isDoMark = false
  plain : ∀ node ∈ base, node.isElseMark = false
  closed : ∀ condition body otherwise below, base ≠ .ifThen condition body otherwise :: below

namespace Assembly

def above (base : List Node) (assembly : Assembly) : Assembly :=
  { assembly with roots := assembly.roots ++ base }

variable {base : List Node} (finished : Finished base)
include finished

theorem dropHeader_above (assembly : Assembly) (token : Token) :
    (assembly.above base).dropHeader token = (assembly.dropHeader token).above base := by
  obtain ⟨operands,roots,openBlocks,reports,skipping⟩ := assembly
  cases roots with
  | nil => exact dropHeader_of_settled _ token finished.settled
  | cons root below =>
    simp only [dropHeader,above,List.cons_append]
    split <;> rfl

theorem promote_above (assembly : Assembly) (token : Token) (node : Node) :
    promote token (assembly.above base) node = (promote token assembly node).above base := by
  unfold promote
  split
  · rfl
  · rw [dropHeader_above finished]
    rfl

theorem promoted_above (assembly : Assembly) (token : Token) (nodes : List Node) :
    nodes.foldl (promote token) (assembly.above base) =
      (nodes.foldl (promote token) assembly).above base := by
  induction nodes generalizing assembly with
  | nil => rfl
  | cons node nodes ih =>
    simp only [List.foldl_cons]
    rw [promote_above finished,ih]

theorem flush_above (assembly : Assembly) (token : Token) :
    (assembly.above base).flush token = (assembly.flush token).above base := by
  have promoted := promoted_above finished assembly token assembly.operands
  exact congrArg (fun next : Assembly => { next with operands := [] }) promoted

theorem declare_above (assembly : Assembly) (declaration : Node) (token : Token) :
    (assembly.above base).declare declaration token =
      (assembly.declare declaration token).above base := by
  unfold declare
  rw [dropHeader_above finished]
  rfl

theorem attach_above (assembly : Assembly) (body : List Node) :
    (assembly.above base).attach body =
      ((assembly.attach body).1.above base,(assembly.attach body).2) := by
  obtain ⟨operands,roots,openBlocks,reports,skipping⟩ := assembly
  -- Only an `else` looks at two roots; where it is the only one it meets the finished ones.
  cases roots with
  | nil => exact attach_of_settled _ body finished.settled
  | cons root below =>
    cases root with
    | elseMark =>
      cases below with
      | nil =>
        cases base with
        | nil => rfl
        | cons root below =>
          cases root with
          | ifThen condition first otherwise =>
            exact (finished.closed condition first otherwise below rfl).elim
          | _ => rfl
      | cons root below =>
        cases root with
        | ifThen condition first otherwise => cases first <;> cases otherwise <;> rfl
        | _ => rfl
    | function called returns parameters inside => cases inside <;> rfl
    | ifThen condition first otherwise => cases first <;> rfl
    | whileDo condition inside => cases inside <;> rfl
    | forIn iterator collection inside => cases inside <;> rfl
    | _ => rfl

theorem span_above (roots : List Node) :
    (roots ++ base).span (fun root => !root.isDoMark) =
      match roots.span fun root => !root.isDoMark with
      | (inner,[]) => (inner ++ base,[])
      | (inner,mark :: outer) => (inner,mark :: (outer ++ base)) := by
  have none : base.takeWhile (fun root => !root.isDoMark) = base ∧
      base.dropWhile (fun root => !root.isDoMark) = [] := by
    have apart := finished.apart
    simpa using apart
  simp only [List.span_eq_takeWhile_dropWhile]
  induction roots with
  | nil => simp [none]
  | cons root roots ih =>
    cases marked : root.isDoMark with
    | true => simp [marked]
    | false =>
      simp only [List.cons_append,List.takeWhile_cons,List.dropWhile_cons,marked]
      simp only [Bool.not_false,if_true]
      cases below : roots.dropWhile fun root => !root.isDoMark with
      | nil => simp_all
      | cons mark outer => simp_all

theorem closeBlock_above (assembly : Assembly) (token : Token) :
    (assembly.above base).closeBlock token =
      ((assembly.closeBlock token).1.above base,(assembly.closeBlock token).2) := by
  unfold closeBlock
  rw [dropHeader_above finished]
  generalize assembly.dropHeader token = dropped
  dsimp only
  have cut : (dropped.above base).roots = dropped.roots ++ base := rfl
  rw [cut,span_above finished]
  generalize dropped.roots.span (fun root => !root.isDoMark) = pieces
  obtain ⟨inner,outer⟩ := pieces
  cases outer with
  | nil => rfl
  | cons mark outer =>
    exact attach_above finished
      { dropped with roots := outer, openBlocks := dropped.openBlocks.drop 1 } inner.reverse

theorem apply_above (assembly : Assembly) (token : Token) :
    (assembly.above base).apply token =
      ((assembly.apply token).1.above base,(assembly.apply token).2) := by
  cases plain : token.kind.delimits with
  | false =>
    obtain ⟨effect,_,affects⟩ := affects_of_plain token plain
    rw [affects assembly,affects (assembly.above base)]
    rfl
  | true =>
    cases kind : token.kind with
    | statementEnd =>
      simp only [apply,kind]
      rw [flush_above finished]
    | doWord | elseWord =>
      simp only [apply,kind]
      rfl
    | doneWord =>
      simp only [apply,kind]
      exact closeBlock_above finished assembly token
    | _ => simp [kind,TokenKind.delimits] at plain

omit finished in
theorem recover_above (token : Token) (assembly : Assembly) (failed : Option BuildError) :
    recover token (assembly.above base,failed) = (recover token (assembly,failed)).above base := by
  cases failed <;> rfl

theorem feed_above (assembly : Assembly) (token : Token) :
    (assembly.above base).feed token = (assembly.feed token).above base := by
  have applied (assembly : Assembly) : recover token ((assembly.above base).apply token) =
      (recover token (assembly.apply token)).above base := by
    rw [apply_above finished,recover_above]
  obtain ⟨operands,roots,openBlocks,reports,skipping⟩ := assembly
  cases skipping with
  | false => exact applied ⟨operands,roots,openBlocks,reports,false⟩
  | true =>
    cases delimits : token.kind.delimits with
    | false => simp [feed,above,delimits]
    | true =>
      by_cases ends : token.kind = .statementEnd
      · simp [feed,above,ends,TokenKind.delimits]
      · have resumed := applied ⟨[],roots,openBlocks,reports,false⟩
        simpa [feed,above,delimits,ends] using resumed

theorem fed_above (assembly : Assembly) (tokens : List Token) :
    tokens.foldl feed (assembly.above base) = (tokens.foldl feed assembly).above base := by
  induction tokens generalizing assembly with
  | nil => rfl
  | cons token tokens ih =>
    simp only [List.foldl_cons]
    rw [feed_above finished,ih]

theorem beforeOpenBlock?_above (roots : List Node) :
    beforeOpenBlock? (roots ++ base).reverse =
      (beforeOpenBlock? roots.reverse).map (base.reverse ++ ·) := by
  have apart : ∀ node ∈ base.reverse, (!node.isDoMark) = true := by
    have apart := finished.apart
    simpa using apart
  unfold beforeOpenBlock?
  rw [List.reverse_append,List.span_eq_takeWhile_dropWhile,List.span_eq_takeWhile_dropWhile,
    List.takeWhile_append_of_pos apart,List.dropWhile_append_of_pos apart]
  generalize roots.reverse.takeWhile (fun root => !root.isDoMark) = before
  cases roots.reverse.dropWhile fun root => !root.isDoMark with
  | nil => rfl
  | cons mark after =>
    dsimp only
    rcases before.eq_nil_or_concat with rfl | ⟨inner,root,rfl⟩
    · cases base with
      | nil => rfl
      | cons root below =>
        have settled := finished.settled root below rfl
        simp [root.awaitsBody_of_not_wantsBlock settled,
          root.isElseMark_of_not_wantsBlock settled]
    · rw [List.concat_eq_append]
      have last : (base.reverse ++ (inner ++ [root])).getLast? = some root := by simp
      have others : (base.reverse ++ (inner ++ [root])).dropLast = base.reverse ++ inner := by
        rw [← List.append_assoc,List.dropLast_concat]
      rw [last,others]
      simp only [List.getLast?_concat,List.dropLast_concat]
      split <;> rfl

theorem closeOpenBlocks_above (assembly : Assembly) :
    (assembly.above base).closeOpenBlocks = assembly.closeOpenBlocks.above base := by
  have unclosed (tokens : List Token) (assembly : Assembly) :
      tokens.foldl (fun assembly token => assembly.report .unclosedDo token) (assembly.above base) =
        (tokens.foldl (fun assembly token => assembly.report .unclosedDo token) assembly).above
          base := by
    induction tokens generalizing assembly with
    | nil => rfl
    | cons token tokens ih => exact ih (assembly.report .unclosedDo token)
  unfold closeOpenBlocks
  have cut : (assembly.above base).roots.reverse = (assembly.roots ++ base).reverse := rfl
  rw [cut,beforeOpenBlock?_above finished]
  cases beforeOpenBlock? assembly.roots.reverse with
  | none => rfl
  | some kept =>
    simp only [Option.map_some,List.reverse_append,List.reverse_reverse]
    exact unclosed assembly.openBlocks.reverse
      { assembly with roots := kept.reverse, openBlocks := [] }

theorem dropElseMarks_above (assembly : Assembly) (token : Token) :
    (assembly.above base).dropElseMarks token = (assembly.dropElseMarks token).above base := by
  have plain : base.any Node.isElseMark = false := by
    have plain := finished.plain
    simpa using plain
  have kept : base.filter (fun root => !root.isElseMark) = base := by
    have plain := finished.plain
    simpa using plain
  unfold dropElseMarks
  have marks : (assembly.above base).roots.any Node.isElseMark =
      assembly.roots.any Node.isElseMark := by
    simp only [above,List.any_append,plain,Bool.or_false]
  rw [marks]
  split
  · simp only [above,report,List.filter_append,kept]
  · rfl

/-- The end of a file clears away nothing of the finished roots before it. -/
theorem finish_above (assembly : Assembly) (last : Token) :
    (assembly.above base).finish last =
      ⟨base.reverse ++ (assembly.finish last).roots,(assembly.finish last).reports⟩ := by
  unfold finish
  dsimp only
  rw [flush_above finished,dropHeader_above finished,closeOpenBlocks_above finished,
    dropElseMarks_above finished]
  simp only [above,List.reverse_append]

end Assembly

namespace Builder

def above (base : List Node) (builder : Builder) : Builder :=
  { builder with assembly := builder.assembly.above base }

variable {base : List Node} (finished : Finished base)
include finished

theorem convertOnce_above (builder : Builder) (token : Token) :
    (builder.above base).convertOnce token =
      ((builder.convertOnce token).1,(builder.convertOnce token).2.above base) := by
  unfold convertOnce
  have same : (builder.above base).converter = builder.converter := rfl
  rw [same]
  cases builder.converter.feed token with | mk result next =>
  cases result with
  | ok ready =>
    simp only [above]
    rw [Assembly.fed_above finished]
  | error error => rfl

theorem convert_above (builder : Builder) (token : Token) :
    (builder.above base).convert token = (builder.convert token).above base := by
  unfold convert
  rw [convertOnce_above finished]
  cases builder.convertOnce token with | mk converted next =>
  cases converted with
  | true => rfl
  | false =>
    dsimp only
    split
    · rw [convertOnce_above finished]
    · rfl

theorem feed_above (builder : Builder) (token : Token) :
    (builder.above base).feed token = (builder.feed token).above base := by
  unfold feed
  have same : (builder.above base).reader = builder.reader := rfl
  rw [same]
  cases builder.reader.feed token with | mk result next =>
  cases result with
  | error error =>
    dsimp only
    split
    · exact convert_above finished (Builder.report { builder with reader := next } error token) token
    · rfl
  | ok recognition =>
    cases recognition with
    | complete declaration =>
      have declared := Assembly.declare_above finished builder.assembly declaration token
      exact congrArg (Builder.mk next builder.converter) declared
    | consumed => rfl
    | declined => exact convert_above finished { builder with reader := next } token

theorem fed_above (builder : Builder) (tokens : List Token) :
    tokens.foldl feed (builder.above base) = (tokens.foldl feed builder).above base := by
  induction tokens generalizing builder with
  | nil => rfl
  | cons token tokens ih =>
    simp only [List.foldl_cons]
    rw [feed_above finished,ih]

end Builder

theorem build_append (tokens : List Token) (token : Token) :
    build (tokens ++ [token]) =
      ((tokens.foldl Builder.feed .empty).feed token).assembly.finish token := by
  have last : lastToken (tokens ++ [token]) = token := by simp [lastToken]
  unfold build
  rw [last,List.foldl_append]
  rfl

/-- Behind finished roots a file is built as if it stood alone. -/
theorem build_above {base : List Node} (finished : Finished base) (first second : List Token)
    (fileEnd : Token) (read : first.foldl Builder.feed .empty = Builder.above base .empty) :
    build (first ++ second ++ [fileEnd]) =
      ⟨base.reverse ++ (build (second ++ [fileEnd])).roots,
        (build (second ++ [fileEnd])).reports⟩ := by
  rw [build_append (first ++ second),List.foldl_append,read,Builder.fed_above finished,
    Builder.feed_above finished,build_append second]
  exact Assembly.finish_above finished _ fileEnd

end BlockScript
