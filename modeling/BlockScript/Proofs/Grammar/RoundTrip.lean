import BlockScript.Proofs.Grammar.Header

/-! What is written by the grammar is what gets built. -/
namespace BlockScript
open Postfix

namespace Grammar

theorem fed_done (body before after : List Node) (word : Token) (openBlocks : List Token)
    (reports : List Report) (done : Of .doneWord) (settled : Settled body)
    (plain : ∀ node ∈ body, node.isDoMark = false)
    (attached : (Assembly.resting before openBlocks reports).attach body.reverse =
      (.resting after openBlocks reports,none)) :
    Builder.feed (.resting (body ++ .doMark :: before) (word :: openBlocks) reports) done.val =
      .resting after openBlocks reports := by
  have converted : Converter.empty.convert done.val =
      .ok ([done.val.retyped .statementEnd,done.val],.empty) := by
    simp [Converter.convert,done.property,Converter.empty,Converter.settle,Converter.finish,unwind,
      Except.map]
  refine (Builder.feed_ready .empty .empty _ done.val _ (by simp [done.property]) rfl
    converted).trans ?_
  simp only [List.foldl_cons,List.foldl_nil]
  rw [Assembly.feed_statementEnd_resting _ _ reports _ rfl,
    Assembly.feed_done body before after word openBlocks reports done.val done.property settled
      plain attached]
  rfl

theorem fed_else (roots : List Node) (openBlocks : List Token) (reports : List Report)
    (word : Of .elseWord) (settled : Settled roots) :
    Builder.feed (.resting roots openBlocks reports) word.val =
      .resting (.elseMark :: roots) openBlocks reports := by
  have converted : Converter.empty.convert word.val =
      .ok ([word.val.retyped .statementEnd,word.val,word.val.retyped .statementEnd],.empty) := by
    simp [Converter.convert,word.property,Converter.empty,Converter.settle,Converter.finish,unwind,
      Except.map]
  refine (Builder.feed_ready .empty .empty _ word.val _ (by simp [word.property]) rfl
    converted).trans ?_
  simp only [List.foldl_cons,List.foldl_nil]
  rw [Assembly.feed_statementEnd_resting roots openBlocks reports _ rfl,
    Assembly.feed_else roots openBlocks reports word.val _ word.property rfl settled]
  rfl

def Whole (statements : List Node) : Prop :=
  ∀ statement ∈ statements, statement.wantsBlock = false ∧ statement.isDoMark = false

theorem Whole.cons (statement : Node) (statements : List Node)
    (first : statement.wantsBlock = false ∧ statement.isDoMark = false)
    (rest : Whole statements) : Whole (statement :: statements) := by
  intro node member
  obtain rfl | member := List.mem_cons.mp member
  · exact first
  · exact rest node member

theorem Whole.settled (statements : List Node) (whole : Whole statements) :
    Settled statements.reverse := by
  intro root below same
  have member : root ∈ statements.reverse := by simp [same]
  exact (whole root (List.mem_reverse.mp member)).1

theorem Whole.append (first second : List Node) (left : Whole first) (right : Whole second) :
    Whole (first ++ second) := by
  intro node member
  rcases List.mem_append.mp member with member | member
  · exact left node member
  · exact right node member

theorem Whole.settled_above (statements roots : List Node) (whole : Whole statements)
    (settled : Settled roots) : Settled (statements.reverse ++ roots) := by
  cases reversed : statements.reverse with
  | nil => exact settled
  | cons root below => exact Settled.cons _ _ (whole.settled statements root below reversed)

/-- Wherever a statement may begin, the tokens add these statements and these reports. Only the
reports hold the most recent element first. -/
structure Runs (tokens : List Token) (statements : List Node) (errors : List Report) : Prop where
  whole : Whole statements
  fed : ∀ roots openBlocks reports, Settled roots →
    tokens.foldl Builder.feed (.resting roots openBlocks reports) =
      .resting (statements.reverse ++ roots) openBlocks (errors ++ reports)

namespace Runs

theorem nil : Runs [] [] [] := ⟨fun _ member => (List.not_mem_nil member).elim,fun _ _ _ _ => rfl⟩

theorem append {left right : List Token} {first second : List Node} {early late : List Report}
    (begins : Runs left first early) (ends : Runs right second late) :
    Runs (left ++ right) (first ++ second) (late ++ early) := by
  refine ⟨begins.whole.append first second ends.whole,?_⟩
  intro roots openBlocks reports settled
  rw [List.foldl_append,begins.fed roots openBlocks reports settled,
    ends.fed _ openBlocks _ (begins.whole.settled_above first roots settled)]
  simp

theorem simple {tokens : List Token} {statement : Node} (written : Simple tokens statement) :
    Runs tokens [statement] [] := by
  refine ⟨Whole.cons statement [] (simple_plain tokens statement written) Runs.nil.whole,?_⟩
  intro roots openBlocks reports settled
  rw [fed_simple tokens statement written roots openBlocks reports settled]
  rfl

/-- A block and its `done`, where the `do` has been read. -/
theorem closed {inner : List Token} {body : List Node} {errors : List Report}
    (inside : Runs inner body errors) (before after : List Node) (word : Token) (done : Of .doneWord)
    (openBlocks : List Token) (reports : List Report)
    (attached : ∀ reports, (Assembly.resting before openBlocks reports).attach body =
      (.resting after openBlocks reports,none)) :
    (inner ++ [done.val]).foldl Builder.feed
        (.resting (.doMark :: before) (word :: openBlocks) reports) =
      .resting after openBlocks (errors ++ reports) := by
  rw [List.foldl_append,inside.fed _ (word :: openBlocks) reports (Settled.cons _ _ rfl)]
  refine fed_done body.reverse before after word openBlocks _ done inside.whole.settled ?_ ?_
  · intro node member
    exact (inside.whole node (List.mem_reverse.mp member)).2
  · rw [List.reverse_reverse]
    exact attached _

theorem block {head inner : List Token} {make : List Node → Node} {body : List Node}
    {errors : List Report} (header : Header head make) (inside : Runs inner body errors)
    (doWord : Of .doWord) (doneWord : Of .doneWord) :
    Runs (head ++ doWord.val :: inner ++ [doneWord.val]) [make body] errors := by
  have opened (roots : List Node) (openBlocks : List Token) (reports : List Report)
      (settled : Settled roots) :=
    fed_header head make header doWord roots openBlocks reports settled
  obtain ⟨_,_,⟨_,plain⟩⟩ := opened [] [] [] Settled.nil
  refine ⟨Whole.cons _ [] (plain body) Runs.nil.whole,?_⟩
  intro roots openBlocks reports settled
  obtain ⟨before,begun,attached,_⟩ := opened roots openBlocks reports settled
  have ended := inside.closed before (make body :: roots) doWord.val doneWord openBlocks reports
    (attached body openBlocks)
  have shape : head ++ doWord.val :: inner ++ [doneWord.val] =
      (head ++ [doWord.val]) ++ (inner ++ [doneWord.val]) := by simp
  rw [shape,List.foldl_append,begun,ended]
  rfl

theorem ifElse {tokens inner other : List Token} {condition : Node} {body otherwise : List Node}
    {early late : List Report} (word : Of .ifWord) (written : Expression 2 tokens condition)
    (inside : Runs inner body early) (instead : Runs other otherwise late) (doWord : Of .doWord)
    (doneWord : Of .doneWord) (elseWord : Of .elseWord) (doAgain : Of .doWord)
    (doneAgain : Of .doneWord) :
    Runs (word.val :: tokens ++ doWord.val :: inner ++ doneWord.val :: elseWord.val ::
        doAgain.val :: other ++ [doneAgain.val])
      [.ifThen condition (some body) (some otherwise)] (late ++ early) := by
  refine ⟨Whole.cons _ [] ⟨rfl,rfl⟩ Runs.nil.whole,?_⟩
  intro roots openBlocks reports settled
  have begun := fed_condition word.val tokens condition _ doWord roots openBlocks reports settled
    written (.inl ⟨word.property,rfl⟩)
  have first := inside.closed (.ifThen condition none none :: roots)
    (.ifThen condition (some body) none :: roots) doWord.val doneWord openBlocks reports
    fun _ => rfl
  have between := fed_else (.ifThen condition (some body) none :: roots) openBlocks
    (early ++ reports) elseWord (Settled.cons _ _ rfl)
  have again := fed_do (.elseMark :: .ifThen condition (some body) none :: roots) openBlocks
    (early ++ reports) doAgain
  have second := instead.closed (.elseMark :: .ifThen condition (some body) none :: roots)
    (.ifThen condition (some body) (some otherwise) :: roots) doAgain.val doneAgain openBlocks
    (early ++ reports) fun _ => rfl
  have shape : word.val :: tokens ++ doWord.val :: inner ++ doneWord.val :: elseWord.val ::
        doAgain.val :: other ++ [doneAgain.val] =
      (word.val :: tokens ++ [doWord.val]) ++ ((inner ++ [doneWord.val]) ++
        (elseWord.val :: doAgain.val :: (other ++ [doneAgain.val]))) := by simp
  rw [shape,List.foldl_append,begun,List.foldl_append,first,List.foldl_cons,between,
    List.foldl_cons,again,second]
  simp

/-- Every program runs to its statements, without a report. -/
theorem program {tokens : List Token} {statements : List Node}
    (written : Program tokens statements) : Runs tokens statements [] := by
  induction written with
  | nil => exact .nil
  | simple tokens rest statement statements written _ ih => exact (simple written).append ih
  | block head inner rest make body statements doWord doneWord header _ _ ihInside ihAfter =>
    have whole := (ihInside.block header doWord doneWord).append ihAfter
    simpa using whole
  | ifElse word tokens inner other rest condition body otherwise statements doWord doneWord elseWord
      doAgain doneAgain written _ _ _ ihInside ihInstead ihAfter =>
    have whole := (ihInside.ifElse word written ihInstead doWord doneWord elseWord doAgain
      doneAgain).append ihAfter
    simpa using whole

end Runs

/-- A program behind finished statements adds its own statements to them. -/
theorem fed_program (tokens : List Token) (statements : List Node)
    (written : Program tokens statements) :
    Whole statements ∧ ∀ roots openBlocks reports, Settled roots →
      tokens.foldl Builder.feed (.resting roots openBlocks reports) =
        .resting (statements.reverse ++ roots) openBlocks reports :=
  ⟨(Runs.program written).whole,(Runs.program written).fed⟩

end Grammar

theorem Assembly.finish_reported (statements : List Node) (reports : List Report) (last : Token)
    (whole : Grammar.Whole statements) :
    (resting statements.reverse [] reports).finish last = ⟨statements,reports.reverse⟩ := by
  have marks : ∀ node ∈ statements, node.isDoMark = false := fun node member =>
    (whole node member).2
  have elses : ∀ node ∈ statements, node.isElseMark = false := fun node member =>
    node.isElseMark_of_not_wantsBlock (whole node member).1
  have closed : ∀ root below, statements.reverse = root :: below → root.awaitsBody = false :=
    fun root below same => root.awaitsBody_of_not_wantsBlock (whole.settled statements root below same)
  have finished := finish_resting statements.reverse reports last closed (by simpa using marks)
    (by simpa using elses)
  rwa [List.reverse_reverse] at finished

theorem Assembly.finish_whole (statements : List Node) (last : Token)
    (whole : Grammar.Whole statements) :
    (resting statements.reverse [] []).finish last = ⟨statements,[]⟩ :=
  finish_reported statements [] last whole

/-- A program of the grammar is built without a report, as the statements that it writes. -/
theorem build_program (tokens : List Token) (statements : List Node)
    (written : Grammar.Program tokens statements) (fileEnd : Grammar.Of .fileEnd) :
    build (tokens ++ [fileEnd.val]) = ⟨statements,[]⟩ := by
  obtain ⟨whole,fed⟩ := Grammar.fed_program tokens statements written
  have last : Builder.feed (.resting statements.reverse [] []) fileEnd.val =
      .resting statements.reverse [] [] :=
    Builder.feed_fileEnd false statements.reverse [] [] fileEnd.val fileEnd.property
  have begun := fed [] [] [] Settled.nil
  rw [List.append_nil] at begun
  have all : (tokens ++ [fileEnd.val]).foldl Builder.feed .empty =
      .resting statements.reverse [] [] := by
    rw [List.foldl_append]
    refine (congrArg (List.foldl Builder.feed · _) begun).trans ?_
    exact last
  unfold build
  rw [all]
  exact Assembly.finish_whole statements _ whole

/-- `int f(int n) do if n < 2 do ret 1; done else do ret n * f(n - 1); done done put (f(3));` -/
def factorial : List Token :=
  let word (kind : TokenKind) (text : String) : Token := ⟨kind,text,⟨.start,.start⟩⟩
  let opening := word .opening "("
  let closing := word .closing ")"
  let stop := word .semicolon ";"
  let begins := word .doWord "do"
  let ends := word .doneWord "done"
  let ret := word .retWord "ret"
  let f := word .name "f"
  let n := word .name "n"
  let int := word .specifier "int"
  [int,f,opening,int,n,closing,begins,
    word .ifWord "if",n,word .comparison "<",word .integer "2",begins,ret,word .integer "1",stop,ends,
    word .elseWord "else",begins,ret,n,word .multiplicative "*",f,opening,n,word .additive "-",
    word .integer "1",closing,stop,ends,ends,
    word .putWord "put",opening,f,opening,word .integer "3",closing,closing,stop]

theorem build_factorial :
    build (factorial ++ [.fileEnd .start]) =
      ⟨[.function "f" .int [⟨"n",.int⟩]
          [.block [.ifThen (.test (.compare .less) (.name "n") (.int 2))
            (some [.ret (.int 1)])
            (some [.ret (.arithmetic .times (.name "n")
              (.call "f" (.lastArgument (.arithmetic .minus (.name "n") (.int 1)))))])]],
        .put (.call "f" (.lastArgument (.int 3)))],[]⟩ := by
  let word (kind : TokenKind) (text : String) : Token := ⟨kind,text,⟨.start,.start⟩⟩
  let stop : Grammar.Of .semicolon := ⟨word .semicolon ";",rfl⟩
  let opening : Grammar.Of .opening := ⟨word .opening "(",rfl⟩
  let closing : Grammar.Of .closing := ⟨word .closing ")",rfl⟩
  let begins : Grammar.Of .doWord := ⟨word .doWord "do",rfl⟩
  let ends : Grammar.Of .doneWord := ⟨word .doneWord "done",rfl⟩
  let int : Grammar.Spelled .specifier TypeName.int.spelling := ⟨word .specifier "int",rfl,rfl⟩
  let f : Grammar.Of .name := ⟨word .name "f",rfl⟩
  let n : Grammar.Of .name := ⟨word .name "n",rfl⟩
  have number (level : Nat) (text : String) (value : Int64)
      (read : Decimal.integer? text = some value) :
      Grammar.Expression level [word .integer text] (.int value) :=
    .integer level ⟨word .integer text,rfl⟩ value read
  have name (level : Nat) : Grammar.Expression level [n.val] (.name "n") := .name level n
  have small : Grammar.Expression 2 _ _ := .joined 2 (.compare .less)
    ⟨word .comparison "<",rfl,rfl⟩ _ _ _ _ (by decide) (name 5) (number 6 "2" 2 (by decide))
  have fewer : Grammar.Expression 2 _ _ := .joined 2 (.arithmetic .minus)
    ⟨word .additive "-",rfl,rfl⟩ _ _ _ _ (by decide) (name 6) (number 7 "1" 1 (by decide))
  have product : Grammar.Expression 2 _ _ := .joined 2 (.arithmetic .times)
    ⟨word .multiplicative "*",rfl,rfl⟩ _ _ _ _ (by decide) (name 7)
    (.callOne 8 f opening closing _ _ fewer)
  have base : Grammar.Program _ _ := .simple _ [] _ []
    (.ret ⟨word .retWord "ret",rfl⟩ _ _ stop (number 2 "1" 1 (by decide))) .nil
  have further : Grammar.Program _ _ := .simple _ [] _ []
    (.ret ⟨word .retWord "ret",rfl⟩ _ _ stop product) .nil
  have body : Grammar.Program _ _ := .ifElse ⟨word .ifWord "if",rfl⟩ _ _ _ [] _ _ _ [] begins ends
    ⟨word .elseWord "else",rfl⟩ begins ends small base further .nil
  have shown : Grammar.Program _ _ := .simple _ [] _ []
    (.put ⟨word .putWord "put",rfl⟩ _ _ stop (.parentheses 2 opening closing _ _
      (.callOne 2 f opening closing _ _ (number 2 "3" 3 (by decide))))) .nil
  exact build_program factorial _ (.block _ _ _ _ _ _ begins ends
    (.function .int int f opening _ _ closing (by decide) (.one .int int n)) body shown)
    ⟨.fileEnd .start,rfl⟩

end BlockScript
