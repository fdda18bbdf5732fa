import BlockScript.Proofs.Build.Stray

/-! Programs with a broken statement in them. Wherever it stands, it costs no other statement
anything. -/
namespace BlockScript

namespace Grammar

/-- A program, cut in two where a statement may begin. The last index is the file, given the
statements that are put into the gap. -/
inductive Gap : List Token → List Token → (List Node → List Node) → Prop
  | between (before after : List Token) (first second : List Node) (earlier : Program before first)
      (later : Program after second) : Gap before after fun extra => first ++ extra ++ second
  | block (front head before after rest : List Token) (first second : List Node)
      (make : List Node → Node) (plug : List Node → List Node) (doWord : Of .doWord)
      (doneWord : Of .doneWord) (earlier : Program front first) (header : Header head make)
      (inside : Gap before after plug) (later : Program rest second) :
      Gap (front ++ (head ++ doWord.val :: before)) (after ++ doneWord.val :: rest)
        fun extra => first ++ make (plug extra) :: second
  | thenBlock (front tokens before after other rest : List Token) (condition : Node)
      (first otherwise second : List Node) (plug : List Node → List Node) (word : Of .ifWord)
      (doWord : Of .doWord) (doneWord : Of .doneWord) (elseWord : Of .elseWord) (doAgain : Of .doWord)
      (doneAgain : Of .doneWord) (earlier : Program front first)
      (written : Expression 2 tokens condition) (inside : Gap before after plug)
      (instead : Program other otherwise) (later : Program rest second) :
      Gap (front ++ (word.val :: tokens ++ doWord.val :: before))
        (after ++ doneWord.val :: elseWord.val :: doAgain.val :: other ++ doneAgain.val :: rest)
        fun extra => first ++ .ifThen condition (some (plug extra)) (some otherwise) :: second
  | elseBlock (front tokens inner before after rest : List Token) (condition : Node)
      (first body second : List Node) (plug : List Node → List Node) (word : Of .ifWord)
      (doWord : Of .doWord) (doneWord : Of .doneWord) (elseWord : Of .elseWord) (doAgain : Of .doWord)
      (doneAgain : Of .doneWord) (earlier : Program front first)
      (written : Expression 2 tokens condition) (inside : Program inner body)
      (instead : Gap before after plug) (later : Program rest second) :
      Gap (front ++ (word.val :: tokens ++ doWord.val :: inner ++ doneWord.val :: elseWord.val ::
          doAgain.val :: before)) (after ++ doneAgain.val :: rest)
        fun extra => first ++ .ifThen condition (some body) (some (plug extra)) :: second

theorem Program.append {front rest : List Token} {first second : List Node}
    (earlier : Program front first) (later : Program rest second) :
    Program (front ++ rest) (first ++ second) := by
  induction earlier with
  | nil => exact later
  | simple tokens rest statement statements written _ ih =>
    simpa using Program.simple tokens _ statement _ written ih
  | block head inner rest make body statements doWord doneWord header inside _ _ ih =>
    simpa using Program.block head inner _ make body _ doWord doneWord header inside ih
  | ifElse word tokens inner other rest condition body otherwise statements doWord doneWord elseWord
      doAgain doneAgain written inside instead _ _ _ ih =>
    simpa using Program.ifElse word tokens inner other _ condition body otherwise _ doWord doneWord
      elseWord doAgain doneAgain written inside instead ih

/-- With nothing in the gap it is a program. -/
theorem Gap.program {before after : List Token} {plug : List Node → List Node}
    (gap : Gap before after plug) : Program (before ++ after) (plug []) := by
  induction gap with
  | between before after first second earlier later => simpa using earlier.append later
  | block front head before after rest first second make plug doWord doneWord earlier header _ later
      ih =>
    have statement := Program.block head _ rest make _ second doWord doneWord header ih later
    simpa using earlier.append statement
  | thenBlock front tokens before after other rest condition first otherwise second plug word doWord
      doneWord elseWord doAgain doneAgain earlier written _ instead later ih =>
    have statement := Program.ifElse word tokens _ other rest condition _ otherwise second doWord
      doneWord elseWord doAgain doneAgain written ih instead later
    simpa using earlier.append statement
  | elseBlock front tokens inner before after rest condition first body second plug word doWord
      doneWord elseWord doAgain doneAgain earlier written inside _ later ih =>
    have statement := Program.ifElse word tokens inner _ rest condition body _ second doWord
      doneWord elseWord doAgain doneAgain written inside ih later
    simpa using earlier.append statement

/-- Whatever runs like a statement may stand in the gap. -/
theorem Gap.runs {before after stray : List Token} {plug : List Node → List Node}
    {extra : List Node} {errors : List Report} (gap : Gap before after plug)
    (runs : Runs stray extra errors) : Runs (before ++ stray ++ after) (plug extra) errors := by
  induction gap with
  | between before after first second earlier later =>
    simpa using ((Runs.program earlier).append runs).append (Runs.program later)
  | block front head before after rest first second make plug doWord doneWord earlier header _ later
      ih =>
    have statement := (ih.block header doWord doneWord).append (Runs.program later)
    simpa using (Runs.program earlier).append statement
  | thenBlock front tokens before after other rest condition first otherwise second plug word doWord
      doneWord elseWord doAgain doneAgain earlier written _ instead later ih =>
    have statement := (ih.ifElse word written (Runs.program instead) doWord doneWord elseWord doAgain
      doneAgain).append (Runs.program later)
    simpa using (Runs.program earlier).append statement
  | elseBlock front tokens inner before after rest condition first body second plug word doWord
      doneWord elseWord doAgain doneAgain earlier written inside _ later ih =>
    have statement := ((Runs.program inside).ifElse word written ih doWord doneWord elseWord doAgain
      doneAgain).append (Runs.program later)
    simpa using (Runs.program earlier).append statement

/-- What runs wherever a statement may begin is built as a file of its own. -/
theorem Runs.build {tokens : List Token} {statements : List Node} {errors : List Report}
    (runs : Runs tokens statements errors) (fileEnd : Of .fileEnd) :
    build (tokens ++ [fileEnd.val]) = ⟨statements,errors.reverse⟩ := by
  have begun := runs.fed [] [] [] Settled.nil
  rw [List.append_nil,List.append_nil] at begun
  have all : (tokens ++ [fileEnd.val]).foldl Builder.feed .empty =
      .resting statements.reverse [] errors := by
    rw [List.foldl_append]
    refine (congrArg (List.foldl Builder.feed · _) begun).trans ?_
    exact Builder.feed_fileEnd false statements.reverse [] errors fileEnd.val fileEnd.property
  unfold BlockScript.build
  rw [all]
  exact Assembly.finish_reported statements errors _ runs.whole

end Grammar

/-- A stray statement in the gap of a program changes nothing but what stands in the gap. It is
built, or reported, as it is where it stands alone. -/
theorem build_stray (before after : List Token) (plug : List Node → List Node)
    (gap : Grammar.Gap before after plug) (stray : List Token)
    (inner : ∀ token ∈ stray, token.kind.isInner = true) (stop : Grammar.Of .semicolon)
    (fileEnd last : Grammar.Of .fileEnd) :
    let alone := build (stray ++ [stop.val,last.val])
    build (before ++ after ++ [fileEnd.val]) = ⟨plug [],[]⟩ ∧
      build (before ++ (stray ++ [stop.val]) ++ after ++ [fileEnd.val]) =
        ⟨plug alone.roots,alone.reports⟩ ∧
      alone.reports.length ≤ 1 ∧ (alone.reports ≠ [] → alone.roots = []) := by
  intro alone
  obtain ⟨extra,errors,runs,shape⟩ := runs_stray stray inner stop
  have built : alone = ⟨extra,errors.reverse⟩ := by
    have whole := runs.build last
    rwa [List.append_assoc] at whole
  rw [built]
  refine ⟨(Grammar.Runs.program gap.program).build fileEnd,(gap.runs runs).build fileEnd,?_⟩
  rcases shape with rfl | ⟨single,rfl⟩
  · simp
  · simp [single]

/-- The first tokens of `if x do put (1; put y; done`. -/
def conditional : List Token :=
  [⟨.ifWord,"if",⟨.start,.start⟩⟩,⟨.name,"x",⟨.start,.start⟩⟩,⟨.doWord,"do",⟨.start,.start⟩⟩]

/-- The statement in it that is broken, up to its semicolon. -/
def halfClosed : List Token :=
  [⟨.putWord,"put",⟨.start,.start⟩⟩,⟨.opening,"(",⟨.start,.start⟩⟩,⟨.integer,"1",⟨.start,.start⟩⟩]

def semicolon : Grammar.Of .semicolon := ⟨⟨.semicolon,";",⟨.start,.start⟩⟩,rfl⟩

/-- The statement behind that one, and the end of the block. -/
def remainder : List Token :=
  [⟨.putWord,"put",⟨.start,.start⟩⟩,⟨.name,"y",⟨.start,.start⟩⟩,semicolon.val,
    ⟨.doneWord,"done",⟨.start,.start⟩⟩]

/-- The parenthesis that is never closed costs one statement and none of the block around it. -/
theorem halfClosed_contained :
    build (conditional ++ (halfClosed ++ [semicolon.val]) ++ remainder ++ [.fileEnd .start]) =
      ⟨[.ifThen (.name "x") (some [.put (.name "y")]) none],
        [⟨.unbalancedParenthesis,semicolon.val⟩]⟩ := by
  have shown : Grammar.Program _ _ := .simple _ [] _ [] (.put ⟨⟨.putWord,"put",⟨.start,.start⟩⟩,rfl⟩
    _ _ semicolon (.name 2 ⟨⟨.name,"y",⟨.start,.start⟩⟩,rfl⟩)) .nil
  have gap : Grammar.Gap conditional remainder
      fun extra => [.ifThen (.name "x") (some (extra ++ [.put (.name "y")])) none] :=
    .block [] _ [] _ [] [] [] _ _ ⟨⟨.doWord,"do",⟨.start,.start⟩⟩,rfl⟩
      ⟨⟨.doneWord,"done",⟨.start,.start⟩⟩,rfl⟩ .nil
      (.ifThen ⟨⟨.ifWord,"if",⟨.start,.start⟩⟩,rfl⟩ _ _
        (.name 2 ⟨⟨.name,"x",⟨.start,.start⟩⟩,rfl⟩)) (.between [] _ [] _ .nil shown) .nil
  have alone : build (halfClosed ++ [semicolon.val,.fileEnd .start]) =
      ⟨[],[⟨.unbalancedParenthesis,semicolon.val⟩]⟩ := rfl
  have contained := build_stray conditional remainder _ gap halfClosed (by decide) semicolon
    ⟨.fileEnd .start,rfl⟩ ⟨.fileEnd .start,rfl⟩
  rw [alone] at contained
  exact contained.2.1

end BlockScript
