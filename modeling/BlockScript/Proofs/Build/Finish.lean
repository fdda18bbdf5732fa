import BlockScript.Proofs.Build.Clean

/-! The end of a build without reports. Every block was closed, and no header and no `else` is left
among the roots. -/
namespace BlockScript

theorem Attached.countP_doMark (body before after : List Node) (attached : Attached body before after) :
    after.countP Node.isDoMark = before.countP Node.isDoMark := by
  cases attached <;> simp [Node.isDoMark]

theorem Pushed.countP_doMark (before after : List Node)
    (pushed : Relation.ReflTransGen Pushed before after) :
    after.countP Node.isDoMark = before.countP Node.isDoMark := by
  induction pushed with
  | refl => rfl
  | tail _ push ih =>
    cases push with
    | push node roots raw calm =>
      rw [← ih]
      cases raw <;> simp [Node.isDoMark]

def Builder.Counted (builder : Builder) : Prop :=
  builder.assembly.openBlocks.length = builder.assembly.roots.countP Node.isDoMark

theorem Moves.counted (token : Token) (builder next : Builder) (moves : Moves token builder next)
    (counted : builder.Counted) : next.Counted := by
  cases moves with
  | consumed => exact counted
  | declared reader converter declaration roots openBlocks active heading =>
    refine counted.trans ?_
    cases heading <;> simp [Builder.clean,Assembly.resting,Node.isDoMark]
  | kept => exact counted
  | ended converter roots nodes after openBlocks still blank pushed closes =>
    have same : openBlocks.length = (nodes ++ roots).countP Node.isDoMark :=
      counted.trans (Pushed.countP_doMark roots _ pushed).symm
    change still.length = after.countP Node.isDoMark
    generalize nodes ++ roots = middle at closes same
    cases closes with
    | plain => exact same
    | opened => simp [List.countP_cons,Node.isDoMark,same]
    | otherwise => simp [Node.isDoMark,same]
    | closed inner outer after openBlocks kind apart calm attached =>
      rw [attached.countP_doMark]
      have nothing : inner.countP Node.isDoMark = 0 := by simpa using apart
      rw [List.countP_append,List.countP_cons,nothing] at same
      simp only [List.length_drop]
      simp [Node.isDoMark] at same
      omega

namespace Assembly

theorem reports_unclosed (tokens : List Token) (assembly : Assembly) :
    assembly.reports <:+
      (tokens.foldl (fun assembly token => assembly.report .unclosedDo token) assembly).reports := by
  induction tokens generalizing assembly with
  | nil => exact List.suffix_rfl
  | cons token tokens ih =>
    have noted : assembly.reports <:+ (assembly.report .unclosedDo token).reports :=
      List.suffix_cons _ _
    exact noted.trans (ih _)

theorem reports_closeOpenBlocks (assembly : Assembly) :
    assembly.reports <:+ assembly.closeOpenBlocks.reports := by
  unfold closeOpenBlocks
  split
  · exact List.suffix_rfl
  next kept _ =>
    exact reports_unclosed _ { assembly with roots := kept.reverse, openBlocks := [] }

theorem reports_dropElseMarks (assembly : Assembly) (token : Token) :
    assembly.reports <:+ (assembly.dropElseMarks token).reports := by
  unfold dropElseMarks
  split
  · exact List.suffix_cons _ _
  · exact List.suffix_rfl

theorem reports_finish (assembly : Assembly) (last : Token)
    (fine : (assembly.finish last).reports = []) : assembly.reports = [] := by
  have last : (dropElseMarks _ last).reports = [] := List.reverse_eq_nil_iff.mp fine
  have opened := nil_of_suffix (reports_dropElseMarks _ _) last
  have dropped := nil_of_suffix (reports_closeOpenBlocks _) opened
  have flushed := nil_of_suffix (reports_dropHeader _ _) dropped
  exact nil_of_suffix (reports_flush _ _) flushed

/-- If the end of a file finds nothing to report then it changes nothing: no block was open, no
header waited, and there were no marks. -/
theorem finish_ok (roots : List Node) (openBlocks : List Token) (last : Token)
    (counted : openBlocks.length = roots.countP Node.isDoMark)
    (fine : ((resting roots openBlocks []).finish last).reports = []) :
    ((resting roots openBlocks []).finish last).roots = roots.reverse ∧ Calm roots ∧
      (∀ node ∈ roots, node.isDoMark = false) ∧ ∀ node ∈ roots, node.isElseMark = false := by
  have ended : (dropElseMarks _ last).reports = [] := List.reverse_eq_nil_iff.mp fine
  have opened := nil_of_suffix (reports_dropElseMarks _ _) ended
  have dropped := nil_of_suffix (reports_closeOpenBlocks _) opened
  have calm : Calm roots := calm_of_dropHeader (resting roots openBlocks []) last dropped
  have flushed : (resting roots openBlocks []).flush last = resting roots openBlocks [] := rfl
  rw [flushed,dropHeader_calm _ last calm] at opened ended
  have closed : openBlocks = [] := by
    cases openBlocks with
    | nil => rfl
    | cons token rest =>
      have marked : beforeOpenBlock? roots.reverse ≠ none := by
        intro none
        have apart := (beforeOpenBlock?_eq_none_iff roots.reverse).mp none
        have nothing : roots.countP Node.isDoMark = 0 := by simpa using apart
        simp [nothing] at counted
      obtain ⟨kept,some⟩ := Option.ne_none_iff_exists'.mp marked
      simp only [closeOpenBlocks,resting] at opened
      simp only [some,List.reverse_cons,List.foldl_append] at opened
      contradiction
  subst closed
  have apart : ∀ node ∈ roots, node.isDoMark = false := by simpa using counted.symm
  have none : beforeOpenBlock? roots.reverse = none :=
    (beforeOpenBlock?_eq_none_iff roots.reverse).mpr (by simpa using apart)
  have kept : (resting roots [] []).closeOpenBlocks = resting roots [] [] := by
    simp only [closeOpenBlocks,resting]
    rw [none]
  rw [kept] at ended
  have elses : roots.any Node.isElseMark = false := by
    cases marked : roots.any Node.isElseMark with
    | false => rfl
    | true => simp [dropElseMarks,resting,marked,report] at ended
  have plain : ∀ node ∈ roots, node.isElseMark = false := by simpa using elses
  have finished := finish_resting roots [] last calm apart plain
  exact ⟨by rw [finished],calm,apart,plain⟩

end Assembly

/-- A build without reports: the builder at its end, what it returns, and that an invariant of all
moves holds there. -/
theorem build_ok (invariant : List Token → Builder → Prop)
    (step : ∀ token rest builder next, Moves token builder next →
      invariant (token :: rest) builder → invariant rest next)
    (tokens : List Token) (start : invariant tokens .empty) (fine : (build tokens).reports = []) :
    ∃ reader converter roots openBlocks,
      tokens.foldl Builder.feed .empty = .clean reader converter roots openBlocks ∧
        invariant [] (.clean reader converter roots openBlocks) ∧
          (build tokens).roots = roots.reverse ∧ Calm roots ∧
            (∀ node ∈ roots, node.isDoMark = false) ∧ ∀ node ∈ roots, node.isElseMark = false := by
  have before := Assembly.reports_finish _ _ fine
  obtain ⟨clean,kept,counted⟩ := Builder.clean_empty.fed
    (fun rest builder => invariant rest builder ∧ builder.Counted)
    (fun token rest builder next moves kept =>
      ⟨step token rest builder next moves kept.1,moves.counted token builder next kept.2⟩)
    tokens .empty ⟨start,rfl⟩ before
  unfold build at fine ⊢
  generalize tokens.foldl Builder.feed .empty = last at clean kept counted fine ⊢
  obtain ⟨reader,converter,roots,openBlocks,_,_,_⟩ := clean
  obtain ⟨same,calm,apart,elses⟩ := Assembly.finish_ok roots openBlocks _ counted fine
  exact ⟨reader,converter,roots,openBlocks,rfl,kept,same,calm,apart,elses⟩

end BlockScript
