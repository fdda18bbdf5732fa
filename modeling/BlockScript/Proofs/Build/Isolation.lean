import BlockScript.Proofs.Build.Above

/-! Files that are built in pieces. What comes behind finished statements is built like a file of
its own, exactly if no expression is half read in between. -/
namespace BlockScript
open Postfix

namespace Postfix.Converter

def Closed (converter : Converter) : Prop :=
  ∀ waiting ∈ converter.stack, ∃ token, waiting.token? = some token

theorem closed_of_unwind (converter : Converter) (output result : List Token)
    (unwound : unwind converter.stack output = .ok result) : converter.Closed := by
  obtain ⟨tokens,same,_⟩ := unwind_ok converter.stack output result unwound
  intro waiting member
  have kept : waiting.token? ∈ tokens.map some := by
    rw [← same]
    exact List.mem_map_of_mem member
  obtain ⟨token,_,is⟩ := List.mem_map.mp kept
  exact ⟨token,is.symm⟩

theorem convert_closing (converter : Converter) (token : Token) (kind : token.kind = .closing)
    (closed : converter.Closed) : converter.convert token = .error .unbalancedParenthesis := by
  have same : converter.convert token = (converter.settle.closeParenthesis token).map ([],·) := by
    unfold convert
    split <;> simp_all
  obtain ⟨held,rest,split,released⟩ := converter.settle.releaseBinaries_split fun _ => true
  rw [converter.settle_stack] at split
  rw [same]
  unfold closeParenthesis
  rw [released]
  -- What stands behind the operators is a leading word, or there is nothing.
  cases rest with
  | nil => rfl
  | cons waiting rest =>
    obtain ⟨token,is⟩ := closed waiting (by simp [split])
    cases waiting with
    | binary | leading => rfl
    | parenthesis | call => contradiction

theorem eq_empty_of_blank (converter : Converter) (blank : converter.Blank)
    (awake : converter.skipping = false) (closed : converter.Closed) : converter = empty := by
  obtain ⟨output,stack,pending,skipping⟩ := converter
  obtain rfl : output = [] := blank.output
  obtain rfl : pending = none := blank.pending
  obtain rfl : skipping = false := awake
  cases stack with
  | nil => rfl
  | cons waiting rest =>
    obtain ⟨token,is⟩ := closed waiting List.mem_cons_self
    obtain rfl := blank.stack waiting List.mem_cons_self
    contradiction

end Postfix.Converter

theorem Pushed.calm {nodes roots : List Node}
    (pushed : Relation.ReflTransGen Pushed roots (nodes ++ roots)) (calm : Calm (nodes ++ roots)) :
    Calm roots := by
  rcases pushed.cases_head with same | ⟨_,first,_⟩
  · rwa [← same] at calm
  · cases first with
    | push node roots raw calm => exact calm

namespace Builder

theorem closed_of_fileEnd (converter : Converter) (roots : List Node) (openBlocks : List Token)
    (token : Token) (kind : token.kind = .fileEnd) (awake : converter.skipping = false)
    (fine : ((clean .idle converter roots openBlocks).feed token).assembly.reports = []) :
    converter.Closed := by
  have declined := Declaration.Reader.feed_idle token (by simp [kind])
  have fed : (clean .idle converter roots openBlocks).feed token =
      (clean .idle converter roots openBlocks).convert token := by
    simp only [feed,clean,declined]
  cases unwound : unwind converter.stack converter.settle.output with
  | ok result => exact converter.closed_of_unwind _ result unwound
  | error error =>
    have failed : converter.convert token = .error error := by
      unfold Converter.convert
      split
      next opening => simp [kind] at opening
      next => simp [kind,Converter.finish,converter.settle_stack,unwound,Except.map]
    have refused := converter.feed_refused token error awake failed
    have once : (clean .idle converter roots openBlocks).convertOnce token = (false,
        Builder.report ⟨.idle,{ Converter.empty with skipping := !token.kind.endsStatement },
          .resting roots openBlocks []⟩ error token) := by
      simp only [convertOnce,clean,refused]
    rw [fed] at fine
    unfold convert at fine
    rw [once] at fine
    have noted : _ = [] := nil_of_suffix (reports_convertOnce _ token)
      (by simpa [kind,TokenKind.isStructural] using fine)
    contradiction

/-- Where a file would end well, a closing parenthesis discards what is half read. -/
theorem feed_closing (converter : Converter) (roots : List Node) (openBlocks : List Token)
    (token : Token) (kind : token.kind = .closing) (awake : converter.skipping = false)
    (closed : converter.Closed) :
    (clean .idle converter roots openBlocks).feed token =
      ⟨.idle,{ Converter.empty with skipping := true },
        .resting roots openBlocks [⟨.unbalancedParenthesis,token⟩]⟩ := by
  have declined := Declaration.Reader.feed_idle token (by simp [kind])
  have refused := converter.feed_refused token _ awake (converter.convert_closing token kind closed)
  simp only [feed,clean,declined,convert,convertOnce,refused]
  simp only [kind,TokenKind.isStructural]
  rfl

end Builder

theorem before_fileEnd (tokens : List Token) (fileEnd : Token) (ends : fileEnd.kind = .fileEnd)
    (fine : (build (tokens ++ [fileEnd])).reports = []) :
    ∃ converter roots nodes, tokens.foldl Builder.feed .empty = .clean .idle converter roots [] ∧
      converter.skipping = false ∧
      converter.Closed ∧ (nodes = [] ↔ converter.Blank) ∧ Calm roots ∧
      (∀ node ∈ roots, node.isDoMark = false) ∧ (∀ node ∈ roots, node.isElseMark = false) ∧
      (build (tokens ++ [fileEnd])).roots = roots.reverse ++ nodes.reverse := by
  have before := Assembly.reports_finish _ _ fine
  rw [List.foldl_append] at before
  simp only [List.foldl_cons,List.foldl_nil] at before
  have earlier := nil_of_suffix (Builder.reports_feed _ fileEnd) before
  obtain ⟨clean,counted⟩ := Builder.clean_empty.fed (fun _ builder => builder.Counted)
    (fun token _ builder next moves counted => moves.counted token builder next counted)
    tokens .empty rfl earlier
  unfold build at fine ⊢
  rw [List.foldl_append] at fine ⊢
  simp only [List.foldl_cons,List.foldl_nil] at fine ⊢
  generalize tokens.foldl Builder.feed .empty = builder at *
  obtain ⟨reader,converter,roots,openBlocks,reading,plain,awake⟩ := clean
  obtain ⟨_,moves⟩ := Builder.Clean.feed _ (.clean reader converter roots openBlocks reading plain
    awake) fileEnd before
  have counted' := moves.counted fileEnd _ _ counted
  generalize same : (Builder.clean reader converter roots openBlocks).feed fileEnd = next at *
  cases moves with
  | consumed _ _ _ _ _ _ within => simp [ends,TokenKind.isStructural] at within
  | declared _ _ _ _ _ _ _ _ within => simp [ends,TokenKind.isStructural] at within
  | kept _ _ _ _ _ within => simp [ends,Converter.tail?] at within
  | ended _ _ nodes after _ still blank pushed closes =>
    -- The end of the file closes nothing, it only makes roots of what is half read.
    obtain ⟨rfl,rfl⟩ : after = nodes ++ roots ∧ still = openBlocks := by
      generalize nodes ++ roots = middle at closes
      cases closes <;> simp_all
    obtain ⟨built,calm,apart,elses⟩ := Assembly.finish_ok (nodes ++ roots) still _ counted' fine
    have mine (node : Node) (member : node ∈ roots) : node ∈ nodes ++ roots :=
      List.mem_append_right nodes member
    obtain rfl : still = [] := by
      have none : (nodes ++ roots).countP Node.isDoMark = 0 :=
        List.countP_eq_zero.mpr fun node member => by simp [apart node member]
      exact List.length_eq_zero_iff.mp (counted'.trans none)
    refine ⟨converter,roots,nodes,rfl,awake,?_,blank,Pushed.calm pushed calm,
      fun node member => apart node (mine node member),
      fun node member => elses node (mine node member),?_⟩
    · refine Builder.closed_of_fileEnd converter roots [] fileEnd ends awake ?_
      rw [same]
      rfl
    · rw [← List.reverse_append]
      exact built

/-- Roots without marks are finished if the last one is neither a conditional nor a function without
a body. -/
theorem finished_of_last (roots : List Node) (calm : Calm roots)
    (apart : ∀ node ∈ roots, node.isDoMark = false)
    (elses : ∀ node ∈ roots, node.isElseMark = false)
    (last : ∀ root below, roots = root :: below →
      (∀ condition body otherwise, root ≠ .ifThen condition body otherwise) ∧
      ∀ called returns parameters, root ≠ .function called returns parameters []) :
    Finished roots := by
  refine ⟨?_,apart,elses,?_⟩
  · intro root below same
    have fit := last root below same
    have awaits := calm root below same
    have marked := elses root (by simp [same])
    cases root with
    | elseMark => contradiction
    | function called returns parameters body =>
      cases body with
      | nil => exact (fit.2 called returns parameters rfl).elim
      | cons => rfl
    | _ => exact awaits
  · intro condition body otherwise below same
    exact (last _ below same).1 condition body otherwise rfl

/-- A file that is built without a report, and whose last root lets neither an `else` nor a block
follow, may be followed by any other exactly if it leaves no expression half read. -/
theorem build_append_iff (first : List Token) (fileEnd : Token) (ends : fileEnd.kind = .fileEnd)
    (fine : (build (first ++ [fileEnd])).reports = [])
    (last : ∀ root, (build (first ++ [fileEnd])).roots.getLast? = some root →
      (∀ condition body otherwise, root ≠ .ifThen condition body otherwise) ∧
      ∀ called returns parameters, root ≠ .function called returns parameters []) :
    (first.foldl Builder.feed .empty).converter = .empty ↔
      ∀ second : List Token, (∀ token ∈ second, token.kind ≠ .fileEnd) →
        build (first ++ second ++ [fileEnd]) =
          ⟨(build (first ++ [fileEnd])).roots ++ (build (second ++ [fileEnd])).roots,
            (build (second ++ [fileEnd])).reports⟩ := by
  obtain ⟨converter,roots,nodes,read,awake,closed,blank,calm,apart,elses,built⟩ :=
    before_fileEnd first fileEnd ends fine
  rw [read]
  constructor
  · intro nothing second _
    obtain rfl : converter = .empty := nothing
    obtain rfl : nodes = [] := blank.mpr Converter.blank_empty
    have finished : Finished roots := by
      refine finished_of_last roots calm apart elses ?_
      intro root below same
      exact last root (by simp [built,same])
    rw [build_above finished first second fileEnd read,built]
    rw [List.reverse_nil,List.append_nil]
  · intro isolated
    -- This token discards what the end of the file would have made roots of.
    let closing : Token := ⟨.closing,")",⟨.start,.start⟩⟩
    have other := isolated [closing] (by simp [closing])
    have fed := Builder.feed_closing converter roots [] closing rfl awake closed
    have ended := Builder.feed_fileEnd true roots [] [⟨.unbalancedParenthesis,closing⟩] fileEnd ends
    rw [build_append,List.foldl_append,read] at other
    simp only [List.foldl_cons,List.foldl_nil] at other
    rw [fed,ended,Builder.resting,Assembly.finish_resting roots _ fileEnd calm apart elses,
      built] at other
    have none : nodes = [] := by
      have lengths := congrArg (fun built : Built => built.roots.length) other
      simp only [List.length_append,List.length_reverse] at lengths
      exact List.length_eq_zero_iff.mp (by omega)
    exact converter.eq_empty_of_blank (blank.mp none) awake closed

/-- `1 int x;` -/
def halfRead : List Token :=
  let word (kind : TokenKind) (text : String) : Token := ⟨kind,text,⟨.start,.start⟩⟩
  [word .integer "1",word .specifier "int",word .name "x",word .semicolon ";"]

/-- `put 2;` -/
def printing : List Token :=
  let word (kind : TokenKind) (text : String) : Token := ⟨kind,text,⟨.start,.start⟩⟩
  [word .putWord "put",word .integer "2",word .semicolon ";"]

theorem build_printing_halfRead :
    build (printing ++ halfRead ++ [.fileEnd .start]) =
      ⟨[.put (.int 2),.typed ⟨"x",.int⟩,.int 1],[]⟩ := by
  have isolated := build_append_iff printing (.fileEnd .start) rfl rfl
  refine ((isolated ?_).mp rfl halfRead (by decide)).trans rfl
  intro root same
  obtain rfl : Node.put (.int 2) = root := Option.some.inj same
  exact ⟨by simp,by simp⟩

/-- A declaration does not end the statement around it, so what was read of that statement comes out
at the next semicolon. -/
theorem halfRead_mixes :
    (halfRead.getLast?.map (·.kind) = some .semicolon ∧
      ∀ token ∈ halfRead ++ printing, token.kind ≠ .fileEnd) ∧
    build (halfRead ++ [.fileEnd .start]) = ⟨[.typed ⟨"x",.int⟩,.int 1],[]⟩ ∧
    build (halfRead ++ printing ++ [.fileEnd .start]) ≠
      ⟨(build (halfRead ++ [.fileEnd .start])).roots ++
          (build (printing ++ [.fileEnd .start])).roots,
        (build (printing ++ [.fileEnd .start])).reports⟩ := by
  refine ⟨⟨rfl,by decide⟩,rfl,?_⟩
  intro same
  have mixed : [Node.typed ⟨"x",.int⟩,.put (.int 2),.int 1] =
      [.typed ⟨"x",.int⟩,.int 1,.put (.int 2)] := congrArg Built.roots same
  simp at mixed

end BlockScript
