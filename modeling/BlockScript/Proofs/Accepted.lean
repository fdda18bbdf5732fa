import BlockScript.Proofs.Build.Dangling
import BlockScript.Proofs.Eval.Complete

/-! Files that were built without a report: their structure, and that they never fail for it. -/
namespace BlockScript

/-- The statements of an accepted file are complete, and no mark of an `else` is left among them
exactly if every `else` has its block. Running such files never meets a statement without a body,
and meets no mark if none is left. -/
theorem accepted_structure (rounds : Nat) (sink : Sink) (files : List (Bool × List Token))
    (accepted : ∀ file ∈ files, (build file.2).reports = []) :
    (∀ file ∈ files,
      (∀ node, StatementOf (build file.2).roots node →
        node ≠ .doMark ∧ node ≠ .lineMark ∧ node.awaitsBody = false) ∧
      ((∀ node, StatementOf (build file.2).roots node → node ≠ .elseMark) ↔
        elsesOpen file.2 = true)) ∧
    ∀ root before failure next,
      Session.Begins rounds (files.map fun file => ⟨file.1,(build file.2).roots⟩) (.initial sink)
        root before →
      runRoot rounds root before = some (some failure,next) →
        (∀ control, failure.fault ≠ .missingBody control) ∧
        ((∀ file ∈ files, elsesOpen file.2 = true) → ∀ mark, failure.fault ≠ .unexpectedMark mark) := by
  constructor
  · intro file member
    have fine := accepted file member
    constructor
    · intro node statement
      have fit := statement.fit _ (build_fit True file.2 fine fun strict => (strict trivial).elim) node
      exact ⟨fit.complete.1,fit.complete.2.1,fit.complete.2.2.1⟩
    · constructor
      · exact elsesOpen_of_build file.2 fine
      · intro elses node statement
        have fit := statement.fit _ (build_fit False file.2 fine fun _ => elses) node
        exact fit.complete.2.2.2
  · intro root before failure next begins ran
    have fit : ∀ script ∈ files.map fun file => (⟨file.1,(build file.2).roots⟩ : Script),
        ∀ root ∈ script.roots, root.Fit (¬∀ file ∈ files, elsesOpen file.2 = true) := by
      intro script member
      obtain ⟨file,here,rfl⟩ := List.mem_map.mp member
      exact build_fit _ file.2 (accepted file here) fun all => not_not.mp all file here
    -- Marks are allowed exactly if the files do not exclude them, so one run serves both parts.
    have orderly := session_orderly rounds sink _ fit root before next failure begins ran
    constructor
    · rintro control same
      rw [same] at orderly
      exact orderly
    · rintro all mark same
      rw [same] at orderly
      exact orderly all

/-- `if x do done else do done` -/
def alternatives : List Token :=
  let word (kind : TokenKind) (text : String) : Token := ⟨kind,text,⟨.start,.start⟩⟩
  let begins := word .doWord "do"
  let ends := word .doneWord "done"
  [word .ifWord "if",word .name "x",begins,ends,word .elseWord "else",begins,ends,.fileEnd .start]

/-- The name is not declared, so the only root fails. -/
theorem alternatives_complete :
    (∀ node, StatementOf (build alternatives).roots node → node ≠ .elseMark ∧ node ≠ .doMark ∧
      node ≠ .lineMark ∧ node.awaitsBody = false) ∧
    ∃ failure next,
      runRoot 1 (.ifThen (.name "x") (some []) (some [])) (.initial .unlimited) =
        some (some failure,next) ∧
      (∀ control, failure.fault ≠ .missingBody control) ∧
        ∀ mark, failure.fault ≠ .unexpectedMark mark := by
  have accepted : ∀ file ∈ [(false,alternatives)], (build file.2).reports = [] := by
    intro file member
    obtain rfl := List.mem_singleton.mp member
    rfl
  have elses : ∀ file ∈ [(false,alternatives)], elsesOpen file.2 = true := by
    intro file member
    obtain rfl := List.mem_singleton.mp member
    rfl
  obtain ⟨structured,runs⟩ := accepted_structure 1 .unlimited [(false,alternatives)] accepted
  obtain ⟨complete,marks⟩ := structured (false,alternatives) List.mem_cons_self
  constructor
  · intro node statement
    exact ⟨marks.mpr rfl node statement,complete node statement⟩
  · let root : Node := .ifThen (.name "x") (some []) (some [])
    have begins : Session.Begins 1 [⟨false,[root]⟩] (.initial .unlimited) root
        (.initial .unlimited) := .now _ _ _ _ _ (.here root [] _)
    have ran : runRoot 1 root (.initial .unlimited) =
      some (some ⟨.undeclaredVariable "x",root⟩,_) := rfl
    obtain ⟨bodies,unmarked⟩ := runs root _ _ _ begins ran
    exact ⟨_,_,ran,bodies,unmarked elses⟩

/-- `do else done` -/
def danglingElse : List Token :=
  let word (kind : TokenKind) (text : String) : Token := ⟨kind,text,⟨.start,.start⟩⟩
  [word .doWord "do",word .elseWord "else",word .doneWord "done",.fileEnd .start]

/-- The mark of the `else` stays behind in the block, and running the block meets it. -/
theorem danglingElse_accepted :
    (build danglingElse).reports = [] ∧ StatementOf (build danglingElse).roots .elseMark ∧
      ∃ root before failure next,
        Session.Begins 1 [⟨false,(build danglingElse).roots⟩] (.initial .unlimited) root before ∧
        runRoot 1 root before = some (some failure,next) ∧
        failure.fault = .unexpectedMark .elseMark := by
  refine ⟨rfl,?_,.block [.elseMark],.initial .unlimited,⟨.unexpectedMark .elseMark,_⟩,_,?_,rfl,rfl⟩
  · exact .inside (.block [.elseMark]) .elseMark [.elseMark] (.root _ List.mem_cons_self)
      List.mem_cons_self List.mem_cons_self
  · exact .now _ _ _ _ _ (.here _ [] _)

end BlockScript
