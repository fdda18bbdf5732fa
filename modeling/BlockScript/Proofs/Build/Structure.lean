import BlockScript.Proofs.Build.Finish
import Mathlib.Data.List.Chain

/-! The statements of a file that was built without a report, at every depth. -/
namespace BlockScript

def Node.blocks : Node → List (List Node)
  | function _ _ _ body | block body => [body]
  | ifThen _ body otherwise => body.toList ++ otherwise.toList
  | whileDo _ body | forIn _ _ body => body.toList
  | _ => []

/-- The statements of a file: its roots, and the statements of all blocks in it. -/
inductive StatementOf (file : List Node) : Node → Prop
  | root (node : Node) (member : node ∈ file) : StatementOf file node
  | inside (outer node : Node) (block : List Node) (statement : StatementOf file outer)
      (owned : block ∈ outer.blocks) (member : node ∈ block) : StatementOf file node

theorem StatementOf.lift {file block : List Node} {outer node : Node} (here : outer ∈ file)
    (owned : block ∈ outer.blocks) (statement : StatementOf block node) : StatementOf file node := by
  induction statement with
  | root node member => exact .inside outer node block (.root outer here) owned member
  | inside other node inner _ inside member ih => exact .inside other node inner ih inside member

theorem StatementOf.nonempty {file : List Node} {node : Node} (statement : StatementOf file node) :
    file ≠ [] := by
  induction statement with
  | root node member => exact List.ne_nil_of_mem member
  | inside _ _ _ _ _ _ ih => exact ih

/-- A statement that is complete, and so are all statements in it. In a loose one, blocks may hold
the mark of an `else`. -/
inductive Node.Fit (loose : Prop) : Node → Prop
  | raw (node : Node) (raw : node.Raw) (whole : node.awaitsBody = false) : Fit loose node
  | typed (declared : TypedName) : Fit loose (.typed declared)
  | handler (called : String) : Fit loose (.handler called)
  | function (called : String) (returns : TypeName) (parameters : List TypedName)
      (body : List Node) (inside : ∀ node ∈ body, Fit loose node) :
      Fit loose (.function called returns parameters body)
  | block (statements : List Node) (inside : ∀ node ∈ statements, Fit loose node) :
      Fit loose (.block statements)
  | ifThen (condition : Node) (body : List Node) (otherwise : Option (List Node))
      (raw : condition.Raw) (inside : ∀ node ∈ body, Fit loose node)
      (instead : ∀ other, otherwise = some other → ∀ node ∈ other, Fit loose node) :
      Fit loose (.ifThen condition (some body) otherwise)
  | whileDo (condition : Node) (body : List Node) (raw : condition.Raw)
      (inside : ∀ node ∈ body, Fit loose node) : Fit loose (.whileDo condition (some body))
  | forIn (iterator collection : Node) (body : List Node) (first : iterator.Raw)
      (second : collection.Raw) (inside : ∀ node ∈ body, Fit loose node) :
      Fit loose (.forIn iterator collection (some body))
  | elseMark (allowed : loose) : Fit loose .elseMark

theorem Node.Fit.inside {loose : Prop} (outer node : Node) (block : List Node)
    (fit : outer.Fit loose) (owned : block ∈ outer.blocks) (member : node ∈ block) :
    node.Fit loose := by
  cases fit with
  | raw _ raw => cases raw <;> simp [blocks] at owned
  | function called returns parameters body inside =>
    obtain rfl := List.mem_singleton.mp owned
    exact inside node member
  | block statements inside =>
    obtain rfl := List.mem_singleton.mp owned
    exact inside node member
  | ifThen condition body otherwise raw inside instead =>
    obtain rfl | owned := List.mem_cons.mp owned
    · exact inside node member
    · exact instead block (Option.mem_toList.mp owned) node member
  | whileDo condition body raw inside =>
    obtain rfl := List.mem_singleton.mp owned
    exact inside node member
  | forIn iterator collection body first second inside =>
    obtain rfl := List.mem_singleton.mp owned
    exact inside node member
  | typed | handler | elseMark => simp [blocks] at owned

theorem StatementOf.fit {loose : Prop} (file : List Node)
    (all : ∀ node ∈ file, node.Fit loose) (node : Node) (statement : StatementOf file node) :
    node.Fit loose := by
  induction statement with
  | root node member => exact all node member
  | inside outer node block _ owned member ih => exact ih.inside outer node block owned member

theorem Node.Fit.complete {loose : Prop} (node : Node) (fit : node.Fit loose) :
    node ≠ .doMark ∧ node ≠ .lineMark ∧ node.awaitsBody = false ∧ (node = .elseMark → loose) := by
  cases fit with
  | raw node raw whole =>
    cases raw <;> exact ⟨by simp,by simp,whole,by simp⟩
  | elseMark allowed => exact ⟨by simp,by simp,rfl,fun _ => allowed⟩
  | _ => exact ⟨by simp,by simp,rfl,by simp⟩

/-- Where only a `do` may follow. In a file that is not loose that is so behind an `else` too. -/
def Node.Dangles (loose : Prop) (node : Node) : Prop :=
  node.awaitsBody = true ∨ ¬loose ∧ node.isElseMark = true

def Ready (loose : Prop) (roots : List Node) : Prop :=
  ∀ root below, roots = root :: below → ¬root.Dangles loose

theorem Ready.cons {loose : Prop} (root : Node) (below : List Node)
    (whole : root.awaitsBody = false) (plain : root.isElseMark = false) :
    Ready loose (root :: below) := by
  intro other rest same dangles
  obtain ⟨rfl,_⟩ : root = other ∧ below = rest := by simpa using same
  rcases dangles with dangles | ⟨_,dangles⟩
  · rw [whole] at dangles
    contradiction
  · rw [plain] at dangles
    contradiction

theorem ready_of_calm {loose : Prop} {roots : List Node} (calm : Calm roots)
    (free : ¬loose → ∀ below, roots ≠ .elseMark :: below) : Ready loose roots := by
  intro root below same dangles
  rcases dangles with dangles | ⟨strict,marked⟩
  · rw [calm root below same] at dangles
    contradiction
  · cases root <;> first | contradiction | exact free strict below same

structure Tidy (loose : Prop) (roots : List Node) : Prop where
  fit : ∀ node ∈ roots, node.isDoMark = true ∨ node.isElseMark = true ∨ node.Raw ∨ node.Fit loose
  chain : roots.IsChain fun upper lower => lower.Dangles loose → upper.isDoMark = true

namespace Tidy
variable {loose : Prop}

theorem nil : Tidy loose [] := ⟨by simp,.nil⟩

theorem cons {root : Node} {roots : List Node} (tidy : Tidy loose roots)
    (fit : root.isDoMark = true ∨ root.isElseMark = true ∨ root.Raw ∨ root.Fit loose)
    (follows : root.isDoMark = true ∨ Ready loose roots) : Tidy loose (root :: roots) := by
  refine ⟨List.forall_mem_cons.mpr ⟨fit,tidy.fit⟩,?_⟩
  cases roots with
  | nil => exact .singleton root
  | cons lower below =>
    refine .cons_cons ?_ tidy.chain
    intro dangles
    rcases follows with marked | ready
    · exact marked
    · exact (ready lower below rfl dangles).elim

theorem tail {root : Node} {roots : List Node} (tidy : Tidy loose (root :: roots)) :
    Tidy loose roots :=
  ⟨fun node member => tidy.fit node (List.mem_cons_of_mem root member),tidy.chain.of_cons⟩

theorem ready {root : Node} {roots : List Node} (tidy : Tidy loose (root :: roots))
    (plain : root.isDoMark = false) : Ready loose roots := by
  intro lower below same dangles
  subst same
  have marked := (List.isChain_cons_cons.mp tidy.chain).1 dangles
  rw [plain] at marked
  contradiction

theorem above (inner outer : List Node) (tidy : Tidy loose (inner ++ outer))
    (apart : ∀ node ∈ inner, node.isDoMark = false) (ready : Ready loose (inner ++ outer)) :
    (∀ node ∈ inner, node.Fit loose) ∧ Tidy loose outer := by
  induction inner with
  | nil => exact ⟨by simp,tidy⟩
  | cons root inner ih =>
    obtain ⟨here,others⟩ := List.forall_mem_cons.mp apart
    obtain ⟨fits,rest⟩ := ih tidy.tail others (tidy.ready here)
    refine ⟨List.forall_mem_cons.mpr ⟨?_,fits⟩,rest⟩
    have settled := ready root _ rfl
    rcases tidy.fit root List.mem_cons_self with marked | marked | raw | fit
    · rw [here] at marked
      contradiction
    · cases root with
      | elseMark =>
        refine .elseMark ?_
        by_contra strict
        exact settled (.inr ⟨strict,rfl⟩)
      | _ => contradiction
    · refine .raw root raw ?_
      cases awaits : root.awaitsBody with
      | true => exact (settled (.inl awaits)).elim
      | false => rfl
    · exact fit

theorem attached {body before after : List Node} (tidy : Tidy loose before)
    (inside : ∀ node ∈ body, node.Fit loose) (attached : Attached body before after) :
    Tidy loose after ∧ Ready loose after := by
  have put {root : Node} {below : List Node} (fit : root.Fit loose) (rest : Tidy loose below)
      (ready : Ready loose below) (plain : root.isElseMark = false) :
      Tidy loose (root :: below) ∧ Ready loose (root :: below) :=
    ⟨rest.cons (.inr (.inr (.inr fit))) (.inr ready),.cons root below (fit.complete root).2.2.1 plain⟩
  cases attached with
  | otherwise condition first below =>
    have here := tidy.tail
    rcases here.fit _ List.mem_cons_self with marked | marked | raw | fit
    · contradiction
    · contradiction
    · cases raw
    · cases fit with
      | raw _ raw => cases raw
      | ifThen _ _ _ raw earlier _ =>
        refine put (.ifThen condition first (some body) raw earlier ?_) here.tail (here.ready rfl) rfl
        intro other same
        obtain rfl := Option.some.inj same
        exact inside
  | function called returns parameters below =>
    refine put (.function called returns parameters _ ?_) tidy.tail (tidy.ready rfl) rfl
    intro node member
    obtain rfl := List.mem_singleton.mp member
    exact .block body inside
  | ifThen condition otherwise below =>
    rcases tidy.fit _ List.mem_cons_self with marked | marked | raw | fit
    · contradiction
    · contradiction
    · cases raw with
      | ifThen _ raw =>
        exact put (.ifThen condition body none raw inside (by simp)) tidy.tail (tidy.ready rfl) rfl
    · have whole := (fit.complete _).2.2.1
      contradiction
  | whileDo condition below =>
    rcases tidy.fit _ List.mem_cons_self with marked | marked | raw | fit
    · contradiction
    · contradiction
    · cases raw with
      | whileDo _ raw => exact put (.whileDo condition body raw inside) tidy.tail (tidy.ready rfl) rfl
    · have whole := (fit.complete _).2.2.1
      contradiction
  | forIn iterator collection below =>
    rcases tidy.fit _ List.mem_cons_self with marked | marked | raw | fit
    · contradiction
    · contradiction
    · cases raw with
      | forIn _ _ first second =>
        exact put (.forIn iterator collection body first second inside) tidy.tail (tidy.ready rfl) rfl
    · have whole := (fit.complete _).2.2.1
      contradiction
  | block roots settled =>
    refine put (.block body inside) tidy ?_ rfl
    intro root below same dangles
    have calm := settled root below same
    rcases dangles with dangles | ⟨_,dangles⟩
    · rw [root.awaitsBody_of_not_wantsBlock calm] at dangles
      contradiction
    · rw [root.isElseMark_of_not_wantsBlock calm] at dangles
      contradiction

theorem pushed {before after : List Node} (tidy : Tidy loose before)
    (free : ¬loose → ∀ below, before ≠ .elseMark :: below)
    (pushed : Relation.ReflTransGen Pushed before after) :
    Tidy loose after ∧ (¬loose → ∀ below, after ≠ .elseMark :: below) := by
  induction pushed with
  | refl => exact ⟨tidy,free⟩
  | tail _ push ih =>
    obtain ⟨tidy,free⟩ := ih
    cases push with
    | push node roots raw calm =>
      refine ⟨tidy.cons (.inr (.inr (.inl raw))) (.inr (ready_of_calm calm free)),?_⟩
      rintro _ below same
      obtain rfl := (List.cons.inj same).1
      cases raw

end Tidy

/-- Whether a `do` comes next, with nothing before it but what makes no statement. -/
def opensBlock : List Token → Bool
  | [] => false
  | token :: rest =>
    match token.kind with
    | .doWord => true
    | .semicolon | .fileEnd | .opening | .closing => opensBlock rest
    | _ => false

def elsesOpen : List Token → Bool
  | [] => true
  | token :: rest => (token.kind != .elseWord || opensBlock rest) && elsesOpen rest

/-- What holds of a builder between two tokens. In a file that is not loose an `else` that comes
last has its block among the tokens that are left. -/
structure Structured (loose : Prop) (rest : List Token) (builder : Builder) : Prop where
  tidy : Tidy loose builder.assembly.roots
  elses : ¬loose → elsesOpen rest = true
  waits : ¬loose → ∀ below, builder.assembly.roots = .elseMark :: below →
    builder.reader = .idle ∧ builder.converter.Blank ∧ opensBlock rest = true

theorem elsesOpen_tail (token : Token) (rest : List Token)
    (all : elsesOpen (token :: rest) = true) : elsesOpen rest = true := by
  simp only [elsesOpen,Bool.and_eq_true] at all
  exact all.2

theorem Closes.structured {loose : Prop} {token : Token} {rest : List Token}
    {middle after : List Node} {openBlocks still : List Token}
    (closes : Closes token middle openBlocks after still) (tidy : Tidy loose middle)
    (elses : ¬loose → elsesOpen (token :: rest) = true)
    (opens : ¬loose → ∀ below, middle = .elseMark :: below → opensBlock (token :: rest) = true) :
    Structured loose rest (.clean .idle .empty after still) := by
  have others (strict : ¬loose) := elsesOpen_tail token rest (elses strict)
  have free (strict : ¬loose) (stays : opensBlock (token :: rest) = false) (below : List Node) :
      middle ≠ .elseMark :: below := by
    intro same
    rw [opens strict below same] at stays
    contradiction
  cases closes with
  | plain _ _ kind =>
    refine ⟨tidy,others,?_⟩
    intro strict below same
    refine ⟨rfl,Postfix.Converter.blank_empty,?_⟩
    have next := opens strict below same
    rcases kind with kind | kind <;> simpa [opensBlock,kind] using next
  | opened _ _ kind =>
    refine ⟨tidy.cons (.inl rfl) (.inl rfl),others,?_⟩
    intro _ below same
    have marked := (List.cons.inj same).1
    contradiction
  | otherwise _ _ kind calm =>
    have ready : Ready loose middle := ready_of_calm calm fun strict =>
      free strict (by simp [opensBlock,kind])
    refine ⟨tidy.cons (.inr (.inl rfl)) (.inr ready),others,?_⟩
    intro strict _ _
    have follows := elses strict
    simp only [elsesOpen,kind,bne_self_eq_false,Bool.false_or,Bool.and_eq_true] at follows
    exact ⟨rfl,Postfix.Converter.blank_empty,follows.1⟩
  | closed inner outer after _ kind apart calm attached =>
    have ready : Ready loose (inner ++ .doMark :: outer) := ready_of_calm calm fun strict =>
      free strict (by simp [opensBlock,kind])
    obtain ⟨fits,outside⟩ := tidy.above inner (.doMark :: outer) apart ready
    obtain ⟨whole,ready⟩ := outside.tail.attached
      (fun node member => fits node (List.mem_reverse.mp member)) attached
    refine ⟨whole,others,?_⟩
    intro strict below same
    exact (ready .elseMark below same (.inr ⟨strict,rfl⟩)).elim

/-- Every move keeps the structure that the statements read so far have. -/
theorem Moves.structured {loose : Prop} (token : Token) (rest : List Token)
    (builder next : Builder) (moves : Moves token builder next)
    (before : Structured loose (token :: rest) builder) : Structured loose rest next := by
  obtain ⟨tidy,elses,waits⟩ := before
  have others (strict : ¬loose) := elsesOpen_tail token rest (elses strict)
  cases moves with
  | consumed reader next converter roots openBlocks active within begins =>
    refine ⟨tidy,others,?_⟩
    intro strict below same
    obtain ⟨idle,_,opens⟩ := waits strict below same
    -- No declaration begins between an `else` and its `do`.
    simp [opensBlock,begins idle] at opens
  | declared reader converter declaration roots openBlocks active heading calm within =>
    have free (strict : ¬loose) (below : List Node) : roots ≠ .elseMark :: below :=
      fun same => active (waits strict below same).1
    have fit : declaration.Fit loose := by
      cases heading with
      | typed declared => exact .typed declared
      | handler called => exact .handler called
      | function called returns parameters => exact .function called returns parameters [] (by simp)
    refine ⟨tidy.cons (.inr (.inr (.inr fit))) (.inr (ready_of_calm calm free)),others,?_⟩
    intro _ below same
    obtain rfl := (List.cons.inj same).1
    contradiction
  | kept converter next roots openBlocks plain within blank =>
    refine ⟨tidy,others,?_⟩
    intro strict below same
    obtain ⟨_,empty,opens⟩ := waits strict below same
    have passed : (token.kind = .opening ∨ token.kind = .closing) ∧ opensBlock rest = true := by
      cases kind : token.kind <;> simp_all [opensBlock,Postfix.Converter.tail?]
    exact ⟨rfl,blank.mpr ⟨empty,passed.1⟩,passed.2⟩
  | ended converter roots nodes after openBlocks still blank pushed closes =>
    have middle : Tidy loose (nodes ++ roots) ∧ (¬loose → ∀ below,
        nodes ++ roots = .elseMark :: below → opensBlock (token :: rest) = true) := by
      by_cases nothing : nodes = []
      · subst nothing
        exact ⟨tidy,fun strict below same => (waits strict below same).2.2⟩
      · -- What comes out was half read, so no `else` was waiting for its `do`.
        have free (strict : ¬loose) (below : List Node) : roots ≠ .elseMark :: below :=
          fun same => nothing (blank.mpr (waits strict below same).2.1)
        obtain ⟨tidy,free⟩ := tidy.pushed free pushed
        exact ⟨tidy,fun strict below same => (free strict below same).elim⟩
    exact closes.structured middle.1 elses middle.2

/-- Every statement of a file that was built without a report is complete. -/
theorem build_fit (loose : Prop) (tokens : List Token) (fine : (build tokens).reports = [])
    (elses : ¬loose → elsesOpen tokens = true) :
    ∀ node ∈ (build tokens).roots, node.Fit loose := by
  obtain ⟨reader,converter,roots,openBlocks,_,⟨tidy,_,_⟩,same,calm,apart,plain⟩ :=
    build_ok (Structured loose) (fun token rest builder next moves before =>
      moves.structured token rest builder next before) tokens
      ⟨.nil,elses,fun _ below same => by contradiction⟩ fine
  have ready : Ready loose roots := by
    refine ready_of_calm calm ?_
    rintro _ below rfl
    have marked := plain .elseMark List.mem_cons_self
    contradiction
  rw [← List.append_nil roots] at tidy ready
  intro node member
  rw [same] at member
  exact (tidy.above roots [] apart ready).1 node (List.mem_reverse.mp member)

end BlockScript
