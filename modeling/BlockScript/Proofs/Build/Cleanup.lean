import BlockScript.Proofs.Build.Recovery
import BlockScript.Proofs.Build.Structure

/-! Files assembled from tokens in any order. A header without a block is a root only as long as it
is the last one or has a `do` behind it, so no other place can hold one. -/
namespace BlockScript

def Node.Completable (node : Node) : Prop :=
  ∃ (reader next : Declaration.Reader) (token : Token),
    reader.feed token = (.ok (.complete node),next)

theorem Node.Completable.heading {node : Node} (completable : node.Completable) :
    node.Heading := by
  obtain ⟨reader,next,token,fed⟩ := completable
  have told := reader.feed_told token
  rw [fed] at told
  exact told.1

inductive Assembly.Step
  | token (token : Token)
  | declaration (node : Node) (completable : node.Completable) (token : Token)

def Assembly.perform (assembly : Assembly) : Assembly.Step → Assembly
  | .token token => assembly.feed token
  | .declaration node _ token => assembly.declare node token

/-- In the blocks of the node, at every depth, there is no `do` and no header without a block. -/
inductive Node.Clear : Node → Prop
  | intro (node : Node)
      (whole : ∀ block ∈ node.blocks, ∀ inner ∈ block,
        inner.isDoMark = false ∧ inner.awaitsBody = false)
      (inside : ∀ block ∈ node.blocks, ∀ inner ∈ block, inner.Clear) : Clear node

/-- Roots hold the most recent one first, so the upper node stands behind the lower one. -/
def Followed (upper lower : Node) : Prop := lower.awaitsBody = true → upper.isDoMark = true

structure Swept (block : List Node) : Prop where
  whole : ∀ node ∈ block, node.isDoMark = false ∧ node.awaitsBody = false
  clear : ∀ node ∈ block, node.Clear

namespace Node

theorem Clear.of_bare (node : Node) (bare : node.blocks = []) : node.Clear := by
  constructor <;> simp [bare]

theorem Clear.of_block {block : List Node} (node : Node) (swept : Swept block)
    (owned : node.blocks = [block]) : node.Clear := by
  constructor
  · rw [owned]
    exact List.forall_mem_singleton.mpr swept.whole
  · rw [owned]
    exact List.forall_mem_singleton.mpr swept.clear

/-- A node may be given one more block. -/
theorem Clear.add {block : List Node} {node : Node} (next : Node) (clear : node.Clear)
    (swept : Swept block) (owned : ∀ other ∈ next.blocks, other = block ∨ other ∈ node.blocks) :
    next.Clear := by
  obtain ⟨_,whole,inside⟩ := clear
  constructor
  · intro other member
    obtain rfl | member := owned other member
    · exact swept.whole
    · exact whole other member
  · intro other member
    obtain rfl | member := owned other member
    · exact swept.clear
    · exact inside other member

theorem Clear.statement {file : List Node} (clear : ∀ root ∈ file, root.Clear) (node : Node)
    (statement : StatementOf file node) : node.Clear := by
  induction statement with
  | root node member => exact clear node member
  | inside outer node block _ owned member ih =>
    obtain ⟨_,_,inside⟩ := ih
    exact inside block owned node member

theorem Heading.clear {node : Node} (heading : node.Heading) : node.Clear := by
  cases heading <;> constructor <;> simp [blocks]

end Node

/-- A new root has no business with the ones below the root that it replaces. -/
theorem followed_replace {upper next : Node} {below : List Node}
    (chain : (upper :: below).IsChain Followed) (plain : upper.isDoMark = false) :
    (next :: below).IsChain Followed := by
  cases below with
  | nil => exact .singleton next
  | cons lower rest =>
    cases chain with
    | cons_cons followed chain =>
      apply List.IsChain.cons_cons _ chain
      intro awaits
      rw [followed awaits] at plain
      contradiction

theorem followed_cons {roots : List Node} (next : Node) (chain : roots.IsChain Followed)
    (fits : next.isDoMark = true ∨ Calm roots) : (next :: roots).IsChain Followed := by
  cases roots with
  | nil => exact .singleton next
  | cons root below =>
    apply List.IsChain.cons_cons _ chain
    intro awaits
    obtain marked | calm := fits
    · exact marked
    · rw [calm root below rfl] at awaits
      contradiction

theorem calm_of_followed {upper : Node} {below : List Node}
    (chain : (upper :: below).IsChain Followed) (plain : upper.isDoMark = false) : Calm below := by
  rintro lower rest rfl
  cases chain with
  | cons_cons followed =>
    cases awaits : lower.awaitsBody with
    | false => rfl
    | true =>
      rw [followed awaits] at plain
      contradiction

/-- Where there is no `do` only the last root could be a header without a block. -/
theorem whole_of_followed {roots : List Node} (chain : roots.IsChain Followed)
    (apart : ∀ node ∈ roots, node.isDoMark = false) (calm : Calm roots) :
    ∀ node ∈ roots, node.awaitsBody = false := by
  induction roots with
  | nil => exact List.forall_mem_nil _
  | cons root below ih =>
    obtain ⟨plain,others⟩ := List.forall_mem_cons.mp apart
    have rest := ih chain.tail others (calm_of_followed chain plain)
    exact List.forall_mem_cons.mpr ⟨calm root below rfl,rest⟩

theorem Swept.block {block : List Node} (swept : Swept block) : Swept [.block block] where
  whole := List.forall_mem_singleton.mpr ⟨rfl,rfl⟩
  clear := List.forall_mem_singleton.mpr (.of_block _ swept rfl)

theorem Attached.kept {body before after : List Node} (attached : Attached body before after)
    (swept : Swept body) (chain : before.IsChain Followed) (clear : ∀ root ∈ before, root.Clear) :
    after.IsChain Followed ∧ ∀ root ∈ after, root.Clear := by
  cases attached with
  | otherwise condition first below =>
    obtain ⟨_,clear⟩ := List.forall_mem_cons.mp clear
    obtain ⟨here,others⟩ := List.forall_mem_cons.mp clear
    refine ⟨followed_replace chain.tail rfl,List.forall_mem_cons.mpr ⟨?_,others⟩⟩
    apply here.add _ swept
    simp [Node.blocks]
  | function called returns parameters below =>
    obtain ⟨_,others⟩ := List.forall_mem_cons.mp clear
    have made := Node.Clear.of_block (.function called returns parameters [.block body])
      swept.block rfl
    exact ⟨followed_replace chain rfl,List.forall_mem_cons.mpr ⟨made,others⟩⟩
  | ifThen condition otherwise below =>
    obtain ⟨here,others⟩ := List.forall_mem_cons.mp clear
    refine ⟨followed_replace chain rfl,List.forall_mem_cons.mpr ⟨?_,others⟩⟩
    apply here.add _ swept
    simp [Node.blocks]
  | whileDo condition below =>
    obtain ⟨_,others⟩ := List.forall_mem_cons.mp clear
    have made := Node.Clear.of_block (.whileDo condition (some body)) swept rfl
    exact ⟨followed_replace chain rfl,List.forall_mem_cons.mpr ⟨made,others⟩⟩
  | forIn iterator collection below =>
    obtain ⟨_,others⟩ := List.forall_mem_cons.mp clear
    have made := Node.Clear.of_block (.forIn iterator collection (some body)) swept rfl
    exact ⟨followed_replace chain rfl,List.forall_mem_cons.mpr ⟨made,others⟩⟩
  | block _ settled =>
    have calm : Calm before := fun root below same =>
      root.awaitsBody_of_not_wantsBlock (settled root below same)
    have made := Node.Clear.of_block (.block body) swept rfl
    exact ⟨followed_cons _ chain (.inr calm),List.forall_mem_cons.mpr ⟨made,clear⟩⟩

namespace Assembly

theorem attach_failed (assembly next : Assembly) (body : List Node) (error : BuildError)
    (failed : assembly.attach body = (next,some error)) :
    ∃ below, assembly.roots = .elseMark :: below ∧ next = { assembly with roots := below } := by
  unfold attach at failed
  split at failed
  next => simp at failed
  next below _ same =>
    obtain ⟨rfl,_⟩ := Prod.mk.inj failed
    exact ⟨below,same,rfl⟩
  all_goals simp at failed

/-- What every assembly upholds, whatever it is fed. -/
structure Kept (assembly : Assembly) : Prop where
  chain : assembly.roots.IsChain Followed
  clear : ∀ root ∈ assembly.roots, root.Clear
  bare : ∀ operand ∈ assembly.operands, operand.blocks = []

theorem kept_empty : empty.Kept := ⟨.nil,List.forall_mem_nil _,List.forall_mem_nil _⟩

namespace Kept

variable {assembly : Assembly} (kept : assembly.Kept)
include kept

theorem pushOperand (node : Node) (bare : node.blocks = []) : (assembly.pushOperand node).Kept :=
  ⟨kept.chain,kept.clear,List.forall_mem_cons.mpr ⟨bare,kept.bare⟩⟩

theorem takeOne (token : Token) (make : Node → Node)
    (bare : ∀ operand, (make operand).blocks = []) : (assembly.takeOne token make).1.Kept := by
  have operands := kept.bare
  unfold Assembly.takeOne
  split
  next operand rest same =>
    rw [same] at operands
    split
    · exact kept
    · exact ⟨kept.chain,kept.clear,
        List.forall_mem_cons.mpr ⟨bare operand,(List.forall_mem_cons.mp operands).2⟩⟩
  next => exact kept

theorem takeTwo (token : Token) (make : Node → Node → Node)
    (bare : ∀ left right, (make left right).blocks = []) :
    (assembly.takeTwo token make).1.Kept := by
  have operands := kept.bare
  unfold Assembly.takeTwo
  split
  next right left rest same =>
    rw [same] at operands
    split
    · exact kept
    · have others := (List.forall_mem_cons.mp (List.forall_mem_cons.mp operands).2).2
      exact ⟨kept.chain,kept.clear,List.forall_mem_cons.mpr ⟨bare left right,others⟩⟩
  next => exact kept

theorem dropHeader (token : Token) :
    (assembly.dropHeader token).Kept ∧ Calm (assembly.dropHeader token).roots := by
  have chain := kept.chain
  have clear := kept.clear
  unfold Assembly.dropHeader
  split
  next root below same =>
    rw [same] at chain clear
    split
    next awaits =>
      have plain : root.isDoMark = false := by cases root <;> first | rfl | contradiction
      exact ⟨⟨chain.tail,(List.forall_mem_cons.mp clear).2,kept.bare⟩,calm_of_followed chain plain⟩
    next whole =>
      refine ⟨kept,?_⟩
      rw [same]
      exact Calm.cons root below (by simpa using whole)
  next same =>
    refine ⟨kept,?_⟩
    rw [same]
    exact Calm.nil

theorem declare (declaration : Node) (heading : declaration.Heading) (token : Token) :
    (assembly.declare declaration token).Kept := by
  obtain ⟨dropped,calm⟩ := kept.dropHeader token
  exact ⟨followed_cons declaration dropped.chain (.inr calm),
    List.forall_mem_cons.mpr ⟨heading.clear,dropped.clear⟩,dropped.bare⟩

theorem promote (token : Token) (node : Node) (bare : node.blocks = []) :
    (promote token assembly node).Kept := by
  obtain ⟨dropped,calm⟩ := kept.dropHeader token
  have clear := Node.Clear.of_bare node bare
  unfold Assembly.promote
  split
  next marked =>
    exact ⟨followed_cons node kept.chain (.inl marked),
      List.forall_mem_cons.mpr ⟨clear,kept.clear⟩,kept.bare⟩
  next =>
    exact ⟨followed_cons node dropped.chain (.inr calm),
      List.forall_mem_cons.mpr ⟨clear,dropped.clear⟩,dropped.bare⟩

omit kept in
theorem promoted (token : Token) (nodes : List Node) (bare : ∀ node ∈ nodes, node.blocks = [])
    (assembly : Assembly) (kept : assembly.Kept) :
    (nodes.foldl (Assembly.promote token) assembly).Kept := by
  induction nodes generalizing assembly with
  | nil => exact kept
  | cons node nodes ih =>
    obtain ⟨here,others⟩ := List.forall_mem_cons.mp bare
    exact ih others _ (kept.promote token node here)

theorem flush (token : Token) : (assembly.flush token).Kept := by
  have promoted := promoted token assembly.operands kept.bare assembly kept
  exact ⟨promoted.chain,promoted.clear,List.forall_mem_nil _⟩

theorem attach (body : List Node) (swept : Swept body) : (assembly.attach body).1.Kept := by
  cases ended : assembly.attach body with | mk next failed =>
  cases failed with
  | none =>
    obtain ⟨roots,rfl,attached⟩ := attach_ok assembly next body ended
    obtain ⟨chain,clear⟩ := attached.kept swept kept.chain kept.clear
    exact ⟨chain,clear,kept.bare⟩
  | some error =>
    obtain ⟨below,same,rfl⟩ := attach_failed assembly next body error ended
    have chain := kept.chain
    have clear := kept.clear
    rw [same] at chain clear
    exact ⟨chain.tail,(List.forall_mem_cons.mp clear).2,kept.bare⟩

theorem closeBlock (token : Token) : (assembly.closeBlock token).1.Kept := by
  obtain ⟨dropped,calm⟩ := kept.dropHeader token
  unfold Assembly.closeBlock
  generalize assembly.dropHeader token = next at dropped calm
  dsimp only
  split
  next => exact dropped
  next inner mark outer cut =>
    obtain ⟨same,apart⟩ := cut_doMark next.roots inner outer mark cut
    have chain := dropped.chain
    have clear := dropped.clear
    rw [same] at chain clear calm
    obtain ⟨above,below,_⟩ := List.isChain_append.mp chain
    have first : Calm inner := by
      rintro root rest rfl
      exact calm root _ rfl
    have whole := whole_of_followed above apart first
    have swept : Swept inner.reverse := by
      constructor
      · intro node member
        have member := List.mem_reverse.mp member
        exact ⟨apart node member,whole node member⟩
      · intro node member
        exact clear node (List.mem_append_left _ (List.mem_reverse.mp member))
    apply attach _ _ swept
    constructor
    · exact below.tail
    · intro root member
      exact clear root (List.mem_append_right inner (List.mem_cons_of_mem _ member))
    · exact dropped.bare

theorem apply (token : Token) : (assembly.apply token).1.Kept := by
  cases kind : token.kind with
  | integer =>
    simp only [Assembly.apply,kind]
    split
    · exact kept.pushOperand _ rfl
    · exact kept
  | real =>
    simp only [Assembly.apply,kind]
    split
    · exact kept.pushOperand _ rfl
    · exact kept
  | additive | multiplicative | comparison =>
    simp only [Assembly.apply,kind]
    split
    · exact kept.takeTwo token _ fun _ _ => rfl
    · exact kept
  | andWord | orWord | assign | dot | comma | forWord =>
    simp only [Assembly.apply,kind]
    exact kept.takeTwo token _ fun _ _ => rfl
  | call | putWord | retWord | ifWord | whileWord =>
    simp only [Assembly.apply,kind]
    exact kept.takeOne token _ fun _ => rfl
  | name | string | callNoArgs | elseWord =>
    simp only [Assembly.apply,kind]
    exact kept.pushOperand _ rfl
  | doWord =>
    simp only [Assembly.apply,kind]
    obtain ⟨chain,clear,bare⟩ := kept.pushOperand .doMark rfl
    exact ⟨chain,clear,bare⟩
  | doneWord =>
    simp only [Assembly.apply,kind]
    exact kept.closeBlock token
  | statementEnd =>
    simp only [Assembly.apply,kind]
    exact kept.flush token
  | specifier | inWord | semicolon | opening | closing | fileEnd =>
    simp only [Assembly.apply,kind]
    exact kept

omit kept in
theorem recover (token : Token) (outcome : Outcome) (kept : outcome.1.Kept) :
    (recover token outcome).Kept := by
  obtain ⟨assembly,failed⟩ := outcome
  cases failed with
  | none => exact kept
  | some error => exact ⟨kept.chain,kept.clear,List.forall_mem_nil _⟩

theorem feed (token : Token) : (assembly.feed token).Kept := by
  have resumed : { assembly with operands := [], skipping := false }.Kept :=
    ⟨kept.chain,kept.clear,List.forall_mem_nil _⟩
  unfold Assembly.feed
  split
  · exact recover token _ (kept.apply token)
  · split
    · exact kept
    · dsimp only
      split
      · exact resumed
      · exact recover token _ (resumed.apply token)

theorem perform (step : Step) : (assembly.perform step).Kept := by
  cases step with
  | token token => exact kept.feed token
  | declaration node completable token => exact kept.declare node completable.heading token

end Kept

theorem kept_performed (steps : List Step) : (steps.foldl perform empty).Kept := by
  induction steps using List.reverseRecOn with
  | nil => exact kept_empty
  | append_singleton steps step ih =>
    rw [List.foldl_concat]
    exact ih.perform step

/-- The roots are cut off at the first `do`. What is kept ends before it, and without the header or
the `else` that the `do` belongs to. -/
theorem beforeOpenBlock?_cut {roots kept : List Node}
    (opened : beforeOpenBlock? roots.reverse = some kept) :
    ∃ above below rest, roots = above ++ .doMark :: below ∧ kept = rest.reverse ∧
      (∀ node ∈ below, node.isDoMark = false) ∧
        ((rest = below ∧ Calm below) ∨ ∃ root, below = root :: rest) := by
  unfold beforeOpenBlock? at opened
  split at opened
  next => contradiction
  next before mark after cut =>
    obtain ⟨same,apart⟩ := cut_doMark roots.reverse before after mark cut
    have split : roots = after.reverse ++ .doMark :: before.reverse := by
      rw [← List.reverse_reverse roots,same]
      simp
    obtain ⟨below,rfl⟩ : ∃ below, before = List.reverse below := ⟨_,(List.reverse_reverse _).symm⟩
    rw [List.reverse_reverse] at split
    have plain : ∀ node ∈ below, node.isDoMark = false := by simpa using apart
    cases below with
    | nil =>
      obtain rfl : [] = kept := by simpa using opened
      exact ⟨_,[],[],split,rfl,plain,.inl ⟨rfl,.nil⟩⟩
    | cons root rest =>
      rw [List.getLast?_reverse,List.head?_cons] at opened
      dsimp only at opened
      split at opened
      next =>
        obtain rfl : rest.reverse = kept := by simpa using opened
        exact ⟨_,root :: rest,rest,split,rfl,plain,.inr ⟨root,rfl⟩⟩
      next stays =>
        obtain rfl : (root :: rest).reverse = kept := Option.some.inj opened
        have calm : root.awaitsBody = false := by
          simp only [Bool.or_eq_true,not_or,Bool.not_eq_true] at stays
          exact stays.1
        exact ⟨_,root :: rest,root :: rest,split,rfl,plain,.inl ⟨rfl,.cons root rest calm⟩⟩

theorem whole_of_beforeOpenBlock {roots kept : List Node} (chain : roots.IsChain Followed)
    (opened : beforeOpenBlock? roots.reverse = some kept) :
    ∀ node ∈ kept, node ∈ roots ∧ node.isDoMark = false ∧ node.awaitsBody = false := by
  obtain ⟨above,below,rest,rfl,rfl,apart,shape⟩ := beforeOpenBlock?_cut opened
  have chain : below.IsChain Followed := (List.isChain_append.mp chain).2.1.tail
  have within (node : Node) (member : node ∈ below) : node ∈ above ++ .doMark :: below :=
    List.mem_append_right above (List.mem_cons_of_mem _ member)
  intro node member
  have member := List.mem_reverse.mp member
  obtain ⟨rfl,calm⟩ | ⟨root,rfl⟩ := shape
  · exact ⟨within node member,apart node member,whole_of_followed chain apart calm node member⟩
  · obtain ⟨plain,others⟩ := List.forall_mem_cons.mp apart
    have whole := whole_of_followed chain.tail others (calm_of_followed chain plain)
    exact ⟨within node (List.mem_cons_of_mem root member),others node member,whole node member⟩

theorem roots_unclosed (tokens : List Token) (assembly : Assembly) :
    (tokens.foldl (fun assembly token => assembly.report .unclosedDo token) assembly).roots =
      assembly.roots := by
  induction tokens generalizing assembly with
  | nil => rfl
  | cons token tokens ih => exact ih _

theorem Kept.closeOpenBlocks {assembly : Assembly} (kept : assembly.Kept)
    (calm : Calm assembly.roots) :
    ∀ root ∈ assembly.closeOpenBlocks.roots, root.Clear ∧ root.isDoMark = false ∧
      root.awaitsBody = false := by
  unfold Assembly.closeOpenBlocks
  split
  next opened =>
    have apart : ∀ node ∈ assembly.roots, node.isDoMark = false := by
      simpa using (beforeOpenBlock?_eq_none_iff assembly.roots.reverse).mp opened
    have whole := whole_of_followed kept.chain apart calm
    exact fun root member => ⟨kept.clear root member,apart root member,whole root member⟩
  next before opened =>
    rw [roots_unclosed]
    intro root member
    obtain ⟨here,apart,whole⟩ :=
      whole_of_beforeOpenBlock kept.chain opened root (List.mem_reverse.mp member)
    exact ⟨kept.clear root here,apart,whole⟩

theorem mem_dropElseMarks (assembly : Assembly) (token : Token) (root : Node) :
    root ∈ (assembly.dropElseMarks token).roots ↔
      root ∈ assembly.roots ∧ root.isElseMark = false := by
  unfold dropElseMarks
  split
  next => simp [report]
  next unmarked =>
    have plain : ∀ other ∈ assembly.roots, other.isElseMark = false := by simpa using unmarked
    exact ⟨fun member => ⟨member,plain root member⟩,And.left⟩

/-- What every assembly upholds is enough for its end to leave nothing half built. -/
theorem Kept.finish {assembly : Assembly} (kept : assembly.Kept) (last : Token) :
    ∀ root ∈ (assembly.finish last).roots, root.Clear ∧ root.isDoMark = false ∧
      root.isElseMark = false ∧ root.awaitsBody = false := by
  intro root member
  obtain ⟨dropped,calm⟩ := (kept.flush last).dropHeader last
  have member := (mem_dropElseMarks _ last root).mp (List.mem_reverse.mp member)
  obtain ⟨clear,apart,whole⟩ := dropped.closeOpenBlocks calm root member.1
  exact ⟨clear,apart,member.2,whole⟩

/-- Whatever an assembly was asked to do before, its end leaves no mark and no header without a
block among the roots, and in blocks there is neither a `do` nor a header without a block. -/
theorem finish_cleans (steps : List Step) (last : Token) :
    let built := (steps.foldl perform empty).finish last
    (∀ root ∈ built.roots, root ≠ .doMark ∧ root ≠ .elseMark ∧ root.awaitsBody = false) ∧
    ∀ statement, StatementOf built.roots statement → ∀ block ∈ statement.blocks, ∀ node ∈ block,
      node ≠ .doMark ∧ node.awaitsBody = false := by
  intro built
  have finished := (kept_performed steps).finish last
  constructor
  · intro root member
    obtain ⟨_,apart,plain,whole⟩ := finished root member
    refine ⟨?_,?_,whole⟩
    · rintro rfl
      contradiction
    · rintro rfl
      contradiction
  · intro statement inside block owned node member
    have clear : ∀ root ∈ built.roots, root.Clear := fun root member => (finished root member).1
    obtain ⟨_,whole,_⟩ := Node.Clear.statement clear statement inside
    obtain ⟨apart,whole⟩ := whole block owned node member
    refine ⟨?_,whole⟩
    rintro rfl
    contradiction

/-- The header of `int f()`, and then `x if do`, `y while`, `z put`, `else`, `done`, `do`. Each part
is a statement. -/
def scrambled : List Step :=
  .declaration (.function "f" .int [] [])
      ⟨.parameters ⟨"f",.int,[]⟩ .firstParameter,.idle,⟨.closing,")",⟨.start,.start⟩⟩,rfl⟩
      ⟨.closing,")",⟨.start,.start⟩⟩ ::
    ([⟨.name,"x",⟨.start,.start⟩⟩,⟨.ifWord,"if",⟨.start,.start⟩⟩,⟨.doWord,"do",⟨.start,.start⟩⟩,
      ⟨.statementEnd,"",⟨.start,.start⟩⟩,⟨.name,"y",⟨.start,.start⟩⟩,
      ⟨.whileWord,"while",⟨.start,.start⟩⟩,⟨.statementEnd,"",⟨.start,.start⟩⟩,
      ⟨.name,"z",⟨.start,.start⟩⟩,⟨.putWord,"put",⟨.start,.start⟩⟩,
      ⟨.statementEnd,"",⟨.start,.start⟩⟩,⟨.elseWord,"else",⟨.start,.start⟩⟩,
      ⟨.statementEnd,"",⟨.start,.start⟩⟩,⟨.doneWord,"done",⟨.start,.start⟩⟩,
      ⟨.doWord,"do",⟨.start,.start⟩⟩,⟨.statementEnd,"",⟨.start,.start⟩⟩] : List Token).map .token

/-- Both headers are gone and so is the last `do`. The `else` ended up in the block. -/
theorem scrambled_cleaned :
    ((scrambled.foldl perform empty).finish (.fileEnd .start)).roots =
      [.function "f" .int [] [.block [.put (.name "z"),.elseMark]]] ∧
    (∀ root ∈ ((scrambled.foldl perform empty).finish (.fileEnd .start)).roots,
      root ≠ .doMark ∧ root ≠ .elseMark ∧ root.awaitsBody = false) ∧
    ∀ node ∈ [Node.put (.name "z"),.elseMark], node ≠ .doMark ∧ node.awaitsBody = false := by
  obtain ⟨roots,blocks⟩ := finish_cleans scrambled (.fileEnd .start)
  have built : ((scrambled.foldl perform empty).finish (.fileEnd .start)).roots =
      [.function "f" .int [] [.block [.put (.name "z"),.elseMark]]] := rfl
  refine ⟨built,roots,?_⟩
  apply blocks (.block [.put (.name "z"),.elseMark]) _ _ List.mem_cons_self
  rw [built]
  exact .inside _ _ _ (.root _ List.mem_cons_self) List.mem_cons_self List.mem_cons_self

end Assembly

end BlockScript
