import BlockScript.Proofs.Eval.Stable

/-! Files without `while`. However their functions call and declare each other and however their
loops nest, they come to an end: every visit leaves less room for calls, a smaller part of the
program, or fewer items. -/
namespace BlockScript
open Run

def Node.isWhile : Node → Bool
  | whileDo _ _ => true
  | _ => false

def Whileless (file : List Node) : Prop := ∀ node, StatementOf file node → node.isWhile = false

theorem StatementOf.of_cons {first node : Node} {rest : List Node}
    (statement : StatementOf (first :: rest) node) :
    node = first ∨ (∃ block ∈ first.blocks, StatementOf block node) ∨ StatementOf rest node := by
  induction statement with
  | root node member =>
    exact (List.mem_cons.mp member).imp_right fun member => .inr (.root node member)
  | inside outer node block _ owned member ih =>
    rcases ih with rfl | ⟨around,here,statement⟩ | statement
    · exact .inr (.inl ⟨block,owned,.root node member⟩)
    · exact .inr (.inl ⟨around,here,.inside outer node block statement owned member⟩)
    · exact .inr (.inr (.inside outer node block statement owned member))

theorem StatementOf.mono {part file : List Node} {node : Node} (statement : StatementOf part node)
    (within : ∀ node ∈ part, node ∈ file) : StatementOf file node := by
  induction statement with
  | root node member => exact .root node (within node member)
  | inside outer node block _ owned member ih => exact .inside outer node block ih owned member

theorem whileless_nil : Whileless [] := fun _ statement => (statement.nonempty rfl).elim

theorem whileless_cons (first : Node) (rest : List Node) :
    Whileless (first :: rest) ↔
      first.isWhile = false ∧ (∀ block ∈ first.blocks, Whileless block) ∧ Whileless rest := by
  constructor
  · intro whileless
    refine ⟨whileless first (.root first List.mem_cons_self),?_,?_⟩
    · intro block owned node statement
      exact whileless node (statement.lift List.mem_cons_self owned)
    · intro node statement
      exact whileless node (statement.mono fun _ member => List.mem_cons_of_mem first member)
  · rintro ⟨here,blocks,rest⟩ node statement
    rcases statement.of_cons with rfl | ⟨block,owned,statement⟩ | statement
    · exact here
    · exact blocks block owned node statement
    · exact rest node statement

theorem Whileless.single {file : List Node} (whileless : Whileless file) (node : Node)
    (member : node ∈ file) : Whileless [node] := by
  intro other statement
  refine whileless other (statement.mono ?_)
  intro same here
  rwa [List.mem_singleton.mp here]

def Scope.Whileless (scope : Scope) : Prop :=
  ∀ table ∈ scope.declarations, ∀ name function,
    table.find? name = some (.function function) → BlockScript.Whileless function.body

theorem whileless_of_declares (node : Node) (whileless : Whileless [node]) (name : String)
    (function : Function) (declares : node.declares? = some (name,.function function)) :
    Whileless function.body := by
  have blocks := ((whileless_cons node []).mp whileless).2.1
  cases node with
  | function called returns parameters body =>
    obtain ⟨_,rfl⟩ : called = name ∧ (⟨called,returns,parameters,body⟩ : Function) = function := by
      simpa [Node.declares?] using declares
    exact blocks body List.mem_cons_self
  | _ => simp [Node.declares?] at declares

theorem stable_whileless :
    Stable (fun _ => Scope.Whileless) (fun _ node => Whileless [node]) where
  pushed := by
    intro _ scope whileless context plain table member name function found
    obtain rfl | member := List.mem_cons.mp member
    · obtain ⟨type,typed⟩ := plain name _ found
      contradiction
    · exact whileless table member name function found
  popped := by
    intro _ scope whileless table member
    refine whileless table ?_
    obtain ⟨current,outer⟩ := scope
    cases outer with
    | nil => exact member
    | cons context outer => exact List.mem_cons_of_mem current.declared member
  assigned := by
    intro _ scope whileless name value _
    unfold Scope.Whileless
    rwa [Scope.declarations_assign]
  declares := by
    intro _ scope whileless node name declared whole declares table member other function found
    obtain rfl | member := List.mem_cons.mp member
    · simp only [Scope.declare,Context.declare,Table.find?_insert] at found
      split at found
      · obtain rfl := Option.some.inj found
        exact whileless_of_declares node whole name function declares
      · exact whileless _ List.mem_cons_self other function found
    · exact whileless table (List.mem_cons_of_mem _ member) other function found
  inside := by
    intro _ node whileless block owned statement member
    exact (((whileless_cons node []).mp whileless).2.1 block owned).single statement member
  body := by
    intro _ scope whileless called function declared statement member
    rw [Scope.declared?_declarations] at declared
    obtain ⟨table,here,found⟩ := List.exists_of_findSome?_eq_some declared
    exact (whileless table here called function found).single statement member

/-- A node weighs more as a statement than as an expression, and a body more while it has to run
for further items. -/
noncomputable def Task.weight : Task → Nat
  | expression node => 2 * sizeOf node
  | statement node => 2 * sizeOf node + 1
  | sequence statements => 2 * sizeOf statements
  | iteration _ body => 2 * sizeOf body + 1

def Task.items : Task → Nat
  | iteration contexts _ => contexts.length
  | _ => 0

/-- A visit that leads to one of the same depth leads to a smaller one, unless it is a loop. -/
theorem Leads.lighter {rounds : Nat} {visit next : Visit} (leads : Leads rounds visit next)
    (same : next.state.depth = visit.state.depth)
    (loopless : ∀ node, visit.task = .statement node → node.isWhile = false) :
    next.task.weight < visit.task.weight ∨
      next.task.weight = visit.task.weight ∧ next.task.items < visit.task.items := by
  cases leads with
  | call => simp [State.calling] at same
  -- The next round runs the same body again, for one item less.
  | items => exact .inr ⟨rfl,Nat.lt_succ_self _⟩
  | loopTested | loopBody | loopAgain => simpa [Node.isWhile] using loopless _ rfl
  | _ =>
    left
    simp only [Task.weight,Node.arithmetic.sizeOf_spec,Node.test.sizeOf_spec,
      Node.assign.sizeOf_spec,Node.field.sizeOf_spec,Node.put.sizeOf_spec,Node.ret.sizeOf_spec,
      Node.block.sizeOf_spec,Node.ifThen.sizeOf_spec,Node.forIn.sizeOf_spec,List.cons.sizeOf_spec,
      Option.some.sizeOf_spec]
    omega

/-- Without loops every visit leads to visits that are deeper, or smaller, or have fewer items left.
-/
theorem Leads.descends {rounds : Nat} {visit next : Visit} (leads : Leads rounds visit next)
    (loopless : ∀ node, visit.task = .statement node → node.isWhile = false) :
    Prod.Lex (· < ·) (Prod.Lex (· < ·) (· < ·))
      (maxDepth - next.state.depth,next.task.weight,next.task.items)
      (maxDepth - visit.state.depth,visit.task.weight,visit.task.items) := by
  rcases leads.depth_or_deeper with same | ⟨room,deeper⟩
  · rw [same]
    refine .right _ ?_
    rcases leads.lighter same loopless with less | ⟨equal,fewer⟩
    · exact .left _ _ less
    · rw [equal]
      exact .right _ fewer
  · exact .left _ _ (by omega)

def Visit.Whileless (visit : Visit) : Prop :=
  visit.task.Fits (fun _ node => BlockScript.Whileless [node]) 0 ∧ visit.state.scope.Whileless

theorem Visit.Whileless.loopless {visit : Visit} (whileless : visit.Whileless) (node : Node)
    (same : visit.task = .statement node) : node.isWhile = false := by
  have fits := whileless.1
  rw [same] at fits
  exact fits node (.root node List.mem_cons_self)

theorem Visit.Whileless.leads {rounds : Nat} {visit next : Visit} (whileless : visit.Whileless)
    (leads : Leads rounds visit next) : next.Whileless := by
  obtain ⟨deeper,fits,scope⟩ := stable_whileless.leads leads 0 whileless.1 whileless.2
  refine ⟨?_,scope⟩
  cases task : next.task <;> rw [task] at fits <;> exact fits

/-- No chain of visits goes on forever from a visit without `while`. -/
theorem Visit.Whileless.finite {rounds : Nat} {visit : Visit} (whileless : visit.Whileless) :
    Acc (fun next visit => Leads rounds visit next) visit := by
  refine .intro visit ?_
  intro next leads
  exact (whileless.leads leads).finite
termination_by (maxDepth - visit.state.depth,visit.task.weight,visit.task.items)
decreasing_by exact leads.descends whileless.loopless

/-- A root without `while` needs no rounds at all. -/
theorem runRoot_whileless (root : Node) (state : State) (whileless : Whileless [root])
    (scope : state.scope.Whileless) :
    ∃ failure next, (∀ rounds, runRoot rounds root state = some (failure,next)) ∧
      next.scope.Whileless := by
  have alike (rounds : Nat) :
      Alike (State.Beside (Scope.Itself (fun _ => Scope.Whileless) 0) maxDepth) False
        (runStatement rounds root) (runStatement 0 root) := by
    -- Only a `while` could tell the rounds apart.
    refine stable_whileless.coupled.statement ?_ maxDepth 0 root whileless
    intro _ test body loop
    have plain := loop _ (.root _ List.mem_cons_self)
    contradiction
  have same (rounds : Nat) : runRoot rounds root state = runRoot 0 root state := by
    have met := alike rounds (state.executing root) (state.executing root)
      ⟨by omega,_,⟨rfl,scope⟩,rfl⟩
    refine runRoot_congr root state (met.eq ?_)
    rintro left _ ⟨_,_,⟨rfl,_⟩,rfl⟩
    rfl
  have ends := Stable.guards_of_alike (alike 0) (state.executing root) ⟨by omega,scope⟩
  obtain ⟨failure,next,ran⟩ := runRoot_some root state
    (ends.mono fun halt _ after out => after.1 .outOfRounds out rfl)
  refine ⟨failure,next,fun rounds => (same rounds).trans ran,?_⟩
  exact runRoot_ends (·.scope.Whileless) root state next failure ran (fun _ _ held => held)
    (ends.mono fun _ _ after => after.2.2)

theorem interpret_whileless (roots : List Node) (state : State) (whileless : Whileless roots)
    (scope : state.scope.Whileless) :
    ∃ outcome, ∀ rounds, interpret rounds roots state = some outcome := by
  induction roots generalizing state with
  | nil => exact ⟨_,fun _ => rfl⟩
  | cons root roots ih =>
    obtain ⟨failure,next,ran,kept⟩ :=
      runRoot_whileless root state (whileless.single root List.mem_cons_self) scope
    cases failure with
    | some failure => exact ⟨_,fun rounds => by rw [interpret,ran]⟩
    | none =>
      obtain ⟨outcome,after⟩ := ih next ((whileless_cons root roots).mp whileless).2.2 kept
      exact ⟨outcome,fun rounds => by rw [interpret,ran,← after rounds]⟩

theorem interpretAll_whileless (roots : List Node) (state : State) (whileless : Whileless roots)
    (scope : state.scope.Whileless) :
    ∃ outcome, ∀ rounds, interpretAll rounds roots state = some outcome := by
  induction roots generalizing state with
  | nil => exact ⟨_,fun _ => rfl⟩
  | cons root roots ih =>
    obtain ⟨failure,next,ran,kept⟩ :=
      runRoot_whileless root state (whileless.single root List.mem_cons_self) scope
    obtain ⟨outcome,after⟩ := ih next ((whileless_cons root roots).mp whileless).2.2 kept
    refine ⟨(failure.toList ++ outcome.1,outcome.2),?_⟩
    intro rounds
    simp [interpretAll,ran,after rounds]

/-- A file without `while` comes to an end in either mode, in a state whose functions have none
either: with as many rounds as one likes it has the same outcome, and no visits of it go on in each
other forever. -/
theorem whileless_finishes (roots : List Node) (state : State) (whileless : Whileless roots)
    (scope : state.scope.Whileless) :
    (∃ outcome, ∀ rounds, interpret rounds roots state = some outcome) ∧
    (∃ outcome, ∀ rounds, interpretAll rounds roots state = some outcome) ∧
    ∀ rounds keepGoing root before, Script.Begins rounds keepGoing roots state root before →
      Acc (fun next visit => Leads rounds visit next)
        ⟨.statement root,before.executing root⟩ := by
  refine ⟨interpret_whileless roots state whileless scope,
    interpretAll_whileless roots state whileless scope,?_⟩
  intro rounds keepGoing root before begins
  have kept (root : Node) (state : State) (failure : Option Failure) (next : State)
      (whileless : Whileless [root]) (scope : state.scope.Whileless)
      (ran : runRoot rounds root state = some (failure,next)) : next.scope.Whileless := by
    obtain ⟨_,_,all,kept⟩ := runRoot_whileless root state whileless scope
    obtain ⟨_,rfl⟩ := Prod.mk.inj (Option.some.inj ((all rounds).symm.trans ran))
    exact kept
  have fits (root : Node) (before : State)
      (begins : Script.Begins rounds keepGoing roots state root before) : Whileless [root] :=
    whileless.single root begins.member
  have held := Script.Begins.holds kept begins fits scope
  exact Visit.Whileless.finite ⟨fits root before begins,held⟩

/-- `int f() do g(); done`, two calls below the limit. -/
def State.circling : State :=
  { State.initial .unlimited with
    scope := ⟨⟨⟨[("f",.function ⟨"f",.int,[],[.block [.callNoArgs "g"]]⟩)]⟩,.empty⟩,[]⟩
    depth := 62 }

/-- `int g() do for i in 2 do int h() do f(); done h(); done done put 1; f();` -/
def circling : List Node :=
  [.function "g" .int [] [.block [.forIn (.name "i") (.int 2)
      (some [.function "h" .int [] [.block [.callNoArgs "f"]],.callNoArgs "h"])]],
    .put (.int 1),.callNoArgs "f"]

/-- The functions call each other until there is no room left. -/
theorem circling_finishes :
    Whileless circling ∧ State.circling.scope.Whileless ∧
    ∃ failure next, (∀ rounds, interpret rounds circling .circling = some (some failure,next)) ∧
      failure.fault = .depthExceeded "h" := by
  have whileless : Whileless circling := by
    simp [circling,whileless_cons,whileless_nil,Node.isWhile,Node.blocks]
  have scope : State.circling.scope.Whileless := by
    intro table member name function found
    obtain rfl := List.mem_singleton.mp member
    simp only [Table.find?,Table.findEntry,State.circling] at found
    split at found
    · obtain rfl := Declared.function.inj (Option.some.inj found)
      simp [whileless_cons,whileless_nil,Node.isWhile,Node.blocks]
    · contradiction
  obtain ⟨outcome,all⟩ := (whileless_finishes circling .circling whileless scope).1
  obtain ⟨failure,next,ran,exceeded⟩ : ∃ failure next,
      interpret 0 circling .circling = some (some failure,next) ∧
        failure.fault = .depthExceeded "h" := ⟨_,_,rfl,rfl⟩
  obtain rfl := Option.some.inj ((all 0).symm.trans ran)
  exact ⟨whileless,scope,failure,next,all,exceeded⟩

end BlockScript
