import BlockScript.Proofs.Eval.Upheld

/-! Iterations written out. A `for` does what one block for each item of its collection does, in
which the iterator is declared and assigned like any other variable. -/
namespace BlockScript
open Run

namespace Node

/-- The block of one round: the iterator is declared, the item is assigned to it, and the body
follows. -/
def round (iterator : String) (type : TypeName) (body : List Node) (item : Node) : Node :=
  .block (.typed ⟨iterator,type⟩ :: .assign (.name iterator) item :: body)

def numbered (iterator : String) (body : List Node) (number : Int64) : List Node :=
  (List.range number.toInt.toNat).map fun item =>
    round iterator .int body (.int (Int64.ofNat item))

def lettered (iterator : String) (body : List Node) (text : String) : List Node :=
  text.toList.map fun item => round iterator .string body (.string (String.singleton item))

end Node

/-- Every number of a round is a word, so none of them wraps around. -/
theorem toInt_ofNat_of_lt (number : Int64) (item : Nat) (below : item < number.toInt.toNat) :
    (Int64.ofNat item).toInt = item := by
  have bound : number.toInt < 2 ^ 63 := number.toInt_lt
  apply Int64.toInt_ofNat_of_lt
  omega

theorem orNext_of_none (first next : Run (Option Value)) (state middle : State)
    (same : first state = .ok none middle) : orNext first next state = next middle :=
  bind_of_ok first _ state middle none same

section
variable (rounds : Nat) (enter : Enter)

theorem executeAll_forEach (statements : List Node) :
    executeAll rounds enter statements = forEach (execute rounds enter) statements := by
  induction statements with
  | nil => rfl
  | cons statement rest ih => rw [executeAll,forEach,ih]

/-- A variable that the current context declares is assigned there. -/
theorem assign_declared (scope : Scope) (iterator : String) (type : TypeName) (value : Value) :
    (scope.push (Context.empty.declare iterator (.typed type))).assign iterator value =
      scope.push (.single iterator type value) := by
  have owns : (Context.empty.declare iterator (.typed type)).owns iterator = true := by
    simp [Context.owns,Context.declare,Table.contains]
  simp [Scope.assign,Scope.push,Scope.contexts,bindOwner?,owns,Context.single]

theorem targetType_declared (state : State) (iterator : String) (type : TypeName) :
    targetType iterator (state.inside (Context.empty.declare iterator (.typed type))) =
      .ok type (state.inside (Context.empty.declare iterator (.typed type))) := by
  unfold targetType
  rw [scope_bind]
  have found : (state.inside (Context.empty.declare iterator (.typed type))).scope.declared?
      iterator = some (.typed type) := by
    simp [Scope.declared?,State.inside,Scope.push,Scope.contexts,Context.declare]
  rw [found]
  rfl

/-- The assignment finds the declaration before it and no other. -/
theorem execute_assign_declared (iterator : String) (type : TypeName) (item : Node) (value : Value)
    (literal : evaluateResolved enter item = pure value) (conforms : value.conforms type = true)
    (state : State) :
    execute rounds enter (.assign (.name iterator) item)
        (state.inside (Context.empty.declare iterator (.typed type))) =
      .ok none (state.inside (.single iterator type value)) := by
  let declared := state.inside (Context.empty.declare iterator (.typed type))
  have stores : evaluate enter (.assign (.name iterator) item) declared =
      .ok value (state.inside (.single iterator type value)) := by
    rw [evaluate,bind_of_ok _ _ _ _ _ (targetType_declared state iterator type)]
    change (evaluateResolved enter item >>= store iterator type) declared = _
    rw [literal,pure_bind,store,if_pos conforms]
    have same := assign_declared state.scope iterator type value
    exact congrArg (fun scope => EStateM.Result.ok value { state with scope }) same
  rw [execute_evaluates enter rounds _ rfl,bind_of_ok _ _ _ _ PUnit.unit]
  · rfl
  · simp [discard,Functor.discard,Functor.mapConst,EStateM.map,declared,stores]

theorem executeAll_item (iterator : String) (type : TypeName) (body : List Node) (item : Node)
    (value : Value) (literal : evaluateResolved enter item = pure value)
    (conforms : value.conforms type = true) (state : State) :
    executeAll rounds enter (.typed ⟨iterator,type⟩ :: .assign (.name iterator) item :: body)
        (state.inside .empty) =
      executeAll rounds enter body (state.inside (.single iterator type value)) := by
  have declares : execute rounds enter (.typed ⟨iterator,type⟩) (state.inside .empty) =
      .ok none (state.inside (Context.empty.declare iterator (.typed type))) := rfl
  have assigns := execute_assign_declared rounds enter iterator type item value literal conforms
    state
  rw [executeAll,orNext_of_none _ _ _ _ declares,executeAll,orNext_of_none _ _ _ _ assigns]

/-- The block of a round does what a round of the iteration does in its own context. -/
theorem execute_round (iterator : String) (type : TypeName) (body : List Node) (item : Node)
    (value : Value) (literal : evaluateResolved enter item = pure value)
    (conforms : value.conforms type = true) :
    execute rounds enter (Node.round iterator type body item) =
      within (.single iterator type value) (executeAll rounds enter body) := by
  funext state
  have same := executeAll_item rounds enter iterator type body item value literal conforms state
  unfold State.inside at same
  rw [Node.round,execute]
  unfold within between
  simp only
  rw [same]

theorem executeAll_rounds {α : Type} (iterator : String) (type : TypeName) (body : List Node)
    (items : List α) (node : α → Node) (value : α → Value)
    (literal : ∀ item, evaluateResolved enter (node item) = pure (value item))
    (conforms : ∀ item, (value item).conforms type = true) :
    executeAll rounds enter (items.map fun item => Node.round iterator type body (node item)) =
      forEach (fun item => within (.single iterator type (value item))
        (executeAll rounds enter body)) items := by
  rw [executeAll_forEach,forEach_map]
  congr 1
  funext item
  exact execute_round rounds enter iterator type body _ _ (literal item) (conforms item)

theorem executeAll_numbered (iterator : String) (body : List Node) (number : Int64) :
    executeAll rounds enter (Node.numbered iterator body number) =
      iterate iterator (executeAll rounds enter body) (.int number) := by
  rw [Node.numbered,executeAll_rounds rounds enter iterator .int body _ _ _ (fun _ => rfl)
    (fun _ => rfl),iterate,countUp_range,List.range_eq_range']

theorem executeAll_lettered (iterator : String) (body : List Node) (text : String) :
    executeAll rounds enter (Node.lettered iterator body text) =
      iterate iterator (executeAll rounds enter body) (.string text) :=
  executeAll_rounds rounds enter iterator .string body _ _ _ (fun _ => rfl) fun _ => rfl

/-- Once the collection has a value, a `for` does what its rounds do one after the other. The
rounds are fixed by that value, whatever the body assigns or declares. -/
theorem forIn_unrolled (iterator : String) (collection : Node) (body : List Node) (state : State) :
    (∀ number next, evaluateResolved enter collection state = .ok (.int number) next →
      execute rounds enter (.forIn (.name iterator) collection (some body)) state =
        executeAll rounds enter (Node.numbered iterator body number) next) ∧
    (∀ text next, evaluateResolved enter collection state = .ok (.string text) next →
      execute rounds enter (.forIn (.name iterator) collection (some body)) state =
        executeAll rounds enter (Node.lettered iterator body text) next) ∧
    ∀ (number : Int64) item, item < number.toInt.toNat → (Int64.ofNat item).toInt = item := by
  refine ⟨?_,?_,toInt_ofNat_of_lt⟩
  · intro number next found
    rw [execute,bind_of_ok _ _ _ _ _ found,executeAll_numbered]
  · intro text next found
    rw [execute,bind_of_ok _ _ _ _ _ found,executeAll_lettered]

end

/-- `put i; i = 7; string i; i = "x"; n = 0;` -/
def meddling : List Node :=
  [.put (.name "i"),.assign (.name "i") (.int 7),.typed ⟨"i",.string⟩,
    .assign (.name "i") (.string "x"),.assign (.name "n") (.int 0)]

/-- `int n; n = 3;` -/
def State.counting : State :=
  { State.initial .unlimited with scope := ⟨.single "n" .int (.int 3),[]⟩ }

/-- A body that overwrites both the iterator and the collection still sees 0, 1 and 2, or else each
character of a text. -/
theorem meddling_unrolled :
    evaluateResolved (enterAt 0 64) (.name "n") .counting = .ok (.int 3) .counting ∧
    execute 0 (enterAt 0 64) (.forIn (.name "i") (.name "n") (some meddling)) .counting =
      executeAll 0 (enterAt 0 64) (Node.numbered "i" meddling 3) .counting ∧
    execute 0 (enterAt 0 64) (.forIn (.name "i") (.string "ab") (some meddling)) .counting =
      executeAll 0 (enterAt 0 64) (Node.lettered "i" meddling "ab") .counting ∧
    ∃ last, execute 0 (enterAt 0 64) (.forIn (.name "i") (.name "n") (some meddling)) .counting =
      .ok none last ∧ last.sink.written = "0\n1\n2\n".toUTF8 := by
  obtain ⟨numbered,_⟩ := forIn_unrolled 0 (enterAt 0 64) "i" (.name "n") meddling .counting
  obtain ⟨_,letters,_⟩ := forIn_unrolled 0 (enterAt 0 64) "i" (.string "ab") meddling .counting
  exact ⟨rfl,numbered 3 _ rfl,letters "ab" _ rfl,_,rfl,rfl⟩

end BlockScript
