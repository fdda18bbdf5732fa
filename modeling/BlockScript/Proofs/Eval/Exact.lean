import BlockScript.Proofs.Eval.Ends

/-! Expressions over integers. Their value is the one over the unbounded integers, unless some
operation divides by zero or its result is no word; then the first such operation ends the run. -/
namespace BlockScript
open Run

/-- What a test says about two integers. An operand that is not zero is true. -/
def Test.onIntegers : Test → Int → Int → Bool
  | both, left, right => left != 0 && right != 0
  | either, left, right => left != 0 || right != 0
  | compare .equal, left, right => left == right
  | compare .notEqual, left, right => left != right
  | compare .less, left, right => left < right
  | compare .lessOrEqual, left, right => left ≤ right
  | compare .greater, left, right => right < left
  | compare .greaterOrEqual, left, right => right ≤ left

namespace Node

inductive Numeric (scope : Scope) : Node → Prop
  | int (number : Int64) : Numeric scope (.int number)
  | name (text : String) (number : Int64) (held : scope.value? text = some (.int number)) :
      Numeric scope (.name text)
  | arithmetic (operator : Arithmetic) (left right : Node) (first : Numeric scope left)
      (second : Numeric scope right) : Numeric scope (.arithmetic operator left right)
  | test (operator : Test) (left right : Node) (first : Numeric scope left)
      (second : Numeric scope right) : Numeric scope (.test operator left right)

/-- The value over the unbounded integers, with quotients cut off toward zero. -/
def exact (scope : Scope) : Node → Int
  | .int number => number.toInt
  | .name text =>
    match scope.value? text with
    | some (.int number) => number.toInt
    | _ => 0
  | .arithmetic operator left right =>
    match operator with
    | .plus => left.exact scope + right.exact scope
    | .minus => left.exact scope - right.exact scope
    | .times => left.exact scope * right.exact scope
    | .divide => (left.exact scope).tdiv (right.exact scope)
  | .test operator left right =>
    if operator.onIntegers (left.exact scope) (right.exact scope) then 1 else 0
  | _ => 0

def postorder : Node → List Node
  | .arithmetic operator left right =>
    left.postorder ++ right.postorder ++ [.arithmetic operator left right]
  | .test operator left right => left.postorder ++ right.postorder ++ [.test operator left right]
  | node => [node]

def fault? (scope : Scope) (node : Node) : Option Fault :=
  match node with
  | .arithmetic operator _ right =>
    if operator = .divide ∧ right.exact scope = 0 then some .divisionByZero
    else if Int64.minValue.toInt ≤ node.exact scope ∧
        node.exact scope ≤ Int64.maxValue.toInt then none
    else some (.overflow operator)
  | _ => none

end Node

theorem fitsWord_iff (value : Int) : Decimal.fitsWord value = true ↔
    Int64.minValue.toInt ≤ value ∧ value ≤ Int64.maxValue.toInt := by
  simp only [Decimal.fitsWord,Bool.and_eq_true,decide_eq_true_eq]

theorem toInt_ofInt_of_fits (value : Int) (fits : Decimal.fitsWord value = true) :
    (Int64.ofInt value).toInt = value := by
  have bounds := (fitsWord_iff value).mp fits
  have least : Int64.minValue.toInt = -9223372036854775808 := rfl
  have greatest : Int64.maxValue.toInt = 9223372036854775807 := rfl
  apply Int64.toInt_ofInt_of_le <;> omega

theorem toInt_eq_zero_iff (number : Int64) : number.toInt = 0 ↔ number = 0 :=
  Int64.toInt_inj (y := 0)

theorem Node.exact_arithmetic (scope : Scope) (operator : Arithmetic) (left right : Node) :
    (Node.arithmetic operator left right).exact scope =
      operator.onIntegers (left.exact scope) (right.exact scope) := by
  cases operator <;> rfl

theorem Relation.holds_compare (relation : Relation) (left right : Int) :
    relation.holds (some (compare left right)) = (Test.compare relation).onIntegers left right := by
  have order : compare left right =
      if left < right then .lt else if left = right then .eq else .gt := rfl
  rw [order,Bool.eq_iff_iff]
  split
  next below => cases relation <;> simp [holds,Test.onIntegers] <;> omega
  next =>
    split
    next same => cases relation <;> simp [holds,Test.onIntegers,same]
    next => cases relation <;> simp [holds,Test.onIntegers] <;> omega

theorem Test.decide_int (operator : Test) (left right : Int64) :
    operator.decide (.int left) (.int right) =
      .ok (operator.onIntegers left.toInt right.toInt) := by
  have zero (number : Int64) : (number != 0) = (number.toInt != 0) := by
    rw [Bool.eq_iff_iff,bne_iff_ne,bne_iff_ne,ne_eq,ne_eq,toInt_eq_zero_iff]
  cases operator with
  | both => rw [decide,zero,zero,onIntegers]
  | either => rw [decide,zero,zero,onIntegers]
  | compare relation =>
    rw [← relation.holds_compare]
    cases relation <;> rfl

/-- The run gave this integer or failed so, and in both cases it left the state as it was. -/
def Settles (result : EStateM.Result Halt State Value) (state : State) (fault : Option Fault)
    (exact : Int) : Prop :=
  match fault with
  | none => ∃ number : Int64, number.toInt = exact ∧ result = .ok (.int number) state
  | some fault => result = .error (.fault fault) state

section
variable {first second : Run Value} {state : State} {fault other last : Option Fault}
  {exact left right : Int}

theorem Settles.resolve (settles : Settles (first state) state fault exact) :
    (first >>= BlockScript.resolve) state = first state := by
  cases fault with
  | none =>
    obtain ⟨number,_,same⟩ := settles
    rw [bind_of_ok _ _ _ _ _ same,same]
    rfl
  | some fault => exact (bind_of_error _ _ _ _ _ settles).trans settles.symm

theorem settles_onWords (state : State) (operator : Arithmetic) (left right : Int64) :
    Settles (Run.lift (operator.onWords left right) state) state
      (if operator = .divide ∧ right.toInt = 0 then some .divisionByZero
        else if Decimal.fitsWord (operator.onIntegers left.toInt right.toInt) then none
        else some (.overflow operator))
      (operator.onIntegers left.toInt right.toInt) := by
  simp only [Arithmetic.onWords,toInt_eq_zero_iff]
  split
  next => rfl
  next =>
    split
    next fits => exact ⟨_,toInt_ofInt_of_fits _ fits,rfl⟩
    next => rfl

theorem Settles.operate {apply : Value → Value → Except Fault Value}
    (begun : Settles (first state) state fault left)
    (goes : Settles (second state) state other right)
    (ends : ∀ one two : Int64, one.toInt = left → two.toInt = right →
      Settles (Run.lift (apply (.int one) (.int two)) state) state last exact) :
    Settles ((do let one ← first; let two ← second; Run.lift (apply one two)) state) state
      ((fault.or other).or last) exact := by
  cases fault with
  | some fault => exact bind_of_error _ _ _ _ _ begun
  | none =>
    -- The second operand is evaluated whatever the value of the first one is.
    obtain ⟨one,whole,begun⟩ := begun
    rw [bind_of_ok _ _ _ _ _ begun]
    cases other with
    | some fault => exact bind_of_error _ _ _ _ _ goes
    | none =>
      obtain ⟨two,same,goes⟩ := goes
      rw [bind_of_ok _ _ _ _ _ goes]
      exact ends one two whole same

end

section
variable (enter : Enter) (state : State)

def Node.Settled (node : Node) (run : Run Value) : Prop :=
  Settles (run state) state (node.postorder.findSome? (Node.fault? state.scope))
    (node.exact state.scope)

theorem settled_arithmetic (operator : Arithmetic) (left right : Node)
    (begun : left.Settled state (evaluateResolved enter left))
    (goes : right.Settled state (evaluateResolved enter right)) :
    (Node.arithmetic operator left right).Settled state
      (evaluate enter (.arithmetic operator left right)) := by
  rw [Node.Settled,evaluate,Node.postorder,List.findSome?_append,List.findSome?_append,
    List.findSome?_singleton]
  refine begun.operate goes fun one two whole same => ?_
  have settles := settles_onWords state operator one two
  rw [whole,same,← Node.exact_arithmetic] at settles
  simp only [fitsWord_iff] at settles
  exact settles

theorem settled_test (operator : Test) (left right : Node)
    (begun : left.Settled state (evaluateResolved enter left))
    (goes : right.Settled state (evaluateResolved enter right)) :
    (Node.test operator left right).Settled state (evaluate enter (.test operator left right)) := by
  rw [Node.Settled,evaluate,Node.postorder,List.findSome?_append,List.findSome?_append,
    List.findSome?_singleton]
  refine begun.operate goes fun one two whole same => ?_
  have decided := operator.decide_int one two
  rw [whole,same] at decided
  rw [Test.apply,decided,Node.exact]
  refine ⟨_,?_,rfl⟩
  split <;> rfl

/-- The first fault among its parts ends an integer expression; without one it has its exact value.
-/
theorem settled_numeric (node : Node) (numeric : node.Numeric state.scope) :
    node.Settled state (evaluateResolved enter node) := by
  induction numeric with
  | int number => exact ⟨number,rfl,rfl⟩
  | name text number held =>
    refine ⟨number,?_,?_⟩
    · simp only [Node.exact,held]
    · change resolve (.name text) state = _
      rw [resolve,scope_bind,held]
      rfl
  | arithmetic operator left right _ _ begun goes =>
    have settled := settled_arithmetic enter state operator left right begun goes
    rwa [Node.Settled,evaluateResolved,settled.resolve]
  | test operator left right _ _ begun goes =>
    have settled := settled_test enter state operator left right begun goes
    rwa [Node.Settled,evaluateResolved,settled.resolve]

/-- Only a variable by itself evaluates to something that is still to be looked up. -/
theorem evaluateResolved_numeric (node : Node) (numeric : node.Numeric state.scope)
    (other : ∀ text, node ≠ .name text) :
    evaluateResolved enter node state = evaluate enter node state := by
  cases numeric with
  | int number => rfl
  | name text => exact (other text rfl).elim
  | arithmetic operator left right first second =>
    exact (settled_arithmetic enter state operator left right
      (settled_numeric enter state left first) (settled_numeric enter state right second)).resolve
  | test operator left right first second =>
    exact (settled_test enter state operator left right
      (settled_numeric enter state left first) (settled_numeric enter state right second)).resolve

/-- An expression over integers gives its exact value, if nothing is wrong with any of its parts.
Otherwise the run ends with the fault of the first part that something is wrong with, in the order
from left to right with every node behind its operands. The state is left as it is. -/
theorem evaluate_exact (node : Node) (numeric : node.Numeric state.scope) :
    ((∃ number : Int64, number.toInt = node.exact state.scope ∧
        evaluateResolved enter node state = .ok (.int number) state) ↔
      ∀ part ∈ node.postorder, part.fault? state.scope = none) ∧
    (∀ before part after fault, node.postorder = before ++ part :: after →
      (∀ earlier ∈ before, earlier.fault? state.scope = none) →
      part.fault? state.scope = some fault →
        evaluateResolved enter node state = .error (.fault fault) state) ∧
    ((∀ text, node ≠ .name text) →
      evaluate enter node state = evaluateResolved enter node state) := by
  have settled := settled_numeric enter state node numeric
  rw [Node.Settled] at settled
  refine ⟨⟨?_,?_⟩,?_,fun other => (evaluateResolved_numeric enter state node numeric other).symm⟩
  · rintro ⟨number,_,ran⟩
    rw [← List.findSome?_eq_none_iff]
    cases first : node.postorder.findSome? (Node.fault? state.scope) with
    | none => rfl
    | some fault =>
      rw [first] at settled
      exact nomatch ran.symm.trans settled
  · intro fine
    rwa [List.findSome?_eq_none_iff.mpr fine] at settled
  · intro before part after fault whole fine here
    have first : node.postorder.findSome? (Node.fault? state.scope) = some fault :=
      List.findSome?_eq_some_iff.mpr ⟨before,part,after,whole,here,fine⟩
    rwa [first] at settled

end

def State.edge : State :=
  { State.initial .unlimited with scope := ⟨.single "x" .int (.int Int64.minValue),[]⟩ }

def quotient (divisor : Int64) : Node := .arithmetic .divide (.name "x") (.int divisor)

/-- The quotient by minus one is no word. A true operand in front does not keep it from being found,
and a division by zero that comes later is not found. -/
theorem edge_exact :
    (quotient (-3)).Numeric State.edge.scope ∧
    evaluateResolved (fun _ => pure none) (quotient (-3)) State.edge =
      .ok (.int 3074457345618258602) State.edge ∧
    evaluateResolved (fun _ => pure none)
        (.test .both (.test .either (.int 1) (quotient (-1))) (quotient 0)) State.edge =
      .error (.fault (.overflow .divide)) State.edge := by
  have numeric (divisor : Int64) : (quotient divisor).Numeric State.edge.scope :=
    .arithmetic .divide _ _ (.name "x" Int64.minValue rfl) (.int divisor)
  obtain ⟨⟨_,gives⟩,_⟩ :=
    evaluate_exact (fun _ => pure none) State.edge (quotient (-3)) (numeric (-3))
  obtain ⟨number,exact,ran⟩ := gives (List.findSome?_eq_none_iff.mp rfl)
  have known : number = 3074457345618258602 := Int64.toInt_inj.mp (exact.trans (by decide))
  obtain ⟨_,fails,_⟩ := evaluate_exact (fun _ => pure none) State.edge
    (.test .both (.test .either (.int 1) (quotient (-1))) (quotient 0))
    (.test .both _ _ (.test .either _ _ (.int 1) (numeric (-1))) (numeric 0))
  have stops := fails [.int 1,.name "x",.int (-1)] (quotient (-1)) _ (.overflow .divide) rfl
    (List.findSome?_eq_none_iff.mp rfl) rfl
  exact ⟨numeric (-3),known ▸ ran,stops⟩

end BlockScript
