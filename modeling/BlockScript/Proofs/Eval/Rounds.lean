import BlockScript.Proofs.Eval.Truncated

/-! Runs with different numbers of rounds. Where neither is short of rounds both end alike, so the
states between the roots of a file do not depend on how many rounds there were. -/
namespace BlockScript

namespace Run

variable {α β : Type}

def Short (ended : EStateM.Result Halt State α) : Prop := ∃ state, ended = .error .outOfRounds state

/-- Unless one of them is short of rounds the runs end alike. -/
def Concur (first second : Run α) : Prop :=
  ∀ state, Short (first state) ∨ Short (second state) ∨ first state = second state

theorem Short.bind {first : Run α} {next : α → Run β} {state : State}
    (short : Short (first state)) : Short ((first >>= next) state) := by
  obtain ⟨last,ran⟩ := short
  exact ⟨last,bind_of_error _ _ _ _ _ ran⟩

theorem Short.between {before after : State → State} {run : Run α} {state : State}
    (short : Short (run (before state))) : Short (between before after run state) := by
  obtain ⟨last,ran⟩ := short
  exact ⟨after last,between_of_error _ _ _ _ _ _ ran⟩

namespace Concur

theorem refl (run : Run α) : Concur run run := fun _ => .inr (.inr rfl)

theorem bind {first second : Run α} {next other : α → Run β} (begun : Concur first second)
    (goes : ∀ value, first.Gives value ∨ second.Gives value → Concur (next value) (other value)) :
    Concur (first >>= next) (second >>= other) := by
  intro state
  obtain short | short | same := begun state
  · exact .inl short.bind
  · exact .inr (.inl short.bind)
  · cases ran : second state with
    | ok value middle =>
      rw [bind_of_ok first next _ _ _ (same.trans ran),bind_of_ok second other _ _ _ ran]
      exact goes value (.inr ⟨state,middle,ran⟩) middle
    | error halt middle =>
      rw [bind_of_error first next _ _ _ (same.trans ran),bind_of_error second other _ _ _ ran]
      exact .inr (.inr rfl)

theorem get {next other : State → Run α} (goes : ∀ state, Concur (next state) (other state)) :
    Concur (get >>= next) (get >>= other) := fun state => goes state state

theorem between {first second : Run α} (before after : State → State)
    (concur : Concur first second) :
    Concur (between before after first) (between before after second) := by
  intro state
  obtain short | short | same := concur (before state)
  · exact .inl short.between
  · exact .inr (.inl short.between)
  · refine .inr (.inr ?_)
    unfold Run.between
    rw [same]

theorem joins : Pairing.Joins fun _ => Concur where
  pure := fun value => refl (pure value)
  bind := bind

theorem repeatWhile {condition test : Run Bool} {body other : Run (Option Value)}
    (rounds others : Nat) (tested : Concur condition test) (round : Concur body other) :
    Concur (repeatWhile condition body rounds) (repeatWhile test other others) := by
  induction rounds generalizing others with
  | zero => exact fun state => .inl ⟨state,rfl⟩
  | succ rounds ih =>
    cases others with
    | zero => exact fun state => .inr (.inl ⟨state,rfl⟩)
    | succ others =>
      apply tested.bind
      intro holds _
      cases holds with
      | true => exact joins.orNext round (ih others)
      | false => exact refl (pure none)

end Concur

/-- What a program does where it ends does not depend on how many rounds its loops may take. -/
theorem steps_concur (rounds others : Nat) :
    Pairing.Steps (fun _ => Concur) (fun _ => True) rounds others where
  toJoins := Concur.joins
  throw := fun halt => .refl (throw halt)
  resolve := fun value _ => .refl (resolve value)
  targetType := fun name _ => .refl (targetType name)
  store := fun name type value _ => .refl (store name type value)
  commandHandler := fun command called _ => .refl (commandHandler command called)
  print := fun _ _ => .refl _
  declare := fun _ name declared _ _ => .refl (declare name declared)
  within := fun _ _ _ _ concur => concur.between _ _
  call := by
    intro enter other called arguments _ _ bodies
    apply Concur.get
    intro state
    cases state.scope.declared? called with
    | none => exact .refl _
    | some declared =>
      cases declared with
      | function function =>
        have body := bodies function.body fun _ _ _ _ => trivial
        apply (Concur.refl (record _)).bind
        intro _ _
        apply (Concur.refl (lift _)).bind
        intro context _
        apply ((body.between _ _).between _ _).bind
        intro returned _
        exact .refl (lift (function.answer returned))
      | _ => exact .refl _
  loop := fun _ _ _ _ tested round => tested.repeatWhile rounds others round

def Adds (log : List Event) (run : Run α) : Prop :=
  Guards (fun state => log <:+ state.log) (fun _ => True) run

variable {log : List Event}

theorem Keeps.adds {run : Run α} (kept : Keeps State.log run) : Adds log run := by
  intro state here
  apply (kept.ends state).mono
  intro _ next same
  refine ⟨fun _ _ => trivial,?_⟩
  change log <:+ next.log
  rwa [same]

theorem adds_record (event : Event) : Adds log (record event) :=
  guards_modify _ fun _ here => here.trans (List.suffix_cons event _)

theorem adds_store (name : String) (type : TypeName) (value : Value) :
    Adds log (store name type value) := by
  apply Keeps.adds
  unfold store
  split
  · exact (keeps_modify _ fun _ => rfl).bind fun _ => keeps_pure value
  · exact keeps_fail _

theorem adds_commandHandler (command : HandlerCommand) (called : String) :
    Adds log (commandHandler command called) := by
  apply Guards.scope
  intro state here
  split
  · apply Guards.bind
    · apply Guards.get
      intro _ _
      exact (guards_modify _ fun _ here => here).bind fun _ => adds_record _
    · exact fun _ => guards_pure Value.void
  · exact guards_fail _ trivial

theorem Adds.within {run : Run α} (adds : Adds log run) (context : Context) :
    Adds log (within context run) :=
  Guards.within context adds (fun _ here => here) fun _ here => here

theorem Adds.call {enter : Enter} (called : String) (arguments : List Node)
    (bodies : ∀ body, Adds log (enter body)) : Adds log (call enter called arguments) := by
  apply Guards.get
  intro state _
  split
  next function _ =>
    apply (adds_record _).bind
    intro _
    apply (Keeps.adds (keeps_lift _)).bind
    intro context
    apply (Guards.deeper ((bodies function.body).within context) (fun _ here => here)
      fun _ here => here).bind
    intro returned
    exact Keeps.adds (keeps_lift _)
  next => exact guards_fail _ trivial

theorem adds_declare (name : String) (declared : Declared) : Adds log (declare name declared) := by
  apply Guards.bind
  · exact guards_modify _ fun _ here => here
  · exact fun _ => guards_pure none

/-- A program only adds to the log. -/
theorem steps_add (log : List Event) (rounds : Nat) :
    Pairing.Steps (fun _ first _ => Adds log first) (fun _ => True) rounds rounds where
  pure := guards_pure
  bind := fun begun goes => begun.bind_of_gives fun value given => goes value (.inl given)
  throw := fun halt => guards_throw halt trivial
  resolve := fun value _ => (keeps_resolve value).adds
  targetType := fun name _ => (keeps_targetType name).adds
  store := fun name type value _ => adds_store name type value
  commandHandler := fun command called _ => adds_commandHandler command called
  print := fun _ _ => Keeps.adds (keeps_scope.bind fun _ => keeps_write _ fun _ _ => rfl)
  declare := fun _ name declared _ _ => adds_declare name declared
  within := fun context _ _ _ adds => adds.within context
  call := fun _ _ called arguments _ _ bodies =>
    Adds.call called arguments fun body => bodies body fun _ _ _ _ => trivial
  loop := fun _ _ _ _ tested round => Guards.repeatWhile rounds trivial tested round

end Run

open Run

structure State.Extends (before after : State) : Prop where
  sink : before.sink.Grows after.sink
  log : before.log <:+ after.log

theorem State.Extends.refl (state : State) : state.Extends state := ⟨.refl _,List.suffix_rfl⟩

theorem State.Extends.trans {first second third : State} (begun : first.Extends second)
    (goes : second.Extends third) : first.Extends third :=
  ⟨begun.sink.trans goes.sink,begun.log.trans goes.log⟩

/-- The roots run one after another and none of them fails. Each has rounds enough of its own. -/
inductive Succeed : List Node → State → State → Prop
  | nil (state : State) : Succeed [] state state
  | cons (rounds : Nat) {root : Node} {roots : List Node} {state next last : State}
      (ran : runRoot rounds root state = some (none,next)) (rest : Succeed roots next last) :
      Succeed (root :: roots) state last

def Stops (roots : List Node) (state : State) (failure : Failure) (after : State) : Prop :=
  ∃ front root back before rounds, roots = front ++ root :: back ∧ Succeed front state before ∧
    runRoot rounds root before = some (some failure,after)

section
variable {rounds others : Nat}

theorem runRoot_of_short (root : Node) (state : State)
    (short : Short (runStatement rounds root (state.executing root))) :
    runRoot rounds root state = none := by
  obtain ⟨last,ran⟩ := short
  unfold State.executing at ran
  unfold runRoot
  dsimp only
  rw [ran]

theorem runRoot_concur (root : Node) (state : State)
    (first second : Option Failure × State) (ran : runRoot rounds root state = some first)
    (again : runRoot others root state = some second) : first = second := by
  have concur := (steps_concur rounds others).statement maxDepth root fun _ _ => trivial
  obtain short | short | same := concur (state.executing root)
  · rw [runRoot_of_short root state short] at ran
    contradiction
  · rw [runRoot_of_short root state short] at again
    contradiction
  · rw [runRoot_congr root state same,again] at ran
    exact (Option.some.inj ran).symm

theorem runRoot_extends (root : Node) (state next : State) (failure : Option Failure)
    (ran : runRoot rounds root state = some (failure,next)) : state.Extends next := by
  refine ⟨runRoot_grows root state next failure ran,?_⟩
  have adds := (steps_add state.log rounds).statement maxDepth root fun _ _ => trivial
  have ends := adds (state.executing root) (List.suffix_cons _ _)
  unfold State.executing at ends
  unfold runRoot at ran
  dsimp only at ran
  split at ran
  next returned last same =>
    have kept := ((ends_of_ok _ returned last same).mp ends).2
    cases fault : Fault.ofReturn returned with
    | none =>
      rw [fault] at ran
      cases ran
      exact kept
    | some reason =>
      rw [fault] at ran
      cases ran
      exact kept.trans (List.suffix_cons _ _)
  next fault last same =>
    have kept := ((ends_of_error _ _ last same).mp ends).2
    cases ran
    exact kept.trans (List.suffix_cons _ _)
  next => contradiction

theorem outcome_extends (script : Script) (state last : State) (failures : List Failure)
    (ran : script.outcome rounds state = some (failures,last)) : state.Extends last := by
  obtain ⟨keepGoing,roots⟩ := script
  induction roots generalizing state failures with
  | nil => cases keepGoing <;> cases ran <;> exact .refl _
  | cons root roots ih =>
    obtain ⟨failure,next,rooted,⟨rest,_,after,_⟩ | ⟨_,rfl,_⟩⟩ :=
      Script.outcome_ran keepGoing root roots state last failures ran
    · exact (runRoot_extends root state next failure rooted).trans (ih next rest after)
    · exact runRoot_extends root state last failure rooted

/-- Behind roots that succeed the file goes on where they ended. -/
theorem Succeed.outcome_append {front : List Node} {state before : State}
    (succeed : Succeed front state before) (keepGoing : Bool) (roots : List Node)
    (failures : List Failure) (last : State)
    (ran : Script.outcome rounds ⟨keepGoing,front ++ roots⟩ state = some (failures,last)) :
    Script.outcome rounds ⟨keepGoing,roots⟩ before = some (failures,last) := by
  induction succeed with
  | nil => exact ran
  | cons others alone _ ih =>
    apply ih
    obtain ⟨failure,next,rooted,continues⟩ := Script.outcome_ran keepGoing _ _ _ last failures ran
    obtain ⟨rfl,rfl⟩ := Prod.mk.inj (runRoot_concur _ _ _ _ rooted alone)
    obtain ⟨rest,_,after,rfl⟩ | ⟨stops,_⟩ := continues
    · exact after
    · exact (stops (.inr rfl)).elim

theorem Succeed.outcome {roots : List Node} {state after : State}
    (succeed : Succeed roots state after) (keepGoing : Bool) (failures : List Failure)
    (last : State) (ran : Script.outcome rounds ⟨keepGoing,roots⟩ state = some (failures,last)) :
    failures = [] ∧ last = after := by
  have rest := succeed.outcome_append keepGoing [] failures last (by rwa [List.append_nil])
  cases keepGoing <;> cases rest <;> exact ⟨rfl,rfl⟩

/-- The first failure is reported first, and nothing that led to it is taken back. A file that does
not keep going ends with it. -/
theorem Stops.outcome {roots : List Node} {state after : State} {failure : Failure}
    (stops : Stops roots state failure after) (keepGoing : Bool) (failures : List Failure)
    (last : State) (ran : Script.outcome rounds ⟨keepGoing,roots⟩ state = some (failures,last)) :
    after.Extends last ∧ ∃ rest, failures = failure :: rest ∧
      (keepGoing = false → rest = [] ∧ last = after) := by
  obtain ⟨front,root,back,before,others,rfl,succeed,alone⟩ := stops
  have rest := succeed.outcome_append keepGoing (root :: back) failures last ran
  obtain ⟨failed,next,rooted,continues⟩ := Script.outcome_ran keepGoing root back _ last _ rest
  obtain ⟨rfl,rfl⟩ := Prod.mk.inj (runRoot_concur root before _ _ rooted alone)
  obtain ⟨later,goesOn,onward,rfl⟩ | ⟨_,rfl,rfl⟩ := continues
  · refine ⟨outcome_extends _ next last later onward,later,rfl,?_⟩
    rintro rfl
    simp at goesOn
  · exact ⟨.refl _,[],rfl,fun _ => ⟨rfl,rfl⟩⟩

/-- Either all roots succeed or one of them is the first that fails. -/
theorem succeed_or_stops (keepGoing : Bool) (roots : List Node) (state last : State)
    (failures : List Failure)
    (ran : Script.outcome rounds ⟨keepGoing,roots⟩ state = some (failures,last)) :
    (∃ after, Succeed roots state after) ∨ ∃ failure after, Stops roots state failure after := by
  induction roots generalizing state failures with
  | nil => exact .inl ⟨state,.nil state⟩
  | cons root roots ih =>
    obtain ⟨failed,next,rooted,continues⟩ := Script.outcome_ran keepGoing root roots _ last _ ran
    cases failed with
    | some failure =>
      exact .inr ⟨failure,next,[],root,roots,state,rounds,rfl,.nil state,rooted⟩
    | none =>
      obtain ⟨rest,_,onward,_⟩ | ⟨stops,_⟩ := continues
      · obtain ⟨after,succeed⟩ | ⟨failure,after,stops⟩ := ih next rest onward
        · exact .inl ⟨after,.cons rounds rooted succeed⟩
        · obtain ⟨front,failing,back,before,enough,rfl,succeed,alone⟩ := stops
          exact .inr ⟨failure,after,root :: front,failing,back,before,enough,rfl,
            .cons rounds rooted succeed,alone⟩
      · exact (stops (.inr rfl)).elim

end

end BlockScript
