import BlockScript.Proofs.Eval.Ends
import BlockScript.Proofs.Eval.Joins

/-! Runs that uphold a property of states and halt only for harmless reasons. -/
namespace BlockScript.Run

variable {α β : Type}

/-- From a state with the property the run ends in one, and halts for no other than a harmless
reason. -/
def Guards (held : State → Prop) (harmless : Halt → Prop) (run : Run α) : Prop :=
  ∀ state, held state →
    Ends (fun halt next => (∀ reason, halt = some reason → harmless reason) ∧ held next) run state

variable {held : State → Prop} {harmless : Halt → Prop}

theorem Guards.ok {run : Run α} {state next : State} {value : α}
    (guards : Guards held harmless run) (here : held state) (ran : run state = .ok value next) :
    held next := ((ends_of_ok run value next ran).mp (guards state here)).2

theorem guards_pure (value : α) : Guards held harmless (pure value) :=
  fun _ here => ⟨fun _ => nofun,here⟩

theorem guards_throw (reason : Halt) (fine : harmless reason) :
    Guards held harmless (throw reason : Run α) := by
  intro state here
  refine ⟨?_,here⟩
  rintro _ ⟨⟩
  exact fine

theorem guards_fail (fault : Fault) (fine : harmless (.fault fault)) :
    Guards held harmless (fail fault : Run α) := guards_throw (.fault fault) fine

theorem guards_lift (result : Except Fault α)
    (fine : ∀ fault, result = .error fault → harmless (.fault fault)) :
    Guards held harmless (lift result) := by
  cases result with
  | ok value => exact guards_pure value
  | error fault => exact guards_fail fault (fine fault rfl)

theorem guards_modify (change : State → State) (kept : ∀ state, held state → held (change state)) :
    Guards held harmless (modify change : Run Unit) :=
  fun state here => ⟨fun _ => nofun,kept state here⟩

theorem Guards.bind_of_gives {first : Run α} {next : α → Run β}
    (begun : Guards held harmless first)
    (goes : ∀ value, first.Gives value → Guards held harmless (next value)) :
    Guards held harmless (first >>= next) := by
  intro state here
  refine (begun state here).bind ?_
  intro value middle ran after
  exact goes value ⟨state,middle,ran⟩ middle after.2

/-- Both of two runs uphold the property. -/
theorem guards_joins : Pairing.Joins fun _ first second =>
    Guards held harmless first ∧ Guards held harmless second where
  pure := fun value => ⟨guards_pure value,guards_pure value⟩
  bind := by
    rintro α β first second next other ⟨begun,started⟩ goes
    exact ⟨begun.bind_of_gives fun value given => (goes value (.inl given)).1,
      started.bind_of_gives fun value given => (goes value (.inr given)).2⟩

namespace Guards

theorem bind {first : Run α} {next : α → Run β} (begun : Guards held harmless first)
    (goes : ∀ value, Guards held harmless (next value)) : Guards held harmless (first >>= next) :=
  begun.bind_of_gives fun value _ => goes value

theorem get {next : State → Run α} (goes : ∀ seen, held seen → Guards held harmless (next seen)) :
    Guards held harmless (get >>= next) := by
  intro state here
  exact (ends_get next).mpr (goes state here state here)

theorem scope {next : Scope → Run α}
    (goes : ∀ seen, held seen → Guards held harmless (next seen.scope)) :
    Guards held harmless (scope >>= next) := by
  intro state here
  exact (ends_scope next).mpr (goes state here state here)

theorem discard {run : Run α} (guards : Guards held harmless run) :
    Guards held harmless (discard run) := (guards_joins.discard ⟨guards,guards⟩).1

theorem orNext {first next : Run (Option Value)} (begun : Guards held harmless first)
    (goes : Guards held harmless next) : Guards held harmless (orNext first next) :=
  (guards_joins.orNext ⟨begun,begun⟩ ⟨goes,goes⟩).1

theorem forEach {step : β → Run (Option Value)} (items : List β)
    (each : ∀ item, Guards held harmless (step item)) :
    Guards held harmless (forEach step items) :=
  (guards_joins.forEach items fun item => ⟨each item,each item⟩).1

theorem countUp {step : Nat → Run (Option Value)} (first count : Nat)
    (each : ∀ item, Guards held harmless (step item)) :
    Guards held harmless (countUp step first count) :=
  (guards_joins.countUp first count fun item => ⟨each item,each item⟩).1

theorem repeatWhile {condition : Run Bool} {body : Run (Option Value)} (rounds : Nat)
    (fine : harmless .outOfRounds) (tested : Guards held harmless condition)
    (round : Guards held harmless body) :
    Guards held harmless (repeatWhile condition body rounds) := by
  have spent : Guards held harmless (throw .outOfRounds : Run (Option Value)) :=
    guards_throw .outOfRounds fine
  exact (guards_joins.repeatWhile rounds ⟨spent,spent⟩ ⟨tested,tested⟩ ⟨round,round⟩).1

theorem write (text : String) (fine : harmless (.fault .sinkFull))
    (kept : ∀ state sink, held state → held { state with sink }) :
    Guards held harmless (write text) := by
  refine Guards.get ?_
  intro state _
  generalize state.sink.write text = outcome
  obtain ⟨fits,sink⟩ := outcome
  refine (guards_modify _ fun other => kept other sink).bind ?_
  intro _
  cases fits with
  | true => exact guards_pure ()
  | false => exact guards_fail .sinkFull fine

theorem record (event : Event) (kept : ∀ state log, held state → held { state with log }) :
    Guards held harmless (record event) :=
  guards_modify _ fun state => kept state _

theorem command (command : HandlerCommand) (name : String)
    (kept : ∀ state handlers log, held state → held { state with handlers, log }) :
    Guards held harmless (Run.command command name) := by
  refine Guards.get ?_
  intro state _
  refine (guards_modify _ fun other => kept other _ other.log).bind ?_
  intro _
  exact Guards.record _ fun other log => kept other other.handlers log

theorem within {inner : State → Prop} {run : Run α} (context : Context)
    (guards : Guards inner harmless run)
    (pushed : ∀ state, held state → inner { state with scope := state.scope.push context })
    (popped : ∀ state, inner state → held { state with scope := state.scope.pop }) :
    Guards held harmless (within context run) := by
  intro state here
  refine (ends_within context run).mpr ((guards _ (pushed state here)).mono ?_)
  intro _ next after
  exact ⟨after.1,popped next after.2⟩

theorem deeper {inner : State → Prop} {run : Run α} (guards : Guards inner harmless run)
    (down : ∀ state, held state → inner { state with depth := state.depth + 1 })
    (up : ∀ state, inner state → held { state with depth := state.depth - 1 }) :
    Guards held harmless (deeper run) := by
  intro state here
  refine (ends_deeper run).mpr ((guards _ (down state here)).mono ?_)
  intro _ next after
  exact ⟨after.1,up next after.2⟩

end Guards

end BlockScript.Run
