import BlockScript.Proofs.Eval.Ends
import BlockScript.Proofs.Eval.Joins

/-! Two runs side by side. They end alike if both have one result or both halt for one reason, and
if the states that they leave belong together again. -/
namespace BlockScript

/-- A run may be short of rounds only where that is allowed. -/
abbrev Halt.Allowed (endless : Prop) (halt : Halt) : Prop := halt = .outOfRounds → endless

namespace Run

variable {α β : Type}

def Meet (related : State → State → Prop) (endless : Prop) :
    EStateM.Result Halt State α → EStateM.Result Halt State α → Prop
  | .ok value left, .ok other right => value = other ∧ related left right
  | .error halt left, .error other right =>
    halt = other ∧ halt.Allowed endless ∧ related left right
  | _, _ => False

def Alike (related : State → State → Prop) (endless : Prop) (first second : Run α) : Prop :=
  ∀ left right, related left right → Meet related endless (first left) (second right)

section
variable {related : State → State → Prop} {endless : Prop}

theorem Meet.eq {first second : EStateM.Result Halt State α}
    (meet : Meet related endless first second)
    (same : ∀ left right, related left right → left = right) : first = second := by
  cases first <;> cases second
  · rw [meet.1,same _ _ meet.2]
  · exact meet.elim
  · exact meet.elim
  · rw [meet.1,same _ _ meet.2.2]

/-- One of the two runs may change the state before it and again after it. -/
theorem Meet.between {inner : State → State → Prop} {before after : State → State}
    {first second : Run α} {left right : State}
    (meet : Meet inner endless (first (before left)) (second right))
    (ended : ∀ left right, inner left right → related (after left) right) :
    Meet related endless (between before after first left) (second right) := by
  unfold Run.between
  cases ran : first (before left) <;> cases same : second right <;> rw [ran,same] at meet
  · exact ⟨meet.1,ended _ _ meet.2⟩
  · exact meet.elim
  · exact meet.elim
  · exact ⟨meet.1,meet.2.1,ended _ _ meet.2.2⟩

theorem Meet.bind {first second : Run α} {next other : α → Run β} {left right : State}
    (begun : Meet related endless (first left) (second right))
    (goes : ∀ value middle last, first left = .ok value middle → related middle last →
      Meet related endless (next value middle) (other value last)) :
    Meet related endless ((first >>= next) left) ((second >>= other) right) := by
  cases ran : first left with
  | ok value middle =>
    cases met : second right with
    | ok same last =>
      rw [ran,met] at begun
      obtain ⟨rfl,after⟩ := begun
      rw [bind_of_ok _ _ _ _ _ ran,bind_of_ok _ _ _ _ _ met]
      exact goes value middle last ran after
    | error halt last =>
      rw [ran,met] at begun
      exact begun.elim
  | error halt middle =>
    cases met : second right with
    | ok same last =>
      rw [ran,met] at begun
      exact begun.elim
    | error same last =>
      rw [ran,met] at begun
      rwa [bind_of_error _ _ _ _ _ ran,bind_of_error _ _ _ _ _ met]

theorem alike_pure (value : α) : Alike related endless (pure value) (pure value) :=
  fun _ _ here => ⟨rfl,here⟩

theorem alike_throw (halt : Halt) (fine : halt.Allowed endless) :
    Alike related endless (throw halt : Run α) (throw halt) :=
  fun _ _ here => ⟨rfl,fine,here⟩

theorem alike_fail (fault : Fault) : Alike related endless (fail fault : Run α) (fail fault) :=
  alike_throw (.fault fault) nofun

theorem alike_lift (result : Except Fault α) :
    Alike related endless (lift result) (lift result) := by
  cases result with
  | ok value => exact alike_pure value
  | error fault => exact alike_fail fault

theorem alike_modify (change : State → State)
    (kept : ∀ left right, related left right → related (change left) (change right)) :
    Alike related endless (modify change : Run Unit) (modify change) :=
  fun left right here => ⟨rfl,kept left right here⟩

/-- Runs put together from runs that are alike are alike. -/
theorem alike_joins : Pairing.Joins fun _ => Alike related endless where
  pure := alike_pure
  bind := by
    intro α β first second next other begun goes left right here
    refine (begun left right here).bind ?_
    intro value middle last ran after
    exact goes value (.inl ⟨left,middle,ran⟩) middle last after

namespace Alike

theorem bind {first second : Run α} {next other : α → Run β}
    (begun : Alike related endless first second)
    (goes : ∀ value, Alike related endless (next value) (other value)) :
    Alike related endless (first >>= next) (second >>= other) :=
  alike_joins.bind begun fun value _ => goes value

theorem get {next other : State → Run α}
    (goes : ∀ left right, related left right → Alike related endless (next left) (other right)) :
    Alike related endless (get >>= next) (get >>= other) :=
  fun left right here => goes left right here left right here

theorem scope {next other : Scope → Run α}
    (goes : ∀ left right, related left right →
      Alike related endless (next left.scope) (other right.scope)) :
    Alike related endless (scope >>= next) (scope >>= other) :=
  fun left right here => goes left right here left right here

theorem discard {first second : Run α} (alike : Alike related endless first second) :
    Alike related endless (discard first) (discard second) := alike_joins.discard alike

theorem orNext {first second next other : Run (Option Value)}
    (begun : Alike related endless first second) (goes : Alike related endless next other) :
    Alike related endless (orNext first next) (orNext second other) := alike_joins.orNext begun goes

theorem repeatWhile {condition test : Run Bool} {body other : Run (Option Value)} (rounds : Nat)
    (fine : endless) (tested : Alike related endless condition test)
    (round : Alike related endless body other) :
    Alike related endless (repeatWhile condition body rounds) (repeatWhile test other rounds) :=
  alike_joins.repeatWhile rounds (alike_throw .outOfRounds fun _ => fine) tested round

theorem between {inner : State → State → Prop} {before after : State → State}
    {first second : Run α} (alike : Alike inner endless first second)
    (begun : ∀ left right, related left right → inner (before left) (before right))
    (ended : ∀ left right, inner left right → related (after left) (after right)) :
    Alike related endless (between before after first) (between before after second) := by
  intro left right here
  have met := alike _ _ (begun left right here)
  unfold Run.between
  cases ran : first (before left) <;> cases same : second (before right) <;> rw [ran,same] at met
  · exact ⟨met.1,ended _ _ met.2⟩
  · exact met.elim
  · exact met.elim
  · exact ⟨met.1,met.2.1,ended _ _ met.2.2⟩

end Alike

end

end Run

end BlockScript
