import BlockScript.Eval.Execute

/-! Relations of runs. What holds of two runs and of what comes next on both sides holds of loops on
both sides. -/
namespace BlockScript

abbrev Pairing := (α : Type) → Run α → Run α → Prop

def Run.Gives {α : Type} (run : Run α) (value : α) : Prop :=
  ∃ state next, run state = .ok value next

/-- Runs that are put together from pairs are pairs. -/
structure Pairing.Joins (pairing : Pairing) : Prop where
  pure : ∀ {α : Type} (value : α), pairing α (pure value) (pure value)
  bind : ∀ {α β : Type} {first second : Run α} {next other : α → Run β},
    pairing α first second →
      (∀ value, first.Gives value ∨ second.Gives value → pairing β (next value) (other value)) →
        pairing β (first >>= next) (second >>= other)

namespace Pairing.Joins

variable {pairing : Pairing} {α β : Type} (joins : pairing.Joins)
include joins

theorem discard {first second : Run α} (paired : pairing α first second) :
    pairing PUnit (discard first) (discard second) :=
  joins.bind paired fun _ _ => joins.pure ()

theorem orNext {first second next other : Run (Option Value)}
    (begun : pairing (Option Value) first second) (goes : pairing (Option Value) next other) :
    pairing (Option Value) (orNext first next) (orNext second other) := by
  refine joins.bind begun ?_
  intro returned _
  cases returned with
  | some value => exact joins.pure (some value)
  | none => exact goes

theorem forEach {step other : β → Run (Option Value)} (items : List β)
    (each : ∀ item, pairing (Option Value) (step item) (other item)) :
    pairing (Option Value) (forEach step items) (forEach other items) := by
  induction items with
  | nil => exact joins.pure none
  | cons item items ih => exact joins.orNext (each item) ih

theorem countUp {step other : Nat → Run (Option Value)} (first count : Nat)
    (each : ∀ item, pairing (Option Value) (step item) (other item)) :
    pairing (Option Value) (countUp step first count) (countUp other first count) := by
  induction count generalizing first with
  | zero => exact joins.pure none
  | succ count ih => exact joins.orNext (each first) (ih (first + 1))

/-- Two loops with the same number of rounds are a pair if their conditions and bodies are. -/
theorem repeatWhile {condition test : Run Bool} {body other : Run (Option Value)} (rounds : Nat)
    (spent : pairing (Option Value) (throw .outOfRounds) (throw .outOfRounds))
    (tested : pairing Bool condition test) (round : pairing (Option Value) body other) :
    pairing (Option Value) (repeatWhile condition body rounds) (repeatWhile test other rounds) := by
  induction rounds with
  | zero => exact spent
  | succ rounds ih =>
    refine joins.bind tested ?_
    intro holds _
    cases holds with
    | true => exact joins.orNext round ih
    | false => exact joins.pure none

end Pairing.Joins

end BlockScript
