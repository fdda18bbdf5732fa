import BlockScript.Eval.Execute

/-! What holds where a run ends. A run ends with a result or by a halt, and in both cases it leaves
a state behind. -/
namespace BlockScript.Run

variable {α β : Type}

/-- The condition holds of how the run ends, if by a halt, and of the state that it leaves. -/
def Ends (post : Option Halt → State → Prop) (run : Run α) (state : State) : Prop :=
  match run state with
  | .ok _ next => post none next
  | .error halt next => post (some halt) next

variable {post : Option Halt → State → Prop} {state : State}

theorem ends_of_ok (run : Run α) (value : α) (next : State) (same : run state = .ok value next) :
    Ends post run state ↔ post none next := by
  unfold Ends
  rw [same]

theorem ends_of_error (run : Run α) (halt : Halt) (next : State)
    (same : run state = .error halt next) : Ends post run state ↔ post (some halt) next := by
  unfold Ends
  rw [same]

theorem Ends.mono {other : Option Halt → State → Prop} {run : Run α} (ends : Ends post run state)
    (weaker : ∀ halt next, post halt next → other halt next) : Ends other run state := by
  unfold Ends at ends ⊢
  split at ends
  · exact weaker none _ ends
  · exact weaker (some _) _ ends

theorem Ends.lift {result : Except Fault α} (fine : ∀ value, result = .ok value → post none state)
    (fails : ∀ fault, result = .error fault → post (some (.fault fault)) state) :
    Ends post (Run.lift result) state := by
  cases result with
  | ok value => exact fine value rfl
  | error fault => exact fails fault rfl

theorem bind_of_ok (first : Run α) (next : α → Run β) (state middle : State) (value : α)
    (same : first state = .ok value middle) : (first >>= next) state = next value middle := by
  change EStateM.bind first next state = _
  simp [EStateM.bind,same]

theorem bind_of_error (first : Run α) (next : α → Run β) (state middle : State) (halt : Halt)
    (same : first state = .error halt middle) : (first >>= next) state = .error halt middle := by
  change EStateM.bind first next state = _
  simp [EStateM.bind,same]

theorem between_of_ok (before after : State → State) (run : Run α) (state next : State) (value : α)
    (same : run (before state) = .ok value next) :
    between before after run state = .ok value (after next) := by
  unfold between
  rw [same]

theorem between_of_error (before after : State → State) (run : Run α) (state next : State)
    (halt : Halt) (same : run (before state) = .error halt next) :
    between before after run state = .error halt (after next) := by
  unfold between
  rw [same]

/-- A run in two parts succeeds only if both parts do. -/
theorem ok_of_bind (first : Run α) (next : α → Run β) (state last : State) (result : β)
    (ran : (first >>= next) state = .ok result last) :
    ∃ value middle, first state = .ok value middle ∧ next value middle = .ok result last := by
  cases same : first state with
  | ok value middle => exact ⟨value,middle,rfl,by rw [← ran,bind_of_ok _ _ _ _ _ same]⟩
  | error halt middle =>
    rw [bind_of_error _ _ _ _ _ same] at ran
    contradiction

theorem Ends.bind {first : Run α} {next : α → Run β} (begun : Ends post first state)
    (goes : ∀ value middle, first state = .ok value middle → post none middle →
      Ends post (next value) middle) : Ends post (first >>= next) state := by
  cases same : first state with
  | ok value middle =>
    have continued := goes value middle same ((ends_of_ok first value middle same).mp begun)
    unfold Ends at continued ⊢
    rwa [bind_of_ok first next state middle value same]
  | error halt middle =>
    rw [ends_of_error _ halt middle (bind_of_error first next state middle halt same)]
    exact (ends_of_error first halt middle same).mp begun

theorem ends_get (next : State → Run α) :
    Ends post (get >>= next) state ↔ Ends post (next state) state := Iff.rfl

theorem scope_bind (next : Scope → Run α) (state : State) :
    (scope >>= next) state = next state.scope state := rfl

theorem ends_scope (next : Scope → Run α) :
    Ends post (scope >>= next) state ↔ Ends post (next state.scope) state := Iff.rfl

theorem ends_record (event : Event) (next : Unit → Run α) :
    Ends post (record event >>= next) state ↔
      Ends post (next ()) { state with log := event :: state.log } := Iff.rfl

theorem ends_discard (run : Run α) : Ends post (discard run) state ↔ Ends post run state := by
  unfold Ends
  cases same : run state <;>
    simp [discard,Functor.discard,Functor.mapConst,EStateM.map,same]

theorem ok_of_discard (run : Run α) (nothing : PUnit) (next : State)
    (ran : discard run state = .ok nothing next) : ∃ value, run state = .ok value next := by
  cases same : run state with
  | ok value last =>
    simp only [discard,Functor.discard,Functor.mapConst,Function.comp,EStateM.map,same] at ran
    cases ran
    exact ⟨value,rfl⟩
  | error halt last =>
    simp only [discard,Functor.discard,Functor.mapConst,Function.comp,EStateM.map,same] at ran
    cases ran

theorem ends_between (before after : State → State) (run : Run α) :
    Ends post (between before after run) state ↔
      Ends (fun halt next => post halt (after next)) run (before state) := by
  unfold Ends between
  cases run (before state) <;> exact Iff.rfl

theorem ends_within (context : Context) (run : Run α) :
    Ends post (within context run) state ↔
      Ends (fun halt next => post halt { next with scope := next.scope.pop }) run
        { state with scope := state.scope.push context } := ends_between _ _ run

theorem ends_deeper (run : Run α) :
    Ends post (deeper run) state ↔
      Ends (fun halt next => post halt { next with depth := next.depth - 1 }) run
        { state with depth := state.depth + 1 } := ends_between _ _ run

theorem Ends.orNext {first next : Run (Option Value)} (begun : Ends post first state)
    (goes : ∀ middle, first state = .ok none middle → post none middle → Ends post next middle) :
    Ends post (orNext first next) state := by
  refine begun.bind ?_
  intro returned middle same held
  cases returned with
  | some value => exact held
  | none => exact goes middle same held

end BlockScript.Run
