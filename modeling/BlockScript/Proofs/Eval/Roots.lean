import BlockScript.Proofs.Eval.Visit

/-! What holds between the roots of a session. -/
namespace BlockScript
open Run

section
variable {rounds : Nat}

/-- A root fails if its statement fails or returns. After it only the log may still change. -/
theorem runRoot_ran (root : Node) (state next : State) (failure : Option Failure)
    (ran : runRoot rounds root state = some (failure,next)) :
    ∃ last log, next = { last with log } ∧
      ((∃ returned, runStatement rounds root (state.executing root) = .ok returned last ∧
          failure = (Fault.ofReturn returned).map (⟨·,root⟩)) ∨
        ∃ fault, runStatement rounds root (state.executing root) = .error (.fault fault) last ∧
          failure = some ⟨fault,root⟩) := by
  have start : state.executing root = { state with log := .executing root :: state.log } := rfl
  unfold runRoot at ran
  rw [start]
  dsimp only at ran
  split at ran
  next returned last same =>
    cases fault : Fault.ofReturn returned with
    | none =>
      simp only [fault,Option.some.injEq,Prod.mk.injEq] at ran
      obtain ⟨rfl,rfl⟩ := ran
      exact ⟨last,last.log,rfl,.inl ⟨returned,same,by rw [fault]; rfl⟩⟩
    | some reason =>
      simp only [fault,Option.some.injEq,Prod.mk.injEq] at ran
      obtain ⟨rfl,rfl⟩ := ran
      exact ⟨last,_,rfl,.inl ⟨returned,same,by rw [fault]; rfl⟩⟩
  next fault last same =>
    simp only [Option.some.injEq,Prod.mk.injEq] at ran
    obtain ⟨rfl,rfl⟩ := ran
    exact ⟨last,_,rfl,.inr ⟨fault,same,rfl⟩⟩
  next => contradiction

theorem runRoot_ends (post : State → Prop) (root : Node) (state next : State)
    (failure : Option Failure) (ran : runRoot rounds root state = some (failure,next))
    (quiet : ∀ state log, post state → post { state with log })
    (ends : Ends (fun _ next => post next) (runStatement rounds root) (state.executing root)) :
    post next := by
  obtain ⟨last,log,rfl,⟨returned,same,_⟩ | ⟨fault,same,_⟩⟩ :=
    runRoot_ran root state next failure ran
  · exact quiet last log ((ends_of_ok _ returned last same).mp ends)
  · exact quiet last log ((ends_of_error _ _ last same).mp ends)

theorem runRoot_congr {others : Nat} (root : Node) (state : State)
    (same : runStatement rounds root (state.executing root) =
      runStatement others root (state.executing root)) :
    runRoot rounds root state = runRoot others root state := by
  unfold State.executing at same
  unfold runRoot
  dsimp only
  rw [same]

/-- A root has a result unless it was short of rounds. -/
theorem runRoot_some (root : Node) (state : State)
    (ends : Ends (fun halt _ => halt ≠ some .outOfRounds) (runStatement rounds root)
      (state.executing root)) : ∃ failure next, runRoot rounds root state = some (failure,next) := by
  unfold runRoot
  dsimp only
  split
  · exact ⟨_,_,rfl⟩
  · exact ⟨_,_,rfl⟩
  next last same => exact ((ends_of_error _ .outOfRounds last same).mp ends rfl).elim

theorem Script.Begins.member {keepGoing : Bool} {roots : List Node} {state before : State}
    {root : Node} (begins : Begins rounds keepGoing roots state root before) : root ∈ roots := by
  induction begins with
  | here => exact List.mem_cons_self
  | later root _ _ _ _ _ _ _ _ _ ih => exact List.mem_cons_of_mem root ih

theorem Session.Begins.member {scripts : List Script} {state before : State} {root : Node}
    (begins : Begins rounds scripts state root before) : ∃ script ∈ scripts, root ∈ script.roots := by
  induction begins with
  | now script scripts state root before begins =>
    exact ⟨script,List.mem_cons_self,begins.member⟩
  | later script _ _ _ _ _ _ _ ih =>
    obtain ⟨other,member,rooted⟩ := ih
    exact ⟨other,List.mem_cons_of_mem script member,rooted⟩

variable {held : State → Prop} {allowed : Node → State → Prop}
  (kept : ∀ root state failure next, allowed root state → held state →
    runRoot rounds root state = some (failure,next) → held next)
include kept

theorem Script.Begins.holds {keepGoing : Bool} {roots : List Node} {state before : State}
    {root : Node} (begins : Begins rounds keepGoing roots state root before)
    (permitted : ∀ root before, Begins rounds keepGoing roots state root before →
      allowed root before) (first : held state) : held before := by
  induction begins with
  | here => exact first
  | later root begun roots state next before failure ran goesOn after ih =>
    have fine := permitted root state (.here root roots state)
    refine ih ?_ (kept root state failure next fine first ran)
    intro other earlier begins
    exact permitted other earlier
      (.later root other roots state next earlier failure ran goesOn begins)

theorem Script.run_holds {script : Script} {state next : State}
    (ran : script.run rounds state = some next)
    (permitted : ∀ root before, Begins rounds script.keepGoing script.roots state root before →
      allowed root before) (first : held state) : held next := by
  obtain ⟨keepGoing,roots⟩ := script
  induction roots generalizing state with
  | nil =>
    cases keepGoing with
    | true =>
      obtain rfl : state = next := by simpa [Script.run,interpretAll] using ran
      exact first
    | false =>
      obtain rfl : state = next := by simpa [Script.run,interpret] using ran
      exact first
  | cons root roots ih =>
    have fine := permitted root state (.here root roots state)
    cases rooted : runRoot rounds root state with
    | none => cases keepGoing <;> simp [Script.run,interpret,interpretAll,rooted] at ran
    | some outcome =>
      obtain ⟨failure,middle⟩ := outcome
      have after := kept root state failure middle fine first rooted
      have onward (goesOn : keepGoing = true ∨ failure = none)
          (ran : Script.run rounds ⟨keepGoing,roots⟩ middle = some next) : held next := by
        refine ih after ran ?_
        intro other earlier begins
        exact permitted other earlier
          (.later root other roots state middle earlier failure rooted goesOn begins)
      cases keepGoing with
      | true =>
        refine onward (.inl rfl) ?_
        simp only [Script.run,interpretAll,rooted] at ran ⊢
        simpa using ran
      | false =>
        cases failure with
        | none =>
          refine onward (.inr rfl) ?_
          simpa [Script.run,interpret,rooted] using ran
        | some failure =>
          obtain rfl : middle = next := by simpa [Script.run,interpret,rooted] using ran
          exact after

/-- What every allowed root keeps holds where a root of the session begins. -/
theorem Session.Begins.holds {scripts : List Script} {state before : State} {root : Node}
    (begins : Begins rounds scripts state root before)
    (permitted : ∀ root before, Begins rounds scripts state root before → allowed root before)
    (first : held state) : held before := by
  induction begins with
  | now script scripts state root before begins =>
    refine Script.Begins.holds kept begins ?_ first
    intro other earlier begins
    exact permitted other earlier (.now script scripts state other earlier begins)
  | later script scripts state next root before ran after ih =>
    have onward := Script.run_holds kept ran (fun other earlier begins =>
      permitted other earlier (.now script scripts state other earlier begins)) first
    refine ih ?_ onward
    intro other earlier begins
    exact permitted other earlier (.later script scripts state next other earlier ran begins)

end

end BlockScript
