import BlockScript.Proofs.Eval.Follows
import BlockScript.Proofs.Eval.Roots

/-! Sessions that write to a sink with a limit. -/
namespace BlockScript
open Run

def Script.outcome (rounds : Nat) (script : Script) (state : State) :
    Option (List Failure × State) :=
  if script.keepGoing then interpretAll rounds script.roots state
  else (interpret rounds script.roots state).map fun (failure,state) => (failure.toList,state)

def Session.outcome (rounds : Nat) : List Script → State → Option (List (List Failure) × State)
  | [], state => some ([],state)
  | script :: scripts, state => do
    let (failures,state) ← script.outcome rounds state
    let (rest,state) ← outcome rounds scripts state
    return (failures :: rest,state)

/-- A root of a session, with what is ahead of it and what follows it in its file and in the other
files. -/
structure Session.Place where
  earlier : List Script
  keepGoing : Bool
  front : List Node
  root : Node
  back : List Node
  later : List Script

namespace Session.Place

def scripts (place : Place) : List Script :=
  place.earlier ++ ⟨place.keepGoing,place.front ++ place.root :: place.back⟩ :: place.later

def ahead (place : Place) : List Script := place.earlier ++ [⟨place.keepGoing,place.front⟩]

end Session.Place

structure Passing (rounds others most : Nat) (root : Node) (before : State) : Prop where
  fits : before.Fits most
  passes : ∃ failure after, runRoot others root before = some (failure,after) ∧
    most < after.sink.written.size
  fails : ∃ after, runRoot rounds root (before.limitedTo most) =
    some (some ⟨.sinkFull,root⟩,after)

section
variable {rounds others most : Nat}

theorem runRoot_grows (root : Node) (state next : State) (failure : Option Failure)
    (ran : runRoot rounds root state = some (failure,next)) : state.sink.Grows next.sink := by
  have follows := (steps_follow 0 rounds rounds).statement maxDepth root fun _ _ => trivial
  refine runRoot_ends (fun next => state.sink.Grows next.sink) root state next failure ran
    (fun _ _ grows => grows) ?_
  exact (follows.grows state.sink (state.executing root) (.refl _)).mono fun _ _ after => after.2

/-- How a root may end with the limit and without: alike, or in the first case because it passed
the limit. -/
theorem runRoot_cut (root : Node) (state : State) (fits : state.Fits most)
    (reported failure : Option Failure) (left right : State)
    (limited : runRoot rounds root (state.limitedTo most) = some (reported,left))
    (unlimited : runRoot others root state = some (failure,right)) :
    (reported = failure ∧ left = right.limitedTo most ∧ right.Fits most) ∨
      (reported = some ⟨.sinkFull,root⟩ ∧ left.Overflows most right) := by
  have follows := (steps_follow most rounds others).statement maxDepth root fun _ _ => trivial
  have cut := follows.cut (state.executing root) (fits.of_sink rfl)
  change Cut most (runStatement rounds root _) (runStatement others root _) at cut
  simp only [State.executing,State.limitedTo] at cut
  simp only [runRoot,State.limitedTo] at limited unlimited
  generalize runStatement rounds root _ = first at cut limited
  generalize runStatement others root _ = second at cut unlimited
  cases cut with
  | ok returned next fits =>
    refine .inl ?_
    cases returned with
    | some value =>
      cases limited
      cases unlimited
      exact ⟨rfl,rfl,fits.of_sink rfl⟩
    | none =>
      cases limited
      cases unlimited
      exact ⟨rfl,rfl,fits⟩
  | halted halt next fits =>
    cases halt with
    | fault fault =>
      cases limited
      cases unlimited
      exact .inl ⟨rfl,rfl,fits.of_sink rfl⟩
    | outOfRounds => contradiction
  | full next _ overflows =>
    cases limited
    refine .inr ⟨rfl,overflows.of_sink rfl ?_⟩
    cases second with
    | ok returned next =>
      cases returned <;> cases unlimited <;> rfl
    | error halt next =>
      cases halt with
      | fault fault =>
        cases unlimited
        rfl
      | outOfRounds => contradiction
  | unfinished => contradiction
  | endless => contradiction

namespace Script

/-- A file goes on after its first root unless that failed and the file is to stop there. -/
theorem outcome_cons (keepGoing : Bool) (root : Node) (roots : List Node) (state : State) :
    outcome rounds ⟨keepGoing,root :: roots⟩ state =
      (runRoot rounds root state).bind fun (failure,next) =>
        if keepGoing = true ∨ failure = none then
          (outcome rounds ⟨keepGoing,roots⟩ next).map fun (failures,last) =>
            (failure.toList ++ failures,last)
        else some (failure.toList,next) := by
  cases keepGoing <;> cases ran : runRoot rounds root state with
  | none => simp [outcome,interpret,interpretAll,ran]
  | some ended =>
    obtain ⟨failure,next⟩ := ended
    cases failure <;> simp [outcome,interpret,interpretAll,ran,Function.comp_def]

def Continues (rounds : Nat) (keepGoing : Bool) (roots : List Node) (failure : Option Failure)
    (next last : State) (failures : List Failure) : Prop :=
  (∃ rest, (keepGoing = true ∨ failure = none) ∧
      outcome rounds ⟨keepGoing,roots⟩ next = some (rest,last) ∧
      failures = failure.toList ++ rest) ∨
    (¬ (keepGoing = true ∨ failure = none) ∧ last = next ∧ failures = failure.toList)

theorem outcome_ran (keepGoing : Bool) (root : Node) (roots : List Node) (state last : State)
    (failures : List Failure)
    (ran : outcome rounds ⟨keepGoing,root :: roots⟩ state = some (failures,last)) :
    ∃ failure next, runRoot rounds root state = some (failure,next) ∧
      Continues rounds keepGoing roots failure next last failures := by
  rw [outcome_cons] at ran
  obtain ⟨⟨failure,next⟩,rooted,ran⟩ := Option.bind_eq_some_iff.mp ran
  refine ⟨failure,next,rooted,?_⟩
  dsimp only at ran
  split at ran
  next goesOn =>
    obtain ⟨⟨rest,_⟩,after,same⟩ := Option.map_eq_some_iff.mp ran
    cases same
    exact .inl ⟨rest,goesOn,after,rfl⟩
  next stops =>
    cases ran
    exact .inr ⟨stops,rfl,rfl⟩

theorem outcome_grows (script : Script) (state last : State) (failures : List Failure)
    (ran : script.outcome rounds state = some (failures,last)) : state.sink.Grows last.sink := by
  obtain ⟨keepGoing,roots⟩ := script
  induction roots generalizing state failures with
  | nil =>
    cases keepGoing <;> cases ran <;> exact .refl _
  | cons root roots ih =>
    obtain ⟨failure,next,rooted,⟨rest,_,after,_⟩ | ⟨_,rfl,_⟩⟩ :=
      outcome_ran keepGoing root roots state last failures ran
    · exact (runRoot_grows root state next failure rooted).trans (ih next rest after)
    · exact runRoot_grows root state last failure rooted

theorem Continues.grows {keepGoing : Bool} {roots : List Node} {failure : Option Failure}
    {next last : State} {failures : List Failure}
    (continues : Continues rounds keepGoing roots failure next last failures) :
    next.sink.Grows last.sink := by
  rcases continues with ⟨rest,_,after,_⟩ | ⟨_,rfl,_⟩
  · exact outcome_grows _ next last rest after
  · exact .refl _

/-- Up to one of its roots a file does the same with the limit and without, and the root passes the
limit. -/
structure Passes (rounds others most : Nat) (keepGoing : Bool) (front : List Node) (root : Node)
    (state before : State) (failures : List Failure) : Prop where
  limited : outcome rounds ⟨keepGoing,front⟩ (state.limitedTo most) =
    some (failures,before.limitedTo most)
  unlimited : outcome others ⟨keepGoing,front⟩ state = some (failures,before)
  reached : keepGoing = true ∨ failures = []
  passing : Passing rounds others most root before

theorem Passes.cons {keepGoing : Bool} {front : List Node} {root : Node} {state next before : State}
    {failures : List Failure} (first : Node) (failure : Option Failure)
    (limited : runRoot rounds first (state.limitedTo most) = some (failure,next.limitedTo most))
    (unlimited : runRoot others first state = some (failure,next))
    (goesOn : keepGoing = true ∨ failure = none)
    (passes : Passes rounds others most keepGoing front root next before failures) :
    Passes rounds others most keepGoing (first :: front) root state before
      (failure.toList ++ failures) where
  limited := by simp [outcome_cons,limited,goesOn,passes.limited]
  unlimited := by simp [outcome_cons,unlimited,goesOn,passes.unlimited]
  reached := by
    rcases goesOn with keeps | rfl
    · exact .inl keeps
    · exact passes.reached
  passing := passes.passing

/-- A file leaves the same with the limit and without, or one of its roots passes the limit. -/
theorem outcome_cut (keepGoing : Bool) (roots : List Node) (state left right : State)
    (fits : state.Fits most) (reported failures : List Failure)
    (limited : outcome rounds ⟨keepGoing,roots⟩ (state.limitedTo most) = some (reported,left))
    (unlimited : outcome others ⟨keepGoing,roots⟩ state = some (failures,right)) :
    (reported = failures ∧ left = right.limitedTo most ∧ right.Fits most) ∨
      (left.Overflows most right ∧ ∃ front root back before ahead, roots = front ++ root :: back ∧
        Passes rounds others most keepGoing front root state before ahead) := by
  induction roots generalizing state reported failures with
  | nil =>
    cases keepGoing <;> cases limited <;> cases unlimited <;> exact .inl ⟨rfl,rfl,fits⟩
  | cons root roots ih =>
    obtain ⟨report,seen,first,goes⟩ := outcome_ran keepGoing root roots _ left reported limited
    obtain ⟨failure,next,second,went⟩ :=
      outcome_ran keepGoing root roots state right failures unlimited
    rcases runRoot_cut root state fits report failure seen next first second with
      ⟨rfl,rfl,fits⟩ | ⟨rfl,overflows⟩
    -- The root failed alike on both sides, so that both go on or both stop.
    · rcases goes with ⟨rest,goesOn,after,rfl⟩ | ⟨stops,rfl,rfl⟩
      · obtain ⟨more,_,whole,rfl⟩ := went.resolve_right fun stopped => stopped.1 goesOn
        rcases ih next fits rest more after whole with
          ⟨rfl,same⟩ | ⟨overflows,front,passing,back,before,ahead,rfl,passes⟩
        · exact .inl ⟨rfl,same⟩
        · exact .inr ⟨overflows,root :: front,passing,back,before,_,rfl,
            passes.cons root report first second goesOn⟩
      · obtain ⟨_,rfl,rfl⟩ := went.resolve_left fun gone => stops gone.choose_spec.1
        exact .inl ⟨rfl,rfl,fits⟩
    -- The root passed the limit. What either side does after it no longer matters.
    · have passing : Passing rounds others most root state :=
        ⟨fits,⟨failure,next,second,overflows.passed⟩,seen,first⟩
      refine .inr ⟨overflows.later goes.grows went.grows,[],root,roots,state,[],rfl,?_⟩
      exact ⟨by cases keepGoing <;> rfl,by cases keepGoing <;> rfl,.inr rfl,passing⟩

end Script

namespace Session

theorem outcome_ran (script : Script) (scripts : List Script) (state last : State)
    (reports : List (List Failure))
    (ran : outcome rounds (script :: scripts) state = some (reports,last)) :
    ∃ failures next rest, script.outcome rounds state = some (failures,next) ∧
      outcome rounds scripts next = some (rest,last) ∧ reports = failures :: rest := by
  obtain ⟨⟨failures,next⟩,first,ran⟩ := Option.bind_eq_some_iff.mp ran
  obtain ⟨⟨rest,_⟩,after,ran⟩ := Option.bind_eq_some_iff.mp ran
  cases ran
  exact ⟨failures,next,rest,first,after,rfl⟩

theorem outcome_cons (script : Script) (scripts : List Script) (state next last : State)
    (failures : List Failure) (rest : List (List Failure))
    (first : script.outcome rounds state = some (failures,next))
    (after : outcome rounds scripts next = some (rest,last)) :
    outcome rounds (script :: scripts) state = some (failures :: rest,last) := by
  simp [outcome,first,after]

theorem outcome_grows (scripts : List Script) (state last : State) (reports : List (List Failure))
    (ran : outcome rounds scripts state = some (reports,last)) : state.sink.Grows last.sink := by
  induction scripts generalizing state reports with
  | nil =>
    cases ran
    exact .refl _
  | cons script scripts ih =>
    obtain ⟨failures,next,rest,first,after,_⟩ := outcome_ran script scripts state last reports ran
    exact (script.outcome_grows state next failures first).trans (ih next rest after)

structure Place.Passes (rounds others most : Nat) (place : Place) (state before : State) :
    Prop where
  alike : ∃ reports failures,
    outcome rounds place.ahead (state.limitedTo most) =
      some (reports ++ [failures],before.limitedTo most) ∧
    outcome others place.ahead state = some (reports ++ [failures],before) ∧
    (place.keepGoing = true ∨ failures = [])
  passing : Passing rounds others most place.root before

theorem Place.Passes.later {place : Place} {state next before : State} (script : Script)
    (failures : List Failure)
    (limited : script.outcome rounds (state.limitedTo most) =
      some (failures,next.limitedTo most))
    (unlimited : script.outcome others state = some (failures,next))
    (passes : place.Passes rounds others most next before) :
    Place.Passes rounds others most { place with earlier := script :: place.earlier } state
      before where
  alike := by
    obtain ⟨reports,failed,cut,whole,reached⟩ := passes.alike
    refine ⟨failures :: reports,failed,?_,?_,reached⟩
    · exact outcome_cons script place.ahead _ _ _ failures _ limited cut
    · exact outcome_cons script place.ahead _ _ _ failures _ unlimited whole
  passing := passes.passing

theorem outcome_cut (scripts : List Script) (state left right : State) (fits : state.Fits most)
    (reported reports : List (List Failure))
    (limited : outcome rounds scripts (state.limitedTo most) = some (reported,left))
    (unlimited : outcome others scripts state = some (reports,right)) :
    (reported = reports ∧ left = right.limitedTo most ∧ right.Fits most) ∨
      (left.Overflows most right ∧ ∃ place before, place.scripts = scripts ∧
        Place.Passes rounds others most place state before) := by
  induction scripts generalizing state reported reports with
  | nil =>
    cases limited
    cases unlimited
    exact .inl ⟨rfl,rfl,fits⟩
  | cons script scripts ih =>
    obtain ⟨given,seen,rest,first,goes,rfl⟩ := outcome_ran script scripts _ left reported limited
    obtain ⟨failures,next,more,second,went,rfl⟩ :=
      outcome_ran script scripts state right reports unlimited
    obtain ⟨keepGoing,roots⟩ := script
    rcases Script.outcome_cut keepGoing roots state seen next fits given failures first second with
      ⟨rfl,rfl,fits⟩ | ⟨overflows,front,root,back,before,ahead,rfl,passes⟩
    · rcases ih next fits rest more goes went with
        ⟨rfl,same⟩ | ⟨overflows,place,before,rfl,passes⟩
      · exact .inl ⟨rfl,same⟩
      · exact .inr ⟨overflows,{ place with earlier := _ :: place.earlier },before,rfl,
          passes.later _ given first second⟩
    · have kept := overflows.later (outcome_grows scripts seen left rest goes)
        (outcome_grows scripts next right more went)
      refine .inr ⟨kept,⟨[],keepGoing,front,root,back,scripts⟩,before,rfl,?_,passes.passing⟩
      exact ⟨[],ahead,outcome_cons _ [] _ _ _ ahead [] passes.limited rfl,
        outcome_cons _ [] _ _ _ ahead [] passes.unlimited rfl,passes.reached⟩

/-- A sink that takes so many bytes only cuts off the output of a session, in whatever ways its
files are run. It keeps the first bytes of what the session writes without a limit. Where these are
all, the two sessions fail alike in all files and end in the same state. Else there is a root up to
which both did the same, which then writes the byte beyond the limit and fails for that; the sink
keeps nothing of what follows. -/
theorem limit_truncates (rounds others most : Nat) (scripts : List Script) (left right : State)
    (reported reports : List (List Failure))
    (limited : outcome rounds scripts (.initial (.limited most)) = some (reported,left))
    (unlimited : outcome others scripts (.initial .unlimited) = some (reports,right)) :
    left.sink.written = right.sink.written.extract 0 most ∧
      (right.sink.written.size ≤ most → reported = reports ∧ left = right.limitedTo most) ∧
      (most < right.sink.written.size → ∃ place before, place.scripts = scripts ∧
        Place.Passes rounds others most place (.initial .unlimited) before) := by
  have fits : (State.initial .unlimited).Fits most := ⟨rfl,Nat.zero_le most⟩
  rcases outcome_cut scripts _ left right fits reported reports limited unlimited with
    ⟨rfl,rfl,fits⟩ | ⟨overflows,passes⟩
  · refine ⟨(extract_of_le _ most fits.fits).symm,fun _ => ⟨rfl,rfl⟩,?_⟩
    intro passed
    exact absurd fits.fits (Nat.not_le_of_lt passed)
  · refine ⟨by rw [overflows.kept],?_,fun _ => passes⟩
    intro small
    exact absurd small (Nat.not_le_of_lt overflows.passed)

end Session

end

/-- `int f() do put "ab"; done f(); put 1 / 0; put f; put "cd";` to be run to its end, and then
`put "e";`. -/
def describing : List Script :=
  [⟨true,[.function "f" .int [] [.block [.put (.string "ab")]],.callNoArgs "f",
      .put (.arithmetic .divide (.int 1) (.int 0)),.put (.name "f"),.put (.string "cd")]⟩,
    ⟨false,[.put (.string "e")]⟩]

/-- Five bytes take what `f` writes and the beginning of its description. A hundred take all. -/
theorem describing_truncates :
    (∃ reported reports left right,
      Session.outcome 0 describing (.initial (.limited 5)) = some (reported,left) ∧
      Session.outcome 0 describing (.initial .unlimited) = some (reports,right) ∧
      left.sink.written = "ab\nf ".toUTF8 ∧
      left.sink.written = right.sink.written.extract 0 5 ∧
      ∃ place before, place.scripts = describing ∧
        Session.Place.Passes 0 0 5 place (.initial .unlimited) before) ∧
    ∃ reported left right,
      Session.outcome 0 describing (.initial (.limited 100)) = some (reported,left) ∧
      Session.outcome 0 describing (.initial .unlimited) = some (reported,right) ∧
      left = right.limitedTo 100 := by
  have five : (Session.outcome 0 describing (.initial (.limited 5))).map (·.2.sink.written) =
      some "ab\nf ".toUTF8 := by decide +kernel
  have hundred : (Session.outcome 0 describing (.initial (.limited 100))).isSome = true := by
    decide +kernel
  have all : (Session.outcome 0 describing (.initial .unlimited)).map (·.2.sink.written) =
      some "ab\nf is a function with:\n\tint specifier\ncd\ne\n".toUTF8 := by decide +kernel
  obtain ⟨⟨reports,right⟩,unlimited,written⟩ := Option.map_eq_some_iff.mp all
  constructor
  · obtain ⟨⟨reported,left⟩,limited,kept⟩ := Option.map_eq_some_iff.mp five
    have truncates := Session.limit_truncates 0 0 5 describing left right reported reports limited
      unlimited
    refine ⟨reported,reports,left,right,limited,unlimited,kept,truncates.1,truncates.2.2 ?_⟩
    rw [written]
    decide
  · obtain ⟨⟨reported,left⟩,limited⟩ := Option.isSome_iff_exists.mp hundred
    have truncates := Session.limit_truncates 0 0 100 describing left right reported reports limited
      unlimited
    obtain ⟨rfl,same⟩ := truncates.2.1 (by rw [written]; decide)
    exact ⟨reported,left,right,limited,unlimited,same⟩

end BlockScript
