import BlockScript.Proofs.Eval.Guards
import BlockScript.Proofs.Eval.Paired

/-! Runs on a sink with a limit beside runs on one without. Up to the limit both do the same; the
first byte beyond it ends the run on the limited sink. -/
namespace BlockScript

/-- The later sink has the same limit, which it respects if the earlier one did, and it keeps what
was written. -/
structure Sink.Grows (before after : Sink) : Prop where
  limit : after.limit = before.limit
  kept : ∃ more, after.written = before.written ++ more
  within : ∀ most, before.limit = some most → before.written.size ≤ most →
    after.written.size ≤ most

theorem extract_of_le (bytes : ByteArray) (most : Nat) (small : bytes.size ≤ most) :
    bytes.extract 0 most = bytes := by
  refine ByteArray.ext ?_
  rw [ByteArray.data_extract]
  exact Array.extract_eq_self_of_le small

namespace State

def limitedTo (most : Nat) (state : State) : State :=
  { state with sink := { state.sink with limit := some most } }

structure Fits (most : Nat) (state : State) : Prop where
  unlimited : state.sink.limit = none
  fits : state.sink.written.size ≤ most

/-- The right state is past the limit, and the left one kept as much as its limit allows. -/
structure Overflows (most : Nat) (left right : State) : Prop where
  passed : most < right.sink.written.size
  kept : left.sink = ⟨right.sink.written.extract 0 most,some most⟩

end State

namespace Sink.Grows

theorem refl (sink : Sink) : sink.Grows sink :=
  ⟨rfl,⟨.empty,ByteArray.append_empty.symm⟩,fun _ _ small => small⟩

theorem trans {first second third : Sink} (begun : first.Grows second) (goes : second.Grows third) :
    first.Grows third := by
  obtain ⟨more,kept⟩ := begun.kept
  obtain ⟨rest,later⟩ := goes.kept
  refine ⟨goes.limit.trans begun.limit,⟨more ++ rest,?_⟩,?_⟩
  · rw [later,kept,ByteArray.append_assoc]
  · intro most limited small
    exact goes.within most (begun.limit.trans limited) (begun.within most limited small)

theorem extract {before after : Sink} (grows : before.Grows after) (most : Nat)
    (passed : most < before.written.size) :
    after.written.extract 0 most = before.written.extract 0 most ∧ most < after.written.size := by
  obtain ⟨more,kept⟩ := grows.kept
  rw [kept,ByteArray.extract_append,ByteArray.size_append]
  refine ⟨?_,by omega⟩
  have beyond : more.extract (0 - before.written.size) (most - before.written.size) = .empty :=
    ByteArray.extract_eq_empty_iff.mpr (by omega)
  rw [beyond,ByteArray.append_empty]

/-- A sink that is full stays as it is. -/
theorem full {before after : Sink} (grows : before.Grows after) (most : Nat)
    (limited : before.limit = some most) (full : before.written.size = most) : after = before := by
  obtain ⟨more,kept⟩ := grows.kept
  have small := grows.within most limited (Nat.le_of_eq full)
  rw [kept,ByteArray.size_append] at small
  obtain rfl := ByteArray.size_eq_zero_iff.mp (by omega : more.size = 0)
  rw [ByteArray.append_empty] at kept
  obtain ⟨written,limit⟩ := after
  obtain ⟨other,same⟩ := before
  obtain rfl : written = other := kept
  obtain rfl : limit = same := grows.limit
  rfl

end Sink.Grows

theorem Sink.grows_write (sink : Sink) (text : String) : sink.Grows (sink.write text).2 := by
  obtain ⟨written,limit⟩ := sink
  cases limit with
  | none => exact ⟨rfl,⟨_,rfl⟩,nofun⟩
  | some limit =>
    simp only [write]
    split
    next small =>
      refine ⟨rfl,⟨_,rfl⟩,?_⟩
      rintro _ ⟨⟩ fits
      simp only [ByteArray.size_append] at fits ⊢
      omega
    next =>
      refine ⟨rfl,⟨_,rfl⟩,?_⟩
      rintro _ ⟨⟩ fits
      simp only [ByteArray.size_append,ByteArray.size_extract] at fits ⊢
      omega

namespace State

theorem Fits.of_sink {most : Nat} {state next : State} (fits : state.Fits most)
    (same : next.sink = state.sink) : next.Fits most :=
  ⟨same ▸ fits.unlimited,same ▸ fits.fits⟩

theorem Overflows.of_sink {most : Nat} {left right last next : State}
    (overflows : left.Overflows most right) (first : last.sink = left.sink)
    (second : next.sink = right.sink) : last.Overflows most next :=
  ⟨second ▸ overflows.passed,by rw [first,second,overflows.kept]⟩

def Spares (change : State → State) : Prop :=
  ∀ state sink, change { state with sink } = { change state with sink }

theorem Spares.sink {change : State → State} (spares : Spares change) (state : State) :
    (change state).sink = state.sink := by
  have same : change state = _ := spares state state.sink
  rw [same]

theorem Spares.limitedTo {change : State → State} (spares : Spares change) (most : Nat)
    (state : State) : change (state.limitedTo most) = (change state).limitedTo most := by
  unfold State.limitedTo
  rw [spares,spares.sink]

end State

/-- What is past a limit stays past it, and a full sink keeps the same bytes. -/
theorem State.Overflows.later {most : Nat} {left right last next : State}
    (overflows : left.Overflows most right) (first : left.sink.Grows last.sink)
    (second : right.sink.Grows next.sink) : last.Overflows most next := by
  obtain ⟨passed,kept⟩ := overflows
  obtain ⟨same,beyond⟩ := second.extract most passed
  refine ⟨beyond,?_⟩
  rw [same,← kept]
  refine first.full most (by rw [kept]) ?_
  rw [kept,ByteArray.size_extract]
  omega

namespace Run

variable {α β : Type}

def Growing (run : Run α) : Prop :=
  ∀ sink : Sink, Guards (fun state => sink.Grows state.sink) (fun _ => True) run

def last : EStateM.Result Halt State α → State
  | .ok _ state | .error _ state => state

/-- The first end is that of a run with a limit, the second that of the same run without one. They
are the same, or the limited run halted where the other one went past the limit. Where one of them
was short of rounds nothing is said. -/
inductive Cut (most : Nat) :
    EStateM.Result Halt State α → EStateM.Result Halt State α → Prop
  | ok (value : α) (state : State) (fits : state.Fits most) :
      Cut most (.ok value (state.limitedTo most)) (.ok value state)
  | halted (halt : Halt) (state : State) (fits : state.Fits most) :
      Cut most (.error halt (state.limitedTo most)) (.error halt state)
  | full (left : State) (second : EStateM.Result Halt State α)
      (overflows : left.Overflows most (last second)) :
      Cut most (.error (.fault .sinkFull) left) second
  | unfinished (left : State) (second : EStateM.Result Halt State α) :
      Cut most (.error .outOfRounds left) second
  | endless (first : EStateM.Result Halt State α) (right : State) :
      Cut most first (.error .outOfRounds right)

structure Follows (most : Nat) (first second : Run α) : Prop where
  grows : Growing second
  cut : ∀ state : State, state.Fits most → Cut most (first (state.limitedTo most)) (second state)

theorem Growing.last {run : Run α} (growing : Growing run) (state : State) :
    state.sink.Grows (last (run state)).sink := by
  have ends := growing state.sink state (.refl _)
  unfold Ends at ends
  cases ran : run state <;> rw [ran] at ends <;> exact ends.2

theorem growing_of_last {run : Run α}
    (grows : ∀ state : State, state.sink.Grows (last (run state)).sink) : Growing run := by
  intro sink state here
  have after := here.trans (grows state)
  unfold Ends
  cases ran : run state <;> rw [ran] at after <;> exact ⟨fun _ _ => trivial,after⟩

theorem Growing.bind {first : Run α} {next : α → Run β} (begun : Growing first)
    (goes : ∀ value, first.Gives value → Growing (next value)) : Growing (first >>= next) :=
  fun sink => (begun sink).bind_of_gives fun value given => goes value given sink

def Blind (run : Run α) : Prop :=
  ∀ state sink, run { state with sink } =
    match run state with
    | .ok value next => .ok value { next with sink }
    | .error halt next => .error halt { next with sink }

theorem Blind.sink {run : Run α} (blind : Blind run) (state : State) :
    (last (run state)).sink = state.sink := by
  have same : run state = _ := blind state state.sink
  rw [same]
  cases run state <;> rfl

theorem Blind.follows {run : Run α} (blind : Blind run) (most : Nat) : Follows most run run where
  grows := growing_of_last fun state => by
    rw [blind.sink state]
    exact .refl _
  cut := by
    intro state fits
    have kept := blind.sink state
    have same := blind state { state.sink with limit := some most }
    unfold State.limitedTo
    rw [same]
    cases ran : run state with
    | ok value next =>
      rw [ran] at kept
      obtain ⟨scope,depth,sink,handlers,log⟩ := next
      obtain rfl : sink = state.sink := kept
      exact .ok value ⟨scope,depth,state.sink,handlers,log⟩ ⟨fits.unlimited,fits.fits⟩
    | error halt next =>
      rw [ran] at kept
      obtain ⟨scope,depth,sink,handlers,log⟩ := next
      obtain rfl : sink = state.sink := kept
      exact .halted halt ⟨scope,depth,state.sink,handlers,log⟩ ⟨fits.unlimited,fits.fits⟩

theorem blind_pure (value : α) : Blind (pure value) := fun _ _ => rfl

theorem blind_throw (halt : Halt) : Blind (throw halt : Run α) := fun _ _ => rfl

theorem blind_lift (result : Except Fault α) : Blind (lift result) := by
  cases result with
  | ok value => exact blind_pure value
  | error fault => exact blind_throw (.fault fault)

theorem blind_record (event : Event) : Blind (record event) := fun _ _ => rfl

theorem blind_resolve (value : Value) : Blind (resolve value) := by
  intro state sink
  cases value with
  | name text =>
    simp only [resolve,scope_bind]
    cases state.scope.value? text with
    | some held => rfl
    | none =>
      dsimp only
      split <;> rfl
  | _ => rfl

theorem blind_targetType (name : String) : Blind (targetType name) := by
  intro state sink
  simp only [targetType,scope_bind]
  cases state.scope.declared? name with
  | none => rfl
  | some declared => cases declared <;> rfl

theorem blind_store (name : String) (type : TypeName) (value : Value) :
    Blind (store name type value) := by
  intro state sink
  unfold store
  split <;> rfl

theorem blind_commandHandler (command : HandlerCommand) (called : String) :
    Blind (commandHandler command called) := by
  intro state sink
  simp only [commandHandler,scope_bind]
  cases state.scope.declared? called with
  | none => rfl
  | some declared => cases declared <;> rfl

theorem blind_declare (name : String) (declared : Declared) : Blind (declare name declared) :=
  fun _ _ => rfl

theorem write_run (text : String) (state : State) :
    write text state =
      if (state.sink.write text).1 then .ok () { state with sink := (state.sink.write text).2 }
      else .error (.fault .sinkFull) { state with sink := (state.sink.write text).2 } := by
  unfold write
  have read (next : State → Run Unit) : (get >>= next) state = next state state := rfl
  rw [read]
  generalize state.sink.write text = outcome
  obtain ⟨fits,sink⟩ := outcome
  cases fits <;> rfl

namespace Follows

variable {most : Nat}

/-- What is past the limit stays there, whatever comes next. -/
theorem overflows_bind {second : Run α} {other : α → Run β} {left : State} (state : State)
    (goes : ∀ value, second.Gives value → Growing (other value))
    (overflows : left.Overflows most (last (second state))) :
    left.Overflows most (last ((second >>= other) state)) := by
  cases ran : second state with
  | ok value next =>
    rw [ran] at overflows
    rw [bind_of_ok _ _ _ _ _ ran]
    exact overflows.later (.refl _) ((goes value ⟨state,next,ran⟩).last next)
  | error halt next =>
    rw [ran] at overflows
    rwa [bind_of_error _ _ _ _ _ ran]

theorem bind {first second : Run α} {next other : α → Run β} (begun : Follows most first second)
    (goes : ∀ value, first.Gives value ∨ second.Gives value →
      Follows most (next value) (other value)) :
    Follows most (first >>= next) (second >>= other) where
  grows := begun.grows.bind fun value given => (goes value (.inr given)).grows
  cut := by
    intro state fits
    have cut := begun.cut state fits
    have beyond (left : State) : left.Overflows most (last (second state)) →
        left.Overflows most (last ((second >>= other) state)) :=
      overflows_bind state fun value given => (goes value (.inr given)).grows
    generalize ran : first (state.limitedTo most) = ended at cut
    generalize same : second state = whole at cut beyond
    cases cut with
    | ok value middle fits =>
      rw [bind_of_ok _ _ _ _ _ ran,bind_of_ok _ _ _ _ _ same]
      exact (goes value (.inr ⟨state,middle,same⟩)).cut middle fits
    | halted halt middle fits =>
      rw [bind_of_error _ _ _ _ _ ran,bind_of_error _ _ _ _ _ same]
      exact .halted halt middle fits
    | full left _ overflows =>
      -- The unlimited run may go on, but it takes nothing back.
      rw [bind_of_error _ _ _ _ _ ran]
      exact .full left _ (beyond left overflows)
    | unfinished left =>
      rw [bind_of_error _ _ _ _ _ ran]
      exact .unfinished left _
    | endless _ right =>
      rw [bind_of_error _ _ _ _ _ same]
      exact .endless _ right

theorem get {next other : State → Run α}
    (goes : ∀ state : State, Follows most (next (state.limitedTo most)) (other state)) :
    Follows most (get >>= next) (get >>= other) where
  grows := growing_of_last fun state => (goes state).grows.last state
  cut := fun state fits => (goes state).cut state fits

theorem between {before after : State → State} {first second : Run α}
    (ran : Follows most first second) (enters : State.Spares before) (leaves : State.Spares after) :
    Follows most (Run.between before after first) (Run.between before after second) where
  grows := by
    refine growing_of_last ?_
    intro state
    have grows := ran.grows.last (before state)
    rw [enters.sink] at grows
    unfold Run.between
    cases ended : second (before state) with
    | ok value next =>
      rw [ended] at grows
      exact (leaves.sink next).symm ▸ grows
    | error halt next =>
      rw [ended] at grows
      exact (leaves.sink next).symm ▸ grows
  cut := by
    intro state fits
    have cut := ran.cut (before state) (fits.of_sink (enters.sink state))
    unfold Run.between
    rw [enters.limitedTo]
    generalize first ((before state).limitedTo most) = ended at cut ⊢
    generalize second (before state) = whole at cut ⊢
    cases cut with
    | ok value middle fits =>
      dsimp only
      rw [leaves.limitedTo]
      exact .ok value (after middle) (fits.of_sink (leaves.sink middle))
    | halted halt middle fits =>
      dsimp only
      rw [leaves.limitedTo]
      exact .halted halt (after middle) (fits.of_sink (leaves.sink middle))
    | full left _ overflows =>
      refine .full (after left) _ (overflows.of_sink (leaves.sink left) ?_)
      cases whole <;> exact leaves.sink _
    | unfinished left => exact .unfinished _ _
    | endless _ right => exact .endless _ _

theorem within {first second : Run α} (ran : Follows most first second) (context : Context) :
    Follows most (Run.within context first) (Run.within context second) :=
  ran.between (fun _ _ => rfl) (fun _ _ => rfl)

theorem deeper {first second : Run α} (ran : Follows most first second) :
    Follows most (Run.deeper first) (Run.deeper second) :=
  ran.between (fun _ _ => rfl) (fun _ _ => rfl)

theorem write (text : String) : Follows most (Run.write text) (Run.write text) where
  grows := growing_of_last fun state => by
    have grows := state.sink.grows_write text
    rw [write_run]
    split <;> exact grows
  cut := by
    intro state fits
    obtain ⟨scope,depth,⟨written,limit⟩,handlers,log⟩ := state
    obtain rfl : limit = none := fits.unlimited
    have small : written.size ≤ most := fits.fits
    rw [write_run,write_run]
    simp only [State.limitedTo,Sink.write]
    by_cases room : text.toUTF8.size ≤ most - written.size
    · simp only [room,if_true]
      refine .ok () ⟨scope,depth,⟨written ++ text.toUTF8,none⟩,handlers,log⟩ ⟨rfl,?_⟩
      simp only [ByteArray.size_append]
      omega
    · simp only [room,if_false]
      refine .full _ _ ⟨?_,?_⟩
      · simp only [last,if_true,ByteArray.size_append]
        omega
      · simp only [last,if_true,ByteArray.extract_append,extract_of_le written most small,
          Nat.zero_sub]

theorem joins (most : Nat) : Pairing.Joins fun _ => Follows most where
  pure := fun value => (blind_pure value).follows most
  bind := Follows.bind

/-- The two loops may have different numbers of rounds. -/
theorem repeatWhile {condition test : Run Bool} {body other : Run (Option Value)}
    (rounds others : Nat) (tested : Follows most condition test) (round : Follows most body other) :
    Follows most (repeatWhile condition body rounds) (repeatWhile test other others) := by
  have grows (others : Nat) : Growing (BlockScript.repeatWhile test other others) :=
    fun sink => Guards.repeatWhile others trivial (tested.grows sink) (round.grows sink)
  -- Either of the loops may be the first to run out of rounds.
  induction rounds generalizing others with
  | zero => exact ⟨grows others,fun _ _ => .unfinished _ _⟩
  | succ rounds ih =>
    cases others with
    | zero => exact ⟨grows 0,fun _ _ => .endless _ _⟩
    | succ others =>
      refine tested.bind ?_
      intro holds _
      cases holds with
      | true => exact (joins most).orNext round (ih others)
      | false => exact (blind_pure none).follows most

end Follows

/-- Every program is cut off by a sink with a limit and does the same up to there. -/
theorem steps_follow (most rounds others : Nat) :
    Pairing.Steps (fun _ => Follows most) (fun _ => True) rounds others where
  toJoins := Follows.joins most
  throw := fun halt => (blind_throw halt).follows most
  resolve := fun value _ => (blind_resolve value).follows most
  targetType := fun name _ => (blind_targetType name).follows most
  store := fun name type value _ => (blind_store name type value).follows most
  commandHandler := fun command called _ => (blind_commandHandler command called).follows most
  print := fun _ _ => Follows.get fun _ => Follows.write _
  declare := fun _ name declared _ _ => (blind_declare name declared).follows most
  within := fun context _ _ _ ran => ran.within context
  call := by
    intro enter other called arguments _ _ bodies
    refine Follows.get ?_
    intro state
    simp only [State.limitedTo]
    cases state.scope.declared? called with
    | none => exact (blind_throw _).follows most
    | some declared =>
      cases declared with
      | function function =>
        have body := bodies function.body fun _ _ _ _ => trivial
        refine ((blind_record _).follows most).bind ?_
        intro _ _
        refine ((blind_lift _).follows most).bind ?_
        intro context _
        refine (body.within context).deeper.bind ?_
        intro returned _
        exact (blind_lift (function.answer returned)).follows most
      | _ => exact (blind_throw _).follows most
  loop := fun _ _ _ _ tested round => tested.repeatWhile rounds others round

end Run

end BlockScript
