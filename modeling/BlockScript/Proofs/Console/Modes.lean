import BlockScript.Main
import BlockScript.Proofs.Eval.Rounds

/-! The two ways to run a script: up to the first failure, and through all of its roots. -/
namespace BlockScript

def Event.command? : Event → Option (HandlerCommand × String × HandlerNotice)
  | handler command name notice => some (command,name,notice)
  | _ => none

def State.commands (state : State) : List (HandlerCommand × String × HandlerNotice) :=
  state.log.reverse.filterMap Event.command?

theorem State.Extends.commands {before after : State} (longer : before.Extends after) :
    before.commands <+: after.commands :=
  (List.reverse_prefix.mpr longer.log).filterMap Event.command?

namespace Console

def Reply.outcome (reply : Reply) (target : Target) : Outcome :=
  let (output,written) := target.place reply.state.sink.written
  { output
    notes := reply.notes
      ++ (match reply.complaint with
          | some complaint => complaint.message ++ "\n"
          | none => "")
    succeeded := reply.complaint.isNone
    written }

def runNotes (verbose : Bool) (read : List Token) (last : State) : String :=
  buildNotes verbose read (build read)
    ++ renderLog verbose (last.log.reverse.flatMap Event.logLines)

def listFailures (failures : List Failure) : String :=
  String.join (failures.map fun failure => failure.message ++ "\n")

theorem runScript_reply (rounds : Nat) (options : Options) (script : Except FileError ByteArray)
    (text : String) (target : Target) (readable : decodeScript script = .ok text)
    (writable : ∀ error, target ≠ .file (.error error)) :
    runScript rounds options script target =
      (runText rounds options text (.initial .unlimited)).map (·.outcome target) := by
  unfold runScript
  rw [readable]
  cases target with
  | screen => rfl
  | file created =>
    cases created with
    | error error => exact (writable error rfl).elim
    | ok _ => rfl

def conclusion (verbose keepGoing : Bool) (read : List Token) (failures : List Failure)
    (last : State) : Reply where
  notes := runNotes verbose read last ++ if keepGoing then listFailures failures else ""
  complaint :=
    match failures with
    | [] => buildComplaint (build read).reports
    | failure :: rest =>
      some (if keepGoing then .statementsFailed (rest.length + 1) else .execution failure)
  state := last

theorem runText_unread (rounds : Nat) (options : Options) (text : String) (error : ScanError)
    (state : State) (unread : tokens text = .error error) :
    runText rounds options text state = some ⟨"",some (.scan error),state⟩ := by
  unfold runText
  rw [unread]

theorem runText_read (rounds : Nat) (verbose keepGoing : Bool) (text : String) (read : List Token)
    (scanned : tokens text = .ok read) :
    runText rounds ⟨verbose,keepGoing⟩ text (.initial .unlimited) =
      (Script.outcome rounds ⟨keepGoing,(build read).roots⟩ (.initial .unlimited)).map
        fun (failures,last) => conclusion verbose keepGoing read failures last := by
  have fresh : { State.initial .unlimited with log := [] } = State.initial .unlimited := rfl
  unfold runText Script.outcome runRoots
  rw [scanned,fresh]
  dsimp only
  cases keepGoing with
  | true =>
    simp only [if_true,Option.map_map]
    congr 1
    funext ⟨failures,last⟩
    cases failures <;> rfl
  | false =>
    simp only [Bool.false_eq_true,if_false,Option.map_map]
    congr 1
    funext ⟨failure,last⟩
    cases failure <;> rfl

section
variable {rounds others : Nat} {verbose : Bool} {text : String} {read : List Token}
  {first second : Reply} (scanned : tokens text = .ok read)
  (stopping : runText rounds ⟨verbose,false⟩ text (.initial .unlimited) = some first)
  (keeping : runText others ⟨verbose,true⟩ text (.initial .unlimited) = some second)
include scanned stopping

/-- A script that ended has run all of its roots or has met a first failure. -/
theorem roots_succeed_or_stop :
    (∃ last, Succeed (build read).roots (.initial .unlimited) last) ∨
      ∃ failure after, Stops (build read).roots (.initial .unlimited) failure after := by
  rw [runText_read rounds verbose false text read scanned] at stopping
  obtain ⟨⟨failures,last⟩,ran,_⟩ := Option.map_eq_some_iff.mp stopping
  exact succeed_or_stops false _ _ last failures ran

include keeping

/-- Where all roots succeed the two ways do the same. -/
theorem replies_of_succeed (after : State)
    (succeed : Succeed (build read).roots (.initial .unlimited) after) :
    first = conclusion verbose false read [] after ∧ second = first := by
  rw [runText_read _ verbose _ text read scanned] at stopping keeping
  obtain ⟨⟨failures,last⟩,ran,rfl⟩ := Option.map_eq_some_iff.mp stopping
  obtain ⟨⟨gathered,final⟩,through,rfl⟩ := Option.map_eq_some_iff.mp keeping
  obtain ⟨rfl,rfl⟩ := succeed.outcome false failures last ran
  obtain ⟨rfl,rfl⟩ := succeed.outcome true gathered final through
  exact ⟨rfl,rfl⟩

/-- Where a root fails its failure ends one of the runs and is the first of the other. -/
theorem replies_of_stops (failure : Failure) (after : State)
    (stops : Stops (build read).roots (.initial .unlimited) failure after) :
    first = conclusion verbose false read [failure] after ∧
      ∃ rest last, after.Extends last ∧
        second = conclusion verbose true read (failure :: rest) last := by
  rw [runText_read _ verbose _ text read scanned] at stopping keeping
  obtain ⟨⟨failures,last⟩,ran,rfl⟩ := Option.map_eq_some_iff.mp stopping
  obtain ⟨⟨gathered,final⟩,through,rfl⟩ := Option.map_eq_some_iff.mp keeping
  obtain ⟨_,_,rfl,single⟩ := stops.outcome false failures last ran
  obtain ⟨rfl,rfl⟩ := single rfl
  obtain ⟨longer,rest,rfl,_⟩ := stops.outcome true gathered final through
  exact ⟨rfl,rest,final,longer,rfl⟩

end

theorem exitCode_eq_zero (succeeded : Bool) : exitCode succeeded = 0 ↔ succeeded = true := by
  cases succeeded <;> decide

theorem buildComplaint_eq_none (reports : List Report) :
    buildComplaint reports = none ↔ reports = [] := by
  cases reports <;> simp [buildComplaint]

section
variable {rounds others : Nat} {verbose : Bool} {text : String} {first second : Reply}
  (stopping : runText rounds ⟨verbose,false⟩ text (.initial .unlimited) = some first)
  (keeping : runText others ⟨verbose,true⟩ text (.initial .unlimited) = some second)
include stopping keeping

theorem replies_of_unread (error : ScanError) (unread : tokens text = .error error) :
    first = ⟨"",some (.scan error),.initial .unlimited⟩ ∧ second = first := by
  rw [runText_unread _ _ text error _ unread] at stopping keeping
  cases stopping
  cases keeping
  exact ⟨rfl,rfl⟩

/-- Keeping going takes nothing back of what the other run did. -/
theorem replies_extend : first.state.Extends second.state := by
  cases scanned : tokens text with
  | error error =>
    obtain ⟨_,rfl⟩ := replies_of_unread stopping keeping error scanned
    exact .refl _
  | ok read =>
    obtain ⟨last,succeed⟩ | ⟨failure,after,stops⟩ := roots_succeed_or_stop scanned stopping
    · obtain ⟨_,rfl⟩ := replies_of_succeed scanned stopping keeping last succeed
      exact .refl _
    · obtain ⟨rfl,rest,last,longer,rfl⟩ :=
        replies_of_stops scanned stopping keeping failure after stops
      exact longer

/-- Both ways complain, or neither does because nothing was wrong. -/
theorem replies_complain :
    first.complaint.isNone = second.complaint.isNone ∧
      (first.complaint.isNone = true ↔ ∃ read last, tokens text = .ok read ∧
        (build read).reports = [] ∧ Succeed (build read).roots (.initial .unlimited) last) := by
  cases scanned : tokens text with
  | error error =>
    obtain ⟨rfl,rfl⟩ := replies_of_unread stopping keeping error scanned
    refine ⟨rfl,nofun,?_⟩
    rintro ⟨_,_,⟨⟩,_⟩
  | ok read =>
    obtain ⟨last,succeed⟩ | ⟨failure,after,stops⟩ := roots_succeed_or_stop scanned stopping
    · obtain ⟨rfl,rfl⟩ := replies_of_succeed scanned stopping keeping last succeed
      refine ⟨rfl,?_⟩
      rw [conclusion,Option.isNone_iff_eq_none,buildComplaint_eq_none]
      constructor
      · intro clean
        exact ⟨read,last,rfl,clean,succeed⟩
      · rintro ⟨_,_,⟨⟩,clean,_⟩
        exact clean
    · obtain ⟨rfl,rest,last,_,rfl⟩ := replies_of_stops scanned stopping keeping failure after stops
      refine ⟨rfl,nofun,?_⟩
      rintro ⟨_,other,⟨⟩,_,succeed⟩
      obtain ⟨same,_⟩ := replies_of_succeed scanned stopping keeping other succeed
      have clean : some (Complaint.execution failure) = buildComplaint (build read).reports :=
        congrArg Reply.complaint same
      unfold buildComplaint at clean
      split at clean <;> cases clean

end

/-- Up to the first failure both ways to run a script do the same. They end with the same code,
which is success if nothing at all was wrong, and both report the first failure first. -/
theorem modes_agree (rounds others : Nat) (verbose : Bool) (script : Except FileError ByteArray)
    (text : String) (target : Target) (plain persistent : Outcome)
    (readable : decodeScript script = .ok text) (writable : ∀ error, target ≠ .file (.error error))
    (ended : runScript rounds ⟨verbose,false⟩ script target = some plain)
    (finished : runScript others ⟨verbose,true⟩ script target = some persistent) :
    exitCode plain.succeeded = exitCode persistent.succeeded ∧
    (exitCode plain.succeeded = 0 ↔ ∃ read last, tokens text = .ok read ∧
      (build read).reports = [] ∧ Succeed (build read).roots (.initial .unlimited) last) ∧
    ∃ first second,
      runText rounds ⟨verbose,false⟩ text (.initial .unlimited) = some first ∧
      runText others ⟨verbose,true⟩ text (.initial .unlimited) = some second ∧
      plain = first.outcome target ∧ persistent = second.outcome target ∧
      (∃ more, second.state.sink.written = first.state.sink.written ++ more) ∧
      first.state.commands <+: second.state.commands ∧
      (∀ error, tokens text = .error error → first = second) ∧
      ∀ read, tokens text = .ok read →
        ((∃ last, Succeed (build read).roots (.initial .unlimited) last) ∨
          ∃ failure after, Stops (build read).roots (.initial .unlimited) failure after) ∧
        (∀ last, Succeed (build read).roots (.initial .unlimited) last →
          first = second ∧ first.state = last) ∧
        ∀ failure after, Stops (build read).roots (.initial .unlimited) failure after →
          first.state = after ∧
          plain.notes = runNotes verbose read first.state ++ (failure.message ++ "\n") ∧
          ∃ rest : List Failure, persistent.notes =
            runNotes verbose read second.state ++ listFailures (failure :: rest)
              ++ ((Complaint.statementsFailed (rest.length + 1)).message ++ "\n") := by
  rw [runScript_reply _ _ script text target readable writable] at ended finished
  obtain ⟨first,stopping,rfl⟩ := Option.map_eq_some_iff.mp ended
  obtain ⟨second,keeping,rfl⟩ := Option.map_eq_some_iff.mp finished
  obtain ⟨same,success⟩ := replies_complain stopping keeping
  have longer := replies_extend stopping keeping
  refine ⟨congrArg exitCode same,(exitCode_eq_zero _).trans success,first,second,stopping,keeping,
    rfl,rfl,longer.sink.kept,longer.commands,?_,?_⟩
  · intro error unread
    exact (replies_of_unread stopping keeping error unread).2.symm
  · intro read scanned
    refine ⟨roots_succeed_or_stop scanned stopping,?_,?_⟩
    · intro last succeed
      obtain ⟨rfl,alike⟩ := replies_of_succeed scanned stopping keeping last succeed
      exact ⟨alike.symm,rfl⟩
    · intro failure after stops
      obtain ⟨rfl,rest,last,_,rfl⟩ := replies_of_stops scanned stopping keeping failure after stops
      exact ⟨rfl,congrArg (· ++ (failure.message ++ "\n")) String.append_empty,rest,rfl⟩

/-- It starts a handler, writes a letter and divides by zero. Behind that it stops the handler,
writes another letter and fails again. -/
def stumbling : String :=
  "system_handler h; h.start; put \"a\"; put 1 / 0; h.stop; put \"b\"; put x + 1;"

/-- Both runs end with code 1; only the second one gets to `b`. -/
theorem stumbling_modes :
    decodeScript (.ok stumbling.toUTF8) = .ok stumbling ∧
    (∀ error, Target.screen ≠ .file (.error error)) ∧
    ∃ plain persistent,
      runScript 0 ⟨false,false⟩ (.ok stumbling.toUTF8) .screen = some plain ∧
      runScript 0 ⟨false,true⟩ (.ok stumbling.toUTF8) .screen = some persistent ∧
      plain.output = "a\n".toUTF8 ∧ persistent.output = "a\nb\n".toUTF8 ∧
      exitCode plain.succeeded = 1 ∧ exitCode plain.succeeded = exitCode persistent.succeeded := by
  have readable : decodeScript (.ok stumbling.toUTF8) = .ok stumbling := rfl
  have first : (runScript 0 ⟨false,false⟩ (.ok stumbling.toUTF8) .screen).map
      (fun plain => (plain.output,plain.succeeded)) = some ("a\n".toUTF8,false) := by
    decide +kernel
  have second : (runScript 0 ⟨false,true⟩ (.ok stumbling.toUTF8) .screen).map (·.output) =
      some "a\nb\n".toUTF8 := by
    decide +kernel
  obtain ⟨plain,ended,same⟩ := Option.map_eq_some_iff.mp first
  obtain ⟨persistent,finished,written⟩ := Option.map_eq_some_iff.mp second
  obtain ⟨output,failed⟩ := Prod.mk.inj same
  have agree := modes_agree 0 0 false (.ok stumbling.toUTF8) stumbling .screen plain persistent
    readable nofun ended finished
  exact ⟨readable,nofun,plain,persistent,ended,finished,output,written,by rw [failed]; rfl,agree.1⟩

end Console

end BlockScript
