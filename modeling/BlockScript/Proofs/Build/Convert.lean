import BlockScript.Proofs.Build.Feed

/-! What a converter keeps and what it lets go. It keeps tokens that delimit nothing, and at the end
of a statement it lets go of all of them at once. -/
namespace BlockScript.Postfix

def Waiting.token? : Waiting → Option Token
  | binary token | leading token => some token
  | parenthesis | call _ _ => none

theorem release_split (goes : TokenKind → Bool) (stack : List Waiting) (output : List Token) :
    ∃ (held : List Token) (rest : List Waiting), stack = held.map .binary ++ rest ∧
      release goes stack output = (rest,held.reverse ++ output) := by
  induction stack generalizing output with
  | nil => exact ⟨[],[],rfl,rfl⟩
  | cons waiting stack ih =>
    cases waiting with
    | binary operator =>
      simp only [release]
      split
      · obtain ⟨held,rest,rfl,released⟩ := ih (operator :: output)
        exact ⟨operator :: held,rest,rfl,by simp [released]⟩
      · exact ⟨[],_,rfl,rfl⟩
    | leading word => exact ⟨[],_,rfl,rfl⟩
    | parenthesis => exact ⟨[],_,rfl,rfl⟩
    | call called before => exact ⟨[],_,rfl,rfl⟩

theorem unwind_ok (stack : List Waiting) (output result : List Token)
    (unwound : unwind stack output = .ok result) :
    ∃ tokens : List Token, stack.map Waiting.token? = tokens.map some ∧ result = tokens.reverse ++ output := by
  induction stack generalizing output with
  | nil =>
    obtain rfl : output = result := Except.ok.inj unwound
    exact ⟨[],rfl,rfl⟩
  | cons waiting stack ih =>
    cases waiting with
    | binary token | leading token =>
      obtain ⟨tokens,same,rfl⟩ := ih (token :: output) unwound
      exact ⟨token :: tokens,by simp [Waiting.token?,same],by simp⟩
    | parenthesis => contradiction
    | call called before => contradiction

namespace Converter

structure Plain (converter : Converter) : Prop where
  output : ∀ token ∈ converter.output, token.kind.delimits = false
  stack : ∀ waiting ∈ converter.stack, ∀ token, waiting.token? = some token →
    token.kind.delimits = false
  pending : ∀ token, converter.pending = some token → token.kind.delimits = false

structure Blank (converter : Converter) : Prop where
  output : converter.output = []
  stack : ∀ waiting ∈ converter.stack, waiting = .parenthesis
  pending : converter.pending = none

theorem plain_empty : empty.Plain := by
  constructor <;> simp [empty]

theorem blank_empty : empty.Blank := by
  constructor <;> simp [empty]

theorem Plain.settle (converter : Converter) (plain : converter.Plain) : converter.settle.Plain := by
  obtain ⟨output,stack,pending,skipping⟩ := converter
  cases pending with
  | none => exact plain
  | some name =>
    refine ⟨?_,plain.stack,by simp [Converter.settle]⟩
    intro token member
    obtain rfl | member := List.mem_cons.mp member
    · exact plain.pending token rfl
    · exact plain.output token member

theorem blank_of_settle (converter : Converter) (blank : converter.settle.Blank) :
    converter.Blank := by
  obtain ⟨output,stack,pending,skipping⟩ := converter
  cases pending with
  | none => exact blank
  | some name => exact absurd blank.output (by simp [settle])

theorem Blank.settle (converter : Converter) (blank : converter.Blank) :
    converter.settle = converter := by
  obtain ⟨output,stack,pending,skipping⟩ := converter
  obtain rfl : pending = none := blank.pending
  rfl

theorem releaseBinaries_split (goes : TokenKind → Bool) (converter : Converter) :
    ∃ (held : List Token) (rest : List Waiting), converter.stack = held.map .binary ++ rest ∧
      converter.releaseBinaries goes =
        { converter with stack := rest, output := held.reverse ++ converter.output } := by
  obtain ⟨held,rest,same,released⟩ := release_split goes converter.stack converter.output
  refine ⟨held,rest,same,?_⟩
  unfold releaseBinaries
  rw [released]

theorem Plain.releaseBinaries (converter : Converter) (plain : converter.Plain)
    (goes : TokenKind → Bool) : (converter.releaseBinaries goes).Plain := by
  obtain ⟨held,rest,same,released⟩ := converter.releaseBinaries_split goes
  rw [released]
  refine ⟨?_,?_,plain.pending⟩
  · intro token member
    rcases List.mem_append.mp member with member | member
    · refine plain.stack (.binary token) ?_ token rfl
      rw [same]
      exact List.mem_append_left _ (List.mem_map_of_mem (List.mem_reverse.mp member))
    · exact plain.output token member
  · intro waiting member
    refine plain.stack waiting ?_
    rw [same]
    exact List.mem_append_right _ member

theorem blank_of_releaseBinaries (converter : Converter) (goes : TokenKind → Bool)
    (blank : (converter.releaseBinaries goes).Blank) : converter.Blank := by
  obtain ⟨held,rest,same,released⟩ := converter.releaseBinaries_split goes
  rw [released] at blank
  have nothing : held = [] := by simpa using (List.append_eq_nil_iff.mp blank.output).1
  subst nothing
  exact ⟨blank.output,by rw [same]; exact blank.stack,blank.pending⟩

theorem Blank.releaseBinaries (converter : Converter) (blank : converter.Blank)
    (goes : TokenKind → Bool) : converter.releaseBinaries goes = converter := by
  obtain ⟨output,stack,pending,skipping⟩ := converter
  cases stack with
  | nil => rfl
  | cons waiting stack =>
    obtain rfl : waiting = .parenthesis := blank.stack waiting List.mem_cons_self
    rfl

theorem Plain.push (converter : Converter) (plain : converter.Plain) (waiting : Waiting)
    (fine : ∀ token, waiting.token? = some token → token.kind.delimits = false) :
    (converter.push waiting).Plain := by
  refine ⟨plain.output,?_,plain.pending⟩
  intro other member
  obtain rfl | member := List.mem_cons.mp member
  · exact fine
  · exact plain.stack other member

theorem Plain.emit (converter : Converter) (plain : converter.Plain) (token : Token)
    (fine : token.kind.delimits = false) : (converter.emit token).Plain := by
  refine ⟨?_,plain.stack,plain.pending⟩
  intro other member
  obtain rfl | member := List.mem_cons.mp member
  · exact fine
  · exact plain.output other member

theorem blank_of_push (converter : Converter) (waiting : Waiting)
    (blank : (converter.push waiting).Blank) : converter.Blank ∧ waiting = .parenthesis :=
  ⟨⟨blank.output,fun other member => blank.stack other (List.mem_cons_of_mem waiting member),
    blank.pending⟩,blank.stack waiting List.mem_cons_self⟩

def tail? (token : Token) : Option (List Token) :=
  match token.kind with
  | .semicolon | .fileEnd => some []
  | .doneWord => some [token]
  | .doWord | .elseWord => some [token,token.retyped .statementEnd]
  | _ => none

/-- What a token that is converted does: either the converter keeps going, and then only
parentheses leave it blank, or the statement ends and all of it comes out. -/
inductive Converted (converter : Converter) (token : Token) : List Token → Converter → Prop
  | kept (next : Converter) (within : tail? token = none) (plain : next.Plain)
      (awake : next.skipping = converter.skipping)
      (blank : next.Blank ↔ converter.Blank ∧ (token.kind = .opening ∨ token.kind = .closing)) :
      Converted converter token [] next
  | ended (body tail : List Token) (behind : tail? token = some tail)
      (plain : ∀ other ∈ body, other.kind.delimits = false) (blank : body = [] ↔ converter.Blank) :
      Converted converter token (body ++ token.retyped .statementEnd :: tail) .empty

theorem finish_ok (converter : Converter) (last : Token) (ready : List Token)
    (plain : converter.Plain) (pending : converter.pending = none)
    (finished : converter.finish last = .ok ready) :
    ∃ body, ready = body ++ [last.retyped .statementEnd] ∧
      (∀ other ∈ body, other.kind.delimits = false) ∧ (body = [] ↔ converter.Blank) := by
  unfold finish at finished
  cases unwound : unwind converter.stack converter.output with
  | error error => simp [unwound,Except.map] at finished
  | ok output =>
    obtain ⟨tokens,same,rfl⟩ := unwind_ok converter.stack converter.output output unwound
    obtain rfl : _ = ready := by simpa [unwound,Except.map] using finished
    refine ⟨converter.output.reverse ++ tokens,by simp,?_,?_⟩
    · intro other member
      rcases List.mem_append.mp member with member | member
      · exact plain.output other (List.mem_reverse.mp member)
      · have waits : some other ∈ converter.stack.map Waiting.token? := by
          rw [same]
          exact List.mem_map_of_mem member
        obtain ⟨waiting,member,is⟩ := List.mem_map.mp waits
        exact plain.stack waiting member other is
    · constructor
      · intro nothing
        obtain ⟨nothing,rfl⟩ := List.append_eq_nil_iff.mp nothing
        refine ⟨by simpa using nothing,?_,pending⟩
        have none : converter.stack = [] := by simpa using same
        simp [none]
      · intro blank
        cases stack : converter.stack with
        | nil =>
          rw [stack] at same
          have none : tokens = [] := by simpa using same.symm
          simp [none,blank.output]
        | cons waiting rest =>
          obtain rfl := blank.stack waiting (by rw [stack]; exact List.mem_cons_self)
          rw [stack] at same
          cases tokens <;> simp [Waiting.token?] at same

theorem ended_of_finish (converter : Converter) (token : Token) (ready tail : List Token)
    (next : Converter) (plain : converter.Plain) (behind : tail? token = some tail)
    (same : ((converter.settle.finish token).map fun ready => (ready ++ tail,empty)) =
      .ok (ready,next)) : Converted converter token ready next := by
  cases finished : converter.settle.finish token with
  | error error => simp [finished,Except.map] at same
  | ok all =>
    obtain ⟨body,rfl,fine,blank⟩ :=
      converter.settle.finish_ok token all (plain.settle converter) converter.settle_pending finished
    obtain ⟨rfl,rfl⟩ : body ++ token.retyped .statementEnd :: tail = ready ∧ empty = next := by
      simpa [finished,Except.map] using same
    refine .ended body tail behind fine (blank.trans ⟨converter.blank_of_settle,?_⟩)
    intro blank
    rwa [blank.settle converter]

theorem converted_closing (converter : Converter) (token : Token) (next : Converter)
    (plain : converter.Plain) (kind : token.kind = .closing)
    (closed : converter.settle.closeParenthesis token = .ok next) :
    Converted converter token [] next := by
  have awake := converter.settle_skipping
  have released := (plain.settle converter).releaseBinaries _ fun _ => true
  unfold closeParenthesis at closed
  dsimp only at closed
  split at closed
  next rest stack =>
    obtain rfl := Except.ok.inj closed
    have others (waiting : Waiting) (member : waiting ∈ rest) :
        waiting ∈ (converter.settle.releaseBinaries fun _ => true).stack := by
      rw [stack]
      exact List.mem_cons_of_mem _ member
    refine .kept _ (by simp [tail?,kind]) ⟨released.output,?_,released.pending⟩ awake ?_
    · exact fun waiting member => released.stack waiting (others waiting member)
    · constructor
      · intro blank
        refine ⟨converter.blank_of_settle (blank_of_releaseBinaries _ _ ⟨blank.output,?_,
          blank.pending⟩),.inr kind⟩
        rw [stack]
        intro waiting member
        obtain rfl | member := List.mem_cons.mp member
        · rfl
        · exact blank.stack waiting member
      · rintro ⟨blank,_⟩
        have same : (converter.settle.releaseBinaries fun _ => true) = converter := by
          rw [blank.settle converter,blank.releaseBinaries converter]
        rw [same] at others ⊢
        exact ⟨blank.output,fun waiting member => blank.stack waiting (others waiting member),
          blank.pending⟩
  next called before rest stack =>
    obtain rfl := Except.ok.inj closed
    refine .kept _ (by simp [tail?,kind]) ⟨?_,?_,released.pending⟩ awake ?_
    · intro other member
      obtain rfl | member := List.mem_cons.mp member
      · dsimp only
        split <;> rfl
      · exact released.output other member
    · intro waiting member
      refine released.stack waiting ?_
      rw [stack]
      exact List.mem_cons_of_mem _ member
    · constructor
      · intro blank
        exact absurd blank.output (List.cons_ne_nil _ _)
      · rintro ⟨blank,_⟩
        rw [blank.settle converter,blank.releaseBinaries converter] at stack
        have parenthesis := blank.stack (.call called before) (by rw [stack]; exact List.mem_cons_self)
        contradiction
  next => contradiction

section
variable (converter : Converter) (token : Token)

/-- What is kept besides parentheses comes out some time. -/
theorem converted_busy (next : Converter) (within : tail? token = none)
    (apart : ¬(token.kind = .opening ∨ token.kind = .closing)) (plain : next.Plain)
    (awake : next.skipping = converter.skipping) (busy : ¬next.Blank) :
    Converted converter token [] next :=
  .kept next within plain awake
    ⟨fun blank => (busy blank).elim,fun both => (apart both.2).elim⟩

theorem converted_emit (plain : converter.Plain) (fine : token.kind.delimits = false)
    (within : tail? token = none) (apart : ¬(token.kind = .opening ∨ token.kind = .closing)) :
    Converted converter token [] (converter.settle.emit token) := by
  refine converted_busy converter token _ within apart ((plain.settle converter).emit _ token fine)
    converter.settle_skipping ?_
  intro blank
  exact List.cons_ne_nil _ _ blank.output

theorem converted_push (before : Converter) (waiting : Waiting) (plain : before.Plain)
    (awake : before.skipping = converter.skipping) (holds : waiting.token? = some token)
    (fine : token.kind.delimits = false) (within : tail? token = none)
    (apart : ¬(token.kind = .opening ∨ token.kind = .closing)) :
    Converted converter token [] (before.push waiting) := by
  refine converted_busy converter token _ within apart (plain.push before waiting ?_) awake ?_
  · intro other same
    obtain rfl := Option.some.inj (holds.symm.trans same)
    exact fine
  · intro blank
    obtain rfl := (blank_of_push _ _ blank).2
    contradiction

theorem converted_call (name : Token) (plain : converter.Plain) (kind : token.kind = .opening)
    (pending : converter.pending = some name) :
    Converted converter token []
      ({ converter with pending := none }.push (.call name converter.output.length)) := by
  refine .kept _ (by simp [tail?,kind]) ?_ rfl ?_
  · have kept : Plain { converter with pending := none } := ⟨plain.output,plain.stack,by simp⟩
    exact kept.push _ (.call name converter.output.length) fun _ absent => by contradiction
  · constructor
    · intro blank
      have call := (blank_of_push _ _ blank).2
      contradiction
    · rintro ⟨blank,_⟩
      have absent := blank.pending
      rw [pending] at absent
      contradiction

theorem converted_opening (plain : converter.Plain) (kind : token.kind = .opening) :
    Converted converter token [] (converter.settle.push .parenthesis) := by
  have settled := plain.settle converter
  refine .kept _ (by simp [tail?,kind]) (settled.push _ _ fun _ absent => by contradiction)
    converter.settle_skipping ?_
  constructor
  · intro blank
    exact ⟨converter.blank_of_settle (blank_of_push _ _ blank).1,.inl kind⟩
  · rintro ⟨blank,_⟩
    rw [blank.settle converter]
    refine ⟨blank.output,?_,blank.pending⟩
    intro waiting member
    obtain rfl | member := List.mem_cons.mp member
    · rfl
    · exact blank.stack waiting member

theorem converted_iterator (next : Converter) (plain : converter.Plain)
    (kind : token.kind = .inWord) (closed : converter.settle.closeIterator = .ok next) :
    Converted converter token [] next := by
  unfold closeIterator at closed
  dsimp only at closed
  split at closed
  next word rest stack =>
    split at closed
    · obtain rfl := Except.ok.inj closed
      refine converted_busy converter token _ (by simp [tail?,kind]) (by simp [kind])
        ((plain.settle converter).releaseBinaries _ _) converter.settle_skipping ?_
      intro blank
      have parenthesis := blank.stack (.leading word) (by rw [stack]; exact List.mem_cons_self)
      contradiction
    · contradiction
  next => contradiction

end

/-- A token that is taken without an error goes one of the ways of `Converted`. -/
theorem converted (converter : Converter) (token : Token) (ready : List Token)
    (next : Converter) (plain : converter.Plain)
    (same : converter.convert token = .ok (ready,next)) : Converted converter token ready next := by
  have settled := plain.settle converter
  have awake := converter.settle_skipping
  unfold convert at same
  split at same
  next name pending kind =>
    obtain ⟨rfl,rfl⟩ : [] = ready ∧ _ = next := by simpa using same
    exact converted_call converter token name plain kind pending
  next =>
    have binds (fine : token.kind.delimits = false) (within : tail? token = none)
        (apart : ¬(token.kind = .opening ∨ token.kind = .closing)) :
        Converted converter token [] (converter.settle.pushBinary token) :=
      converted_push converter token _ (.binary token) (settled.releaseBinaries _ _) awake rfl fine
        within apart
    cases kind : token.kind with
    | name =>
      obtain ⟨rfl,rfl⟩ : [] = ready ∧ _ = next := by simpa [kind] using same
      refine converted_busy converter token _ (by simp [tail?,kind]) (by simp [kind])
        ⟨settled.output,settled.stack,?_⟩ awake fun blank => by simpa using blank.pending
      intro other same
      obtain rfl := Option.some.inj same
      simp [kind,TokenKind.delimits]
    | integer | real | string =>
      obtain ⟨rfl,rfl⟩ : [] = ready ∧ _ = next := by simpa [kind] using same
      exact converted_emit converter token plain (by simp [kind,TokenKind.delimits])
        (by simp [tail?,kind]) (by simp [kind])
    | putWord | retWord | ifWord | whileWord | forWord =>
      obtain ⟨rfl,rfl⟩ : [] = ready ∧ _ = next := by simpa [kind] using same
      exact converted_push converter token _ (.leading token) settled awake rfl
        (by simp [kind,TokenKind.delimits]) (by simp [tail?,kind]) (by simp [kind])
    | additive | multiplicative | comparison | andWord | orWord | assign | dot =>
      obtain ⟨rfl,rfl⟩ : [] = ready ∧ _ = next := by simpa [kind] using same
      exact binds (by simp [kind,TokenKind.delimits]) (by simp [tail?,kind]) (by simp [kind])
    | comma =>
      have bound : converter.settle.pushComma token = .ok next ∧ ready = [] := by
        cases pushed : converter.settle.pushComma token <;> simp_all [Except.map]
      obtain ⟨pushed,rfl⟩ := bound
      unfold pushComma at pushed
      dsimp only at pushed
      split at pushed
      · obtain rfl := Except.ok.inj pushed
        exact binds (by simp [kind,TokenKind.delimits]) (by simp [tail?,kind]) (by simp [kind])
      · contradiction
    | inWord =>
      have closed : converter.settle.closeIterator = .ok next ∧ ready = [] := by
        cases pushed : converter.settle.closeIterator <;> simp_all [Except.map]
      obtain ⟨closed,rfl⟩ := closed
      exact converted_iterator converter token next plain kind closed
    | opening =>
      obtain ⟨rfl,rfl⟩ : [] = ready ∧ _ = next := by simpa [kind] using same
      exact converted_opening converter token plain kind
    | closing =>
      have closed : converter.settle.closeParenthesis token = .ok next ∧ ready = [] := by
        cases pushed : converter.settle.closeParenthesis token <;> simp_all [Except.map]
      obtain ⟨closed,rfl⟩ := closed
      exact converted_closing converter token next plain kind closed
    | semicolon | fileEnd =>
      refine ended_of_finish converter token ready [] next plain (by simp [tail?,kind]) ?_
      simpa [kind] using same
    | doneWord =>
      refine ended_of_finish converter token ready [token] next plain (by simp [tail?,kind]) ?_
      simpa [kind] using same
    | doWord | elseWord =>
      refine ended_of_finish converter token ready [token,token.retyped .statementEnd] next plain
        (by simp [tail?,kind]) ?_
      simpa [kind] using same
    | specifier | call | callNoArgs | statementEnd => simp [kind] at same

end Converter

end BlockScript.Postfix
