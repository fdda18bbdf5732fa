import BlockScript.Proofs.Build.Recovery
import BlockScript.Proofs.Grammar.Statement

/-! Which declarations a reader recognises. While it is reading, its state tells which beginning of
a declaration the tokens since its last rest make up, so it completes exactly the declarations of
the grammar. -/
namespace BlockScript

namespace Declaration.Reader

def isIdle : Reader → Bool
  | idle => true
  | _ => false

def after (reader : Reader) : List Token → Reader
  | [] => reader
  | token :: tokens => (reader.feed token).2.after tokens

def answers (reader : Reader) : List Token → List (Except BuildError Recognition)
  | [] => []
  | token :: tokens => (reader.feed token).1 :: (reader.feed token).2.answers tokens

/-- The tokens fed since the reader was last idle. Those in `earlier` were fed before. -/
def recent (reader : Reader) (earlier : List Token) : List Token → List Token
  | [] => earlier
  | token :: tokens =>
    let next := (reader.feed token).2
    next.recent (if next.isIdle then [] else earlier ++ [token]) tokens

section
variable (reader : Reader)

theorem eq_idle_of_isIdle (idle : reader.isIdle = true) : reader = .idle := by
  cases reader with
  | idle => rfl
  | _ => contradiction

theorem after_append (first second : List Token) :
    reader.after (first ++ second) = (reader.after first).after second := by
  induction first generalizing reader with
  | nil => rfl
  | cons token first ih => exact ih _

theorem answers_append (first second : List Token) :
    reader.answers (first ++ second) =
      reader.answers first ++ (reader.after first).answers second := by
  induction first generalizing reader with
  | nil => rfl
  | cons token first ih => exact congrArg ((reader.feed token).1 :: ·) (ih _)

/-- An idle reader remembers nothing, so the recent tokens alone lead to where it is. -/
theorem after_recent (earlier fed : List Token) (reached : Reader.idle.after earlier = reader) :
    Reader.idle.after (reader.recent earlier fed) = reader.after fed := by
  induction fed generalizing reader earlier with
  | nil => exact reached
  | cons token fed ih =>
    refine ih _ _ ?_
    split
    next idle => exact (eq_idle_of_isIdle _ idle).symm
    next =>
      rw [after_append,reached]
      rfl

/-- A broken declaration is skipped to its end, and nothing is recognised before that. -/
theorem feed_skipping (token : Token) :
    ((skipping.feed token).2 = .idle ∨ (skipping.feed token).2 = .skipping) ∧
      ∀ node, (skipping.feed token).1 ≠ .ok (.complete node) := by
  simp only [feed,advance]
  split_ifs <;> simp

theorem feed_complete_idle (token : Token) (node : Node)
    (completed : (reader.feed token).1 = .ok (.complete node)) :
    (reader.feed token).2 = .idle := by
  by_cases skips : reader = .skipping
  · subst skips
    exact absurd completed ((feed_skipping token).2 node)
  · exact (reader.feed_tells _ token (.complete node) skips (Prod.ext completed rfl)).2.1

theorem feed_structural (token : Token) (structural : token.kind.isStructural = true) :
    (reader.feed token).1 ≠ .ok .consumed ∧
      ∀ node, (reader.feed token).1 ≠ .ok (.complete node) := by
  have told := reader.feed_told token
  refine ⟨fun consumed => ?_,fun node completed => ?_⟩
  · rw [consumed] at told
    exact Bool.false_ne_true (told.symm.trans structural)
  · rw [completed] at told
    exact Bool.false_ne_true (told.2.symm.trans structural)

end

end Declaration.Reader

namespace Grammar
open Declaration

/-- The tokens write the declaration. A function is declared with an empty body. -/
inductive Declares : List Token → Node → Prop
  | variable (type : TypeName) (specifier : Spelled .specifier type.spelling) (name : Of .name)
      (stop : Of .semicolon) (holds : type ≠ .systemHandler) :
      Declares [specifier.val,name.val,stop.val] (.typed ⟨name.val.lexeme,type⟩)
  | handler (specifier : Spelled .specifier TypeName.systemHandler.spelling) (name : Of .name)
      (stop : Of .semicolon) :
      Declares [specifier.val,name.val,stop.val] (.handler name.val.lexeme)
  | functionNoParameters (type : TypeName) (specifier : Spelled .specifier type.spelling)
      (name : Of .name) (opening : Of .opening) (closing : Of .closing)
      (returns : type ≠ .systemHandler) :
      Declares [specifier.val,name.val,opening.val,closing.val]
        (.function name.val.lexeme type [] [])
  | function (type : TypeName) (specifier : Spelled .specifier type.spelling) (name : Of .name)
      (opening : Of .opening) (tokens : List Token) (parameters : List TypedName)
      (closing : Of .closing) (returns : type ≠ .systemHandler)
      (written : Parameters tokens parameters) :
      Declares ([specifier.val,name.val,opening.val] ++ tokens ++ [closing.val])
        (.function name.val.lexeme type parameters [])

/-! ### Every declaration is recognised -/

def Consumes (reader : Reader) (tokens : List Token) (next : Reader) : Prop :=
  reader.answers tokens = List.replicate tokens.length (.ok .consumed) ∧
    reader.after tokens = next

namespace Consumes

theorem one {reader next : Reader} (token : Token)
    (fed : reader.feed token = (.ok .consumed,next)) : Consumes reader [token] next := by
  simp [Consumes,Reader.answers,Reader.after,fed]

theorem append {reader middle next : Reader} {first second : List Token}
    (before : Consumes reader first middle) (behind : Consumes middle second next) :
    Consumes reader (first ++ second) next := by
  obtain ⟨said,rfl⟩ := before
  obtain ⟨others,rfl⟩ := behind
  refine ⟨?_,reader.after_append first second⟩
  rw [Reader.answers_append,said,others,List.length_append,List.replicate_append_replicate]

end Consumes

section
variable (type : TypeName) (specifier : Spelled .specifier type.spelling) (name : Of .name)

theorem consumes_typed : Consumes .idle [specifier.val,name.val] (.named type name.val.lexeme) := by
  have first : Consumes .idle [specifier.val] (.typed type) := .one specifier.val (by
    simp [Reader.feed,Reader.advance,specifier.property.1,specifier_spelled type specifier,
      Except.map])
  have second : Consumes (.typed type) [name.val] (.named type name.val.lexeme) := .one name.val (by
    simp [Reader.feed,Reader.advance,name.property])
  exact first.append second

theorem consumes_head (opening : Of .opening) (returns : type ≠ .systemHandler) :
    Consumes .idle [specifier.val,name.val,opening.val]
      (.parameters ⟨name.val.lexeme,type,[]⟩ .firstParameter) := by
  refine (consumes_typed type specifier name).append (.one opening.val ?_)
  simp [Reader.feed,Reader.advance,opening.property,returns]

theorem consumes_parameter (header : Declaration.Header) (expecting : Expecting)
    (typed : expecting = .firstParameter ∨ expecting = .parameterType) :
    Consumes (.parameters header expecting) [specifier.val,name.val]
      (.parameters (header.addParameter ⟨name.val.lexeme,type⟩) .commaOrClosing) := by
  have first : Consumes (.parameters header expecting) [specifier.val]
      (.parameters header (.parameterName type)) := .one specifier.val (by
    rcases typed with rfl | rfl <;>
      simp [Reader.feed,Reader.advance,readParameter,specifier.property.1,
        specifier_spelled type specifier,Except.map])
  refine first.append (.one name.val ?_)
  simp [Reader.feed,Reader.advance,readParameter,name.property]

end

theorem consumes_parameters (tokens : List Token) (parameters : List TypedName)
    (written : Parameters tokens parameters) (called : String) (returns : TypeName) :
    Consumes (.parameters ⟨called,returns,[]⟩ .firstParameter) tokens
      (.parameters ⟨called,returns,parameters⟩ .commaOrClosing) := by
  induction written with
  | one type specifier name => exact consumes_parameter type specifier name _ _ (.inl rfl)
  | more tokens parameters comma type specifier name _ ih =>
    have between : Consumes (.parameters ⟨called,returns,parameters⟩ .commaOrClosing) [comma.val]
        (.parameters ⟨called,returns,parameters⟩ .parameterType) := .one comma.val (by
      simp [Reader.feed,Reader.advance,readParameter,comma.property])
    exact ih.append (between.append (consumes_parameter type specifier name _ _ (.inr rfl)))

/-- Behind all tokens of a declaration but the last one the reader is about to complete it. -/
theorem Declares.consumes {tokens : List Token} {node : Node} (declares : Declares tokens node) :
    ∃ before last reader, tokens = before ++ [last] ∧ Consumes .idle before reader ∧
      reader.feed last = (.ok (.complete node),.idle) := by
  cases declares with
  | «variable» type specifier name stop holds =>
    refine ⟨_,stop.val,_,rfl,consumes_typed type specifier name,?_⟩
    simp [Reader.feed,Reader.advance,stop.property,simple,holds]
  | handler specifier name stop =>
    refine ⟨_,stop.val,_,rfl,consumes_typed .systemHandler specifier name,?_⟩
    simp [Reader.feed,Reader.advance,stop.property,simple]
  | functionNoParameters type specifier name opening closing returns =>
    refine ⟨_,closing.val,_,rfl,consumes_head type specifier name opening returns,?_⟩
    simp [Reader.feed,Reader.advance,readParameter,closing.property,Declaration.Header.toNode]
  | function type specifier name opening tokens parameters closing returns written =>
    have head := consumes_head type specifier name opening returns
    have listed := consumes_parameters tokens parameters written name.val.lexeme type
    refine ⟨_,closing.val,_,rfl,head.append listed,?_⟩
    simp [Reader.feed,Reader.advance,readParameter,closing.property,Declaration.Header.toNode]

/-! ### Nothing else is recognised -/

inductive Begins : List Token → Reader → Prop
  | nothing : Begins [] .idle
  | typed (type : TypeName) (specifier : Spelled .specifier type.spelling) :
      Begins [specifier.val] (.typed type)
  | named (type : TypeName) (specifier : Spelled .specifier type.spelling) (name : Of .name) :
      Begins [specifier.val,name.val] (.named type name.val.lexeme)
  | opened (type : TypeName) (specifier : Spelled .specifier type.spelling) (name : Of .name)
      (opening : Of .opening) (returns : type ≠ .systemHandler) :
      Begins [specifier.val,name.val,opening.val]
        (.parameters ⟨name.val.lexeme,type,[]⟩ .firstParameter)
  | firstType (tokens : List Token) (header : Declaration.Header) (type : TypeName)
      (specifier : Spelled .specifier type.spelling)
      (begun : Begins tokens (.parameters header .firstParameter)) :
      Begins (tokens ++ [specifier.val]) (.parameters header (.parameterName type))
  | listed (type : TypeName) (specifier : Spelled .specifier type.spelling) (name : Of .name)
      (opening : Of .opening) (tokens : List Token) (parameters : List TypedName)
      (returns : type ≠ .systemHandler) (written : Parameters tokens parameters) :
      Begins ([specifier.val,name.val,opening.val] ++ tokens)
        (.parameters ⟨name.val.lexeme,type,parameters⟩ .commaOrClosing)
  | comma (tokens : List Token) (header : Declaration.Header) (comma : Of .comma)
      (begun : Begins tokens (.parameters header .commaOrClosing)) :
      Begins (tokens ++ [comma.val]) (.parameters header .parameterType)
  | nextType (tokens : List Token) (header : Declaration.Header) (comma : Of .comma) (type : TypeName)
      (specifier : Spelled .specifier type.spelling)
      (begun : Begins tokens (.parameters header .commaOrClosing)) :
      Begins (tokens ++ [comma.val,specifier.val]) (.parameters header (.parameterName type))

inductive Goes (tokens : List Token) (token : Token) : Except BuildError Recognition × Reader → Prop
  | declined : Goes tokens token (.ok .declined,.idle)
  | consumed (next : Reader) (begun : Begins (tokens ++ [token]) next) :
      Goes tokens token (.ok .consumed,next)
  | complete (node : Node) (declares : Declares (tokens ++ [token]) node) :
      Goes tokens token (.ok (.complete node),.idle)
  | ended (error : BuildError) : Goes tokens token (.error error,.idle)
  | broken (error : BuildError) : Goes tokens token (.error error,.skipping)

theorem goes_refused (tokens : List Token) (token : Token) (reader : Reader) (error : BuildError)
    (failed : reader.advance token = .error error) : Goes tokens token (reader.feed token) := by
  simp only [Reader.feed,failed]
  split
  · exact .ended error
  · exact .broken error

theorem specifier_spells (token : Token) (kind : token.kind = .specifier) :
    (∃ error, specifier token = .error error) ∨
      ∃ (type : TypeName) (spelled : Spelled .specifier type.spelling),
        spelled.val = token ∧ specifier token = .ok type := by
  unfold specifier
  split
  next type spelled =>
    have same : type.spelling = token.lexeme := by simpa using List.find?_some spelled
    exact .inr ⟨type,⟨token,kind,same.symm⟩,rfl,rfl⟩
  next => exact .inl ⟨_,rfl⟩

theorem readParameter_refused (header : Declaration.Header) (expecting : Expecting) (token : Token)
    (first : expecting = .firstParameter → token.kind ≠ .closing ∧ token.kind ≠ .specifier)
    (typed : expecting = .parameterType → token.kind ≠ .specifier)
    (named : ∀ type, expecting = .parameterName type → token.kind ≠ .name)
    (listed : expecting = .commaOrClosing → token.kind ≠ .closing ∧ token.kind ≠ .comma) :
    readParameter header expecting token = .error (parameterError expecting token.kind) := by
  unfold readParameter
  split <;> simp_all

section
variable (tokens : List Token) (token : Token)

theorem goes_idle : Goes [] token (Reader.idle.feed token) := by
  by_cases kind : token.kind = .specifier
  · rcases specifier_spells token kind with ⟨error,refused⟩ | ⟨type,spelled,rfl,read⟩
    · exact goes_refused [] token _ error (by simp [Reader.advance,kind,refused,Except.map])
    · have fed : Reader.idle.feed spelled.val = (.ok .consumed,.typed type) := by
        simp [Reader.feed,Reader.advance,kind,read,Except.map]
      rw [fed]
      exact .consumed _ (.typed type spelled)
  · rw [Reader.feed_idle token kind]
    exact .declined

theorem goes_named (type : TypeName) (specifier : Spelled .specifier type.spelling)
    (name : Of .name) :
    Goes [specifier.val,name.val] token (Reader.feed (.named type name.val.lexeme) token) := by
  by_cases stops : token.kind = .semicolon
  · have fed : Reader.feed (.named type name.val.lexeme) token =
        (.ok (.complete (simple type name.val.lexeme)),.idle) := by
      simp [Reader.feed,Reader.advance,stops]
    rw [fed]
    refine .complete _ ?_
    by_cases handles : type = .systemHandler
    · subst handles
      exact .handler specifier name ⟨token,stops⟩
    · rw [simple,if_neg handles]
      exact .variable type specifier name ⟨token,stops⟩ handles
  by_cases opens : token.kind = .opening
  · by_cases handles : type = .systemHandler
    · exact goes_refused _ token _ .handlerParameters (by simp [Reader.advance,opens,handles])
    · have fed : Reader.feed (.named type name.val.lexeme) token =
          (.ok .consumed,.parameters ⟨name.val.lexeme,type,[]⟩ .firstParameter) := by
        simp [Reader.feed,Reader.advance,opens,handles]
      rw [fed]
      exact .consumed _ (.opened type specifier name ⟨token,opens⟩ handles)
  · exact goes_refused _ token _ (.expected .endOrParameters) (by simp [Reader.advance])

/-- The type of a parameter goes on with the declaration in the same way for every parameter. -/
theorem goes_parameterType (header : Declaration.Header) (expecting : Expecting)
    (typed : expecting = .firstParameter ∧ token.kind ≠ .closing ∨ expecting = .parameterType)
    (begins : ∀ (type : TypeName) (spelled : Spelled .specifier type.spelling),
      Begins (tokens ++ [spelled.val]) (.parameters header (.parameterName type))) :
    Goes tokens token (Reader.feed (.parameters header expecting) token) := by
  by_cases kind : token.kind = .specifier
  · have advances : Reader.advance (.parameters header expecting) token =
        (specifier token).map fun type => (.consumed,.parameters header (.parameterName type)) := by
      rcases typed with ⟨rfl,_⟩ | rfl <;> simp [Reader.advance,readParameter,kind]
    rcases specifier_spells token kind with ⟨error,refused⟩ | ⟨type,spelled,rfl,read⟩
    · exact goes_refused tokens token _ error (by rw [advances,refused]; rfl)
    · have fed : Reader.feed (.parameters header expecting) spelled.val =
          (.ok .consumed,.parameters header (.parameterName type)) := by
        simp [Reader.feed,advances,read,Except.map]
      rw [fed]
      exact .consumed _ (begins type spelled)
  · refine goes_refused tokens token _ _ (readParameter_refused header expecting token ?_ ?_ ?_ ?_)
    all_goals rcases typed with ⟨rfl,opens⟩ | rfl
    all_goals simp_all

theorem goes_parameterName (header : Declaration.Header) (type : TypeName)
    (begins : ∀ name : Of .name, Begins (tokens ++ [name.val])
      (.parameters (header.addParameter ⟨name.val.lexeme,type⟩) .commaOrClosing)) :
    Goes tokens token (Reader.feed (.parameters header (.parameterName type)) token) := by
  by_cases kind : token.kind = .name
  · have fed : Reader.feed (.parameters header (.parameterName type)) token =
        (.ok .consumed,.parameters (header.addParameter ⟨token.lexeme,type⟩) .commaOrClosing) := by
      simp [Reader.feed,Reader.advance,readParameter,kind]
    rw [fed]
    exact .consumed _ (begins ⟨token,kind⟩)
  · exact goes_refused tokens token _ _ (readParameter_refused header (.parameterName type) token
      (by simp) (by simp) (fun _ _ => kind) (by simp))

end

theorem Begins.goes {tokens : List Token} {reader : Reader} (begun : Begins tokens reader)
    (token : Token) : Goes tokens token (reader.feed token) := by
  cases begun with
  | nothing => exact goes_idle token
  | typed type specifier =>
    by_cases kind : token.kind = .name
    · have fed : Reader.feed (.typed type) token = (.ok .consumed,.named type token.lexeme) := by
        simp [Reader.feed,Reader.advance,kind]
      rw [fed]
      exact .consumed _ (.named type specifier ⟨token,kind⟩)
    · exact goes_refused _ token _ (.expected .name) (by simp [Reader.advance,kind])
  | named type specifier name => exact goes_named token type specifier name
  | opened type specifier name opening returns =>
    by_cases closes : token.kind = .closing
    · have fed : Reader.feed (.parameters ⟨name.val.lexeme,type,[]⟩ .firstParameter) token =
          (.ok (.complete (.function name.val.lexeme type [] [])),.idle) := by
        simp [Reader.feed,Reader.advance,readParameter,closes,Declaration.Header.toNode]
      rw [fed]
      exact .complete _ (.functionNoParameters type specifier name opening ⟨token,closes⟩ returns)
    · refine goes_parameterType _ token _ _ (.inl ⟨rfl,closes⟩) fun parameter spelled => ?_
      exact .firstType _ _ parameter spelled (.opened type specifier name opening returns)
  | firstType tokens header parameter spelled begun =>
    refine goes_parameterName _ token header parameter fun last => ?_
    cases begun with
    | opened type specifier name opening returns =>
      exact .listed type specifier name opening _ _ returns (.one parameter spelled last)
  | listed type specifier name opening tokens parameters returns written =>
    by_cases closes : token.kind = .closing
    · have fed : Reader.feed (.parameters ⟨name.val.lexeme,type,parameters⟩ .commaOrClosing) token =
          (.ok (.complete (.function name.val.lexeme type parameters [])),.idle) := by
        simp [Reader.feed,Reader.advance,readParameter,closes,Declaration.Header.toNode]
      rw [fed]
      exact .complete _ (.function type specifier name opening tokens parameters ⟨token,closes⟩
        returns written)
    by_cases kind : token.kind = .comma
    · have fed : Reader.feed (.parameters ⟨name.val.lexeme,type,parameters⟩ .commaOrClosing) token =
          (.ok .consumed,.parameters ⟨name.val.lexeme,type,parameters⟩ .parameterType) := by
        simp [Reader.feed,Reader.advance,readParameter,kind]
      rw [fed]
      exact .consumed _ (.comma _ _ ⟨token,kind⟩
        (.listed type specifier name opening tokens parameters returns written))
    · exact goes_refused _ token _ _ (readParameter_refused _ .commaOrClosing token
        (by simp) (by simp) (by simp) fun _ => ⟨closes,kind⟩)
  | comma tokens header comma begun =>
    refine goes_parameterType _ token header _ (.inr rfl) fun parameter spelled => ?_
    rw [List.append_assoc]
    exact .nextType tokens header comma parameter spelled begun
  | nextType tokens header comma parameter spelled begun =>
    refine goes_parameterName _ token header parameter fun last => ?_
    -- Only a list that has a parameter already is in front of a comma.
    cases begun with
    | listed type specifier name opening tokens parameters returns written =>
      have more := Begins.listed type specifier name opening _ _ returns
        (.more tokens parameters comma parameter spelled last written)
      simpa [Declaration.Header.addParameter] using more

/-- The recent tokens begin a declaration, unless one that was broken is being skipped. -/
theorem recent_begins (reader : Reader) (earlier fed : List Token)
    (begun : Begins earlier reader ∨ reader = .skipping) :
    Begins (reader.recent earlier fed) (reader.after fed) ∨ reader.after fed = .skipping := by
  induction fed generalizing reader earlier with
  | nil => exact begun
  | cons token fed ih =>
    refine ih _ _ ?_
    rcases begun with begun | rfl
    · have goes := begun.goes token
      generalize reader.feed token = said at goes ⊢
      cases goes with
      | consumed next begun =>
        refine .inl ?_
        split
        next idle =>
          rw [next.eq_idle_of_isIdle idle]
          exact .nothing
        next => exact begun
      | broken => exact .inr rfl
      | _ => exact .inl .nothing
    · rcases (Reader.feed_skipping token).1 with idle | skipping
      · rw [idle]
        exact .inl .nothing
      · exact .inr skipping

/-- A step completes a declaration exactly if the tokens since the last rest write it, the step's
own token included. All tokens before that one have been consumed, and the reader is idle again.
What shapes blocks is never taken for a part of a declaration. -/
theorem declarations_recognised :
    (∀ fed token node, ((Reader.idle.after fed).feed token).1 = .ok (.complete node) ↔
      Declares (Reader.idle.recent [] fed ++ [token]) node) ∧
    (∀ tokens node, Declares tokens node → Reader.idle.answers tokens =
      List.replicate (tokens.length - 1) (.ok .consumed) ++ [.ok (.complete node)]) ∧
    (∀ (reader : Reader) token node, (reader.feed token).1 = .ok (.complete node) →
      (reader.feed token).2 = .idle) ∧
    ∀ (reader : Reader) token, token.kind.isStructural = true →
      (reader.feed token).1 ≠ .ok .consumed ∧
        ∀ node, (reader.feed token).1 ≠ .ok (.complete node) := by
  refine ⟨fun fed token node => ⟨fun completed => ?_,fun declares => ?_⟩,?_,?_,?_⟩
  · rcases recent_begins .idle [] fed (.inl .nothing) with begun | skipping
    · have goes := begun.goes token
      generalize (Reader.idle.after fed).feed token = said at goes completed
      cases goes with
      | complete found declares =>
        obtain rfl := Recognition.complete.inj (Except.ok.inj completed)
        exact declares
      | _ => cases completed
    · rw [skipping] at completed
      exact absurd completed ((Reader.feed_skipping token).2 node)
  -- The recent tokens lead from rest to where the reader is, and there the last token completes.
  · obtain ⟨before,last,reader,same,⟨_,reached⟩,completes⟩ := declares.consumes
    obtain ⟨rfl,rfl⟩ := List.append_singleton_inj.mp same
    rw [← Reader.idle.after_recent [] fed rfl,reached,completes]
  · intro tokens node declares
    obtain ⟨before,last,reader,rfl,⟨said,reached⟩,completes⟩ := declares.consumes
    rw [Reader.answers_append,said,reached]
    simp [Reader.answers,completes]
  · exact Reader.feed_complete_idle
  · exact Reader.feed_structural

/-- The tokens of `int 5; float f(int a, string b`, all at one place. -/
def interrupted : List Token :=
  [(.specifier,"int"), (.integer,"5"), (.semicolon,";"), (.specifier,"float"), (.name,"f"),
    (.opening,"("), (.specifier,"int"), (.name,"a"), (.comma,","), (.specifier,"string"),
    (.name,"b")].map fun written => ⟨written.1,written.2,⟨.start,.start⟩⟩

/-- Behind the broken declaration of `5` the header of `f` is read from its own beginning. -/
theorem header_recognised :
    Declares (Reader.idle.recent [] interrupted ++ [⟨.closing,")",⟨.start,.start⟩⟩])
      (.function "f" .float [⟨"a",.int⟩,⟨"b",.string⟩] []) ∧
    ((Reader.idle.after interrupted).feed ⟨.closing,")",⟨.start,.start⟩⟩).1 =
      .ok (.complete (.function "f" .float [⟨"a",.int⟩,⟨"b",.string⟩] [])) := by
  have completed : ((Reader.idle.after interrupted).feed ⟨.closing,")",⟨.start,.start⟩⟩).1 =
      .ok (.complete (.function "f" .float [⟨"a",.int⟩,⟨"b",.string⟩] [])) := rfl
  exact ⟨(declarations_recognised.1 _ _ _).mp completed,completed⟩

end Grammar

end BlockScript
