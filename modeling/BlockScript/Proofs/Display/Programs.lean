import BlockScript.Eval.Fault
import BlockScript.Proofs.Display.Unique

/-! Programs as they are shown. What the grammar writes can be told from its text: the text of a
file and the message about a failed statement each come from one file and one statement. -/
namespace BlockScript

/-- A name is spelled as one, whether it is a reserved word or not, a string holds no quote, and
there are no real numbers. -/
@[mk_iff]
structure Token.Legible (token : Token) : Prop where
  named : token.kind = .name → Display.Named token.lexeme
  unquoted : token.kind = .string → '\"' ∉ token.lexeme.toList
  notReal : token.kind ≠ .real

instance (token : Token) : Decidable token.Legible := decidable_of_iff' _ token.legible_iff

namespace Display
open Grammar

/-! ### Trees made of legible parts -/

theorem exists_shapes (nodes : List Node) (legible : ∀ node ∈ nodes, Legible node) :
    ∃ shapes : Node → Shape, ∀ node ∈ nodes, Shown (shapes node) node := by
  choose! shapes shown using legible
  exact ⟨shapes,shown⟩

theorem legible_name (name : String) (named : Named name) : Legible (.name name) :=
  (Shown.name name named).legible

theorem Form.Makes.legible {form : Form} {parts : List Node} {node : Node}
    (makes : form.Makes parts node) (inside : ∀ part ∈ parts, Legible part) : Legible node := by
  obtain ⟨shapes,shown⟩ := exists_shapes parts inside
  exact (Shown.form form parts node shapes makes shown).legible

theorem legible_call (called : String) (arguments : List Node) (named : Named called)
    (inside : ∀ argument ∈ arguments, Legible argument) : Legible (callOf called arguments) := by
  obtain ⟨shapes,shown⟩ := exists_shapes arguments inside
  exact (Shown.call called arguments shapes named shown).legible

theorem legible_function (called : String) (returns : TypeName) (parameters : List TypedName)
    (body : List Node) (named : Named called)
    (others : ∀ parameter ∈ parameters, Named parameter.name)
    (inside : ∀ statement ∈ body, Legible statement) :
    Legible (.function called returns parameters body) := by
  obtain ⟨shapes,shown⟩ := exists_shapes body inside
  exact (Shown.function called returns parameters body named others
    (.form .block body _ shapes (.block body) shown)).legible

theorem not_legible_argument (left right : Node) : ¬ Legible (.argument left right) := by
  rintro ⟨shape,shown⟩
  generalize whole : Node.argument left right = node at shown
  cases shown with
  | call called arguments =>
    cases arguments with
    | nil => contradiction
    | cons first others => cases others <;> contradiction
  | form form parts _ shapes makes =>
    cases makes with
    | joined joiner _ _ binary => cases joiner <;> contradiction
    | _ => contradiction
  | _ => contradiction

/-! ### What the grammar writes -/

/-- A list of arguments, which is a single one where a list may not stand. -/
def Chained (level : Nat) (node : Node) : Prop :=
  ∃ first others, (∀ part ∈ first :: others, Legible part) ∧
    node = others.foldl .argument first ∧ (2 ≤ level → others = [])

theorem Legible.chained {node : Node} (legible : Legible node) (level : Nat) :
    Chained level node := ⟨node,[],by simpa using legible,rfl,fun _ => rfl⟩

theorem Chained.legible {level : Nat} {node : Node} (chained : Chained level node)
    (tight : 2 ≤ level) : Legible node := by
  obtain ⟨first,others,inside,rfl,single⟩ := chained
  obtain rfl := single tight
  exact inside first List.mem_cons_self

theorem tight_of_binary (joiner : Joiner) (binary : joiner ≠ .argument) :
    2 ≤ joiner.leftLevel ∧ 2 ≤ joiner.rightLevel := by
  cases joiner with
  | argument => contradiction
  | arithmetic sign => cases sign <;> decide
  | compare relation => simp [Joiner.leftLevel,Joiner.rightLevel,Joiner.level]
  | _ => decide

theorem Chained.joined {level : Nat} (joiner : Joiner) {first second : Node}
    (allowed : level ≤ joiner.level) (left : Chained joiner.leftLevel first)
    (right : Chained joiner.rightLevel second) : Chained level (joiner.join first second) := by
  -- A comma makes the list longer; every other joiner makes a tree that can stand alone.
  by_cases binary : joiner = .argument
  · subst binary
    obtain ⟨earliest,others,inside,rfl,_⟩ := left
    refine ⟨earliest,others ++ [second],?_,by simp [Joiner.join],?_⟩
    · simpa [or_imp,forall_and,right.legible (Nat.le_refl 2)] using inside
    · intro tight
      exact absurd (tight.trans allowed) (by decide)
  · obtain ⟨leftTight,rightTight⟩ := tight_of_binary joiner binary
    have made : Legible (joiner.join first second) :=
      (Form.Makes.joined joiner first second binary).legible
        (by simp [left.legible leftTight,right.legible rightTight])
    exact made.chained level

theorem Chained.call {earlier last : Node} (chained : Chained 1 (.argument earlier last))
    (called : String) (named : Named called) : Legible (.call called (.argument earlier last)) := by
  obtain ⟨first,others,inside,whole,_⟩ := chained
  cases others with
  | nil =>
    -- A single operand would be a bare list of arguments, which has no text of its own.
    obtain rfl : Node.argument earlier last = first := whole
    exact (not_legible_argument _ _ (inside _ List.mem_cons_self)).elim
  | cons second others =>
    rw [whole]
    exact legible_call called (first :: second :: others) named inside

/-- What an expression writes is a list of legible operands, with more than one only where a call
takes it as its arguments. -/
theorem chained_expression {level : Nat} {tokens : List Token} {node : Node}
    (written : Expression level tokens node) (legible : ∀ token ∈ tokens, token.Legible) :
    Chained level node := by
  induction written with
  | name level token =>
    have named := (legible token.val List.mem_cons_self).named token.property
    exact (legible_name _ named).chained level
  | integer level token value => exact (Shown.integer value).legible.chained level
  | real level token => exact ((legible token.val List.mem_cons_self).notReal token.property).elim
  | string level token =>
    have unquoted := (legible token.val List.mem_cons_self).unquoted token.property
    exact (Shown.string _ unquoted).legible.chained level
  | joined level joiner token left right first second allowed _ _ onLeft onRight =>
    simp only [List.mem_append,List.mem_cons] at legible
    exact .joined joiner allowed (onLeft fun token member => legible token (.inl member))
      (onRight fun token member => legible token (.inr (.inr member)))
  | parentheses level opening closing tokens node _ inner =>
    have made := inner fun token member => legible token (by simp [member])
    exact (made.legible (Nat.le_refl 2)).chained level
  | callNoArgs level called opening closing =>
    have named := (legible called.val List.mem_cons_self).named called.property
    exact (legible_call _ [] named nofun).chained level
  | callOne level called opening closing tokens node _ inner =>
    have named := (legible called.val List.mem_cons_self).named called.property
    have made := (inner fun token member => legible token (by simp [member])).legible (Nat.le_refl 2)
    exact (legible_call _ [node] named (by simpa using made)).chained level
  | callMany level called opening closing tokens earlier last _ inner =>
    have named := (legible called.val List.mem_cons_self).named called.property
    have made := inner fun token member => legible token (by simp [member])
    exact (made.call _ named).chained level

theorem legible_expression {tokens : List Token} {node : Node} (written : Expression 2 tokens node)
    (legible : ∀ token ∈ tokens, token.Legible) : Legible node :=
  (chained_expression written legible).legible (Nat.le_refl 2)

theorem named_parameters {tokens : List Token} {parameters : List TypedName}
    (written : Parameters tokens parameters) (legible : ∀ token ∈ tokens, token.Legible) :
    ∀ parameter ∈ parameters, Named parameter.name := by
  induction written with
  | one type specifier name =>
    have named := (legible name.val (by simp)).named name.property
    simpa using named
  | more tokens parameters comma type specifier name _ earlier =>
    have named := (legible name.val (by simp)).named name.property
    have others := earlier fun token member => legible token (by simp [member])
    simpa [or_imp,forall_and,named] using others

theorem legible_simple {tokens : List Token} {statement : Node} (written : Simple tokens statement)
    (legible : ∀ token ∈ tokens, token.Legible) : Legible statement := by
  cases written with
  | declared type specifier name stop holds =>
    have named := (legible name.val (by simp)).named name.property
    exact (Form.Makes.typed _ type holds).legible (by simpa using legible_name _ named)
  | handler specifier name stop =>
    have named := (legible name.val (by simp)).named name.property
    exact (Form.Makes.handler _).legible (by simpa using legible_name _ named)
  | expression tokens node stop written =>
    exact legible_expression written fun token member => legible token (by simp [member])
  | put word tokens node stop written =>
    have made := legible_expression written fun token member => legible token (by simp [member])
    exact (Form.Makes.put node).legible (by simpa using made)
  | ret word tokens node stop written =>
    have made := legible_expression written fun token member => legible token (by simp [member])
    exact (Form.Makes.ret node).legible (by simpa using made)

theorem legible_header {tokens : List Token} {make : List Node → Node} (written : Header tokens make)
    (legible : ∀ token ∈ tokens, token.Legible) (body : List Node)
    (inside : ∀ statement ∈ body, Legible statement) : Legible (make body) := by
  have block : Legible (.block body) := (Form.Makes.block body).legible inside
  cases written with
  | standalone => exact block
  | ifThen word tokens condition written =>
    have made := legible_expression written fun token member => legible token (by simp [member])
    exact (Form.Makes.ifThen condition body).legible (by simp [made,block])
  | whileDo word tokens condition written =>
    have made := legible_expression written fun token member => legible token (by simp [member])
    exact (Form.Makes.whileDo condition body).legible (by simp [made,block])
  | forIn word before iterator inWord tokens collection named written =>
    have name := legible_expression named fun token member => legible token (by simp [member])
    have made := legible_expression written fun token member => legible token (by simp [member])
    exact (Form.Makes.forIn iterator collection body).legible
      (by simp [name,legible_name "in" (by decide),made,block])
  | functionNoParameters type specifier name opening closing returns =>
    have named := (legible name.val (by simp)).named name.property
    exact legible_function _ type [] [.block body] named nofun (by simpa using block)
  | function type specifier name opening tokens parameters closing returns written =>
    have named := (legible name.val (by simp)).named name.property
    have others := named_parameters written fun token member => legible token (by simp [member])
    exact legible_function _ type parameters [.block body] named others (by simpa using block)

theorem legible_program {tokens : List Token} {statements : List Node}
    (written : Program tokens statements) (legible : ∀ token ∈ tokens, token.Legible) :
    ∀ statement ∈ statements, Legible statement := by
  induction written with
  | nil => exact nofun
  | simple tokens rest statement statements written _ later =>
    have made := legible_simple written fun token member => legible token (by simp [member])
    have others := later fun token member => legible token (by simp [member])
    exact List.forall_mem_cons.mpr ⟨made,others⟩
  | block head inner rest make body statements doWord doneWord header _ _ inside later =>
    have made := legible_header header (fun token member => legible token (by simp [member])) body
      (inside fun token member => legible token (by simp [member]))
    have others := later fun token member => legible token (by simp [member])
    exact List.forall_mem_cons.mpr ⟨made,others⟩
  | ifElse word tokens inner other rest condition body otherwise statements _ _ _ _ _ written _ _ _
      inside instead later =>
    have asked := legible_expression written fun token member => legible token (by simp [member])
    have first := (Form.Makes.block body).legible
      (inside fun token member => legible token (by simp [member]))
    have second := (Form.Makes.block otherwise).legible
      (instead fun token member => legible token (by simp [member]))
    have made := (Form.Makes.ifElse condition body otherwise).legible
      (by simp [asked,first,legible_name "else" (by decide),second])
    have others := later fun token member => legible token (by simp [member])
    exact List.forall_mem_cons.mpr ⟨made,others⟩

/-! ### Texts of programs -/

theorem render_inj {node other : Node} (legible : Legible node) (fine : Legible other)
    (same : node.render = other.render) : node = other := by
  obtain ⟨shape,shown⟩ := legible
  have texts : text node ++ [] = text other ++ [] := congrArg (·.toList ++ []) same
  exact (shown.clear other fine [] [] .nothing .nothing texts).1

theorem text_file (root : Node) (roots : List Node) :
    (renderFile (root :: roots)).toList = text root ++ '\n' :: (renderFile roots).toList := by
  simp [renderFile,text,String.toList_join]

theorem renderFile_inj {roots others : List Node} (legible : ∀ root ∈ roots, Legible root)
    (fine : ∀ other ∈ others, Legible other) (same : renderFile roots = renderFile others) :
    roots = others := by
  have texts := congrArg String.toList same
  clear same
  induction roots generalizing others with
  | nil =>
    cases others with
    | nil => rfl
    | cons other others => simp [renderFile] at texts
  | cons root roots ih =>
    cases others with
    | nil => simp [renderFile] at texts
    | cons other others =>
      obtain ⟨⟨shape,shown⟩,later⟩ := List.forall_mem_cons.mp legible
      obtain ⟨otherFine,othersFine⟩ := List.forall_mem_cons.mp fine
      rw [text_file,text_file] at texts
      obtain ⟨rfl,lines⟩ := shown.clear.split otherFine .line texts
      obtain rfl := ih later othersFine lines
      rfl

theorem text_message (failure : Failure) :
    failure.message.toList = "Error executing statement: ".toList ++
      (text failure.statement ++ ' ' :: '-' :: ' ' :: failure.fault.message.toList) := by
  -- Rewriting with the definition would first derive an equation for it, which takes long.
  unfold Failure.message
  simp [text]

theorem message_inj {failure other : Failure} (legible : Legible failure.statement)
    (fine : Legible other.statement) (same : failure.message = other.message) :
    failure.statement = other.statement ∧ failure.fault.message = other.fault.message := by
  obtain ⟨shape,shown⟩ := legible
  have texts := congrArg String.toList same
  rw [text_message,text_message] at texts
  obtain ⟨statement,behind⟩ := shown.clear.split fine .blank (List.append_cancel_left texts)
  have messages := (List.cons.inj (List.cons.inj behind).2).2
  exact ⟨statement,String.toList_inj.mp messages⟩

end Display

open Grammar

/-- Two files that are shown alike are the same file, two statements that are shown alike are the
same statement, and the message about a failure tells which statement failed and what was said of
its fault. -/
theorem display_unambiguous (firstTokens secondTokens : List Token) (first second : List Node)
    (written : Program firstTokens first) (otherWritten : Program secondTokens second)
    (legible : ∀ token ∈ firstTokens, token.Legible)
    (otherLegible : ∀ token ∈ secondTokens, token.Legible) :
    (renderFile first = renderFile second → first = second) ∧
    (∀ statement ∈ first, ∀ other ∈ second, statement.render = other.render → statement = other) ∧
    ∀ failure other : Failure, failure.statement ∈ first → other.statement ∈ second →
      failure.message = other.message →
        failure.statement = other.statement ∧ failure.fault.message = other.fault.message := by
  have shown := Display.legible_program written legible
  have otherShown := Display.legible_program otherWritten otherLegible
  refine ⟨Display.renderFile_inj shown otherShown,?_,?_⟩
  · intro statement member other otherMember
    exact Display.render_inj (shown _ member) (otherShown _ otherMember)
  · intro failure other member otherMember
    exact Display.message_inj (shown _ member) (otherShown _ otherMember)

/-- `if x do put f("a, b)) (put c"); done` -/
def quoting : List Token :=
  let word (kind : TokenKind) (text : String) : Token := ⟨kind,text,⟨.start,.start⟩⟩
  [word .ifWord "if",word .name "x",word .doWord "do",
    word .putWord "put",word .name "f",word .opening "(",word .string "a, b)) (put c",
    word .closing ")",word .semicolon ";",word .doneWord "done"]

def quotingTree : Node :=
  .ifThen (.name "x") (some [.put (.call "f" (.lastArgument (.string "a, b)) (put c")))]) none

/-- `if x do put f(a, b); put c; done`, which is shown in the same way but for the quotes. -/
def spreading : List Token :=
  let word (kind : TokenKind) (text : String) : Token := ⟨kind,text,⟨.start,.start⟩⟩
  [word .ifWord "if",word .name "x",word .doWord "do",
    word .putWord "put",word .name "f",word .opening "(",word .name "a",word .comma ",",
    word .name "b",word .closing ")",word .semicolon ";",
    word .putWord "put",word .name "c",word .semicolon ";",word .doneWord "done"]

def spreadingTree : Node :=
  .ifThen (.name "x")
    (some [.put (.call "f" (.argument (.name "a") (.name "b"))),.put (.name "c")]) none

/-- The quotes alone tell the two programs apart. -/
theorem quoting_unambiguous :
    renderFile [quotingTree] ≠ renderFile [spreadingTree] ∧
    ∀ fault other, Failure.message ⟨fault,quotingTree⟩ ≠ Failure.message ⟨other,spreadingTree⟩ := by
  have written : Program quoting [quotingTree] := by
    refine .block [_,_] _ [] _ [_] [] ⟨_,rfl⟩ ⟨_,rfl⟩ (.ifThen ⟨_,rfl⟩ [_] _ (.name 2 ⟨_,rfl⟩))
      (.simple _ [] _ [] (.put ⟨_,rfl⟩ [_,_,_,_] _ ⟨_,rfl⟩ ?_) .nil) .nil
    exact .callOne 2 ⟨_,rfl⟩ ⟨_,rfl⟩ ⟨_,rfl⟩ [_] _ (.string 2 ⟨_,rfl⟩)
  have otherWritten : Program spreading [spreadingTree] := by
    refine .block [_,_] _ [] _ [_,_] [] ⟨_,rfl⟩ ⟨_,rfl⟩ (.ifThen ⟨_,rfl⟩ [_] _ (.name 2 ⟨_,rfl⟩))
      (.simple _ _ _ _ (.put ⟨_,rfl⟩ [_,_,_,_,_,_] _ ⟨_,rfl⟩ ?_)
        (.simple _ [] _ [] (.put ⟨_,rfl⟩ [_] _ ⟨_,rfl⟩ (.name 2 ⟨_,rfl⟩)) .nil)) .nil
    refine .callMany 2 ⟨_,rfl⟩ ⟨_,rfl⟩ ⟨_,rfl⟩ [_,_,_] _ _ ?_
    exact .joined 1 .argument ⟨_,rfl,rfl⟩ [_] [_] _ _ (by decide) (.name 1 ⟨_,rfl⟩) (.name 2 ⟨_,rfl⟩)
  obtain ⟨files,_,messages⟩ := display_unambiguous quoting spreading _ _ written otherWritten
    (by decide) (by decide)
  have apart : quotingTree ≠ spreadingTree := nofun
  refine ⟨fun same => apart (List.cons.inj (files same)).1,fun fault other same => ?_⟩
  exact apart (messages ⟨fault,_⟩ ⟨other,_⟩ List.mem_cons_self List.mem_cons_self same).1

end BlockScript
