import BlockScript.Proofs.Grammar.Basic
import BlockScript.Proofs.Token.Munch
import BlockScript.Tree.Render

/-! Trees as programs make them, and how their texts begin. The first characters of a text tell which
form of tree is shown. -/
namespace BlockScript

namespace Display
open Grammar Token

/-! ### Forms -/

/-- The forms that are shown in parentheses. A handler is declared like a variable, with the type of
handlers. -/
inductive Form
  | joined (joiner : Joiner)
  | declared (type : TypeName)
  | function
  | ifThen
  | whileDo
  | forIn
  | put
  | ret
  | block
deriving DecidableEq

namespace Form

def word : Form → String
  | joined joiner => joiner.spelling
  | declared type => type.spelling
  | function => "fn"
  | ifThen => "if"
  | whileDo => "while"
  | forIn => "for"
  | put => "put"
  | ret => "ret"
  | block => "do"

def all : List Form :=
  ([.argument,.assign,.either,.both,.field] ++ Relation.all.map .compare
      ++ Arithmetic.all.map .arithmetic : List Joiner).map joined
    ++ TypeName.all.map declared ++ [function,ifThen,whileDo,forIn,put,ret,block]

theorem mem_all (form : Form) : form ∈ all := by
  cases form with
  | joined joiner =>
    cases joiner with
    | compare relation => cases relation <;> decide
    | arithmetic sign => cases sign <;> decide
    | _ => decide
  | declared type => cases type <;> decide
  | _ => decide

def ofWord? (word : List Char) : Option Form := all.find? fun form => form.word.toList == word

theorem ofWord?_word (form : Form) : ofWord? form.word.toList = some form := by
  have inverse : ∀ form ∈ all, ofWord? form.word.toList = some form := by decide
  exact inverse form form.mem_all

end Form

inductive Shape
  | name
  | call
  | integer
  | string
  | form (form : Form)
deriving Inhabited

/-! ### Trees -/

/-- A letter or an underscore, and then these and digits. -/
def Named (name : String) : Prop :=
  ∃ first others, name.toList = first :: others ∧ startsName first = true ∧
    ∀ char ∈ others, continuesName char = true

instance (name : String) : Decidable (Named name) :=
  match spelled : name.toList with
  | [] => isFalse (by simp [Named,spelled])
  | first :: others =>
    decidable_of_iff (startsName first = true ∧ others.all continuesName = true)
      (by simp [Named,spelled])

/-- The call with these arguments. Several ones form a chain that grows to the left. -/
def callOf (called : String) : List Node → Node
  | [] => .callNoArgs called
  | [argument] => .call called (.lastArgument argument)
  | first :: second :: others => .call called (others.foldl .argument (.argument first second))

/-- The tree is the form with these parts, among them the words between them. Functions are apart,
since a list of parameters is no tree. -/
inductive Form.Makes : Form → List Node → Node → Prop
  | joined (joiner : Joiner) (left right : Node) (binary : joiner ≠ .argument) :
      Makes (.joined joiner) [left,right] (joiner.join left right)
  | typed (name : String) (type : TypeName) (holds : type ≠ .systemHandler) :
      Makes (.declared type) [.name name] (.typed ⟨name,type⟩)
  | handler (called : String) : Makes (.declared .systemHandler) [.name called] (.handler called)
  | ifThen (condition : Node) (body : List Node) :
      Makes .ifThen [condition,.block body] (.ifThen condition (some body) none)
  | ifElse (condition : Node) (body otherwise : List Node) :
      Makes .ifThen [condition,.block body,.name "else",.block otherwise]
        (.ifThen condition (some body) (some otherwise))
  | whileDo (condition : Node) (body : List Node) :
      Makes .whileDo [condition,.block body] (.whileDo condition (some body))
  | forIn (iterator : String) (collection : Node) (body : List Node) :
      Makes .forIn [.name iterator,.name "in",collection,.block body]
        (.forIn (.name iterator) collection (some body))
  | put (operand : Node) : Makes .put [operand] (.put operand)
  | ret (operand : Node) : Makes .ret [operand] (.ret operand)
  | block (body : List Node) : Makes .block body (.block body)

/-- A tree of the shape that a program may make and that has no real number in it. -/
inductive Shown : Shape → Node → Prop
  | name (text : String) (named : Named text) : Shown .name (.name text)
  | integer (value : Int64) : Shown .integer (.int value)
  | string (content : String) (unquoted : '\"' ∉ content.toList) :
      Shown .string (.string content)
  | call (called : String) (arguments : List Node) (shapes : Node → Shape) (named : Named called)
      (inside : ∀ argument ∈ arguments, Shown (shapes argument) argument) :
      Shown .call (callOf called arguments)
  | form (form : Form) (parts : List Node) (node : Node) (shapes : Node → Shape)
      (makes : form.Makes parts node) (inside : ∀ part ∈ parts, Shown (shapes part) part) :
      Shown (.form form) node
  | function (called : String) (returns : TypeName) (parameters : List TypedName)
      (body : List Node) (named : Named called)
      (others : ∀ parameter ∈ parameters, Named parameter.name)
      (inside : Shown (.form .block) (.block body)) :
      Shown (.form .function) (.function called returns parameters body)

/-! ### Texts -/

def text (node : Node) : List Char := node.render.toList

/-- Items with a lead in front of each, up to the parenthesis that closes them. -/
def listed {α : Type} (shown : α → List Char) (lead : List Char) : List α → List Char
  | [] => [')']
  | item :: items => lead ++ shown item ++ listed shown lead items

def series {α : Type} (shown : α → List Char) : List α → List Char
  | [] => [')']
  | item :: items => shown item ++ listed shown [',',' '] items

def within (form : Form) (parts : List Char) : List Char := '(' :: form.word.toList ++ parts

theorem within_append (form : Form) (parts rest : List Char) :
    within form parts ++ rest = within form (parts ++ rest) := by
  simp [within]

theorem text_statements (statements : List Node) :
    (Node.renderStatements statements).toList = listed text [' '] statements := by
  induction statements with
  | nil => rfl
  | cons statement rest ih => simp [Node.renderStatements,listed,ih,text]

theorem text_chain (arguments : List Node) (chain : Node) :
    text (arguments.foldl .argument chain) ++ [')'] =
      text chain ++ listed text [',',' '] arguments := by
  induction arguments generalizing chain with
  | nil => rfl
  | cons argument arguments ih =>
    rw [List.foldl_cons,ih]
    simp [listed,text,Node.render]

/-- A call is shown as its name and its arguments, however they are chained in the tree. -/
theorem text_call (called : String) (arguments : List Node) :
    text (callOf called arguments) = called.toList ++ '(' :: series text arguments := by
  cases arguments with
  | nil => simp [callOf,text,Node.render,series]
  | cons first others =>
    cases others with
    | nil => simp [callOf,text,Node.render,series,listed]
    | cons second others =>
      have chained := text_chain others (.argument first second)
      simp only [text] at chained
      simp [callOf,text,Node.render,series,listed,chained]

/-- A form is shown as its word and its parts, with a space in front of each. -/
theorem text_made {form : Form} {parts : List Node} {node : Node} (makes : form.Makes parts node) :
    text node = within form (listed text [' '] parts) := by
  cases makes with
  | joined joiner left right binary =>
    cases joiner with
    | argument => contradiction
    | _ =>
      simp [text,Node.render,Joiner.join,Node.renderPair,within,listed,Form.word,Joiner.spelling,
        Test.spelling]
  | typed | handler =>
    simp [text,Node.render,TypedName.render,within,listed,Form.word,TypeName.spelling]
  | ifThen | ifElse | whileDo | forIn =>
    simp [text,Node.render,Node.renderSlot,within,listed,Form.word]
  | put | ret => simp [text,Node.render,within,listed,Form.word]
  | block => simp [text,Node.render,within,Form.word,text_statements]

theorem text_parameters (parameters : List TypedName) :
    (", ".intercalate (parameters.map TypedName.render)).toList ++ [')'] =
      series (·.render.toList) parameters := by
  rw [String.toList_intercalate]
  cases parameters with
  | nil => rfl
  | cons first others =>
    induction others generalizing first with
    | nil => simp [series,listed]
    | cons second others ih =>
      have behind := ih second
      simp only [List.map_cons,series] at behind
      simp only [List.map_cons,List.intercalate_cons_cons,series,listed,List.append_assoc,behind]
      rfl

theorem text_function (called : String) (returns : TypeName) (parameters : List TypedName)
    (body : List Node) :
    text (.function called returns parameters body) =
      within .function (' ' :: returns.spelling.toList ++ ' ' :: called.toList ++
        ' ' :: '(' :: series (·.render.toList) parameters ++ ' ' :: text (.block body) ++ [')']) := by
  rw [← text_parameters]
  simp [text,Node.render,within,Form.word]

/-! ### The first characters -/

def isMark (char : Char) : Bool := [' ',',','(',')','\n'].contains char

inductive Ends : List Char → Prop
  | nothing : Ends []
  | blank (rest : List Char) : Ends (' ' :: rest)
  | comma (rest : List Char) : Ends (',' :: rest)
  | closing (rest : List Char) : Ends (')' :: rest)
  | line (rest : List Char) : Ends ('\n' :: rest)

def plain (char : Char) : Bool := !isMark char

theorem Ends.stops {rest : List Char} (ends : Ends rest) :
    ∀ char behind, rest = char :: behind → plain char = false := by
  intro char behind same
  cases ends with
  | nothing => contradiction
  | _ =>
    obtain ⟨rfl,_⟩ := List.cons.inj same
    rfl

/-- Behind a name only the arguments of a call are opened. -/
def Shape.behindName : List Char → Shape
  | '(' :: _ => call
  | _ => name

def Shape.ofText? : List Char → Option Shape
  | [] => none
  | '\"' :: _ => some string
  | '(' :: rest => (Form.ofWord? (rest.takeWhile plain)).map form
  | first :: rest =>
    if first.isDigit || first == '-' then some integer
    else if startsName first then some (behindName (rest.dropWhile plain))
    else none

theorem plain_word (form : Form) (proper : form ≠ .joined .argument) :
    ∀ char ∈ form.word.toList, plain char = true := by
  have all : ∀ form ∈ Form.all, form ≠ .joined .argument →
      form.word.toList.all plain = true := by decide
  exact List.all_eq_true.mp (all form form.mem_all proper)

theorem ofText?_within (form : Form) (proper : form ≠ .joined .argument) (parts : List Char)
    (stops : ∀ char behind, parts = char :: behind → plain char = false) :
    Shape.ofText? (within form parts) = some (.form form) := by
  have run : LongestRun plain (form.word.toList ++ parts) form.word.toList parts :=
    ⟨rfl,plain_word form proper,stops⟩
  have taken := run.takeWhile
  have known := form.ofWord?_word
  simp [within,Shape.ofText?,taken,known]

theorem plain_of_continues (char : Char) (continues : continuesName char = true) :
    plain char = true := by
  have marks : [' ',',','(',')','\n'].all (!continuesName ·) = true := by decide
  rw [plain,Bool.not_eq_true',Bool.eq_false_iff]
  intro mark
  have apart := List.all_eq_true.mp marks char (by simpa [isMark] using mark)
  rw [continues] at apart
  contradiction

/-! ### Integers -/

theorem toString_toDigits (value : Int) : ∃ number : Nat,
    ((toString value).toList = Nat.toDigits 10 number ∧ value = number) ∨
      (toString value).toList = '-' :: Nat.toDigits 10 number ∧ value = -number := by
  change ∃ number : Nat, (value.repr.toList = Nat.toDigits 10 number ∧ value = number) ∨
    value.repr.toList = '-' :: Nat.toDigits 10 number ∧ value = -number
  rw [Int.repr_eq_if]
  split
  next positive => exact ⟨value.toNat,.inl ⟨by simp [Nat.repr],by omega⟩⟩
  next negative => exact ⟨(-value).toNat,.inr ⟨by simp [Nat.repr],by omega⟩⟩

theorem digit_of_toDigits (number : Nat) :
    ∀ char ∈ Nat.toDigits 10 number, char.isDigit = true :=
  fun _ member => Nat.isDigit_of_mem_toDigits (by decide) (by decide) member

theorem natural?_toDigits (number : Nat) :
    Decimal.natural? (Nat.toDigits 10 number) = some number := by
  have digits := List.all_eq_true.mpr (digit_of_toDigits number)
  have value : Decimal.digitsValue (Nat.toDigits 10 number) = number := Nat.ofDigitChars_ten_toDigits
  simp [Decimal.natural?,digits,value]

theorem splitSign_toDigits (number : Nat) :
    Decimal.splitSign (Nat.toDigits 10 number) = (false,Nat.toDigits 10 number) := by
  have digits := digit_of_toDigits number
  unfold Decimal.splitSign
  split
  next same => exact absurd (digits '-' (by simp [same])) (by decide)
  next same => exact absurd (digits '+' (by simp [same])) (by decide)
  next => rfl

/-- An integer is read back from its text. -/
theorem signed?_toString (value : Int) : Decimal.signed? (toString value).toList = some value := by
  obtain ⟨number,⟨digits,rfl⟩ | ⟨digits,rfl⟩⟩ := toString_toDigits value
  · rw [digits,Decimal.signed?,splitSign_toDigits]
    simp [natural?_toDigits]
  · rw [digits]
    simp [Decimal.signed?,Decimal.splitSign,natural?_toDigits]

theorem toString_solid (value : Int) : ∃ first others, (toString value).toList = first :: others ∧
    (first.isDigit || first == '-') = true ∧ ∀ char ∈ first :: others, plain char = true := by
  have plain_digit (char : Char) (digit : char.isDigit = true) : plain char = true :=
    plain_of_continues char (by simp [continuesName,Char.isAlphanum,digit])
  obtain ⟨number,⟨digits,_⟩ | ⟨digits,_⟩⟩ := toString_toDigits value
  · have all := digit_of_toDigits number
    cases whole : Nat.toDigits 10 number with
    | nil => exact absurd whole Nat.toDigits_ne_nil
    | cons first others =>
      rw [whole] at digits all
      refine ⟨first,others,digits,by simp [all first],?_⟩
      exact fun char member => plain_digit char (all char member)
  · refine ⟨'-',_,digits,rfl,List.forall_mem_cons.mpr ⟨rfl,fun char member => ?_⟩⟩
    exact plain_digit char (digit_of_toDigits number char member)

/-! ### The shape of what is shown -/

theorem Named.plain {name : String} (named : Named name) :
    ∀ char ∈ name.toList, Display.plain char = true := by
  obtain ⟨first,others,spelled,letter,continues⟩ := named
  rw [spelled]
  refine List.forall_mem_cons.mpr ⟨plain_of_continues _ (continues_of_letter first letter),?_⟩
  exact fun char member => plain_of_continues char (continues char member)

theorem Named.ofText? {name : String} (named : Named name) (rest : List Char)
    (stops : ∀ char behind, rest = char :: behind → Display.plain char = false) :
    Shape.ofText? (name.toList ++ rest) = some (Shape.behindName rest) := by
  have all := named.plain
  obtain ⟨first,others,spelled,letter,continues⟩ := named
  rw [spelled] at all ⊢
  have run : LongestRun Display.plain (others ++ rest) others rest :=
    ⟨rfl,(List.forall_mem_cons.mp all).2,stops⟩
  have behind : (others ++ rest).dropWhile Display.plain = rest := by
    rw [← drop_takeWhile,run.takeWhile,run.drop]
  have apart (sign : Char) (other : startsName sign = false) : first ≠ sign := by
    rintro rfl
    exact Bool.false_ne_true (other.symm.trans letter)
  have uncounted : (first.isDigit || first == '-') = false := by
    simp [not_digit_of_letter first letter,apart '-' rfl]
  rw [List.cons_append,Shape.ofText?]
  · simp [uncounted,letter,behind]
  · exact apart '\"' rfl
  · exact apart '(' rfl

theorem ofText?_integer (value : Int64) (rest : List Char) :
    Shape.ofText? (text (.int value) ++ rest) = some .integer := by
  obtain ⟨first,others,digits,numeric,_⟩ := toString_solid value.toInt
  have apart (sign : Char) (other : (sign.isDigit || sign == '-') = false) : first ≠ sign := by
    rintro rfl
    exact Bool.false_ne_true (other.symm.trans numeric)
  rw [text,Node.render,digits,List.cons_append,Shape.ofText?]
  · exact if_pos numeric
  · exact apart '\"' rfl
  · exact apart '(' rfl

theorem ends_listed {α : Type} {shown : α → List Char} (mark : Char) (lead : List Char)
    (separates : ∀ rest, Ends (mark :: rest)) (items : List α) (rest : List Char) :
    Ends (listed shown (mark :: lead) items ++ rest) := by
  cases items with
  | nil => exact .closing rest
  | cons item items => exact separates _

/-- The beginning of a text tells the shape of the tree, whatever may follow the tree. -/
theorem Shown.ofText? {shape : Shape} {node : Node} (shown : Shown shape node) (rest : List Char)
    (ends : Ends rest) : Shape.ofText? (text node ++ rest) = some shape := by
  cases shown with
  | name name named =>
    refine (named.ofText? rest ends.stops).trans ?_
    cases ends <;> rfl
  | integer value => exact ofText?_integer value rest
  | string content unquoted => simp [text,Node.render,Shape.ofText?]
  | call called arguments shapes named inside =>
    rw [text_call,List.append_assoc]
    exact named.ofText? _ (by rintro _ _ ⟨⟩; rfl)
  | form form parts _ shapes makes inside =>
    have proper : form ≠ .joined .argument := by
      rintro rfl
      cases makes with
      | joined _ _ _ binary => exact binary rfl
    rw [text_made makes,within_append]
    exact ofText?_within form proper _ (ends_listed ' ' [] .blank parts rest).stops
  | function called returns parameters body named others inside =>
    rw [text_function,within_append]
    exact ofText?_within .function nofun _ (Ends.blank _).stops

end Display

end BlockScript
