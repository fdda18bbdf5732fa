import BlockScript.Proofs.Display.Shape
import Mathlib.Tactic.Choose

/-! Unique reading. A text shows one tree at most, and it tells where that tree ends, whatever
follows it. -/
namespace BlockScript.Display
open Grammar Token

/-- Two words, each up to a mark or to the end. -/
theorem word_unique {word other rest behind : List Char} (solid : ∀ char ∈ word, plain char = true)
    (otherSolid : ∀ char ∈ other, plain char = true)
    (stops : ∀ char after, rest = char :: after → plain char = false)
    (otherStops : ∀ char after, behind = char :: after → plain char = false)
    (same : word ++ rest = other ++ behind) : word = other ∧ rest = behind := by
  have run : LongestRun plain (word ++ rest) word rest := ⟨rfl,solid,stops⟩
  have again : LongestRun plain (word ++ rest) other behind := ⟨same,otherSolid,otherStops⟩
  obtain rfl : word = other := run.takeWhile.symm.trans again.takeWhile
  exact ⟨rfl,List.append_cancel_left same⟩

/-- Whatever may follow it, the text of the item tells which good item it is and where it ends. -/
def Clear {α : Type} (shown : α → List Char) (good : α → Prop) (item : α) : Prop :=
  ∀ other, good other → ∀ rest behind, Ends rest → Ends behind →
    shown item ++ rest = shown other ++ behind → item = other ∧ rest = behind

section
variable {α : Type} {shown : α → List Char} {good : α → Prop}

/-- The same mark stands behind both items. -/
theorem Clear.split {item other : α} (clear : Clear shown good item) (fine : good other)
    {mark : Char} (ends : ∀ rest, Ends (mark :: rest)) {rest behind : List Char}
    (same : shown item ++ mark :: rest = shown other ++ mark :: behind) :
    item = other ∧ rest = behind := by
  obtain ⟨rfl,left⟩ := clear other fine _ _ (ends rest) (ends behind) same
  exact ⟨rfl,(List.cons.inj left).2⟩

theorem clear_word (solid : ∀ item, good item → ∀ char ∈ shown item, plain char = true)
    (apart : ∀ item other, shown item = shown other → item = other) (item : α)
    (fine : good item) : Clear shown good item := by
  intro other otherFine rest behind ends stops same
  obtain ⟨word,left⟩ := word_unique (solid item fine) (solid other otherFine) ends.stops stops.stops
    same
  exact ⟨apart item other word,left⟩

/-- Items that can be told apart can be told apart in a list too. -/
theorem listed_unique (mark : Char) (lead : List Char) (separates : ∀ rest, Ends (mark :: rest))
    (apart : mark ≠ ')') (items others : List α) (clear : ∀ item ∈ items, Clear shown good item)
    (fine : ∀ other ∈ others, good other) (rest behind : List Char)
    (same : listed shown (mark :: lead) items ++ rest =
      listed shown (mark :: lead) others ++ behind) : items = others ∧ rest = behind := by
  -- Where one list has its closing parenthesis and the other its mark, the texts differ.
  induction items generalizing others with
  | nil =>
    cases others with
    | nil => exact ⟨rfl,(List.cons.inj same).2⟩
    | cons other others => exact (apart (List.cons.inj same).1.symm).elim
  | cons item items ih =>
    cases others with
    | nil => exact (apart (List.cons.inj same).1).elim
    | cons other others =>
      obtain ⟨here,later⟩ := List.forall_mem_cons.mp clear
      obtain ⟨otherFine,othersFine⟩ := List.forall_mem_cons.mp fine
      have inner : shown item ++ (listed shown (mark :: lead) items ++ rest) =
          shown other ++ (listed shown (mark :: lead) others ++ behind) := by
        simpa [listed] using same
      obtain ⟨rfl,left⟩ := here other otherFine _ _ (ends_listed mark lead separates items rest)
        (ends_listed mark lead separates others behind) inner
      obtain ⟨rfl,rfl⟩ := ih others later othersFine left
      exact ⟨rfl,rfl⟩

theorem series_unique
    (solid : ∀ item, good item → ∀ rest behind, Ends rest → shown item ++ rest ≠ ')' :: behind)
    (items others : List α) (clear : ∀ item ∈ items, Clear shown good item)
    (itemsFine : ∀ item ∈ items, good item) (fine : ∀ other ∈ others, good other)
    (rest behind : List Char) (same : series shown items ++ rest = series shown others ++ behind) :
    items = others ∧ rest = behind := by
  have ends (items : List α) (rest : List Char) : Ends (listed shown [',',' '] items ++ rest) :=
    ends_listed ',' [' '] .comma items rest
  cases items with
  | nil =>
    cases others with
    | nil => exact ⟨rfl,(List.cons.inj same).2⟩
    | cons other others =>
      rw [series,series,List.append_assoc] at same
      exact (solid other (fine other List.mem_cons_self) _ _ (ends others behind) same.symm).elim
  | cons item items =>
    cases others with
    | nil =>
      rw [series,series,List.append_assoc] at same
      exact (solid item (itemsFine item List.mem_cons_self) _ _ (ends items rest) same).elim
    | cons other others =>
      obtain ⟨here,later⟩ := List.forall_mem_cons.mp clear
      obtain ⟨otherFine,othersFine⟩ := List.forall_mem_cons.mp fine
      rw [series,series,List.append_assoc,List.append_assoc] at same
      obtain ⟨rfl,left⟩ := here other otherFine _ _ (ends items rest) (ends others behind) same
      obtain ⟨rfl,rfl⟩ := listed_unique ',' [' '] .comma (by decide) items others later othersFine
        rest behind left
      exact ⟨rfl,rfl⟩

end

/-! ### Words -/

theorem clear_name (name : String) (named : Named name) : Clear String.toList Named name :=
  clear_word (fun _ named => named.plain) (fun _ _ same => String.toList_inj.mp same) name named

theorem clear_type (type : TypeName) :
    Clear (fun type : TypeName => type.spelling.toList) (fun _ => True) type := by
  refine clear_word (fun type _ => plain_word (.declared type) nofun) ?_ type trivial
  intro first second same
  have spelled : first.spelling = second.spelling := String.toList_inj.mp same
  have read := congrArg TypeName.ofSpelling? spelled
  rw [TypeName.ofSpelling?_spelling,TypeName.ofSpelling?_spelling] at read
  exact Option.some.inj read

theorem clear_integer (value : Int64) :
    Clear (fun value : Int64 => text (.int value)) (fun _ => True) value := by
  refine clear_word ?_ ?_ value trivial
  · intro value _
    obtain ⟨first,others,digits,_,plain⟩ := toString_solid value.toInt
    rwa [text,Node.render,digits]
  · intro first second same
    have read := congrArg Decimal.signed? same
    simp only [text,Node.render,signed?_toString] at read
    exact Int64.toInt_inj.mp (Option.some.inj read)

theorem clear_parameter (parameter : TypedName) (named : Named parameter.name) :
    Clear (fun parameter : TypedName => parameter.render.toList) (fun other => Named other.name)
      parameter := by
  intro other otherNamed rest behind ends stops same
  have words : parameter.type.spelling.toList ++ ' ' :: (parameter.name.toList ++ rest) =
      other.type.spelling.toList ++ ' ' :: (other.name.toList ++ behind) := by
    simpa [TypedName.render] using same
  obtain ⟨type,names⟩ := (clear_type parameter.type).split trivial .blank words
  obtain ⟨name,left⟩ := clear_name _ named _ otherNamed _ _ ends stops names
  cases parameter
  cases other
  subst type name
  exact ⟨rfl,left⟩

theorem parameter_solid (parameter : TypedName) (rest behind : List Char) :
    parameter.render.toList ++ rest ≠ ')' :: behind := by
  obtain ⟨name,type⟩ := parameter
  cases type <;> simp [TypedName.render,TypeName.spelling]

/-! ### Trees -/

def Legible (node : Node) : Prop := ∃ shape, Shown shape node

theorem Shown.legible {shape : Shape} {node : Node} (shown : Shown shape node) : Legible node :=
  ⟨shape,shown⟩

theorem legible_all {nodes : List Node} {shapes : Node → Shape}
    (shown : ∀ node ∈ nodes, Shown (shapes node) node) : ∀ node ∈ nodes, Legible node :=
  fun node member => (shown node member).legible

theorem legible_solid (node : Node) (legible : Legible node) (rest behind : List Char)
    (ends : Ends rest) : text node ++ rest ≠ ')' :: behind := by
  obtain ⟨shape,shown⟩ := legible
  intro same
  have begins := shown.ofText? rest ends
  rw [same] at begins
  contradiction

/-- The first characters tell the shape, so that only trees of the same one have to be told apart. -/
theorem Shown.clear_of {shape : Shape} {node : Node} (shown : Shown shape node)
    (unique : ∀ other, Shown shape other → ∀ rest behind, Ends rest → Ends behind →
      text node ++ rest = text other ++ behind → node = other ∧ rest = behind) :
    Clear text Legible node := by
  intro other legible rest behind ends stops same
  obtain ⟨otherShape,second⟩ := legible
  have begins := shown.ofText? rest ends
  rw [same,second.ofText? behind stops] at begins
  obtain rfl := Option.some.inj begins
  exact unique other second rest behind ends stops same

theorem Form.Makes.unique {form : Form} {parts : List Node} {node other : Node}
    (makes : form.Makes parts node) (again : form.Makes parts other) : node = other := by
  cases makes with
  | typed name type holds =>
    cases again with
    | typed => rfl
    | handler => exact (holds rfl).elim
  | handler called =>
    cases again with
    | typed _ _ holds => exact (holds rfl).elim
    | handler => rfl
  | _ =>
    cases again
    rfl

theorem clear_form (form : Form) (parts : List Node) (node : Node) (shapes : Node → Shape)
    (makes : form.Makes parts node) (inside : ∀ part ∈ parts, Shown (shapes part) part)
    (clear : ∀ part ∈ parts, Clear text Legible part) : Clear text Legible node := by
  refine (Shown.form form parts node shapes makes inside).clear_of
    fun other second rest behind _ _ same => ?_
  have parted {others : List Node} (again : form.Makes others other)
      (fine : ∀ part ∈ others, Legible part) : node = other ∧ rest = behind := by
    rw [text_made makes,text_made again,within_append,within_append] at same
    obtain ⟨rfl,rfl⟩ := listed_unique ' ' [] .blank (by decide) parts others clear fine rest behind
      (List.append_cancel_left same)
    exact ⟨makes.unique again,rfl⟩
  cases second with
  | form _ others _ otherShapes again othersInside => exact parted again (legible_all othersInside)
  | function => contradiction

theorem clear_call (called : String) (arguments : List Node) (shapes : Node → Shape)
    (named : Named called) (inside : ∀ argument ∈ arguments, Shown (shapes argument) argument)
    (clear : ∀ argument ∈ arguments, Clear text Legible argument) :
    Clear text Legible (callOf called arguments) := by
  refine (Shown.call called arguments shapes named inside).clear_of
    fun other second rest behind _ _ same => ?_
  cases second with
  | call otherCalled others otherShapes otherNamed othersInside =>
    rw [text_call,text_call,List.append_assoc,List.append_assoc] at same
    have opens (arguments : List Char) :
        ∀ char after, '(' :: arguments = char :: after → plain char = false := by
      rintro _ _ ⟨⟩
      rfl
    obtain ⟨word,opened⟩ := word_unique named.plain otherNamed.plain (opens _) (opens _) same
    obtain rfl := String.toList_inj.mp word
    obtain ⟨rfl,rfl⟩ := series_unique legible_solid arguments others clear (legible_all inside)
      (legible_all othersInside) rest behind (List.cons.inj opened).2
    exact ⟨rfl,rfl⟩

theorem clear_string (content : String) (unquoted : '\"' ∉ content.toList) :
    Clear text Legible (.string content) := by
  refine (Shown.string content unquoted).clear_of fun other second rest behind _ _ same => ?_
  cases second with
  | string otherContent otherUnquoted =>
    have inner : content.toList ++ '\"' :: rest = otherContent.toList ++ '\"' :: behind := by
      simpa [text,Node.render] using same
    have quotes := congrArg (List.takeWhile (· != '\"')) inner
    rw [takeWhile_unquoted unquoted,takeWhile_unquoted otherUnquoted] at quotes
    obtain rfl := String.toList_inj.mp quotes
    exact ⟨rfl,(List.cons.inj (List.append_cancel_left inner)).2⟩

theorem clear_function (called : String) (returns : TypeName) (parameters : List TypedName)
    (body : List Node) (named : Named called)
    (others : ∀ parameter ∈ parameters, Named parameter.name)
    (inside : Shown (.form .block) (.block body)) (clear : Clear text Legible (.block body)) :
    Clear text Legible (.function called returns parameters body) := by
  refine (Shown.function called returns parameters body named others inside).clear_of
    fun other second rest behind _ _ same => ?_
  cases second with
  | form _ _ _ _ makes => contradiction
  | function otherCalled otherReturns otherParameters otherBody otherNamed otherOthers otherInside =>
    rw [text_function,text_function] at same
    have inner : returns.spelling.toList ++ ' ' :: (called.toList ++ ' ' :: '(' ::
          (series (·.render.toList) parameters ++ ' ' :: (text (.block body) ++ ')' :: rest))) =
        otherReturns.spelling.toList ++ ' ' :: (otherCalled.toList ++ ' ' :: '(' ::
          (series (·.render.toList) otherParameters ++
            ' ' :: (text (.block otherBody) ++ ')' :: behind))) := by
      simpa [within] using same
    obtain ⟨rfl,names⟩ := (clear_type returns).split trivial .blank inner
    obtain ⟨rfl,opened⟩ := (clear_name called named).split otherNamed .blank names
    obtain ⟨rfl,bodies⟩ := series_unique (fun parameter _ rest behind _ =>
        parameter_solid parameter rest behind) parameters otherParameters
      (fun parameter member => clear_parameter parameter (others parameter member)) others
      otherOthers _ _ (List.cons.inj opened).2
    obtain ⟨⟨⟩,rfl⟩ := clear.split otherInside.legible .closing (List.cons.inj bodies).2
    exact ⟨rfl,rfl⟩

/-- The text of a tree tells which tree it is and where it ends. -/
theorem Shown.clear {shape : Shape} {node : Node} (shown : Shown shape node) :
    Clear text Legible node := by
  -- The induction is on one tree only. The other one is found to have the same shape each time, and
  -- its parts are whatever the parts of the first are compared with.
  induction shown with
  | name name named =>
    refine (Shown.name name named).clear_of fun other second rest behind ends stops same => ?_
    cases second with
    | name otherName otherNamed =>
      obtain ⟨rfl,left⟩ := clear_name name named otherName otherNamed rest behind ends stops same
      exact ⟨rfl,left⟩
  | integer value =>
    refine (Shown.integer value).clear_of fun other second rest behind ends stops same => ?_
    cases second with
    | integer otherValue =>
      obtain ⟨rfl,left⟩ := clear_integer value otherValue trivial rest behind ends stops same
      exact ⟨rfl,left⟩
  | string content unquoted => exact clear_string content unquoted
  | call called arguments shapes named inside clear =>
    exact clear_call called arguments shapes named inside clear
  | form form parts node shapes makes inside clear =>
    exact clear_form form parts node shapes makes inside clear
  | function called returns parameters body named others inside clear =>
    exact clear_function called returns parameters body named others inside clear

end BlockScript.Display
