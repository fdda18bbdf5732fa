import BlockScript.Token.Kind

/-! What can start a text: a fixed spelling, a name, a string or a number. The longest match is
taken, and of two equally long ones the one listed first, so a reserved word is no name. -/
namespace BlockScript.Token

def spellings : List (String × TokenKind) :=
  [("(",.opening), (")",.closing), (",",.comma), (".",.dot), (";",.semicolon),
   ("+",.additive), ("-",.additive), ("*",.multiplicative), ("/",.multiplicative),
   ("=",.assign), ("==",.comparison), ("!=",.comparison),
   ("<",.comparison), ("<=",.comparison), (">",.comparison), (">=",.comparison),
   ("int",.specifier), ("unsigned_int",.specifier), ("float",.specifier), ("string",.specifier),
   ("system_handler",.specifier),
   ("if",.ifWord), ("else",.elseWord), ("while",.whileWord), ("for",.forWord), ("in",.inWord),
   ("do",.doWord), ("done",.doneWord), ("put",.putWord), ("ret",.retWord),
   ("and",.andWord), ("or",.orWord)]

def startsName (char : Char) : Bool := char.isAlpha || char == '_'

def continuesName (char : Char) : Bool := char.isAlphanum || char == '_'

structure Match where
  kind : TokenKind
  length : Nat
deriving DecidableEq

def matchSpelling (text : List Char) (spelling : String × TokenKind) : Option Match :=
  if spelling.1.toList.isPrefixOf text then some ⟨spelling.2,spelling.1.length⟩ else none

def matchName : List Char → Option Match
  | [] => none
  | char :: rest =>
    if startsName char then some ⟨.name,(rest.takeWhile continuesName).length + 1⟩ else none

/-- A string reaches from a quote to the next one; nothing is special between them. -/
def matchString : List Char → Option Match
  | '\"' :: rest =>
    let content := rest.takeWhile (· != '\"')
    if content.length < rest.length then some ⟨.string,content.length + 2⟩ else none
  | _ => none

/-- A point belongs to a number when a digit follows it. -/
def matchNumber (text : List Char) : Option Match :=
  let whole := (text.takeWhile Char.isDigit).length
  if whole = 0 then none
  else
    match text.drop whole with
    | '.' :: rest =>
      let fraction := (rest.takeWhile Char.isDigit).length
      if fraction = 0 then some ⟨.integer,whole⟩ else some ⟨.real,whole + 1 + fraction⟩
    | _ => some ⟨.integer,whole⟩

def candidates (text : List Char) : List Match :=
  spellings.filterMap (matchSpelling text)
    ++ [matchName text, matchString text, matchNumber text].filterMap id

def longer (best : Option Match) (candidate : Match) : Option Match :=
  match best with
  | none => some candidate
  | some found => if found.length < candidate.length then some candidate else some found

def longest (found : List Match) : Option Match := found.foldl longer none

def Match.ofText? (text : List Char) : Option Match := longest (candidates text)

theorem mem_of_foldl_longer {found : List Match} {initial : Option Match} {result : Match}
    (chosen : found.foldl longer initial = some result) :
    initial = some result ∨ result ∈ found := by
  induction found generalizing initial with
  | nil => exact .inl chosen
  | cons candidate found ih =>
    rcases ih chosen with kept | later
    · cases initial with
      | none => exact .inr (by simp_all [longer])
      | some best =>
        simp only [longer] at kept
        split at kept
        · exact .inr (by simp_all)
        · exact .inl kept
    · exact .inr (List.mem_cons_of_mem _ later)

theorem mem_of_longest {found : List Match} {result : Match}
    (chosen : longest found = some result) : result ∈ found := by
  simpa using mem_of_foldl_longer chosen

theorem length_pos_of_matchName {text : List Char} {found : Match}
    (taken : matchName text = some found) : 0 < found.length := by
  unfold matchName at taken
  split at taken
  · simp at taken
  · split at taken
    · cases taken
      exact Nat.succ_pos _
    · simp at taken

theorem length_pos_of_matchString {text : List Char} {found : Match}
    (taken : matchString text = some found) : 0 < found.length := by
  unfold matchString at taken
  split at taken
  · simp only at taken
    split at taken
    · cases taken
      exact Nat.succ_pos _
    · simp at taken
  · simp at taken

theorem length_pos_of_matchNumber {text : List Char} {found : Match}
    (taken : matchNumber text = some found) : 0 < found.length := by
  simp only [matchNumber] at taken
  split at taken
  · simp at taken
  · rename_i positive
    split at taken
    · split at taken <;> cases taken
      · exact Nat.pos_of_ne_zero positive
      · exact Nat.lt_of_lt_of_le (Nat.succ_pos _) (Nat.le_add_right _ _)
    · cases taken
      exact Nat.pos_of_ne_zero positive

theorem length_pos_of_matchSpelling {text : List Char} {spelling : String × TokenKind}
    {found : Match} (listed : spelling ∈ spellings)
    (taken : matchSpelling text spelling = some found) : 0 < found.length := by
  have nonempty : ∀ spelling ∈ spellings, 0 < spelling.1.length := by decide
  unfold matchSpelling at taken
  split at taken
  · cases taken
    exact nonempty _ listed
  · simp at taken

/-- A token takes at least one character. -/
theorem Match.length_pos {text : List Char} {found : Match}
    (taken : Match.ofText? text = some found) : 0 < found.length := by
  have member := mem_of_longest taken
  simp only [candidates,List.mem_append,List.mem_filterMap,List.mem_cons,List.not_mem_nil,
    or_false,id_eq] at member
  rcases member with ⟨spelling,listed,taken⟩ | ⟨candidate,listed,same⟩
  · exact length_pos_of_matchSpelling listed taken
  · subst same
    rcases listed with taken | taken | taken
    · exact length_pos_of_matchName taken.symm
    · exact length_pos_of_matchString taken.symm
    · exact length_pos_of_matchNumber taken.symm

end BlockScript.Token
