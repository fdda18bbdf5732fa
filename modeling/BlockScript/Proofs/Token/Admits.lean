import BlockScript.Token.Scan
import Mathlib.Data.List.TakeWhile

/-! The texts that tokens of a kind are made of. What a match takes is such a text, and where a text
starts with one there is a match. -/
namespace BlockScript

/-- Only the kinds that stand in a text admit one. -/
inductive TokenKind.Admits : TokenKind → List Char → Prop
  | spelling (text : String) (kind : TokenKind) (listed : (text,kind) ∈ Token.spellings) :
      Admits kind text.toList
  | name (first : Char) (rest : List Char) (starts : Token.startsName first = true)
      (continues : ∀ char ∈ rest, Token.continuesName char = true) :
      Admits .name (first :: rest)
  | string (content : List Char) (unquoted : '\"' ∉ content) :
      Admits .string ('\"' :: content ++ ['\"'])
  | integer (digits : List Char) (some : digits ≠ [])
      (all : ∀ char ∈ digits, char.isDigit = true) : Admits .integer digits
  | real (whole fraction : List Char) (some : whole ≠ []) (more : fraction ≠ [])
      (all : ∀ char ∈ whole, char.isDigit = true)
      (others : ∀ char ∈ fraction, char.isDigit = true) : Admits .real (whole ++ '.' :: fraction)

theorem TokenKind.Admits.inner {kind : TokenKind} {text : List Char} (admits : kind.Admits text) :
    kind ≠ .fileEnd := by
  have fixed : ∀ spelling ∈ Token.spellings, spelling.2 ≠ .fileEnd := by decide
  cases admits with
  | spelling text kind listed => exact fixed _ listed
  | _ => nofun

theorem TokenKind.Admits.quoted {text : List Char} (admits : TokenKind.string.Admits text) :
    ∃ content, '\"' ∉ content ∧ text = '\"' :: content ++ ['\"'] := by
  have fixed : ∀ spelling ∈ Token.spellings, spelling.2 ≠ .string := by decide
  cases admits with
  | spelling text _ listed => exact (fixed _ listed rfl).elim
  | string content unquoted => exact ⟨content,unquoted,rfl⟩

namespace Token

structure Match.Takes (found : Match) (text lexeme rest : List Char) : Prop where
  split : text = lexeme ++ rest
  counted : found.length = lexeme.length
  admitted : found.kind.Admits lexeme

theorem drop_takeWhile {α : Type} (holds : α → Bool) (text : List α) :
    text.drop (text.takeWhile holds).length = text.dropWhile holds := by
  induction text with
  | nil => rfl
  | cons first rest ih => by_cases here : holds first = true <;> simp [here,ih]

theorem head_dropWhile {α : Type} {holds : α → Bool} {text rest : List α} {first : α}
    (same : text.dropWhile holds = first :: rest) : holds first = false := by
  induction text with
  | nil => contradiction
  | cons other text ih =>
    rw [List.dropWhile_cons] at same
    split at same
    next => exact ih same
    next stops =>
      obtain ⟨rfl,_⟩ := List.cons.inj same
      simpa using stops

section
variable {text : List Char} {found : Match}

theorem takes_of_matchSpelling {spelling : String × TokenKind} (listed : spelling ∈ spellings)
    (taken : matchSpelling text spelling = some found) :
    ∃ lexeme rest, found.Takes text lexeme rest := by
  unfold matchSpelling at taken
  split at taken
  next starts =>
    obtain ⟨rest,rfl⟩ := List.isPrefixOf_iff_prefix.mp starts
    cases taken
    exact ⟨_,rest,rfl,String.length_toList.symm,.spelling spelling.1 spelling.2 listed⟩
  next => contradiction

theorem takes_of_matchName (taken : matchName text = some found) :
    ∃ lexeme rest, found.Takes text lexeme rest := by
  cases text with
  | nil => contradiction
  | cons first rest =>
    simp only [matchName] at taken
    split at taken
    next starts =>
      cases taken
      refine ⟨first :: rest.takeWhile continuesName,rest.dropWhile continuesName,?_,rfl,?_⟩
      · simp
      · exact .name first _ starts fun char member => List.mem_takeWhile_imp member
    next => contradiction

/-- Where content is shorter than the text behind the quote, a quote ends it. -/
theorem takes_of_matchString (taken : matchString text = some found) :
    ∃ lexeme rest, found.Takes text lexeme rest := by
  unfold matchString at taken
  split at taken
  next behind =>
    dsimp only at taken
    split at taken
    next closed =>
      cases taken
      have whole := List.takeWhile_append_dropWhile (p := (· != '\"')) (l := behind)
      cases closing : behind.dropWhile (· != '\"') with
      | nil =>
        rw [closing,List.append_nil] at whole
        rw [whole] at closed
        exact (Nat.lt_irrefl _ closed).elim
      | cons quote rest =>
        have stops := head_dropWhile closing
        obtain rfl : quote = '\"' := by simpa using stops
        refine ⟨'\"' :: behind.takeWhile (· != '\"') ++ ['\"'],rest,?_,by simp,?_⟩
        · rw [closing] at whole
          simpa using whole.symm
        · refine .string _ ?_
          intro member
          simpa using List.mem_takeWhile_imp member
    next => contradiction
  next => contradiction

theorem takes_of_matchNumber (taken : matchNumber text = some found) :
    ∃ lexeme rest, found.Takes text lexeme rest := by
  have whole := List.takeWhile_append_dropWhile (p := Char.isDigit) (l := text)
  have all : ∀ char ∈ text.takeWhile Char.isDigit, char.isDigit = true :=
    fun char member => List.mem_takeWhile_imp member
  simp only [matchNumber,drop_takeWhile] at taken
  split at taken
  next => contradiction
  next positive =>
    have some : text.takeWhile Char.isDigit ≠ [] := by simpa using positive
    have integer : Match.Takes ⟨.integer,(text.takeWhile Char.isDigit).length⟩ text
        (text.takeWhile Char.isDigit) (text.dropWhile Char.isDigit) :=
      ⟨whole.symm,rfl,.integer _ some all⟩
    split at taken
    next behind point =>
      split at taken
      next =>
        cases taken
        exact ⟨_,_,integer⟩
      next fraction =>
        cases taken
        refine ⟨text.takeWhile Char.isDigit ++ '.' :: behind.takeWhile Char.isDigit,
          behind.dropWhile Char.isDigit,?_,?_,?_⟩
        · rw [point] at whole
          simpa using whole.symm
        · simp only [List.length_append,List.length_cons]
          omega
        · exact .real _ _ some (by simpa using fraction) all
            fun char member => List.mem_takeWhile_imp member
    next =>
      cases taken
      exact ⟨_,_,integer⟩

/-- A match takes a text that its kind admits. -/
theorem Match.takes_of_ofText (taken : Match.ofText? text = some found) :
    ∃ lexeme rest, found.Takes text lexeme rest := by
  have member := mem_of_longest taken
  simp only [candidates,List.mem_append,List.mem_filterMap,List.mem_cons,List.not_mem_nil,
    or_false,id_eq] at member
  rcases member with ⟨spelling,listed,taken⟩ | ⟨candidate,listed,same⟩
  · exact takes_of_matchSpelling listed taken
  · subst same
    rcases listed with taken | taken | taken
    · exact takes_of_matchName taken.symm
    · exact takes_of_matchString taken.symm
    · exact takes_of_matchNumber taken.symm

end

theorem plain_of_unquoted {content : List Char} (unquoted : '\"' ∉ content) :
    ∀ char ∈ content, (char != '\"') = true := by
  intro char member
  simp only [bne_iff_ne]
  rintro rfl
  exact unquoted member

theorem takeWhile_unquoted {content : List Char} (unquoted : '\"' ∉ content) (rest : List Char) :
    (content ++ '\"' :: rest).takeWhile (· != '\"') = content := by
  rw [List.takeWhile_append_of_pos (plain_of_unquoted unquoted)]
  simp

theorem foldl_longer_ne_none (found : List Match) (best : Match) :
    found.foldl longer (some best) ≠ none := by
  induction found generalizing best with
  | nil => nofun
  | cons candidate found ih =>
    rw [List.foldl_cons,longer]
    split
    · exact ih candidate
    · exact ih best

theorem longest_eq_none_iff (found : List Match) : longest found = none ↔ found = [] := by
  cases found with
  | nil => simp [longest]
  | cons candidate found => exact iff_of_false (foldl_longer_ne_none found candidate) nofun

theorem matchNumber_eq_none_iff (text : List Char) :
    matchNumber text = none ↔ text.takeWhile Char.isDigit = [] := by
  simp only [matchNumber]
  split
  next nothing => simpa using nothing
  next positive =>
    have some : text.takeWhile Char.isDigit ≠ [] := by simpa using positive
    simp only [some,iff_false]
    split
    · split <;> exact Option.some_ne_none _
    · exact Option.some_ne_none _

theorem ofText_eq_none_iff (text : List Char) :
    Match.ofText? text = none ↔ (∀ spelling ∈ spellings, matchSpelling text spelling = none) ∧
      matchName text = none ∧ matchString text = none ∧ matchNumber text = none := by
  simp only [Match.ofText?,longest_eq_none_iff,candidates,List.append_eq_nil_iff,
    List.filterMap_eq_nil_iff]
  simp

/-- Where no match is found, the text does not start with what some kind admits. -/
theorem not_admits_of_ofText (text lexeme : List Char) (kind : TokenKind)
    (nothing : Match.ofText? text = none) (admits : kind.Admits lexeme) : ¬lexeme <+: text := by
  rintro ⟨rest,rfl⟩
  obtain ⟨spelled,named,quoted,counted⟩ := (ofText_eq_none_iff _).mp nothing
  cases admits with
  | spelling spelling kind listed =>
    have failed := spelled _ listed
    have starts : spelling.toList.isPrefixOf (spelling.toList ++ rest) = true :=
      List.isPrefixOf_iff_prefix.mpr (List.prefix_append _ _)
    simp [matchSpelling,starts] at failed
  | name first others starts continues => simp [matchName,starts] at named
  | string content unquoted => simp [matchString,takeWhile_unquoted unquoted rest] at quoted
  | integer _ some all =>
    rw [matchNumber_eq_none_iff,List.takeWhile_append_of_pos all] at counted
    exact some (List.append_eq_nil_iff.mp counted).1
  | real whole fraction some more all others =>
    rw [matchNumber_eq_none_iff,List.append_assoc,List.takeWhile_append_of_pos all] at counted
    exact some (List.append_eq_nil_iff.mp counted).1

end Token

end BlockScript
