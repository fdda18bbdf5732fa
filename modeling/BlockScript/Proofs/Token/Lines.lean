import BlockScript.Proofs.Token.Lossless
import Mathlib.Data.List.Basic

/-! Texts joined by a line break. No token but a string reaches over the end of a line, so what was
scanned up to there stays as it is, and what follows is scanned as a text of its own. -/
namespace BlockScript

namespace Token

section
variable (more : List Char)

theorem takeWhile_line (holds : Char → Bool) (text : List Char) (stops : holds '\n' = false) :
    (text ++ '\n' :: more).takeWhile holds = text.takeWhile holds := by
  induction text with
  | nil => simp [stops]
  | cons char text ih => by_cases here : holds char = true <;> simp [here,ih]

theorem dropWhile_line (holds : Char → Bool) (text : List Char) (stops : holds '\n' = false) :
    (text ++ '\n' :: more).dropWhile holds = text.dropWhile holds ++ '\n' :: more := by
  induction text with
  | nil => simp [stops]
  | cons char text ih => by_cases here : holds char = true <;> simp [here,ih]

/-- A lexeme does not reach over a separator that is no part of it. -/
theorem isPrefixOf_separated (separator : Char) (lexeme text : List Char)
    (inside : separator ∉ lexeme) :
    lexeme.isPrefixOf (text ++ separator :: more) = lexeme.isPrefixOf text := by
  induction lexeme generalizing text with
  | nil => simp
  | cons char lexeme ih =>
    obtain ⟨here,others⟩ := not_or.mp (mt List.mem_cons.mpr inside)
    cases text with
    | nil =>
      have apart : (char == separator) = false := beq_false_of_ne (Ne.symm here)
      simp only [List.nil_append,List.isPrefixOf_cons_cons,apart,Bool.false_and]
      rfl
    | cons first text => simp only [List.cons_append,List.isPrefixOf_cons_cons,ih text others]

theorem matchSpelling_line (text : List Char) (spelling : String × TokenKind)
    (listed : spelling ∈ spellings) :
    matchSpelling (text ++ '\n' :: more) spelling = matchSpelling text spelling := by
  have inside : ∀ spelling ∈ spellings, '\n' ∉ spelling.1.toList := by decide
  unfold matchSpelling
  rw [isPrefixOf_separated more '\n' _ text (inside spelling listed)]

theorem matchName_line (text : List Char) :
    matchName (text ++ '\n' :: more) = matchName text := by
  cases text with
  | nil => rfl
  | cons first rest =>
    simp only [List.cons_append,matchName,takeWhile_line more continuesName rest rfl]

theorem matchNumber_line (text : List Char) :
    matchNumber (text ++ '\n' :: more) = matchNumber text := by
  have drops := drop_takeWhile Char.isDigit (text ++ '\n' :: more)
  rw [takeWhile_line more Char.isDigit text rfl,dropWhile_line more Char.isDigit text rfl] at drops
  simp only [matchNumber,takeWhile_line more Char.isDigit text rfl,drops,drop_takeWhile]
  cases text.dropWhile Char.isDigit with
  | nil => rfl
  | cons char rest =>
    by_cases point : char = '.'
    · subst point
      simp only [List.cons_append,takeWhile_line more Char.isDigit rest rfl]
    · simp [point]

/-- A spelling that starts with another character is no match. -/
theorem matchSpelling_apart (char : Char) (behind : List Char) (spelling : String × TokenKind)
    (nonempty : spelling.1.toList ≠ []) (apart : spelling.1.toList.head? ≠ some char) :
    matchSpelling (char :: behind) spelling = none := by
  unfold matchSpelling
  cases same : spelling.1.toList with
  | nil => exact (nonempty same).elim
  | cons first rest =>
    rw [same,List.head?_cons] at apart
    have here : (first == char) = false := beq_false_of_ne fun equal => apart (congrArg some equal)
    simp only [List.isPrefixOf_cons_cons,here,Bool.false_and]
    rfl

theorem spelling_ne_nil : ∀ spelling ∈ spellings, spelling.1.toList ≠ [] := by decide

theorem matchSpelling_quote (behind : List Char) (spelling : String × TokenKind)
    (listed : spelling ∈ spellings) : matchSpelling ('\"' :: behind) spelling = none := by
  have unquoted : ∀ spelling ∈ spellings, spelling.1.toList.head? ≠ some '\"' := by decide
  exact matchSpelling_apart '\"' behind spelling (spelling_ne_nil spelling listed)
    (unquoted spelling listed)

theorem ofText_quote (behind : List Char) (unclosed : matchString ('\"' :: behind) = none) :
    Match.ofText? ('\"' :: behind) = none :=
  (ofText_eq_none_iff _).mpr ⟨matchSpelling_quote behind,rfl,unclosed,rfl⟩

/-- A quote has a match only where another one follows, and that is then not beyond the text. -/
theorem matchString_line (text : List Char) {found : Match}
    (taken : Match.ofText? text = some found) :
    matchString (text ++ '\n' :: more) = matchString text := by
  cases text with
  | nil => rfl
  | cons char behind =>
    by_cases quote : char = '\"'
    · subst quote
      by_cases closed : (behind.takeWhile (· != '\"')).length < behind.length
      · have inside : (behind ++ '\n' :: more).takeWhile (· != '\"') =
            behind.takeWhile (· != '\"') := by
          rw [List.takeWhile_append,if_neg (Nat.ne_of_lt closed)]
        have within : (behind.takeWhile (· != '\"')).length < (behind ++ '\n' :: more).length := by
          simp only [List.length_append]
          omega
        simp only [List.cons_append,matchString,inside,if_pos closed,if_pos within]
      · rw [ofText_quote behind (by simp only [matchString,if_neg closed])] at taken
        contradiction
    · simp [matchString,quote]

theorem ofText_line (text : List Char) {found : Match} (taken : Match.ofText? text = some found) :
    Match.ofText? (text ++ '\n' :: more) = some found := by
  have spelled := List.filterMap_congr (matchSpelling_line more text)
  rw [← taken]
  simp only [Match.ofText?,candidates,spelled,matchName_line,matchNumber_line,
    matchString_line more text taken]

end

end Token

namespace Cursor

def continued (more : List Char) (cursor : Cursor) : Cursor :=
  ⟨cursor.place,cursor.rest ++ '\n' :: more⟩

def beyond (more : List Char) (cursor : Cursor) : Cursor :=
  ⟨(cursor.place.walk cursor.rest).after '\n',more⟩

theorem skipTo_line (more : List Char) (inComment : Bool) (place : Position) (text : List Char) :
    skipTo inComment place (text ++ '\n' :: more) =
      if (skipTo inComment place text).rest = [] then
        skipTo false ((skipTo inComment place text).place.after '\n') more
      else (skipTo inComment place text).continued more := by
  induction text generalizing inComment place with
  | nil =>
    have blank : Text.isBlank '\n' = true := by decide
    cases inComment <;> simp [skipTo,blank]
  | cons char text ih =>
    have slashes := Token.isPrefixOf_separated more '\n' ['/','/'] (char :: text) (by decide)
    rw [List.cons_append] at slashes ⊢
    simp only [skipTo,slashes]
    split
    · exact ih _ _
    · split
      · exact ih _ _
      · split
        · exact ih _ _
        · rw [if_neg (List.cons_ne_nil char text)]
          rfl

theorem skip_beyond (more : List Char) (cursor : Cursor) (done : cursor.skip.rest = []) :
    (cursor.continued more).skip = (cursor.beyond more).skip := by
  obtain ⟨gap,passes,walked⟩ := cursor.skip_passes
  have whole : cursor.rest = gap := by simpa [done] using passes.whole
  have reached : cursor.place.walk cursor.rest = cursor.skip.place := by rw [whole,walked]
  unfold beyond
  rw [reached]
  exact (skipTo_line more false cursor.place cursor.rest).trans (if_pos done)

theorem skip_continued (more : List Char) (cursor : Cursor) (stopped : cursor.skip.rest ≠ []) :
    (cursor.continued more).skip = cursor.skip.continued more :=
  (skipTo_line more false cursor.place cursor.rest).trans (if_neg stopped)

theorem take_continued (more : List Char) (place : Position) {found : Token.Match}
    {text lexeme rest : List Char} (takes : found.Takes text lexeme rest) :
    (continued more ⟨place,text⟩).take found =
      ((take ⟨place,text⟩ found).1,(take ⟨place,text⟩ found).2.continued more) := by
  obtain ⟨rfl,counted,_⟩ := takes
  simp [take,advance,continued,counted]

theorem beyond_take (more : List Char) (cursor : Cursor) {found : Token.Match}
    {lexeme rest : List Char} (takes : found.Takes cursor.skip.rest lexeme rest) :
    (cursor.skip.take found).2.beyond more = cursor.beyond more := by
  obtain ⟨gap,passes,walked⟩ := cursor.skip_passes
  have after : (cursor.skip.take found).2 = ⟨cursor.skip.place.walk lexeme,rest⟩ :=
    (takes.written cursor.skip.place).2.2.2
  have whole : cursor.rest = gap ++ lexeme ++ rest := by
    rw [passes.whole,takes.split]
    simp
  rw [after]
  simp only [beyond,whole,walked,Position.walk_append]

end Cursor

theorem tokensFrom_ne_nil (cursor : Cursor) : tokensFrom cursor ≠ .ok [] := by
  induction cursor using reading_induction with
  | ended cursor here =>
    rw [tokensFrom_end cursor here]
    nofun
  | stuck cursor char behind here taken =>
    rw [tokensFrom_stuck cursor char behind here taken]
    nofun
  | token cursor found taken =>
    rw [tokensFrom_token cursor taken]
    cases tokensFrom (cursor.skip.take found).2 <;> nofun

/-- Reading goes on in the same way from where skipping comes to the same. -/
theorem tokensFrom_congr (cursor other : Cursor) (same : cursor.skip = other.skip) :
    tokensFrom cursor = tokensFrom other := by
  have reads : cursor.next = other.next := by
    unfold Cursor.next
    rw [same]
  rw [tokensFrom,tokensFrom]
  grind

theorem tokensFrom_continued (more : List Char) (cursor : Cursor) (read : List Token)
    (scanned : tokensFrom cursor = .ok read) :
    tokensFrom (cursor.continued more) =
      (tokensFrom (cursor.beyond more)).map (read.dropLast ++ ·) := by
  induction cursor using reading_induction generalizing read with
  | ended cursor here =>
    rw [tokensFrom_end cursor here] at scanned
    obtain rfl := Except.ok.inj scanned
    rw [tokensFrom_congr _ _ (cursor.skip_beyond more here)]
    cases tokensFrom (cursor.beyond more) <;> rfl
  | stuck cursor char behind here taken =>
    rw [tokensFrom_stuck cursor char behind here taken] at scanned
    contradiction
  | token cursor found taken ih =>
    obtain ⟨lexeme,rest,takes⟩ := Token.Match.takes_of_ofText taken
    have skips := cursor.skip_continued more fun done => by
      rw [done] at taken
      contradiction
    have further : Token.Match.ofText? (cursor.continued more).skip.rest = some found := by
      rw [skips]
      exact Token.ofText_line more _ taken
    rw [tokensFrom_token cursor taken] at scanned
    cases following : tokensFrom (cursor.skip.take found).2 with
    | error error =>
      rw [following] at scanned
      contradiction
    | ok others =>
      rw [following] at scanned
      obtain rfl := Except.ok.inj scanned
      have some : others ≠ [] := by
        rintro rfl
        exact tokensFrom_ne_nil _ following
      rw [tokensFrom_token _ further,skips,Cursor.take_continued more cursor.skip.place takes]
      dsimp only
      rw [ih others following,cursor.beyond_take more takes,List.dropLast_cons_of_ne_nil some]
      cases tokensFrom (cursor.beyond more) <;> rfl

/-! ### Texts that begin on a later line -/

def Position.lower (lines : Nat) (place : Position) : Position :=
  ⟨place.line + lines,place.column⟩

def Token.lower (lines : Nat) (token : Token) : Token :=
  { token with span := ⟨token.span.first.lower lines,token.span.stop.lower lines⟩ }

def ScanError.lower (lines : Nat) : ScanError → ScanError
  | unexpectedCharacter char place => .unexpectedCharacter char (place.lower lines)
  | unterminatedString place => .unterminatedString (place.lower lines)

def Cursor.lower (lines : Nat) (cursor : Cursor) : Cursor :=
  ⟨cursor.place.lower lines,cursor.rest⟩

section
variable (lines : Nat)

theorem Position.after_lower (place : Position) (char : Char) :
    (place.lower lines).after char = (place.after char).lower lines := by
  unfold after
  split
  · exact congrArg (Position.mk · 1) (Nat.add_right_comm place.line lines 1)
  · rfl

theorem Position.walk_lower (place : Position) (text : List Char) :
    (place.lower lines).walk text = (place.walk text).lower lines := by
  induction text generalizing place with
  | nil => rfl
  | cons char text ih =>
    change ((place.lower lines).after char).walk text = _
    rw [after_lower,ih]
    rfl

namespace Cursor

theorem skipTo_lower (inComment : Bool) (place : Position) (text : List Char) :
    skipTo inComment (place.lower lines) text = (skipTo inComment place text).lower lines := by
  induction text generalizing inComment place with
  | nil => rfl
  | cons char text ih =>
    simp only [skipTo,Position.after_lower,ih]
    split
    · rfl
    · split
      · rfl
      · split
        · rfl
        · rfl

theorem skip_lower (cursor : Cursor) : (cursor.lower lines).skip = cursor.skip.lower lines :=
  skipTo_lower lines false cursor.place cursor.rest

theorem take_lower (cursor : Cursor) (found : Token.Match) :
    (cursor.lower lines).take found =
      ((cursor.take found).1.lower lines,(cursor.take found).2.lower lines) := by
  simp only [take,advance,lower,Position.walk_lower]
  rfl

end Cursor

/-- A text that begins farther down is scanned in the same way, that many lines lower. -/
theorem tokensFrom_lower (cursor : Cursor) :
    tokensFrom (cursor.lower lines) = match tokensFrom cursor with
      | .ok tokens => .ok (tokens.map (Token.lower lines))
      | .error error => .error (error.lower lines) := by
  induction cursor using reading_induction with
  | ended cursor here =>
    have skips := cursor.skip_lower lines
    rw [tokensFrom_end cursor here,tokensFrom_end _ (by rw [skips]; exact here),skips]
    rfl
  | stuck cursor char behind here taken =>
    have skips := cursor.skip_lower lines
    rw [tokensFrom_stuck cursor char behind here taken,
      tokensFrom_stuck _ char behind (by rw [skips]; exact here) (by rw [skips]; exact taken),skips]
    split <;> rfl
  | token cursor found taken ih =>
    have skips := cursor.skip_lower lines
    rw [tokensFrom_token cursor taken,tokensFrom_token _ (by rw [skips]; exact taken),skips,
      Cursor.take_lower]
    dsimp only
    rw [ih]
    cases tokensFrom (cursor.skip.take found).2 <;> rfl

end

/-- Scanning goes line by line. Two texts with a line break between them are scanned as each of them
by itself, the second one as far down as the first one and the line break reach. -/
theorem scan_join (first second : String) (read : List Token) (scanned : tokens first = .ok read) :
    tokens (first ++ "\n" ++ second) = match tokens second with
      | .ok others => .ok (read.dropLast ++ others.map (.lower (first.toList.count '\n' + 1)))
      | .error error => .error (error.lower (first.toList.count '\n' + 1)) := by
  have joined : Cursor.ofText (first ++ "\n" ++ second) =
      (Cursor.ofText first).continued second.toList := by
    simp [Cursor.ofText,Cursor.continued]
  have beyond : (Cursor.ofText first).beyond second.toList =
      (Cursor.ofText second).lower (first.toList.count '\n' + 1) := by
    simp only [Cursor.beyond,Cursor.ofText,Position.walk_start]
    exact congrArg (fun line => Cursor.mk ⟨line,1⟩ second.toList) (Nat.add_comm _ 1)
  have goes := tokensFrom_continued second.toList (.ofText first) read scanned
  rw [beyond,tokensFrom_lower] at goes
  unfold tokens
  rw [joined,goes]
  cases tokensFrom (.ofText second) <;> rfl

/-- The tokens of `1. // "`, which end with a point and a quote in a comment. -/
def pointed : List Token :=
  [⟨.integer,"1",⟨⟨1,1⟩,⟨1,2⟩⟩⟩,⟨.dot,".",⟨⟨1,2⟩,⟨1,3⟩⟩⟩,.fileEnd ⟨1,8⟩]

/-- Neither a digit nor a quote in the next line is joined to what stands before the break. -/
theorem pointed_join :
    tokens "1. // \"" = .ok pointed ∧
    tokens ("1. // \"" ++ "\n" ++ "5\"\n\"") =
      .ok (pointed.dropLast ++ [⟨.integer,"5",⟨⟨2,1⟩,⟨2,2⟩⟩⟩,⟨.string,"\n",⟨⟨2,2⟩,⟨3,2⟩⟩⟩,
        .fileEnd ⟨3,2⟩]) ∧
    tokens ("1. // \"" ++ "\n" ++ "5 \"") = .error (.unterminatedString ⟨2,3⟩) := by
  have scanned : tokens "1. // \"" = .ok pointed := by decide +kernel
  refine ⟨scanned,?_,?_⟩
  · exact (scan_join _ "5\"\n\"" pointed scanned).trans (by decide +kernel)
  · exact (scan_join _ "5 \"" pointed scanned).trans (by decide +kernel)

end BlockScript
