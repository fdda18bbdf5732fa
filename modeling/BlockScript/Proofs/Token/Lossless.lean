import BlockScript.Proofs.Token.Admits
import Mathlib.Data.List.Induction

/-! Scanning loses nothing. A text is what its tokens were read from, in order, with blanks and
comments between them, and every token tells exactly where it stands. -/
namespace BlockScript

namespace Position

/-- The place behind a text that stands at the start: one line further for each of its newlines, and
one column further for each character after the last of them. -/
def behind (text : List Char) : Position :=
  ⟨text.count '\n' + 1,(text.reverse.takeWhile (· != '\n')).length + 1⟩

theorem walk_append (place : Position) (first second : List Char) :
    place.walk (first ++ second) = (place.walk first).walk second := List.foldl_append

theorem walk_start (text : List Char) : start.walk text = behind text := by
  induction text using List.reverseRecOn with
  | nil => rfl
  | append_singleton text char ih =>
    rw [walk_append,ih]
    by_cases newline : char = '\n' <;> simp [walk,after,behind,newline]

end Position

/-- The text that the token was read from. The quotes around a string are no part of its lexeme. -/
def Token.written (token : Token) : List Char :=
  if token.kind = .string then '\"' :: token.lexeme.toList ++ ['\"'] else token.lexeme.toList

/-- Blanks and comments, in front of the rest of a text. A comment lasts for its line. -/
inductive Skipped : List Char → List Char → Prop
  | nothing (rest : List Char) : Skipped [] rest
  | blank (char : Char) (more rest : List Char) (blank : Text.isBlank char = true)
      (skipped : Skipped more rest) : Skipped (char :: more) rest
  | comment (line more rest : List Char) (inside : '\n' ∉ line)
      (ended : ∀ char behind, more ++ rest = char :: behind → char = '\n')
      (skipped : Skipped more rest) : Skipped ('/' :: '/' :: line ++ more) rest

/-- The tokens stand in the text in order, behind a part that was read before and in front of a rest
that is not read yet. -/
inductive Laid : (read : List Char) → List Token → (text rest : List Char) → Prop
  | nil (read rest : List Char) : Laid read [] rest rest
  | cons (read gap : List Char) (token : Token) (tokens : List Token) (text rest : List Char)
      (skipped : Skipped gap (token.written ++ text))
      (admitted : token.kind.Admits token.written)
      (places : token.span = ⟨.behind (read ++ gap),.behind (read ++ gap ++ token.written)⟩)
      (others : Laid (read ++ gap ++ token.written) tokens text rest) :
      Laid read (token :: tokens) (gap ++ token.written ++ text) rest

structure Barren (char : Char) (behind : List Char) : Prop where
  solid : Text.isBlank char = false
  tokenless : ∀ kind lexeme, TokenKind.Admits kind lexeme → ¬lexeme <+: char :: behind

namespace Cursor

/-- What skipping passes: the rest of the line first, in a comment, and then a gap. -/
structure Passes (inComment : Bool) (text line gap rest : List Char) : Prop where
  whole : text = line ++ gap ++ rest
  inside : '\n' ∉ line
  outside : inComment = false → line = []
  ended : inComment = true → ∀ char behind, gap ++ rest = char :: behind → char = '\n'
  skipped : Skipped gap rest
  stops : ∀ char behind, rest = char :: behind → Text.isBlank char = false

theorem skipTo_passes (inComment : Bool) (place : Position) (text : List Char) :
    ∃ line gap, Passes inComment text line gap (skipTo inComment place text).rest ∧
      (skipTo inComment place text).place = place.walk (line ++ gap) := by
  induction text generalizing inComment place with
  | nil => exact ⟨[],[],⟨rfl,nofun,fun _ => rfl,fun _ => nofun,.nothing [],nofun⟩,rfl⟩
  | cons char text ih =>
    simp only [skipTo]
    split
    next comment =>
      obtain ⟨line,gap,passes,walked⟩ := ih (char != '\n') (place.after char)
      by_cases newline : char = '\n'
      · obtain rfl := passes.outside (by simp [newline])
        refine ⟨[],char :: gap,⟨?_,nofun,fun _ => rfl,?_,?_,passes.stops⟩,walked⟩
        · exact congrArg (char :: ·) passes.whole
        · rintro _ other behind same
          exact (List.cons.inj same).1.symm.trans newline
        · exact .blank char gap _ (by rw [newline]; decide) passes.skipped
      · refine ⟨char :: line,gap,⟨?_,?_,?_,?_,passes.skipped,passes.stops⟩,walked⟩
        · exact congrArg (char :: ·) passes.whole
        · simpa [eq_comm,newline] using passes.inside
        · simp [comment]
        · exact fun _ => passes.ended (by simp [newline])
    next code =>
      split
      next blank =>
        obtain ⟨line,gap,passes,walked⟩ := ih false (place.after char)
        obtain rfl := passes.outside rfl
        refine ⟨[],char :: gap,⟨?_,nofun,fun _ => rfl,?_,?_,passes.stops⟩,walked⟩
        · exact congrArg (char :: ·) passes.whole
        · simp [code]
        · exact .blank char gap _ blank passes.skipped
      next solid =>
        split
        next slashes =>
          obtain ⟨line,gap,passes,walked⟩ := ih true (place.after char)
          obtain ⟨behind,same⟩ := List.isPrefixOf_iff_prefix.mp slashes
          obtain ⟨rfl,rfl⟩ := List.cons.inj same
          -- The second slash is passed in the comment, which therefore is not empty.
          cases line with
          | nil => exact absurd (passes.ended rfl '/' behind passes.whole.symm) (by decide)
          | cons slash line =>
            obtain ⟨rfl,whole⟩ := List.cons.inj passes.whole
            refine ⟨[],'/' :: '/' :: line ++ gap,⟨?_,nofun,fun _ => rfl,?_,?_,passes.stops⟩,walked⟩
            · exact congrArg ('/' :: ·) passes.whole
            · simp [code]
            · refine .comment line gap _ ?_ (passes.ended rfl) passes.skipped
              exact fun member => passes.inside (List.mem_cons_of_mem _ member)
        next =>
          refine ⟨[],[],⟨rfl,nofun,fun _ => rfl,?_,.nothing _,?_⟩,rfl⟩
          · simp [code]
          · rintro other behind same
            obtain ⟨rfl,rfl⟩ := List.cons.inj same
            simpa using solid

theorem skip_passes (cursor : Cursor) :
    ∃ gap, Passes false cursor.rest [] gap cursor.skip.rest ∧
      cursor.skip.place = cursor.place.walk gap := by
  obtain ⟨line,gap,passes,walked⟩ := skipTo_passes false cursor.place cursor.rest
  obtain rfl := passes.outside rfl
  exact ⟨gap,passes,walked⟩

end Cursor

/-- A token is made of what its match takes. -/
theorem Token.Match.Takes.written {found : Token.Match} {text lexeme rest : List Char}
    (takes : found.Takes text lexeme rest) (place : Position) :
    (Cursor.take ⟨place,text⟩ found).1.written = lexeme ∧
      (Cursor.take ⟨place,text⟩ found).1.kind = found.kind ∧
      (Cursor.take ⟨place,text⟩ found).1.span = ⟨place,place.walk lexeme⟩ ∧
      (Cursor.take ⟨place,text⟩ found).2 = ⟨place.walk lexeme,rest⟩ := by
  obtain ⟨rfl,counted,admitted⟩ := takes
  refine ⟨?_,rfl,?_,?_⟩
  · by_cases quoted : found.kind = .string
    · rw [quoted] at admitted
      obtain ⟨content,_,rfl⟩ := admitted.quoted
      have inner : (content ++ '\"' :: rest).take (content.length + 1) = content ++ ['\"'] := by
        simp [List.take_append,List.take_of_length_le]
      simp [Token.written,Cursor.take,quoted,counted,inner]
    · simp [Token.written,Cursor.take,quoted,counted]
  · simp [Cursor.take,Cursor.advance,counted]
  · simp [Cursor.take,Cursor.advance,counted]

/-- How scanning a text ends, behind a part that was read before. Either all of the text is laid out
in tokens, of which the last and no other is the end of the text. Or tokens are laid out up to the
first place where none can start, and the error names that place. -/
def Accounts (read text : List Char) : Except ScanError (List Token) → Prop
  | .ok tokens => ∃ before gap, tokens = before ++ [.fileEnd (.behind (read ++ text))] ∧
      (∀ token ∈ before, token.kind ≠ .fileEnd) ∧ Laid read before text gap ∧ Skipped gap []
  | .error error => ∃ before gap passed char behind, Laid read before text (gap ++ char :: behind) ∧
      Skipped gap (char :: behind) ∧ text = passed ++ char :: behind ∧ Barren char behind ∧
      error = if char = '\"' then .unterminatedString (.behind (read ++ passed))
        else .unexpectedCharacter char (.behind (read ++ passed))

/-- One more token in front. -/
theorem Accounts.cons {read gap text : List Char} {token : Token}
    {result : Except ScanError (List Token)} (skipped : Skipped gap (token.written ++ text))
    (admitted : token.kind.Admits token.written)
    (places : token.span = ⟨.behind (read ++ gap),.behind (read ++ gap ++ token.written)⟩)
    (others : Accounts (read ++ gap ++ token.written) text result) :
    Accounts read (gap ++ token.written ++ text) (result.map (token :: ·)) := by
  cases result with
  | ok tokens =>
    obtain ⟨before,last,rfl,inner,laid,blank⟩ := others
    refine ⟨token :: before,last,by simp,?_,?_,blank⟩
    · exact List.forall_mem_cons.mpr ⟨admitted.inner,inner⟩
    · exact .cons read gap token before text last skipped admitted places laid
  | error error =>
    obtain ⟨before,last,passed,char,behind,laid,blank,rfl,stuck,rfl⟩ := others
    refine ⟨token :: before,last,gap ++ token.written ++ passed,char,behind,?_,blank,by simp,stuck,?_⟩
    · exact .cons read gap token before _ _ skipped admitted places laid
    · simp

section
variable (cursor : Cursor)

theorem tokensFrom_end (done : cursor.skip.rest = []) :
    tokensFrom cursor = .ok [.fileEnd cursor.skip.place] := by
  have reads : cursor.next = .ok (.fileEnd cursor.skip.place,cursor.skip) := by
    simp [Cursor.next,done]
  rw [tokensFrom]
  grind [Token.fileEnd]

theorem next_token {found : Token.Match} (taken : Token.Match.ofText? cursor.skip.rest = some found) :
    cursor.next = .ok (cursor.skip.take found) := by
  cases here : cursor.skip.rest with
  | nil =>
    rw [here] at taken
    contradiction
  | cons char behind =>
    rw [here] at taken
    simp only [Cursor.next,here,taken]

theorem tokensFrom_token {found : Token.Match}
    (taken : Token.Match.ofText? cursor.skip.rest = some found) :
    tokensFrom cursor =
      (tokensFrom (cursor.skip.take found).2).map ((cursor.skip.take found).1 :: ·) := by
  obtain ⟨lexeme,rest,takes⟩ := Token.Match.takes_of_ofText taken
  have reads := next_token cursor taken
  have inner : (cursor.skip.take found).1.kind ≠ .fileEnd := takes.admitted.inner
  rw [tokensFrom]
  grind [Except.map]

theorem tokensFrom_stuck (char : Char) (behind : List Char)
    (here : cursor.skip.rest = char :: behind)
    (nothing : Token.Match.ofText? cursor.skip.rest = none) :
    tokensFrom cursor = .error (if char = '\"' then .unterminatedString cursor.skip.place
      else .unexpectedCharacter char cursor.skip.place) := by
  have fails : cursor.next = .error (if char = '\"' then .unterminatedString cursor.skip.place
      else .unexpectedCharacter char cursor.skip.place) := by
    rw [here] at nothing
    simp only [Cursor.next,here,nothing]
  rw [tokensFrom]
  grind

theorem take_length_lt {found : Token.Match}
    (taken : Token.Match.ofText? cursor.skip.rest = some found) :
    (cursor.skip.take found).2.rest.length < cursor.rest.length := by
  obtain ⟨lexeme,rest,takes⟩ := Token.Match.takes_of_ofText taken
  exact Cursor.next_length_lt (next_token cursor taken) takes.admitted.inner

/-- Reading a text ends behind its last token, or where no token can start, or it goes on behind one
more token. -/
theorem reading_induction {motive : Cursor → Prop}
    (ended : ∀ cursor, cursor.skip.rest = [] → motive cursor)
    (stuck : ∀ cursor char behind, cursor.skip.rest = char :: behind →
      Token.Match.ofText? cursor.skip.rest = none → motive cursor)
    (token : ∀ cursor found, Token.Match.ofText? cursor.skip.rest = some found →
      motive (cursor.skip.take found).2 → motive cursor) : motive cursor := by
  induction size : cursor.rest.length using Nat.strong_induction_on generalizing cursor with
  | _ size ih =>
  cases taken : Token.Match.ofText? cursor.skip.rest with
  | none =>
    cases here : cursor.skip.rest with
    | nil => exact ended cursor here
    | cons char behind => exact stuck cursor char behind here taken
  | some found =>
    refine token cursor found taken (ih _ ?_ _ rfl)
    rw [← size]
    exact take_length_lt cursor taken

end

/-- Scanning accounts for the rest of a text wherever it goes on. -/
theorem tokensFrom_accounts (cursor : Cursor) (read : List Char)
    (placed : cursor.place = Position.start.walk read) :
    Accounts read cursor.rest (tokensFrom cursor) := by
  induction cursor using reading_induction generalizing read with
  | ended cursor here =>
    obtain ⟨gap,passes,walked⟩ := cursor.skip_passes
    have whole := passes.whole
    have skipped := passes.skipped
    rw [here] at whole skipped
    rw [placed,← Position.walk_append] at walked
    have same : cursor.rest = gap := by simpa using whole
    rw [tokensFrom_end cursor here,walked,Position.walk_start,same]
    exact ⟨[],gap,rfl,nofun,.nil read gap,skipped⟩
  | stuck cursor char behind here taken =>
    obtain ⟨gap,passes,walked⟩ := cursor.skip_passes
    have whole := passes.whole
    have skipped := passes.skipped
    rw [placed,← Position.walk_append] at walked
    rw [tokensFrom_stuck cursor char behind here taken,walked,Position.walk_start]
    rw [here] at whole skipped taken
    refine ⟨[],gap,gap,char,behind,?_,skipped,whole,⟨passes.stops char behind here,?_⟩,rfl⟩
    · rw [whole]
      exact .nil read _
    · exact fun kind lexeme => Token.not_admits_of_ofText _ lexeme kind taken
  | token cursor found taken ih =>
    obtain ⟨gap,passes,walked⟩ := cursor.skip_passes
    rw [placed,← Position.walk_append] at walked
    obtain ⟨lexeme,rest,takes⟩ := Token.Match.takes_of_ofText taken
    obtain ⟨written,kind,span,after⟩ := takes.written cursor.skip.place
    have whole : cursor.rest = gap ++ lexeme ++ rest := by
      rw [passes.whole,takes.split]
      simp
    have reads := ih (read ++ gap ++ lexeme) (by rw [after,walked,← Position.walk_append])
    rw [tokensFrom_token cursor taken,whole,← written]
    refine .cons ?_ ?_ ?_ ?_
    · rw [written,← takes.split]
      exact passes.skipped
    · rw [written,kind]
      exact takes.admitted
    · rw [written,span,walked,← Position.walk_append,Position.walk_start,Position.walk_start]
    · rw [after] at reads ⊢
      rwa [written]

/-- Scanning accounts for all of a text. It is split into the texts of its tokens, each of which the
kind of the token admits, with nothing but blanks and comments between them. Every token knows the
places in front of its text and behind it, and the end stands behind everything. If scanning fails,
then it does so at the first place where no token can start, and up to there it accounts for the
text in the same way. -/
theorem scan_lossless (source : String) : Accounts [] source.toList (tokens source) :=
  tokensFrom_accounts (.ofText source) [] rfl

end BlockScript
