import BlockScript.Proofs.Token.Munch

/-! Tokens that are written out with a space between every two. No token reaches over the space, so
scanning reads the same ones again. -/
namespace BlockScript

namespace Token

/-- What is written is admitted by the kind, and a name is not reserved. -/
structure Proper (token : Token) : Prop where
  admitted : token.kind.Admits token.written
  unreserved : token.kind = .name → ∀ entry ∈ reserved, entry.1 ≠ token.lexeme

def bare (token : Token) : TokenKind × String := (token.kind,token.lexeme)

def spaced (tokens : List Token) : String :=
  String.ofList ([' '].intercalate (tokens.map written))

def trailing (tokens : List Token) : List Char := tokens.flatMap fun token => ' ' :: token.written

theorem spaced_cons (token : Token) (tokens : List Token) :
    (spaced (token :: tokens)).toList = token.written ++ trailing tokens := by
  rw [spaced,String.toList_ofList,trailing]
  induction tokens generalizing token with
  | nil => simp
  | cons next tokens ih =>
    rw [List.map_cons,List.map_cons,List.intercalate_cons_cons,← List.map_cons,ih next]
    simp

inductive Separated : List Char → Prop
  | ended : Separated []
  | space (rest : List Char) : Separated (' ' :: rest)

theorem separated_trailing (tokens : List Token) : Separated (trailing tokens) := by
  cases tokens with
  | nil => exact .ended
  | cons token tokens => exact .space _

/-! ### One token -/

section
variable {rest : List Char} (separated : Separated rest)
include separated

theorem Separated.longestRun {holds : Char → Bool} {run : List Char}
    (all : ∀ char ∈ run, holds char = true) (stops : holds ' ' = false) :
    LongestRun holds (run ++ rest) run rest where
  split := rfl
  all := all
  stops := by
    rintro char behind rfl
    cases separated
    exact stops

theorem Separated.length_le {lexeme text : List Char} (inside : ' ' ∉ lexeme)
    (starts : lexeme <+: text ++ rest) : lexeme.length ≤ text.length := by
  cases separated with
  | ended => simpa using starts.length_le
  | space rest =>
    rw [← List.isPrefixOf_iff_prefix,isPrefixOf_separated rest ' ' lexeme text inside] at starts
    exact (List.isPrefixOf_iff_prefix.mp starts).length_le

theorem Separated.munch_word (first : Char) (others : List Char) (letter : startsName first = true)
    (continues : ∀ char ∈ first :: others, continuesName char = true) :
    Munch (first :: others ++ rest) (wordKind (first :: others)) (first :: others) rest :=
  .word first (others ++ rest) _ rest rfl letter (separated.longestRun continues rfl)

theorem Separated.munch_sign (sign : String × TokenKind) (listed : sign ∈ signs) :
    Munch (sign.1.toList ++ rest) sign.2 sign.1.toList rest := by
  have spaceless : ∀ sign ∈ signs, ' ' ∉ sign.1.toList := by decide
  refine .sign sign.1 sign.2 rest listed rfl fun other member starts => ?_
  rw [← String.length_toList,← String.length_toList]
  exact separated.length_le (spaceless other member) starts

end

/-- The rule takes all that is written and nothing of what follows. -/
theorem admits_munch {kind : TokenKind} {lexeme rest : List Char}
    (admits : kind.Admits lexeme)
    (free : kind = .name → ∀ entry ∈ reserved, entry.1.toList ≠ lexeme)
    (separated : Separated rest) : Munch (lexeme ++ rest) kind lexeme rest := by
  cases admits with
  | spelling text _ listed =>
    rw [spellings_eq,List.mem_append] at listed
    rcases listed with sign | word
    · exact separated.munch_sign _ sign
    · obtain ⟨first,others,spelled,letter,continues⟩ := reserved_word _ word
      rw [spelled] at continues
      have taken := separated.munch_word first others letter continues
      rwa [← spelled,wordKind_reserved _ word] at taken
  | name first others letter continues =>
    have whole : ∀ char ∈ first :: others, continuesName char = true :=
      List.forall_mem_cons.mpr ⟨continues_of_letter first letter,continues⟩
    have taken := separated.munch_word first others letter whole
    rwa [wordKind_unreserved _ (free rfl)] at taken
  | string content unquoted => exact .string content rest unquoted (by simp)
  | integer _ some all =>
    refine .integer lexeme rest some (separated.longestRun all rfl) ?_
    rintro digit behind rfl
    nomatch separated
  | real whole fraction some more all others =>
    have run : LongestRun Char.isDigit (whole ++ '.' :: fraction ++ rest) whole
        ('.' :: (fraction ++ rest)) := by
      refine ⟨by simp,all,fun char behind same => ?_⟩
      rw [← (List.cons.inj same).1]
      rfl
    exact .real whole _ fraction rest some more run (separated.longestRun others rfl)

section
variable (char : Char)

theorem isBlank_of_digit (digit : char.isDigit = true) : Text.isBlank char = false := by
  have bounds := toNat_of_digit char digit
  simp [Text.isBlank,Text.within,Text.blankRanges]
  omega

theorem isBlank_of_letter (letter : startsName char = true) : Text.isBlank char = false := by
  have bounds := toNat_of_letter char letter
  simp [Text.isBlank,Text.within,Text.blankRanges]
  omega

end

/-- What is written does not start with a blank, and with a slash only where it is no more. -/
theorem admits_solid {kind : TokenKind} {lexeme : List Char} (admits : kind.Admits lexeme) :
    ∃ first others, lexeme = first :: others ∧ Text.isBlank first = false ∧
      (first = '/' → others = []) := by
  have number (digits rest : List Char) (some : digits ≠ [])
      (all : ∀ char ∈ digits, char.isDigit = true) :
      ∃ first others, digits ++ rest = first :: others ∧ Text.isBlank first = false ∧
        (first = '/' → others = []) := by
    cases digits with
    | nil => exact (some rfl).elim
    | cons first digits =>
      have digit := all first List.mem_cons_self
      refine ⟨first,digits ++ rest,rfl,isBlank_of_digit first digit,?_⟩
      rintro rfl
      exact (Bool.false_ne_true digit).elim
  cases admits with
  | spelling text _ listed =>
    have heads : ∀ entry ∈ spellings, entry.1.toList.head?.any Text.isBlank = false := by decide
    have slashes : ∀ entry ∈ spellings,
        entry.1.toList.head? = some '/' → entry.1.toList = ['/'] := by decide
    have nonempty := spelling_ne_nil _ listed
    have solid := heads _ listed
    have slash := slashes _ listed
    cases spelled : text.toList with
    | nil => exact (nonempty spelled).elim
    | cons first others =>
      rw [spelled] at solid slash
      refine ⟨first,others,rfl,solid,?_⟩
      rintro rfl
      exact (List.cons.inj (slash rfl)).2
  | name first others letter continues =>
    refine ⟨first,others,rfl,isBlank_of_letter first letter,?_⟩
    rintro rfl
    exact (Bool.false_ne_true letter).elim
  | string content unquoted => exact ⟨_,_,rfl,by decide,by simp⟩
  | integer _ some all => simpa using number lexeme [] some all
  | real whole fraction some more all others => exact number whole ('.' :: fraction) some all

theorem skip_admitted {kind : TokenKind} {lexeme rest : List Char} (admits : kind.Admits lexeme)
    (separated : Separated rest) (place : Position) :
    (Cursor.mk place (lexeme ++ rest)).skip = ⟨place,lexeme ++ rest⟩ := by
  obtain ⟨first,others,rfl,solid,slash⟩ := admits_solid admits
  have uncommented : ['/','/'].isPrefixOf (first :: (others ++ rest)) = false := by
    by_contra comment
    rw [Bool.not_eq_false] at comment
    obtain ⟨behind,whole⟩ := List.isPrefixOf_iff_prefix.mp comment
    obtain ⟨rfl,second⟩ := List.cons.inj whole
    rw [slash rfl] at second
    cases separated with
    | ended => contradiction
    | space rest => exact absurd (List.cons.inj second).1 (by decide)
  simp [Cursor.skip,Cursor.skipTo,solid,uncommented]

end Token

/-! ### A whole list -/

theorem tokensFrom_proper (token : Token) (proper : token.Proper) (place : Position)
    (rest : List Char) (separated : Token.Separated rest) :
    ∃ read after, read.bare = token.bare ∧
      tokensFrom ⟨place,token.written ++ rest⟩ = (tokensFrom ⟨after,rest⟩).map (read :: ·) := by
  have skips := Token.skip_admitted proper.admitted separated place
  have free : token.kind = .name → ∀ entry ∈ Token.reserved, entry.1.toList ≠ token.written := by
    intro name entry listed same
    have plain : token.written = token.lexeme.toList := by simp [Token.written,name]
    exact proper.unreserved name entry listed (String.toList_inj.mp (same.trans plain))
  have munch := Token.admits_munch proper.admitted free separated
  refine ⟨{ token with span := ⟨place,place.walk token.written⟩ },place.walk token.written,rfl,?_⟩
  have reads := tokensFrom_munch ⟨place,token.written ++ rest⟩
    { token with span := ⟨place,place.walk token.written⟩ } rest
  rw [skips] at reads
  exact reads munch rfl

theorem tokensFrom_trailing (list : List Token) (proper : ∀ token ∈ list, token.Proper)
    (place : Position) :
    ∃ scanned, tokensFrom ⟨place,Token.trailing list⟩ = .ok scanned ∧
      scanned.map Token.bare = list.map Token.bare ++ [(.fileEnd,"")] := by
  induction list generalizing place with
  | nil => exact ⟨_,tokensFrom_end _ rfl,rfl⟩
  | cons token list ih =>
    obtain ⟨here,others⟩ := List.forall_mem_cons.mp proper
    -- The space in front is skipped, so the token is read from behind it.
    have blank : Cursor.skip ⟨place,Token.trailing (token :: list)⟩ =
        Cursor.skip ⟨place.after ' ',token.written ++ Token.trailing list⟩ := rfl
    obtain ⟨read,after,same,reads⟩ := tokensFrom_proper token here (place.after ' ') _
      (Token.separated_trailing list)
    obtain ⟨scanned,further,kept⟩ := ih others after
    refine ⟨read :: scanned,?_,?_⟩
    · rw [tokensFrom_congr _ _ blank,reads,further]
      rfl
    · rw [List.map_cons,List.map_cons,same,kept]
      rfl

/-- Proper tokens come back wherever their text stands. -/
theorem tokensFrom_spaced (list : List Token) (proper : ∀ token ∈ list, token.Proper)
    (place : Position) :
    ∃ scanned, tokensFrom ⟨place,(Token.spaced list).toList⟩ = .ok scanned ∧
      scanned.map Token.bare = list.map Token.bare ++ [(.fileEnd,"")] := by
  cases list with
  | nil => exact ⟨_,tokensFrom_end _ rfl,rfl⟩
  | cons token list =>
    obtain ⟨here,others⟩ := List.forall_mem_cons.mp proper
    obtain ⟨read,after,same,reads⟩ := tokensFrom_proper token here place _
      (Token.separated_trailing list)
    obtain ⟨scanned,further,kept⟩ := tokensFrom_trailing list others after
    refine ⟨read :: scanned,?_,?_⟩
    · rw [Token.spaced_cons,reads,further]
      rfl
    · rw [List.map_cons,List.map_cons,same,kept]
      rfl

/-- Tokens that are written out, with a space between every two and the quotes put back around the
strings, are scanned as the same tokens, and the end behind them. -/
theorem scan_spaced (list : List Token) (proper : ∀ token ∈ list, token.Proper) :
    ∃ scanned, tokens (Token.spaced list) = .ok scanned ∧
      scanned.map Token.bare = list.map Token.bare ++ [(.fileEnd,"")] :=
  tokensFrom_spaced list proper .start

theorem Token.proper_spelled (spelling : String) (kind : TokenKind) (span : Span)
    (listed : (spelling,kind) ∈ Token.spellings) : Token.Proper ⟨kind,spelling,span⟩ := by
  have fixed : ∀ entry ∈ Token.spellings, entry.2 ≠ .string ∧ entry.2 ≠ .name := by decide
  obtain ⟨plain,unnamed⟩ := fixed _ listed
  refine ⟨?_,fun name => (unnamed name).elim⟩
  rw [Token.written,if_neg plain]
  exact .spelling spelling kind listed

/-- Each of these is read otherwise where nothing stands between it and the one behind it. -/
def touching : List Token :=
  [("/",.multiplicative), ("/",.multiplicative), ("1",.integer), (".",.dot), ("5",.integer),
   ("<",.comparison), ("=",.assign), ("do",.doWord), ("ne",.name), ("\n// do",.string)].map
    fun entry => ⟨entry.2,entry.1,⟨.start,.start⟩⟩

/-- Each of them is read by itself once a space stands between it and the next. -/
theorem touching_spaced :
    Token.spaced touching = "/ / 1 . 5 < = do ne \"\n// do\"" ∧
      (∀ token ∈ touching, token.Proper) ∧
      ∃ scanned, tokens (Token.spaced touching) = .ok scanned ∧
        scanned.map Token.bare = touching.map Token.bare ++ [(.fileEnd,"")] := by
  have word : Token.Proper ⟨.name,"ne",⟨.start,.start⟩⟩ :=
    ⟨.name 'n' ['e'] rfl (List.all_eq_true.mp rfl),fun _ => by decide⟩
  have string : Token.Proper ⟨.string,"\n// do",⟨.start,.start⟩⟩ :=
    ⟨.string "\n// do".toList (by decide),by simp⟩
  have integer (digit : Char) (holds : digit.isDigit = true) :
      Token.Proper ⟨.integer,String.ofList [digit],⟨.start,.start⟩⟩ := by
    have admits : TokenKind.integer.Admits [digit] :=
      .integer [digit] (by simp) (by simpa using holds)
    exact ⟨by simpa [Token.written] using admits,by simp⟩
  have proper : ∀ token ∈ touching, token.Proper := by
    simp only [touching,List.map_cons,List.map_nil,List.forall_mem_cons]
    exact ⟨Token.proper_spelled _ _ _ (by decide),Token.proper_spelled _ _ _ (by decide),
      integer '1' rfl,Token.proper_spelled _ _ _ (by decide),integer '5' rfl,
      Token.proper_spelled _ _ _ (by decide),Token.proper_spelled _ _ _ (by decide),
      Token.proper_spelled _ _ _ (by decide),word,string,by simp⟩
  exact ⟨by decide +kernel,proper,scan_spaced touching proper⟩

/-! ### The tokens that scanning reads -/

theorem Token.Munch.proper {text rest : List Char} {token : Token}
    (munch : Token.Munch text token.kind token.written rest) : token.Proper := by
  refine ⟨munch.takes.admitted,?_⟩
  have words : ∀ entry ∈ Token.reserved, entry.2 ≠ .name := by decide
  have apart : ∀ sign ∈ Token.signs, sign.2 ≠ .name := by decide
  intro name entry listed same
  have plain : token.written = entry.1.toList := by simp [Token.written,name,same]
  rw [name,plain] at munch
  -- A reserved word that stands alone has its own kind, which is not that of names.
  generalize kind : TokenKind.name = found at munch
  generalize word : entry.1.toList = lexeme at munch
  cases munch with
  | word => exact words entry listed (by rw [kind,← word,Token.wordKind_reserved entry listed])
  | sign spelling _ _ sign => exact apart _ sign kind.symm
  | _ => contradiction

theorem Munched.proper {cursor : Cursor} {result : Except ScanError (List Token)}
    (munched : Munched cursor result) {list : List Token} (scanned : result = .ok list) :
    ∃ before place, list = before ++ [.fileEnd place] ∧ ∀ token ∈ before, token.Proper := by
  induction munched generalizing list with
  | ended cursor done =>
    obtain rfl := Except.ok.inj scanned
    exact ⟨[],cursor.skip.place,rfl,nofun⟩
  | token cursor token rest result munch _ _ ih =>
    cases result with
    | error error => contradiction
    | ok others =>
      obtain rfl := Except.ok.inj scanned
      obtain ⟨before,place,rfl,proper⟩ := ih rfl
      exact ⟨token :: before,place,rfl,List.forall_mem_cons.mpr ⟨munch.proper,proper⟩⟩
  | stuck cursor char behind here nothing => contradiction

/-- A list that was scanned from some text comes back from its own text. -/
theorem scan_again (source : String) (list : List Token) (scanned : tokens source = .ok list) :
    ∃ again, tokens (Token.spaced list.dropLast) = .ok again ∧
      again.map Token.bare = list.map Token.bare := by
  obtain ⟨before,place,rfl,proper⟩ := (tokensFrom_munched (.ofText source)).proper scanned
  obtain ⟨again,reads,kept⟩ := tokensFrom_spaced before proper .start
  refine ⟨again,?_,?_⟩
  · rwa [List.dropLast_concat]
  · rw [kept,List.map_append]
    rfl

end BlockScript
