import BlockScript.Proofs.Token.Lines
import BlockScript.Tree.Operator

/-! Maximal munch. The first character of a text decides what kind of token it starts with, and the
token takes as many characters as it can. A word is reserved or not as a whole. -/
namespace BlockScript

namespace Token

def signs : List (String × TokenKind) :=
  [("(",.opening), (")",.closing), (",",.comma), (".",.dot), (";",.semicolon),
   ("+",.additive), ("-",.additive), ("*",.multiplicative), ("/",.multiplicative),
   ("=",.assign), ("==",.comparison), ("!=",.comparison),
   ("<",.comparison), ("<=",.comparison), (">",.comparison), (">=",.comparison)]

def keywords : List (String × TokenKind) :=
  [("if",.ifWord), ("else",.elseWord), ("while",.whileWord), ("for",.forWord), ("in",.inWord),
   ("do",.doWord), ("done",.doneWord), ("put",.putWord), ("ret",.retWord),
   ("and",.andWord), ("or",.orWord)]

def reserved : List (String × TokenKind) :=
  TypeName.all.map (fun type => (type.spelling,.specifier)) ++ keywords

theorem spellings_eq : spellings = signs ++ reserved := rfl

def wordKind (word : List Char) : TokenKind :=
  ((reserved.find? fun entry => entry.1.toList == word).map Prod.snd).getD .name

structure LongestRun (holds : Char → Bool) (text run rest : List Char) : Prop where
  split : text = run ++ rest
  all : ∀ char ∈ run, holds char = true
  stops : ∀ char behind, rest = char :: behind → holds char = false

inductive Munch (text : List Char) : TokenKind → (lexeme rest : List Char) → Prop
  | word (first : Char) (behind lexeme rest : List Char) (starts : text = first :: behind)
      (letter : startsName first = true) (run : LongestRun continuesName text lexeme rest) :
      Munch text (wordKind lexeme) lexeme rest
  | integer (digits rest : List Char) (some : digits ≠ [])
      (run : LongestRun Char.isDigit text digits rest)
      (whole : ∀ digit behind, rest = '.' :: digit :: behind → digit.isDigit = false) :
      Munch text .integer digits rest
  | real (digits behind fraction rest : List Char) (some : digits ≠ []) (more : fraction ≠ [])
      (run : LongestRun Char.isDigit text digits ('.' :: behind))
      (others : LongestRun Char.isDigit behind fraction rest) :
      Munch text .real (digits ++ '.' :: fraction) rest
  | string (content rest : List Char) (unquoted : '\"' ∉ content)
      (split : text = '\"' :: content ++ '\"' :: rest) :
      Munch text .string ('\"' :: content ++ ['\"']) rest
  | sign (spelling : String) (kind : TokenKind) (rest : List Char)
      (listed : (spelling,kind) ∈ signs) (split : text = spelling.toList ++ rest)
      (longest : ∀ other ∈ signs, other.1.toList <+: text → other.1.length ≤ spelling.length) :
      Munch text kind spelling.toList rest

section
variable {holds : Char → Bool} {text run rest : List Char}

theorem LongestRun.takeWhile (longest : LongestRun holds text run rest) :
    text.takeWhile holds = run := by
  rw [longest.split,List.takeWhile_append_of_pos longest.all]
  cases rest with
  | nil => simp
  | cons char behind => simp [longest.stops char behind rfl]

theorem LongestRun.drop (longest : LongestRun holds text run rest) :
    text.drop run.length = rest := by
  rw [longest.split,List.drop_left]

end

theorem longestRun_takeWhile (holds : Char → Bool) (text : List Char) :
    LongestRun holds text (text.takeWhile holds) (text.dropWhile holds) where
  split := List.takeWhile_append_dropWhile.symm
  all _ member := List.mem_takeWhile_imp member
  stops _ _ same := head_dropWhile same

/-! ### The longest match -/

theorem length_le_of_foldl_longer {found : List Match} {best : Option Match} {result : Match}
    (chosen : found.foldl longer best = some result) :
    (∀ earlier, best = some earlier → earlier.length ≤ result.length) ∧
      ∀ candidate ∈ found, candidate.length ≤ result.length := by
  induction found generalizing best with
  | nil =>
    obtain rfl : best = some result := chosen
    exact ⟨fun earlier same => by rw [Option.some.inj same],nofun⟩
  | cons candidate found ih =>
    obtain ⟨kept,others⟩ := ih chosen
    cases best with
    | none => exact ⟨nofun,List.forall_mem_cons.mpr ⟨kept candidate rfl,others⟩⟩
    | some earlier =>
      simp only [longer] at kept
      split at kept
      next shorter =>
        have least := kept candidate rfl
        refine ⟨fun _ same => ?_,List.forall_mem_cons.mpr ⟨least,others⟩⟩
        obtain rfl := Option.some.inj same
        exact Nat.le_trans (Nat.le_of_lt shorter) least
      next atLeast =>
        have least := kept earlier rfl
        refine ⟨fun _ same => ?_,List.forall_mem_cons.mpr ⟨?_,others⟩⟩
        · obtain rfl := Option.some.inj same
          exact least
        · exact Nat.le_trans (Nat.le_of_not_lt atLeast) least

theorem length_le_of_longest {found : List Match} {result : Match}
    (chosen : longest found = some result) :
    ∀ candidate ∈ found, candidate.length ≤ result.length :=
  (length_le_of_foldl_longer chosen).2

def spelled (text : List Char) : List Match := spellings.filterMap (matchSpelling text)

theorem mem_spelled (text : List Char) (found : Match) :
    found ∈ spelled text ↔ ∃ spelling ∈ spellings,
      spelling.1.toList <+: text ∧ ⟨spelling.2,spelling.1.length⟩ = found := by
  simp only [spelled,List.mem_filterMap,matchSpelling,List.isPrefixOf_iff_prefix,
    Option.ite_none_right_eq_some,Option.some.injEq]

theorem ofText_eq (text : List Char) : Match.ofText? text =
    ([matchName text,matchString text,matchNumber text].filterMap id).foldl longer
      (longest (spelled text)) := by
  rw [Match.ofText?,longest,candidates,List.foldl_append]
  rfl

/-! ### What each kind of first character leads to -/

section
variable (first : Char) (behind : List Char)

theorem toNat_of_digit (digit : first.isDigit = true) : 48 ≤ first.toNat ∧ first.toNat ≤ 57 := by
  have bounds : (decide (48 ≤ first.val) && decide (first.val ≤ 57)) = true := digit
  simpa [UInt32.le_iff_toNat_le] using bounds

theorem toNat_of_letter (letter : startsName first = true) :
    65 ≤ first.toNat ∧ first.toNat ≤ 122 := by
  have bounds : ((decide (65 ≤ first.val ∧ first.val ≤ 90) ||
      (decide (97 ≤ first.val) && decide (first.val ≤ 122))) || first == '_') = true := letter
  simp only [Bool.or_eq_true,Bool.and_eq_true,decide_eq_true_eq,beq_iff_eq,
    UInt32.le_iff_toNat_le] at bounds
  rcases bounds with (⟨low,high⟩ | ⟨low,high⟩) | rfl
  · exact ⟨low,Nat.le_trans high (by decide)⟩
  · exact ⟨Nat.le_trans (by decide) low,high⟩
  · decide

theorem not_digit_of_letter (letter : startsName first = true) : first.isDigit = false := by
  by_contra digit
  have low := toNat_of_letter first letter
  have high := toNat_of_digit first (by simpa using digit)
  omega

theorem continues_of_letter (letter : startsName first = true) : continuesName first = true := by
  simp only [startsName,continuesName,Char.isAlphanum,Bool.or_eq_true] at letter ⊢
  tauto

theorem matchString_apart (unquoted : first ≠ '\"') : matchString (first :: behind) = none := by
  simp [matchString,unquoted]

theorem matchNumber_apart (other : first.isDigit = false) :
    matchNumber (first :: behind) = none := by
  simp [matchNumber_eq_none_iff,other]

theorem matchName_apart (other : startsName first = false) :
    matchName (first :: behind) = none := by
  simp [matchName,other]

theorem spelled_nil (apart : ∀ spelling ∈ spellings, spelling.1.toList.head? ≠ some first) :
    spelled (first :: behind) = [] := by
  refine List.filterMap_eq_nil_iff.mpr fun spelling listed => ?_
  exact matchSpelling_apart first behind spelling (spelling_ne_nil spelling listed)
    (apart spelling listed)

theorem ofText_digit (digit : first.isDigit = true) :
    Match.ofText? (first :: behind) = matchNumber (first :: behind) := by
  have heads : ∀ spelling ∈ spellings, spelling.1.toList.head?.any Char.isDigit = false := by decide
  have apart : ∀ spelling ∈ spellings, spelling.1.toList.head? ≠ some first := by
    intro spelling listed same
    have other := heads spelling listed
    rw [same] at other
    exact Bool.false_ne_true (other.symm.trans digit)
  have unnamed : startsName first = false := by
    by_contra letter
    have other := not_digit_of_letter first (by simpa using letter)
    exact Bool.false_ne_true (other.symm.trans digit)
  have unquoted : first ≠ '\"' := by
    rintro rfl
    exact Bool.false_ne_true digit
  rw [ofText_eq,spelled_nil first behind apart,matchName_apart first behind unnamed,
    matchString_apart first behind unquoted]
  cases matchNumber (first :: behind) <;> rfl

theorem ofText_open : Match.ofText? ('\"' :: behind) = matchString ('\"' :: behind) := by
  have apart : ∀ spelling ∈ spellings, spelling.1.toList.head? ≠ some '\"' := by decide
  have unnamed : matchName ('\"' :: behind) = none := rfl
  have uncounted : matchNumber ('\"' :: behind) = none := rfl
  rw [ofText_eq,spelled_nil '\"' behind apart,unnamed,uncounted]
  cases matchString ('\"' :: behind) <;> rfl

theorem ofText_other (unnamed : startsName first = false) (uncounted : first.isDigit = false)
    (unquoted : first ≠ '\"') :
    Match.ofText? (first :: behind) = longest (spelled (first :: behind)) := by
  rw [ofText_eq,matchName_apart first behind unnamed,matchString_apart first behind unquoted,
    matchNumber_apart first behind uncounted]
  rfl

theorem ofText_letter (letter : startsName first = true) :
    Match.ofText? (first :: behind) = longer (longest (spelled (first :: behind)))
      ⟨.name,((first :: behind).takeWhile continuesName).length⟩ := by
  have named : matchName (first :: behind) =
      some ⟨.name,((first :: behind).takeWhile continuesName).length⟩ := by
    simp [matchName,letter,continues_of_letter first letter]
  have unquoted : first ≠ '\"' := by
    rintro rfl
    exact Bool.false_ne_true letter
  rw [ofText_eq,named,matchString_apart first behind unquoted,
    matchNumber_apart first behind (not_digit_of_letter first letter)]
  rfl

end

/-! ### Words -/

theorem wordKind_reserved : ∀ entry ∈ reserved, wordKind entry.1.toList = entry.2 := by decide

theorem wordKind_unreserved (word : List Char) (free : ∀ entry ∈ reserved, entry.1.toList ≠ word) :
    wordKind word = .name := by
  have absent : (reserved.find? fun entry => entry.1.toList == word) = none := by
    simpa using free
  rw [wordKind,absent]
  rfl

theorem reserved_word (entry : String × TokenKind) (listed : entry ∈ reserved) :
    ∃ first others, entry.1.toList = first :: others ∧ startsName first = true ∧
      ∀ char ∈ entry.1.toList, continuesName char = true := by
  have heads : ∀ entry ∈ reserved, entry.1.toList.head?.all startsName = true := by decide
  have words : ∀ entry ∈ reserved, entry.1.toList.all continuesName = true := by decide
  have nonempty := spelling_ne_nil entry (List.mem_append_right signs listed)
  have letter := heads entry listed
  have all := List.all_eq_true.mp (words entry listed)
  cases spelled : entry.1.toList with
  | nil => exact (nonempty spelled).elim
  | cons first others =>
    rw [spelled] at letter all
    exact ⟨first,others,rfl,letter,all⟩

theorem isPrefix_takeWhile {holds : Char → Bool} {lexeme text : List Char}
    (starts : lexeme <+: text) (all : ∀ char ∈ lexeme, holds char = true) :
    lexeme <+: text.takeWhile holds := by
  obtain ⟨rest,rfl⟩ := starts
  rw [List.takeWhile_append_of_pos all]
  exact List.prefix_append _ _

theorem head?_of_isPrefix {lexeme behind : List Char} {first : Char} (nonempty : lexeme ≠ [])
    (starts : lexeme <+: first :: behind) : lexeme.head? = some first := by
  obtain ⟨rest,whole⟩ := starts
  cases lexeme with
  | nil => exact (nonempty rfl).elim
  | cons char lexeme => exact congrArg some (List.cons.inj whole).1

/-- Where a letter stands first, only reserved words are spelled, and none beyond the word there. -/
theorem reserved_of_spelled (first : Char) (behind : List Char) (letter : startsName first = true)
    (found : Match) (member : found ∈ spelled (first :: behind)) :
    ∃ entry ∈ reserved, entry.1.toList <+: (first :: behind).takeWhile continuesName ∧
      ⟨entry.2,entry.1.length⟩ = found := by
  have heads : ∀ sign ∈ signs, sign.1.toList.head?.any startsName = false := by decide
  obtain ⟨entry,listed,starts,same⟩ := (mem_spelled _ found).mp member
  rw [spellings_eq,List.mem_append] at listed
  rcases listed with sign | word
  · have nonempty := spelling_ne_nil entry (List.mem_append_left reserved sign)
    have other := heads entry sign
    rw [head?_of_isPrefix nonempty starts] at other
    exact (Bool.false_ne_true (other.symm.trans letter)).elim
  · obtain ⟨_,_,_,_,all⟩ := reserved_word entry word
    exact ⟨entry,word,isPrefix_takeWhile starts all,same⟩

/-- Where a letter stands first the word up to the first other character is taken, as what it
spells. -/
theorem ofText_word (first : Char) (behind : List Char) (letter : startsName first = true) :
    Match.ofText? (first :: behind) =
      some ⟨wordKind ((first :: behind).takeWhile continuesName),
        ((first :: behind).takeWhile continuesName).length⟩ := by
  have begins := List.takeWhile_prefix (l := first :: behind) continuesName
  have only := reserved_of_spelled first behind letter
  rw [ofText_letter first behind letter]
  generalize (first :: behind).takeWhile continuesName = word at begins only
  -- A reserved word there is among the spellings that were found.
  have present (entry : String × TokenKind) (listed : entry ∈ reserved)
      (same : entry.1.toList = word) :
      ⟨entry.2,word.length⟩ ∈ spelled (first :: behind) := by
    refine (mem_spelled _ _).mpr ⟨entry,List.mem_append_right signs listed,?_,?_⟩
    · rw [same]
      exact begins
    · rw [← same,String.length_toList]
  cases chosen : longest (spelled (first :: behind)) with
  | none =>
    have nothing := (longest_eq_none_iff _).mp chosen
    have free : ∀ entry ∈ reserved, entry.1.toList ≠ word := by
      intro entry listed same
      have member := present entry listed same
      rw [nothing] at member
      contradiction
    rw [wordKind_unreserved word free]
    rfl
  | some found =>
    obtain ⟨entry,listed,starts,rfl⟩ := only found (mem_of_longest chosen)
    by_cases shorter : entry.1.length < word.length
    · have free : ∀ other ∈ reserved, other.1.toList ≠ word := by
        intro other member same
        have least := length_le_of_longest chosen _ (present other member same)
        exact absurd shorter (Nat.not_lt.mpr least)
      rw [wordKind_unreserved word free]
      exact if_pos shorter
    · have whole : entry.1.toList = word := by
        refine starts.eq_of_length_le ?_
        rw [String.length_toList]
        exact Nat.le_of_not_lt shorter
      rw [← whole,wordKind_reserved entry listed,String.length_toList]
      exact if_neg (Nat.lt_irrefl _)

/-! ### Numbers, strings and signs -/

section
variable {text digits behind rest : List Char}

theorem starts_of_run (some : digits ≠ []) (run : LongestRun Char.isDigit text digits rest) :
    ∃ first others, text = first :: others ∧ first.isDigit = true := by
  cases digits with
  | nil => exact (some rfl).elim
  | cons first digits => exact ⟨first,digits ++ rest,run.split,run.all first List.mem_cons_self⟩

theorem takeWhile_nil_of_whole
    (whole : ∀ digit others, behind = digit :: others → digit.isDigit = false) :
    behind.takeWhile Char.isDigit = [] := by
  cases behind with
  | nil => rfl
  | cons digit others => simp [whole digit others rfl]

theorem matchNumber_integer (some : digits ≠ []) (run : LongestRun Char.isDigit text digits rest)
    (whole : ∀ digit behind, rest = '.' :: digit :: behind → digit.isDigit = false) :
    matchNumber text = .some ⟨.integer,digits.length⟩ := by
  simp only [matchNumber,run.takeWhile,run.drop]
  rw [if_neg (by simpa using some)]
  split
  next behind =>
    have none : behind.takeWhile Char.isDigit = [] :=
      takeWhile_nil_of_whole fun digit others same => whole digit others (by rw [same])
    rw [none]
    rfl
  next => rfl

theorem matchNumber_real {fraction : List Char} (some : digits ≠ []) (more : fraction ≠ [])
    (run : LongestRun Char.isDigit text digits ('.' :: behind))
    (others : LongestRun Char.isDigit behind fraction rest) :
    matchNumber text = .some ⟨.real,(digits ++ '.' :: fraction).length⟩ := by
  simp only [matchNumber,run.takeWhile,run.drop,others.takeWhile]
  rw [if_neg (by simpa using some),if_neg (by simpa using more)]
  simp only [List.length_append,List.length_cons]
  congr 2
  omega

end

theorem matchString_closed (content rest : List Char) (unquoted : '\"' ∉ content) :
    matchString ('\"' :: content ++ '\"' :: rest) =
      some ⟨.string,('\"' :: content ++ ['\"']).length⟩ := by
  simp [matchString,takeWhile_unquoted unquoted rest]

theorem matchString_unclosed (behind : List Char) (unquoted : '\"' ∉ behind) :
    matchString ('\"' :: behind) = none := by
  have inside : behind.takeWhile (· != '\"') = behind :=
    List.takeWhile_eq_self_iff.mpr (plain_of_unquoted unquoted)
  simp [matchString,inside]

/-- Where a sign stands first, no reserved word does. -/
theorem sign_of_spelled (first : Char) (behind : List Char) (other : startsName first = false)
    (found : Match) (member : found ∈ spelled (first :: behind)) :
    ∃ sign ∈ signs, sign.1.toList <+: first :: behind ∧ ⟨sign.2,sign.1.length⟩ = found := by
  obtain ⟨entry,listed,starts,same⟩ := (mem_spelled _ found).mp member
  rw [spellings_eq,List.mem_append] at listed
  rcases listed with sign | word
  · exact ⟨entry,sign,starts,same⟩
  · obtain ⟨char,others,spelled,letter,_⟩ := reserved_word entry word
    rw [spelled] at starts
    obtain ⟨rfl,_⟩ := List.cons_prefix_cons.mp starts
    exact (Bool.false_ne_true (other.symm.trans letter)).elim

theorem ofText_sign (first : Char) (behind : List Char) (spelling : String) (kind : TokenKind)
    (listed : (spelling,kind) ∈ signs) (starts : spelling.toList <+: first :: behind)
    (greatest : ∀ other ∈ signs, other.1.toList <+: first :: behind →
      other.1.length ≤ spelling.length) :
    Match.ofText? (first :: behind) = some ⟨kind,spelling.length⟩ := by
  have heads : ∀ sign ∈ signs, sign.1.toList.head?.any
      (fun char => startsName char || char.isDigit || char == '\"') = false := by decide
  have distinct : ∀ sign ∈ signs, ∀ other ∈ signs, sign.1 = other.1 → sign.2 = other.2 := by decide
  have nonempty := spelling_ne_nil _ (List.mem_append_left reserved listed)
  have other := heads _ listed
  rw [head?_of_isPrefix nonempty starts] at other
  obtain ⟨⟨unnamed,uncounted⟩,unquoted⟩ :
      (startsName first = false ∧ first.isDigit = false) ∧ first ≠ '\"' := by simpa using other
  have member : ⟨kind,spelling.length⟩ ∈ spelled (first :: behind) :=
    (mem_spelled _ _).mpr ⟨_,List.mem_append_left reserved listed,starts,rfl⟩
  rw [ofText_other first behind unnamed uncounted unquoted]
  cases chosen : longest (spelled (first :: behind)) with
  | none =>
    rw [(longest_eq_none_iff _).mp chosen] at member
    exact (List.not_mem_nil member).elim
  | some found =>
    obtain ⟨other,sign,begins,rfl⟩ := sign_of_spelled first behind unnamed _ (mem_of_longest chosen)
    have same : other.1.toList = spelling.toList := by
      refine (List.prefix_of_prefix_length_le begins starts ?_).eq_of_length_le ?_
      · rw [String.length_toList,String.length_toList]
        exact greatest other sign begins
      · rw [String.length_toList,String.length_toList]
        exact length_le_of_longest chosen _ member
    have equal : other.1 = spelling := String.toList_inj.mp same
    rw [equal,distinct other sign _ listed equal]

/-! ### Every text -/

theorem Munch.ofText {text lexeme rest : List Char} {kind : TokenKind}
    (munch : Munch text kind lexeme rest) : Match.ofText? text = some ⟨kind,lexeme.length⟩ := by
  cases munch with
  | word first behind _ _ starts letter run =>
    subst starts
    rw [ofText_word first behind letter,run.takeWhile]
  | integer _ _ some run whole =>
    obtain ⟨first,behind,rfl,digit⟩ := starts_of_run some run
    rw [ofText_digit first behind digit,matchNumber_integer some run whole]
  | real _ _ _ _ some more run others =>
    obtain ⟨first,behind,rfl,digit⟩ := starts_of_run some run
    rw [ofText_digit first behind digit,matchNumber_real some more run others]
  | string content _ unquoted split =>
    rw [split,← matchString_closed content rest unquoted]
    exact ofText_open _
  | sign spelling _ _ listed split greatest =>
    cases text with
    | nil =>
      have nonempty := spelling_ne_nil _ (List.mem_append_left reserved listed)
      exact (nonempty (List.append_eq_nil_iff.mp split.symm).1).elim
    | cons first behind =>
      rw [String.length_toList]
      exact ofText_sign first behind spelling kind listed ⟨rest,split.symm⟩ greatest

theorem Munch.split {text lexeme rest : List Char} {kind : TokenKind}
    (munch : Munch text kind lexeme rest) : text = lexeme ++ rest := by
  cases munch with
  | word _ _ _ _ _ _ run => exact run.split
  | integer _ _ _ run _ => exact run.split
  | real _ _ _ _ _ _ run others =>
    rw [run.split,others.split]
    simp
  | string _ _ _ split => simpa using split
  | sign _ _ _ _ split _ => exact split

theorem Munch.takes {text lexeme rest : List Char} {kind : TokenKind}
    (munch : Munch text kind lexeme rest) : Match.Takes ⟨kind,lexeme.length⟩ text lexeme rest := by
  obtain ⟨taken,left,takes⟩ := Match.takes_of_ofText munch.ofText
  obtain ⟨rfl,rfl⟩ := List.append_inj (munch.split.symm.trans takes.split) takes.counted
  exact takes

theorem exists_munch (text : List Char) (found : Match) (taken : Match.ofText? text = some found) :
    ∃ lexeme rest, Munch text found.kind lexeme rest ∧ lexeme.length = found.length := by
  -- A text has one match, so any rule that applies gives the kind and the length that were found.
  suffices some : ∃ kind lexeme rest, Munch text kind lexeme rest by
    obtain ⟨kind,lexeme,rest,munch⟩ := some
    have same := taken.symm.trans munch.ofText
    obtain rfl := Option.some.inj same
    exact ⟨lexeme,rest,munch,rfl⟩
  cases text with
  | nil => contradiction
  | cons first behind =>
  by_cases letter : startsName first = true
  · exact ⟨_,_,_,.word first behind _ _ rfl letter (longestRun_takeWhile _ _)⟩
  by_cases digit : first.isDigit = true
  · have run := longestRun_takeWhile Char.isDigit (first :: behind)
    have some : (first :: behind).takeWhile Char.isDigit ≠ [] := by simp [digit]
    by_cases fraction : ∃ other others,
        (first :: behind).dropWhile Char.isDigit = '.' :: other :: others ∧ other.isDigit = true
    · obtain ⟨other,others,point,more⟩ := fraction
      rw [point] at run
      have further := longestRun_takeWhile Char.isDigit (other :: others)
      exact ⟨_,_,_,.real _ _ _ _ some (by simp [more]) run further⟩
    · refine ⟨_,_,_,.integer _ _ some run fun other others point => ?_⟩
      by_contra more
      exact fraction ⟨other,others,point,by simpa using more⟩
  by_cases quote : first = '\"'
  · subst quote
    by_cases closed : '\"' ∈ behind
    · obtain ⟨content,rest,rfl,unquoted⟩ := List.eq_append_cons_of_mem closed
      exact ⟨_,_,_,.string content rest unquoted rfl⟩
    · rw [ofText_open,matchString_unclosed behind closed] at taken
      contradiction
  · have unnamed : startsName first = false := by simpa using letter
    rw [ofText_other first behind unnamed (by simpa using digit) quote] at taken
    obtain ⟨sign,listed,⟨rest,starts⟩,rfl⟩ :=
      sign_of_spelled first behind unnamed found (mem_of_longest taken)
    refine ⟨_,_,_,.sign sign.1 sign.2 rest listed starts.symm fun other member begins => ?_⟩
    exact length_le_of_longest taken _
      ((mem_spelled _ _).mpr ⟨other,List.mem_append_left reserved member,begins,rfl⟩)

end Token

/-- How reading goes on at the cursor. Behind what is skipped the text ends, or it starts with the
next token, or no rule applies there and the error says so. -/
inductive Munched : Cursor → Except ScanError (List Token) → Prop
  | ended (cursor : Cursor) (done : cursor.skip.rest = []) :
      Munched cursor (.ok [.fileEnd cursor.skip.place])
  | token (cursor : Cursor) (token : Token) (rest : List Char)
      (result : Except ScanError (List Token))
      (munch : Token.Munch cursor.skip.rest token.kind token.written rest)
      (places : token.span = ⟨cursor.skip.place,cursor.skip.place.walk token.written⟩)
      (others : Munched ⟨cursor.skip.place.walk token.written,rest⟩ result) :
      Munched cursor (result.map (token :: ·))
  | stuck (cursor : Cursor) (char : Char) (behind : List Char)
      (here : cursor.skip.rest = char :: behind)
      (nothing : ∀ kind lexeme rest, ¬Token.Munch (char :: behind) kind lexeme rest) :
      Munched cursor (.error (if char = '\"' then .unterminatedString cursor.skip.place
        else .unexpectedCharacter char cursor.skip.place))

theorem Token.eq_of_written {token other : Token} (kind : token.kind = other.kind)
    (written : token.written = other.written) (span : token.span = other.span) : token = other := by
  have lexeme : token.lexeme.toList = other.lexeme.toList := by
    unfold Token.written at written
    rw [kind] at written
    split at written
    · exact List.append_cancel_right (List.cons.inj written).2
    · exact written
  cases token
  cases other
  simp_all [String.toList_inj]

theorem tokensFrom_munch (cursor : Cursor) (token : Token) (rest : List Char)
    (munch : Token.Munch cursor.skip.rest token.kind token.written rest)
    (places : token.span = ⟨cursor.skip.place,cursor.skip.place.walk token.written⟩) :
    tokensFrom cursor =
      (tokensFrom ⟨cursor.skip.place.walk token.written,rest⟩).map (token :: ·) := by
  obtain ⟨written,kind,span,after⟩ := munch.takes.written cursor.skip.place
  have same : (cursor.skip.take ⟨token.kind,token.written.length⟩).1 = token :=
    Token.eq_of_written kind written (span.trans places.symm)
  rw [tokensFrom_token cursor munch.ofText,same]
  exact congrArg (fun next => (tokensFrom next).map (token :: ·)) after

theorem tokensFrom_munched (cursor : Cursor) : Munched cursor (tokensFrom cursor) := by
  induction cursor using reading_induction with
  | ended cursor here =>
    rw [tokensFrom_end cursor here]
    exact .ended cursor here
  | stuck cursor char behind here taken =>
    rw [tokensFrom_stuck cursor char behind here taken]
    refine .stuck cursor char behind here fun kind lexeme rest munch => ?_
    rw [here,munch.ofText] at taken
    contradiction
  | token cursor found taken ih =>
    obtain ⟨lexeme,rest,munch,counted⟩ := Token.exists_munch _ found taken
    obtain ⟨kind,length⟩ := found
    obtain rfl : lexeme.length = length := counted
    obtain ⟨written,_,span,after⟩ := munch.takes.written cursor.skip.place
    rw [tokensFrom_token cursor taken]
    refine .token cursor _ rest _ ?_ ?_ ?_
    · rw [written]
      exact munch
    · rw [written]
      exact span
    · rw [written]
      exact after ▸ ih

/-- The rule has one result at most, the one that scanning gives. -/
theorem Munched.tokensFrom_eq {cursor : Cursor} {result : Except ScanError (List Token)}
    (munched : Munched cursor result) : tokensFrom cursor = result := by
  induction munched with
  | ended cursor done => exact tokensFrom_end cursor done
  | token cursor token rest result munch places _ ih =>
    rw [tokensFrom_munch cursor token rest munch places,ih]
  | stuck cursor char behind here nothing =>
    refine tokensFrom_stuck cursor char behind here (Option.eq_none_iff_forall_ne_some.mpr ?_)
    intro found taken
    obtain ⟨lexeme,rest,munch,_⟩ := Token.exists_munch _ found taken
    rw [here] at munch
    exact nothing _ lexeme rest munch

/-- Scanning is maximal munch: it reads just the tokens that the rule gives from the start of the
text on, up to its end or to the first place where no rule applies. -/
theorem scan_munches (source : String) (result : Except ScanError (List Token)) :
    tokens source = result ↔ Munched (.ofText source) result := by
  constructor
  · rintro rfl
    exact tokensFrom_munched (.ofText source)
  · exact Munched.tokensFrom_eq

end BlockScript
