import BlockScript.Proofs.Build.Resting
import BlockScript.Proofs.Grammar.Reading

/-! Statements fed to a builder that rests between two statements. A simple statement becomes one
root; the header of a block becomes a root that the block completes. -/
namespace BlockScript.Grammar
open Postfix

theorem expression_plain (level : Nat) (tokens : List Token) (node : Node)
    (written : Expression level tokens node) :
    node.wantsBlock = false ∧ node.isDoMark = false := by
  induction written with
  | joined level joiner => cases joiner <;> exact ⟨rfl,rfl⟩
  | parentheses _ _ _ _ _ _ inner => exact inner
  | _ => exact ⟨rfl,rfl⟩

theorem unwind_leading (words output : List Token) :
    unwind (words.map .leading) output = .ok (words.reverse ++ output) := by
  induction words generalizing output with
  | nil => rfl
  | cons word rest ih =>
    simp only [List.map_cons,unwind]
    rw [ih (word :: output)]
    simp

theorem finish_read (level : Nat) (tokens : List Token) (node : Node) (output words : List Token)
    (next : Converter) (emitted held : List Token) (last : Token)
    (read : Read level tokens node output (words.map .leading) next emitted held) :
    next.settle.finish last =
      .ok (output.reverse ++ (emitted.reverse ++ held) ++ words ++ [last.retyped .statementEnd]) := by
  rw [read.settled]
  simp [Converter.finish,unwind_held,unwind_leading,Except.map]

/-- A statement of an expression and at most one leading word, up to the token that ends it. -/
theorem fed_statement (level : Nat) (tokens words : List Token) (node : Node) (next : Converter)
    (emitted held : List Token) (stop : Token) (tail : List Token) (assembly : Assembly)
    (awake : assembly.skipping = false)
    (read : Read level tokens node [] (words.map .leading) next emitted held)
    (plain : stop.kind ≠ .specifier ∧ stop.kind ≠ .opening)
    (ends : ∀ settled : Converter, settled.pending = none → settled.convert stop =
      (settled.finish stop).map fun ready => (ready ++ tail,Converter.empty)) :
    (tokens ++ [stop]).foldl Builder.feed ⟨.idle,⟨[],words.map .leading,none,false⟩,assembly⟩ =
      ⟨.idle,.empty,(words ++ [stop.retyped .statementEnd] ++ tail).foldl Assembly.feed
        (assembly.pushOperand node)⟩ := by
  have settled := next.settle_pending
  have skipping : next.skipping = false := by
    have same := congrArg Converter.skipping read.settled
    rwa [next.settle_skipping] at same
  have converted : next.convert stop =
      .ok ((emitted.reverse ++ held) ++ (words ++ [stop.retyped .statementEnd] ++ tail),
        .empty) := by
    rw [next.convert_settle stop plain.2,ends next.settle settled,
      finish_read level tokens node [] words next emitted held stop read]
    simp [Except.map]
  rw [List.foldl_append,read.quiet assembly]
  simp only [List.foldl_cons,List.foldl_nil]
  rw [Builder.feed_ready next .empty assembly stop _ plain.1 skipping converted,
    List.foldl_append,read.made.assembled assembly awake]

theorem convert_semicolon (converter : Converter) (stop : Token) (kind : stop.kind = .semicolon)
    (settled : converter.pending = none) :
    converter.convert stop =
      (converter.finish stop).map fun ready => (ready ++ [],Converter.empty) := by
  simp [Converter.convert,settled,kind,Converter.settle]

theorem convert_do (converter : Converter) (word : Token) (kind : word.kind = .doWord)
    (settled : converter.pending = none) :
    converter.convert word = (converter.finish word).map fun ready =>
      (ready ++ [word,word.retyped .statementEnd],Converter.empty) := by
  simp [Converter.convert,settled,kind,Converter.settle]

theorem fed_leading (word : Token) (tokens : List Token) (node made : Node) (stop : Of .semicolon)
    (kind : word.kind = .putWord ∨ word.kind = .retWord) (written : Expression 2 tokens node)
    (applied : ∀ assembly : Assembly,
      (assembly.pushOperand node).apply word = (assembly.pushOperand made,none))
    (roots : List Node) (openBlocks : List Token) (reports : List Report)
    (settled : Settled roots) :
    (word :: tokens ++ [stop.val]).foldl Builder.feed (.resting roots openBlocks reports) =
      .resting (made :: roots) openBlocks reports := by
  obtain ⟨next,emitted,held,read⟩ := read_expression 2 tokens node written [] [.leading word]
    (Opens.leading 2 word [] (by omega))
  have first : Builder.feed (.resting roots openBlocks reports) word =
      ⟨.idle,⟨[],[.leading word],none,false⟩,.resting roots openBlocks reports⟩ := by
    refine Builder.feed_quiet .empty _ _ word ?_ rfl ?_
    · rcases kind with kind | kind <;> simp [kind]
    · rcases kind with kind | kind <;>
        simp [Converter.convert,kind,Converter.empty,Converter.settle,Converter.push]
  rw [List.cons_append,List.foldl_cons,first]
  have fed := fed_statement 2 tokens [word] node next emitted held stop.val []
    (.resting roots openBlocks reports) rfl read (by simp [stop.property])
    (fun settled pending => convert_semicolon settled stop.val stop.property pending)
  rw [List.map_singleton] at fed
  rw [fed]
  simp only [List.cons_append,List.nil_append,List.append_nil,List.foldl_cons,List.foldl_nil]
  rw [Assembly.feed_awake ((Assembly.resting roots openBlocks reports).pushOperand node) _ word rfl
    (applied _)]
  rw [Assembly.feed_statementEnd made roots openBlocks reports _ rfl settled]
  rfl

theorem feed_reader (reader next : Declaration.Reader) (converter : Converter)
    (assembly : Assembly) (token : Token) (read : reader.feed token = (.ok .consumed,next)) :
    Builder.feed ⟨reader,converter,assembly⟩ token = ⟨next,converter,assembly⟩ := by
  simp [Builder.feed,read]

theorem feed_complete (reader next : Declaration.Reader) (converter : Converter)
    (declaration : Node) (roots : List Node) (openBlocks : List Token) (reports : List Report)
    (token : Token) (read : reader.feed token = (.ok (.complete declaration),next))
    (settled : Settled roots) :
    Builder.feed ⟨reader,converter,.resting roots openBlocks reports⟩ token =
      ⟨next,converter,.resting (declaration :: roots) openBlocks reports⟩ := by
  simp only [Builder.feed,read,Assembly.declare]
  rw [Assembly.dropHeader_of_settled _ token settled]
  rfl

theorem specifier_spelled (type : TypeName) (token : Spelled .specifier type.spelling) :
    Declaration.specifier token.val = .ok type := by
  simp [Declaration.specifier,token.property.2,TypeName.ofSpelling?_spelling]

theorem fed_typed (type : TypeName) (specifier : Spelled .specifier type.spelling)
    (name : Of .name) (converter : Converter) (assembly : Assembly) :
    [specifier.val,name.val].foldl Builder.feed ⟨.idle,converter,assembly⟩ =
      ⟨.named type name.val.lexeme,converter,assembly⟩ := by
  have first := feed_reader .idle (.typed type) converter assembly specifier.val (by
    simp [Declaration.Reader.feed,Declaration.Reader.advance,specifier.property.1,
      specifier_spelled type specifier,Except.map])
  have second := feed_reader (.typed type) (.named type name.val.lexeme) converter assembly name.val
    (by simp [Declaration.Reader.feed,Declaration.Reader.advance,name.property])
  simp only [List.foldl_cons,List.foldl_nil]
  rw [first,second]

theorem fed_declaration (type : TypeName) (specifier : Spelled .specifier type.spelling)
    (name : Of .name) (stop : Of .semicolon) (roots : List Node) (openBlocks : List Token)
    (reports : List Report) (settled : Settled roots) :
    [specifier.val,name.val,stop.val].foldl Builder.feed (.resting roots openBlocks reports) =
      .resting (Declaration.simple type name.val.lexeme :: roots) openBlocks reports := by
  have last := feed_complete (.named type name.val.lexeme) .idle .empty
    (Declaration.simple type name.val.lexeme) roots openBlocks reports stop.val
    (by simp [Declaration.Reader.feed,Declaration.Reader.advance,stop.property]) settled
  have begun := fed_typed type specifier name .empty (.resting roots openBlocks reports)
  simp only [List.foldl_cons,List.foldl_nil,Builder.resting] at begun last ⊢
  rw [begun,last]

/-- Wherever a statement may begin, a simple one is added to the roots. -/
theorem fed_simple (tokens : List Token) (statement : Node) (written : Simple tokens statement)
    (roots : List Node) (openBlocks : List Token) (reports : List Report)
    (settled : Settled roots) :
    tokens.foldl Builder.feed (.resting roots openBlocks reports) =
      .resting (statement :: roots) openBlocks reports := by
  cases written with
  | declared type specifier name stop holds =>
    rw [fed_declaration type specifier name stop roots openBlocks reports settled]
    simp [Declaration.simple,holds]
  | handler specifier name stop =>
    rw [fed_declaration .systemHandler specifier name stop roots openBlocks reports settled]
    simp [Declaration.simple]
  | expression tokens node stop written =>
    obtain ⟨next,emitted,held,read⟩ := read_expression 2 tokens statement written [] []
      (Opens.nil 2 (by omega))
    have fed := fed_statement 2 tokens [] statement next emitted held stop.val []
      (.resting roots openBlocks reports) rfl read (by simp [stop.property])
      (fun settled pending => convert_semicolon settled stop.val stop.property pending)
    simp only [List.map_nil,List.nil_append,List.append_nil,List.foldl_cons,List.foldl_nil] at fed
    refine fed.trans ?_
    rw [Assembly.feed_statementEnd statement roots openBlocks reports _ rfl settled]
    rfl
  | put word tokens node stop written =>
    refine fed_leading word.val tokens node _ stop (.inl word.property) written ?_ roots openBlocks
      reports settled
    intro assembly
    have plain := (expression_plain 2 tokens node written).2
    simp [Assembly.apply,word.property,Assembly.takeOne,Assembly.pushOperand,plain]
  | ret word tokens node stop written =>
    refine fed_leading word.val tokens node _ stop (.inr word.property) written ?_ roots openBlocks
      reports settled
    intro assembly
    have plain := (expression_plain 2 tokens node written).2
    simp [Assembly.apply,word.property,Assembly.takeOne,Assembly.pushOperand,plain]

theorem simple_plain (tokens : List Token) (statement : Node) (written : Simple tokens statement) :
    statement.wantsBlock = false ∧ statement.isDoMark = false := by
  cases written with
  | expression tokens node stop written => exact expression_plain 2 _ _ written
  | _ => exact ⟨rfl,rfl⟩

end BlockScript.Grammar
