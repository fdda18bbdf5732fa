import BlockScript.Proofs.Grammar.Statement

/-! Headers fed to a builder that rests between two statements. With its `do` a header leaves a
root behind, and behind that the mark of the block. -/
namespace BlockScript.Grammar
open Postfix

theorem parameters_read (tokens : List Token) (parameters : List TypedName)
    (written : Parameters tokens parameters) (header : Declaration.Header) (converter : Converter)
    (assembly : Assembly) :
    tokens.foldl Builder.feed ⟨.parameters header .firstParameter,converter,assembly⟩ =
      ⟨.parameters { header with parameters := header.parameters ++ parameters } .commaOrClosing,
        converter,assembly⟩ := by
  have named (expecting : Declaration.Expecting) (header : Declaration.Header) (type : TypeName)
      (specifier : Spelled .specifier type.spelling) (name : Of .name)
      (typed : expecting = .firstParameter ∨ expecting = .parameterType) :
      [specifier.val,name.val].foldl Builder.feed
          ⟨.parameters header expecting,converter,assembly⟩ =
        ⟨.parameters (header.addParameter ⟨name.val.lexeme,type⟩) .commaOrClosing,converter,
          assembly⟩ := by
    have first := feed_reader (.parameters header expecting)
      (.parameters header (.parameterName type)) converter assembly specifier.val (by
        rcases typed with typed | typed <;>
          simp [Declaration.Reader.feed,Declaration.Reader.advance,Declaration.readParameter,typed,
            specifier.property.1,specifier_spelled type specifier,Except.map])
    have second := feed_reader (.parameters header (.parameterName type))
      (.parameters (header.addParameter ⟨name.val.lexeme,type⟩) .commaOrClosing) converter assembly
      name.val (by simp [Declaration.Reader.feed,Declaration.Reader.advance,
        Declaration.readParameter,name.property])
    simp only [List.foldl_cons,List.foldl_nil]
    rw [first,second]
  induction written with
  | one type specifier name => exact named .firstParameter header type specifier name (.inl rfl)
  | more tokens parameters comma type specifier name _ ih =>
    let read : Declaration.Header := { header with parameters := header.parameters ++ parameters }
    have between := feed_reader (.parameters read .commaOrClosing) (.parameters read .parameterType)
      converter assembly comma.val (by simp [Declaration.Reader.feed,Declaration.Reader.advance,
        Declaration.readParameter,comma.property])
    have last := named .parameterType read type specifier name (.inr rfl)
    rw [List.foldl_append,ih,List.foldl_cons,between,last]
    simp [Declaration.Header.addParameter,read]

structure Opened (make : List Node → Node) (roots before : List Node) : Prop where
  attached : ∀ body openBlocks reports, (Assembly.resting before openBlocks reports).attach body =
    (.resting (make body :: roots) openBlocks reports,none)
  plain : ∀ body, (make body).wantsBlock = false ∧ (make body).isDoMark = false

theorem fed_do (roots : List Node) (openBlocks : List Token) (reports : List Report)
    (word : Of .doWord) :
    Builder.feed (.resting roots openBlocks reports) word.val =
      .resting (.doMark :: roots) (word.val :: openBlocks) reports := by
  have converted : Converter.empty.convert word.val =
      .ok ([word.val.retyped .statementEnd,word.val,word.val.retyped .statementEnd],.empty) := by
    rw [convert_do .empty word.val word.property rfl]
    rfl
  refine (Builder.feed_ready .empty .empty _ word.val _ (by simp [word.property]) rfl
    converted).trans ?_
  simp only [List.foldl_cons,List.foldl_nil]
  rw [Assembly.feed_statementEnd_resting roots openBlocks reports _ rfl,
    Assembly.feed_do roots openBlocks reports word.val _ word.property rfl]
  rfl

theorem fed_control (leading : Token) (tokens : List Token) (node header : Node) (next : Converter)
    (emitted held : List Token) (word : Of .doWord) (roots : List Node) (openBlocks : List Token)
    (reports : List Report) (settled : Settled roots)
    (read : Read 2 tokens node [] [.leading leading] next emitted held)
    (applied : ((Assembly.resting roots openBlocks reports).pushOperand node).apply leading =
      ((Assembly.resting roots openBlocks reports).pushOperand header,none)) :
    (tokens ++ [word.val]).foldl Builder.feed
        ⟨.idle,⟨[],[.leading leading],none,false⟩,.resting roots openBlocks reports⟩ =
      .resting (.doMark :: header :: roots) (word.val :: openBlocks) reports := by
  have fed := fed_statement 2 tokens [leading] node next emitted held word.val
    [word.val,word.val.retyped .statementEnd] (.resting roots openBlocks reports) rfl read
    (by simp [word.property]) (fun settled pending => convert_do settled word.val word.property pending)
  rw [List.map_singleton] at fed
  rw [fed]
  simp only [List.cons_append,List.nil_append,List.foldl_cons,List.foldl_nil]
  rw [Assembly.feed_awake _ _ leading rfl applied,
    Assembly.feed_statementEnd header roots openBlocks reports _ rfl settled,
    Assembly.feed_do (header :: roots) openBlocks reports word.val _ word.property rfl]
  rfl

theorem fed_word (leading : Token) (roots : List Node) (openBlocks : List Token)
    (reports : List Report)
    (kind : leading.kind = .ifWord ∨ leading.kind = .whileWord ∨ leading.kind = .forWord) :
    Builder.feed (.resting roots openBlocks reports) leading =
      ⟨.idle,⟨[],[.leading leading],none,false⟩,.resting roots openBlocks reports⟩ := by
  refine Builder.feed_quiet .empty _ _ leading ?_ rfl ?_
  · rcases kind with kind | kind | kind <;> simp [kind]
  · rcases kind with kind | kind | kind <;>
      simp [Converter.convert,kind,Converter.empty,Converter.settle,Converter.push]

theorem fed_condition (leading : Token) (tokens : List Token) (condition header : Node)
    (word : Of .doWord) (roots : List Node) (openBlocks : List Token) (reports : List Report)
    (settled : Settled roots) (written : Expression 2 tokens condition)
    (kind : leading.kind = .ifWord ∧ header = .ifThen condition none none ∨
      leading.kind = .whileWord ∧ header = .whileDo condition none) :
    (leading :: tokens ++ [word.val]).foldl Builder.feed (.resting roots openBlocks reports) =
      .resting (.doMark :: header :: roots) (word.val :: openBlocks) reports := by
  obtain ⟨next,emitted,held,read⟩ := read_expression 2 tokens condition written []
    [.leading leading] (Opens.leading 2 leading [] (by omega))
  have plain := (expression_plain 2 tokens condition written).2
  rw [List.cons_append,List.foldl_cons,fed_word leading roots openBlocks reports (by tauto)]
  refine fed_control leading tokens condition header next emitted held word roots openBlocks reports
    settled read ?_
  rcases kind with ⟨kind,rfl⟩ | ⟨kind,rfl⟩ <;>
    simp [Assembly.apply,kind,Assembly.takeOne,Assembly.pushOperand,plain]

theorem opened_condition (condition : Node) (roots : List Node) :
    Opened (fun body => .ifThen condition (some body) none) roots
      (.ifThen condition none none :: roots) :=
  ⟨fun _ _ _ => rfl,fun _ => ⟨rfl,rfl⟩⟩

theorem fed_iteration (leading : Of .forWord) (before : List Token) (iterator : String)
    (inWord : Of .inWord) (tokens : List Token) (collection : Node) (word : Of .doWord)
    (roots : List Node) (openBlocks : List Token) (reports : List Report)
    (settled : Settled roots) (named : Expression 2 before (.name iterator))
    (written : Expression 2 tokens collection) :
    (leading.val :: before ++ inWord.val :: tokens ++ [word.val]).foldl Builder.feed
        (.resting roots openBlocks reports) =
      .resting (.doMark :: .forIn (.name iterator) collection none :: roots)
        (word.val :: openBlocks) reports := by
  obtain ⟨middle,emitted,held,first⟩ := read_expression 2 before _ named [] [.leading leading.val]
    (Opens.leading 2 leading.val [] (by omega))
  obtain ⟨next,emittedRight,heldRight,second⟩ := read_expression 2 tokens collection written
    (held.reverse ++ (emitted ++ [])) [.leading leading.val]
    (Opens.leading 2 leading.val [] (by omega))
  have plain := (expression_plain 2 tokens collection written).2
  have between : Quiet [inWord.val] middle
      ⟨held.reverse ++ (emitted ++ []),[.leading leading.val],none,false⟩ := by
    refine Quiet.settled inWord.val middle _ _ (by simp [inWord.property]) first.settled rfl ?_
    simp only [Converter.convert,inWord.property,Converter.settle,Converter.closeIterator]
    rw [releaseBinaries_held emitted [] held [.leading leading.val] (by simp)]
    simp [leading.property,Except.map]
  have quiet : Quiet (before ++ inWord.val :: tokens) ⟨[],[.leading leading.val],none,false⟩ next :=
    Quiet.append before _ _ _ _ first.quiet (Quiet.append [inWord.val] tokens _ _ _ between
      second.quiet)
  have postfixed (assembly : Assembly) (awake : assembly.skipping = false) :
      (emitted.reverse ++ held ++ (emittedRight.reverse ++ heldRight)).foldl Assembly.feed assembly =
        (assembly.pushOperand (.name iterator)).pushOperand collection := by
    rw [List.foldl_append,first.made.assembled assembly awake,
      second.made.assembled (assembly.pushOperand (.name iterator)) awake]
  have applied : (((Assembly.resting roots openBlocks reports).pushOperand (.name iterator)).pushOperand
      collection).apply leading.val =
        ((Assembly.resting roots openBlocks reports).pushOperand
          (.forIn (.name iterator) collection none),none) := by
    have name : (Node.name iterator).isDoMark = false := rfl
    simp [Assembly.apply,leading.property,Assembly.takeTwo,Assembly.pushOperand,plain,name]
  have pending := next.settle_pending
  have skipping : next.skipping = false := by
    have same := congrArg Converter.skipping second.settled
    rwa [next.settle_skipping] at same
  have converted : next.convert word.val =
      .ok ((emitted.reverse ++ held ++ (emittedRight.reverse ++ heldRight)) ++
        [leading.val,word.val.retyped .statementEnd,word.val,word.val.retyped .statementEnd],
        .empty) := by
    have finished := finish_read 2 tokens collection _ [leading.val] next emittedRight heldRight
      word.val second
    rw [next.convert_settle word.val (by simp [word.property]),
      convert_do next.settle word.val word.property pending,finished]
    simp [Except.map]
  rw [List.cons_append,List.cons_append,List.foldl_cons,
    fed_word leading.val roots openBlocks reports (.inr (.inr leading.property)),
    List.foldl_append,quiet]
  simp only [List.foldl_cons,List.foldl_nil]
  rw [Builder.feed_ready next .empty _ word.val _ (by simp [word.property]) skipping converted,
    List.foldl_append,postfixed _ rfl]
  simp only [List.foldl_cons,List.foldl_nil]
  rw [Assembly.feed_awake _ _ leading.val rfl applied,
    Assembly.feed_statementEnd _ roots openBlocks reports _ rfl settled,
    Assembly.feed_do _ openBlocks reports word.val _ word.property rfl]
  rfl

theorem functionHeader_read (type : TypeName) (specifier : Spelled .specifier type.spelling)
    (name : Of .name) (opening : Of .opening) (returns : type ≠ .systemHandler)
    (converter : Converter) (assembly : Assembly) :
    [specifier.val,name.val,opening.val].foldl Builder.feed ⟨.idle,converter,assembly⟩ =
      ⟨.parameters ⟨name.val.lexeme,type,[]⟩ .firstParameter,converter,assembly⟩ := by
  have begun := fed_typed type specifier name converter assembly
  have last := feed_reader (.named type name.val.lexeme)
    (.parameters ⟨name.val.lexeme,type,[]⟩ .firstParameter) converter assembly opening.val
    (by simp [Declaration.Reader.feed,Declaration.Reader.advance,opening.property,returns])
  simp only [List.foldl_cons,List.foldl_nil] at begun ⊢
  rw [begun,last]

theorem opened_function (called : String) (type : TypeName) (parameters : List TypedName)
    (roots : List Node) :
    Opened (fun body => .function called type parameters [.block body]) roots
      (.function called type parameters [] :: roots) :=
  ⟨fun _ _ _ => rfl,fun _ => ⟨rfl,rfl⟩⟩

theorem closing_read (header : Declaration.Header) (expecting : Declaration.Expecting)
    (closing : Of .closing)
    (closes : expecting = .firstParameter ∨ expecting = .commaOrClosing) :
    (Declaration.Reader.parameters header expecting).feed closing.val =
      (.ok (.complete header.toNode),.idle) := by
  rcases closes with closes | closes <;>
    simp [Declaration.Reader.feed,Declaration.Reader.advance,Declaration.readParameter,closes,
      closing.property]

theorem fed_function (type : TypeName) (specifier : Spelled .specifier type.spelling)
    (name : Of .name) (opening : Of .opening) (tokens : List Token) (parameters : List TypedName)
    (closing : Of .closing) (returns : type ≠ .systemHandler)
    (written : tokens = [] ∧ parameters = [] ∨ Parameters tokens parameters) (word : Of .doWord)
    (roots : List Node) (openBlocks : List Token) (reports : List Report)
    (settled : Settled roots) :
    (specifier.val :: name.val :: opening.val :: tokens ++ [closing.val] ++ [word.val]).foldl
        Builder.feed (.resting roots openBlocks reports) =
      .resting (.doMark :: .function name.val.lexeme type parameters [] :: roots)
        (word.val :: openBlocks) reports := by
  have begun := functionHeader_read type specifier name opening returns .empty
    (.resting roots openBlocks reports)
  have listed : ∃ expecting, (expecting = .firstParameter ∨ expecting = .commaOrClosing) ∧
      tokens.foldl Builder.feed ⟨.parameters ⟨name.val.lexeme,type,[]⟩ .firstParameter,.empty,
        .resting roots openBlocks reports⟩ =
      ⟨.parameters ⟨name.val.lexeme,type,parameters⟩ expecting,.empty,
        .resting roots openBlocks reports⟩ := by
    rcases written with ⟨rfl,rfl⟩ | written
    · exact ⟨.firstParameter,.inl rfl,rfl⟩
    · refine ⟨.commaOrClosing,.inr rfl,?_⟩
      exact parameters_read tokens parameters written ⟨name.val.lexeme,type,[]⟩ .empty _
  obtain ⟨expecting,closes,listed⟩ := listed
  have complete := feed_complete _ .idle .empty _ roots openBlocks reports closing.val
    (closing_read ⟨name.val.lexeme,type,parameters⟩ expecting closing closes) settled
  have shape : specifier.val :: name.val :: opening.val :: tokens ++ [closing.val] ++ [word.val] =
      [specifier.val,name.val,opening.val] ++ (tokens ++ [closing.val,word.val]) := by simp
  rw [shape,List.foldl_append]
  refine (congrArg (List.foldl Builder.feed · _) begun).trans ?_
  rw [List.foldl_append,listed]
  simp only [List.foldl_cons,List.foldl_nil]
  rw [complete]
  exact fed_do (.function name.val.lexeme type parameters [] :: roots) openBlocks reports word

/-- Wherever a statement may begin, a header up to its `do` opens a block. -/
theorem fed_header (head : List Token) (make : List Node → Node) (header : Header head make)
    (word : Of .doWord) (roots : List Node) (openBlocks : List Token) (reports : List Report)
    (settled : Settled roots) :
    ∃ before, (head ++ [word.val]).foldl Builder.feed (.resting roots openBlocks reports) =
        .resting (.doMark :: before) (word.val :: openBlocks) reports ∧
      Opened make roots before := by
  cases header with
  | standalone =>
    refine ⟨roots,fed_do roots openBlocks reports word,?_,fun _ => ⟨rfl,rfl⟩⟩
    intro body openBlocks reports
    exact Assembly.attach_of_settled (.resting roots openBlocks reports) body settled
  | ifThen leading tokens condition written =>
    exact ⟨_,fed_condition leading.val tokens condition _ word roots openBlocks reports settled
      written (.inl ⟨leading.property,rfl⟩),opened_condition condition roots⟩
  | whileDo leading tokens condition written =>
    exact ⟨_,fed_condition leading.val tokens condition _ word roots openBlocks reports settled
      written (.inr ⟨leading.property,rfl⟩),fun _ _ _ => rfl,fun _ => ⟨rfl,rfl⟩⟩
  | forIn leading before iterator inWord tokens collection named written =>
    exact ⟨_,fed_iteration leading before iterator inWord tokens collection word roots openBlocks
      reports settled named written,fun _ _ _ => rfl,fun _ => ⟨rfl,rfl⟩⟩
  | functionNoParameters type specifier name opening closing returns =>
    exact ⟨_,fed_function type specifier name opening [] [] closing returns (.inl ⟨rfl,rfl⟩) word
      roots openBlocks reports settled,opened_function _ _ _ roots⟩
  | function type specifier name opening tokens parameters closing returns written =>
    exact ⟨_,fed_function type specifier name opening tokens parameters closing returns
      (.inr written) word roots openBlocks reports settled,opened_function _ _ _ roots⟩

end BlockScript.Grammar
