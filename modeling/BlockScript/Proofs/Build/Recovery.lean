import BlockScript.Proofs.Build.Clean

/-! Building on, whatever has gone wrong. Between two tokens nothing waits in the assembly, and as
many blocks are open as there are marks among the roots. Of all errors only those of `done` tokens
and of unclosed blocks are about blocks. -/
namespace BlockScript
open Postfix

def BuildError.ofBlock : BuildError → Bool
  | unmatchedDone | unclosedDo => true
  | _ => false

theorem error_of_map {α β : Type} (change : α → β) (result : Except BuildError α)
    (error : BuildError) (failed : result.map change = .error error) : result = .error error := by
  cases result <;> simp_all [Except.map]

namespace Declaration

theorem specifier_error (token : Token) (error : BuildError)
    (failed : specifier token = .error error) : error.ofBlock = false := by
  unfold specifier at failed
  split at failed
  · contradiction
  · obtain rfl := Except.error.inj failed
    rfl

theorem parameterError_ofBlock (expecting : Expecting) (kind : TokenKind) :
    (parameterError expecting kind).ofBlock = false := by
  unfold parameterError
  split
  · rfl
  · cases expecting <;> rfl

theorem readParameter_error (header : Header) (expecting : Expecting) (token : Token)
    (error : BuildError) (failed : readParameter header expecting token = .error error) :
    error.ofBlock = false := by
  unfold readParameter at failed
  split at failed
  · contradiction
  · contradiction
  · exact specifier_error token error (error_of_map _ _ error failed)
  · exact specifier_error token error (error_of_map _ _ error failed)
  · contradiction
  · contradiction
  · obtain rfl := Except.error.inj failed
    exact parameterError_ofBlock _ _

theorem Reader.advance_error (reader : Reader) (token : Token) (error : BuildError)
    (failed : reader.advance token = .error error) : error.ofBlock = false := by
  cases reader with
  | idle =>
    simp only [advance] at failed
    split at failed
    · exact specifier_error token error (error_of_map _ _ error failed)
    · contradiction
  | typed type =>
    simp only [advance] at failed
    split at failed
    · contradiction
    · obtain rfl := Except.error.inj failed
      rfl
  | named type called =>
    simp only [advance] at failed
    split at failed
    · contradiction
    · split at failed
      · obtain rfl := Except.error.inj failed
        rfl
      · contradiction
    · obtain rfl := Except.error.inj failed
      rfl
  | parameters header expecting => exact readParameter_error header expecting token error failed
  | skipping =>
    simp only [advance] at failed
    split at failed
    · contradiction
    · split at failed <;> contradiction

/-- What any reader says about the token. A structural token is never kept from the converter. -/
def Told (token : Token) : Except BuildError Recognition → Prop
  | .ok .declined => True
  | .ok .consumed => token.kind.isStructural = false
  | .ok (.complete declaration) => declaration.Heading ∧ token.kind.isStructural = false
  | .error error => error.ofBlock = false

theorem Reader.feed_told (reader : Reader) (token : Token) : Told token (reader.feed token).1 := by
  by_cases skips : reader = .skipping
  · subst skips
    cases kind : token.kind <;>
      simp [feed,advance,kind,TokenKind.isStructural,Told]
  · cases fed : reader.feed token with | mk said next =>
    cases said with
    | error error =>
      have advanced : reader.advance token = .error error := by
        unfold feed at fed
        split at fed <;> simp_all
      exact reader.advance_error token error advanced
    | ok recognition =>
      have tells := reader.feed_tells next token recognition skips fed
      cases recognition with
      | declined => trivial
      | consumed => exact tells.2.2.1
      | complete declaration => exact ⟨tells.2.2.1,tells.2.2.2⟩

end Declaration

namespace Postfix

theorem unwind_error (stack : List Waiting) (output : List Token) (error : BuildError)
    (failed : unwind stack output = .error error) : error = .unbalancedParenthesis := by
  induction stack generalizing output with
  | nil => contradiction
  | cons waiting stack ih =>
    cases waiting with
    | binary token | leading token => exact ih _ failed
    | parenthesis => exact (Except.error.inj failed).symm
    | call called before => exact (Except.error.inj failed).symm

namespace Converter

theorem pushComma_error (converter : Converter) (comma : Token) (error : BuildError)
    (failed : converter.pushComma comma = .error error) : error = .commaOutsideCall := by
  unfold pushComma at failed
  dsimp only at failed
  split at failed
  · contradiction
  · exact (Except.error.inj failed).symm

theorem closeIterator_error (converter : Converter) (error : BuildError)
    (failed : converter.closeIterator = .error error) : error = .inOutsideFor := by
  unfold closeIterator at failed
  dsimp only at failed
  split at failed
  · split at failed
    · contradiction
    · exact (Except.error.inj failed).symm
  · exact (Except.error.inj failed).symm

theorem closeParenthesis_error (converter : Converter) (closing : Token) (error : BuildError)
    (failed : converter.closeParenthesis closing = .error error) :
    error = .unbalancedParenthesis := by
  unfold closeParenthesis at failed
  dsimp only at failed
  split at failed
  · contradiction
  · contradiction
  · exact (Except.error.inj failed).symm

theorem finish_error (converter : Converter) (last : Token) (error : BuildError)
    (failed : converter.finish last = .error error) : error = .unbalancedParenthesis :=
  unwind_error _ _ error (error_of_map _ _ error failed)

theorem convert_error (converter : Converter) (token : Token) (error : BuildError)
    (failed : converter.convert token = .error error) : error.ofBlock = false := by
  unfold convert at failed
  split at failed
  · contradiction
  · cases kind : token.kind with
    | inWord =>
      rw [kind] at failed
      obtain rfl := closeIterator_error _ error (error_of_map _ _ error failed)
      rfl
    | comma =>
      rw [kind] at failed
      obtain rfl := pushComma_error _ token error (error_of_map _ _ error failed)
      rfl
    | closing =>
      rw [kind] at failed
      obtain rfl := closeParenthesis_error _ token error (error_of_map _ _ error failed)
      rfl
    | semicolon | fileEnd | doneWord | doWord | elseWord =>
      rw [kind] at failed
      obtain rfl := finish_error _ token error (error_of_map _ _ error failed)
      rfl
    | specifier | call | callNoArgs | statementEnd =>
      obtain rfl : BuildError.unexpected _ = error := by simpa [kind] using failed
      rfl
    | _ => simp [kind] at failed

theorem plain_skipping (skipping : Bool) : Plain { empty with skipping } := by
  constructor <;> simp [empty]

theorem tail?_eq_none_iff (token : Token) :
    tail? token = none ↔ token.kind.endsStatement = false := by
  unfold tail?
  split <;> simp_all [TokenKind.endsStatement,TokenKind.isStructural]

inductive Fed (token : Token) : Except BuildError (List Token) × Converter → Prop
  | quiet (next : Converter) (within : tail? token = none) (plain : next.Plain) :
      Fed token (.ok [],next)
  | ended (body tail : List Token) (behind : tail? token = some tail)
      (plain : ∀ other ∈ body, other.kind.delimits = false) :
      Fed token (.ok (body ++ token.retyped .statementEnd :: tail),empty)
  | failed (error : BuildError) (apart : error.ofBlock = false) :
      Fed token (.error error,{ empty with skipping := !token.kind.endsStatement })

theorem feed_fed (converter : Converter) (plain : converter.Plain) (token : Token) :
    Fed token (converter.feed token) := by
  unfold feed
  split
  next skips =>
    have within : token.kind.endsStatement = false := by simp_all
    exact .quiet converter ((tail?_eq_none_iff token).mpr within) plain
  next =>
    have plain : Plain { converter with skipping := false } :=
      ⟨plain.output,plain.stack,plain.pending⟩
    split
    next ready next converted =>
      cases Converter.converted _ token ready next plain converted with
      | kept _ within plain => exact .quiet next within plain
      | ended body tail behind plain => exact .ended body tail behind plain
    next error failed => exact .failed error (convert_error _ token error failed)

end Converter

end Postfix

namespace Assembly

def blocks (assembly : Assembly) : List Token × Nat × List Report :=
  (assembly.openBlocks,assembly.roots.countP Node.isDoMark,
    assembly.reports.filter (·.error.ofBlock))

theorem blocks_report (assembly : Assembly) (error : BuildError) (token : Token)
    (apart : error.ofBlock = false) : (assembly.report error token).blocks = assembly.blocks := by
  simp [blocks,report,apart]

theorem isDoMark_of_awaitsBody (node : Node) (awaits : node.awaitsBody = true) :
    node.isDoMark = false := by
  cases node <;> first | rfl | contradiction

theorem blocks_dropHeader (assembly : Assembly) (token : Token) :
    (assembly.dropHeader token).blocks = assembly.blocks := by
  unfold dropHeader
  split
  next root below same =>
    split
    next awaits =>
      have plain := isDoMark_of_awaitsBody root awaits
      rw [blocks_report _ _ _ rfl]
      simp [blocks,same,plain]
    next => rfl
  next => rfl

theorem blocks_promote (assembly : Assembly) (token : Token) (node : Node)
    (plain : node.isDoMark = false) : (promote token assembly node).blocks = assembly.blocks := by
  rw [← assembly.blocks_dropHeader token]
  simp [promote,plain,blocks]

theorem blocks_declare (assembly : Assembly) (declaration : Node) (token : Token)
    (plain : declaration.isDoMark = false) :
    (assembly.declare declaration token).blocks = assembly.blocks := by
  rw [← assembly.blocks_dropHeader token]
  simp [declare,plain,blocks]

theorem blocks_promoted (token : Token) (nodes : List Node) (assembly : Assembly)
    (plain : ∀ node ∈ nodes, node.isDoMark = false) :
    (nodes.foldl (promote token) assembly).blocks = assembly.blocks := by
  induction nodes generalizing assembly with
  | nil => rfl
  | cons node nodes ih =>
    obtain ⟨here,others⟩ := List.forall_mem_cons.mp plain
    exact (ih _ others).trans (assembly.blocks_promote token node here)

theorem skipping_dropHeader (assembly : Assembly) (token : Token) :
    (assembly.dropHeader token).skipping = assembly.skipping := by
  unfold dropHeader
  split
  · split <;> rfl
  · rfl

theorem skipping_promoted (token : Token) (nodes : List Node) (assembly : Assembly) :
    (nodes.foldl (promote token) assembly).skipping = assembly.skipping := by
  induction nodes generalizing assembly with
  | nil => rfl
  | cons node nodes ih =>
    refine (ih _).trans ?_
    unfold promote
    split
    · rfl
    · exact assembly.skipping_dropHeader token

theorem apply_error (assembly : Assembly) (token : Token) (error : BuildError)
    (plain : token.kind.delimits = false)
    (failed : (assembly.apply token).2 = some error) : error.ofBlock = false := by
  have one (make : Node → Node) (failed : (assembly.takeOne token make).2 = some error) :
      error.ofBlock = false := by
    unfold takeOne at failed
    repeat' split at failed
    all_goals first | contradiction | (obtain rfl := Option.some.inj failed; rfl)
  have two (make : Node → Node → Node) (failed : (assembly.takeTwo token make).2 = some error) :
      error.ofBlock = false := by
    unfold takeTwo at failed
    repeat' split at failed
    all_goals first | contradiction | (obtain rfl := Option.some.inj failed; rfl)
  cases kind : token.kind with
  | integer | real =>
    simp only [apply,kind] at failed
    split at failed
    · contradiction
    · obtain rfl := Option.some.inj failed
      rfl
  | additive | multiplicative | comparison =>
    simp only [apply,kind] at failed
    split at failed
    · exact two _ failed
    · obtain rfl := Option.some.inj failed
      rfl
  | andWord | orWord | assign | dot | comma | forWord =>
    simp only [apply,kind] at failed
    exact two _ failed
  | call | putWord | retWord | ifWord | whileWord =>
    simp only [apply,kind] at failed
    exact one _ failed
  | specifier | inWord | semicolon | opening | closing | fileEnd =>
    obtain rfl : BuildError.unexpected _ = error := by simpa [apply,kind] using failed
    rfl
  | statementEnd | doWord | doneWord | elseWord => simp [kind,TokenKind.delimits] at plain
  | _ => simp [apply,kind] at failed

theorem blocks_feed_plain (assembly : Assembly) (token : Token)
    (plain : token.kind.delimits = false) (raw : ∀ node ∈ assembly.operands, node.Raw) :
    (assembly.feed token).blocks = assembly.blocks ∧
      ∀ node ∈ (assembly.feed token).operands, node.Raw := by
  cases skips : assembly.skipping with
  | true => simpa [feed,skips,plain] using raw
  | false =>
    obtain ⟨effect,well,affects⟩ := affects_of_plain token plain
    have applied := affects assembly
    cases failed : (effect assembly.operands).2 with
    | none =>
      have fed : assembly.feed token =
          { assembly with operands := (effect assembly.operands).1 } := by
        simp [feed,skips,applied,failed,recover]
      rw [fed]
      exact ⟨rfl,well.raw _ raw⟩
    | some error =>
      have apart := assembly.apply_error token error plain (by rw [applied,failed])
      have fed : assembly.feed token =
          { assembly with operands := [], skipping := true }.report error token := by
        simp [feed,skips,applied,failed,recover,plain,report]
      rw [fed,blocks_report _ error token apart]
      exact ⟨rfl,by simp [report]⟩

theorem blocks_fed_plain (body : List Token) (plain : ∀ token ∈ body, token.kind.delimits = false)
    (assembly : Assembly) (raw : ∀ node ∈ assembly.operands, node.Raw) :
    (body.foldl feed assembly).blocks = assembly.blocks ∧
      ∀ node ∈ (body.foldl feed assembly).operands, node.Raw := by
  induction body generalizing assembly with
  | nil => exact ⟨rfl,raw⟩
  | cons token body ih =>
    obtain ⟨here,others⟩ := List.forall_mem_cons.mp plain
    obtain ⟨same,left⟩ := assembly.blocks_feed_plain token here raw
    obtain ⟨kept,last⟩ := ih others (assembly.feed token) left
    exact ⟨kept.trans same,last⟩

/-- Nothing waits in the assembly, and every mark stands for an open block. -/
structure Level (assembly : Assembly) : Prop where
  operands : assembly.operands = []
  awake : assembly.skipping = false
  counted : assembly.openBlocks.length = assembly.roots.countP Node.isDoMark

theorem level_empty : empty.Level := ⟨rfl,rfl,rfl⟩

/-- Whatever was read of a statement, its end leaves nothing behind. -/
theorem level_statementEnd (assembly : Assembly) (token : Token) (kind : token.kind = .statementEnd)
    (apart : ∀ node ∈ assembly.operands, node.isDoMark = false)
    (counted : assembly.openBlocks.length = assembly.roots.countP Node.isDoMark) :
    (assembly.feed token).Level ∧ (assembly.feed token).blocks = assembly.blocks := by
  suffices same : (assembly.feed token).operands = [] ∧ (assembly.feed token).skipping = false ∧
      (assembly.feed token).blocks = assembly.blocks by
    obtain ⟨operands,awake,same⟩ := same
    refine ⟨⟨operands,awake,?_⟩,same⟩
    simp only [blocks,Prod.mk.injEq] at same
    rw [same.1,same.2.1,counted]
  cases skips : assembly.skipping with
  | true =>
    have fed : assembly.feed token = { assembly with operands := [], skipping := false } := by
      simp [feed,skips,kind,TokenKind.delimits]
    rw [fed]
    exact ⟨rfl,rfl,rfl⟩
  | false =>
    have fed : assembly.feed token = assembly.flush token :=
      assembly.feed_awake _ token skips (by simp [apply,kind])
    rw [fed]
    refine ⟨rfl,(skipping_promoted token assembly.operands assembly).trans skips,?_⟩
    exact blocks_promoted token assembly.operands assembly apart

end Assembly

/-- What a token does to the open blocks and to what was reported about blocks. Both lists hold the
most recent element first. -/
inductive BracketStep (token : Token) :
    List Token × List Report → List Token × List Report → Prop
  | opened (openBlocks : List Token) (reports : List Report) (kind : token.kind = .doWord) :
      BracketStep token (openBlocks,reports) (token :: openBlocks,reports)
  | closed (word : Token) (openBlocks : List Token) (reports : List Report)
      (kind : token.kind = .doneWord) :
      BracketStep token (word :: openBlocks,reports) (openBlocks,reports)
  | unmatched (reports : List Report) (kind : token.kind = .doneWord) :
      BracketStep token ([],reports) ([],⟨.unmatchedDone,token⟩ :: reports)
  | apart (openBlocks : List Token) (reports : List Report)
      (plain : token.kind ≠ .doWord ∧ token.kind ≠ .doneWord) :
      BracketStep token (openBlocks,reports) (openBlocks,reports)

namespace Assembly

def brackets (assembly : Assembly) : List Token × List Report :=
  (assembly.openBlocks,assembly.reports.filter (·.error.ofBlock))

theorem brackets_of_blocks (before after : Assembly) (same : after.blocks = before.blocks) :
    after.brackets = before.brackets := by
  simp only [blocks,Prod.mk.injEq] at same
  simp only [brackets,same]

theorem attach_keeps (assembly : Assembly) (body : List Node) :
    (assembly.attach body).1.blocks = assembly.blocks ∧
      (assembly.attach body).1.operands = assembly.operands ∧
      (assembly.attach body).1.skipping = assembly.skipping ∧
      ∀ error, (assembly.attach body).2 = some error → error.ofBlock = false := by
  obtain ⟨operands,roots,openBlocks,reports,skipping⟩ := assembly
  unfold attach
  split
  all_goals refine ⟨?_,rfl,rfl,by simp [BuildError.ofBlock]⟩
  all_goals simp_all [blocks,Node.isDoMark]

theorem Level.of_blocks {before after : Assembly} (level : before.Level)
    (operands : after.operands = []) (awake : after.skipping = false)
    (same : after.blocks = before.blocks) : after.Level := by
  refine ⟨operands,awake,?_⟩
  simp only [blocks,Prod.mk.injEq] at same
  rw [same.1,same.2.1,level.counted]

theorem Level.dropHeader {assembly : Assembly} (level : assembly.Level) (token : Token) :
    (assembly.dropHeader token).Level := by
  refine level.of_blocks ?_ ((assembly.skipping_dropHeader token).trans level.awake)
    (assembly.blocks_dropHeader token)
  unfold Assembly.dropHeader
  split
  · split <;> exact level.operands
  · exact level.operands

/-- Whatever the step had to report, nothing is left of it behind a token that delimits. -/
theorem Level.recover {assembly : Assembly} (level : assembly.Level) (token : Token)
    (failed : Option BuildError) (delimits : token.kind.delimits = true)
    (apart : ∀ error, failed = some error → error.ofBlock = false) :
    (Assembly.recover token (assembly,failed)).Level ∧
      (Assembly.recover token (assembly,failed)).blocks = assembly.blocks := by
  cases failed with
  | none => exact ⟨level,rfl⟩
  | some error =>
    have same : (Assembly.recover token (assembly,some error)).blocks = assembly.blocks := by
      simp [Assembly.recover,blocks,report,apart error rfl]
    refine ⟨level.of_blocks rfl ?_ same,same⟩
    simp [Assembly.recover,report,delimits]

theorem step_done (assembly : Assembly) (level : assembly.Level) (token : Token)
    (kind : token.kind = .doneWord) :
    (assembly.feed token).Level ∧
      BracketStep token assembly.brackets (assembly.feed token).brackets := by
  have delimits : token.kind.delimits = true := by simp [kind,TokenKind.delimits]
  have fed : assembly.feed token = recover token (assembly.closeBlock token) := by
    simp [feed,level.awake,apply,kind]
  have begun := brackets_of_blocks _ _ (assembly.blocks_dropHeader token)
  have level := level.dropHeader token
  rw [fed,← begun]
  unfold closeBlock
  dsimp only
  generalize assembly.dropHeader token = dropped at level
  split
  next above cut =>
    have none : dropped.openBlocks = [] := by
      have apart : ∀ node ∈ dropped.roots, node.isDoMark = false := by
        rw [List.span_eq_takeWhile_dropWhile] at cut
        have below := (Prod.mk.inj cut).2
        simpa using below
      have counted := level.counted
      rw [List.countP_eq_zero.mpr fun node member => by simp [apart node member]] at counted
      exact List.length_eq_zero_iff.mp counted
    refine ⟨⟨rfl,by simp [recover,report,delimits],level.counted⟩,?_⟩
    simp only [brackets,recover,report,none]
    exact .unmatched _ kind
  next inner mark outer cut =>
    obtain ⟨same,apart⟩ := cut_doMark dropped.roots inner outer mark cut
    have counted : dropped.openBlocks.length = outer.countP Node.isDoMark + 1 := by
      have nothing : inner.countP Node.isDoMark = 0 := by simpa using apart
      rw [level.counted,same,List.countP_append,nothing,List.countP_cons]
      simp [Node.isDoMark]
    cases opened : dropped.openBlocks with
    | nil => simp [opened] at counted
    | cons word openBlocks =>
      have inside : Level { dropped with roots := outer, openBlocks := openBlocks } :=
        ⟨level.operands,level.awake,by simpa [opened] using counted⟩
      have attached := attach_keeps { dropped with roots := outer, openBlocks := openBlocks }
        inner.reverse
      simp only [List.drop_succ_cons,List.drop_zero]
      generalize attach { dropped with roots := outer, openBlocks := openBlocks } inner.reverse =
        outcome at attached
      obtain ⟨next,failed⟩ := outcome
      obtain ⟨blocks,operands,awake,apart⟩ := attached
      have after : next.Level :=
        inside.of_blocks (operands.trans inside.operands) (awake.trans inside.awake) blocks
      obtain ⟨recovered,kept⟩ := after.recover token failed delimits apart
      refine ⟨recovered,?_⟩
      rw [brackets_of_blocks _ _ (kept.trans blocks)]
      simp only [brackets,opened]
      exact .closed word openBlocks _ kind

/-- The tokens behind the end of a statement. -/
theorem step_tail (assembly : Assembly) (level : assembly.Level) (token : Token)
    (tail : List Token) (behind : Converter.tail? token = some tail) :
    (tail.foldl feed assembly).Level ∧
      BracketStep token assembly.brackets (tail.foldl feed assembly).brackets := by
  unfold Converter.tail? at behind
  split at behind
  next kind =>
    obtain rfl := Option.some.inj behind
    exact ⟨level,.apart _ _ (by simp [kind])⟩
  next kind =>
    obtain rfl := Option.some.inj behind
    exact ⟨level,.apart _ _ (by simp [kind])⟩
  next kind =>
    obtain rfl := Option.some.inj behind
    exact step_done assembly level token kind
  next kind =>
    obtain rfl := Option.some.inj behind
    obtain ⟨operands,roots,openBlocks,reports,skipping⟩ := assembly
    obtain ⟨rfl,rfl,counted⟩ := level
    have fed := feed_do roots openBlocks reports token (token.retyped .statementEnd) kind rfl
    simp only [resting] at fed
    simp only [List.foldl_cons,List.foldl_nil,fed]
    refine ⟨⟨rfl,rfl,?_⟩,.opened _ _ kind⟩
    simpa [List.countP_cons,Node.isDoMark] using counted
  next kind =>
    obtain rfl := Option.some.inj behind
    have first : assembly.feed token = assembly.pushOperand .elseMark :=
      feed_awake _ _ token level.awake (by simp [apply,kind])
    simp only [List.foldl_cons,List.foldl_nil]
    rw [first]
    obtain ⟨ended,same⟩ := level_statementEnd (assembly.pushOperand .elseMark)
      (token.retyped .statementEnd) rfl (by simp [pushOperand,level.operands,Node.isDoMark])
      level.counted
    refine ⟨ended,?_⟩
    rw [brackets_of_blocks _ _ same]
    exact .apart _ _ (by simp [kind])
  next => contradiction

/-- A statement and the token that ends it, whatever goes wrong with the statement. -/
theorem step_statement (assembly : Assembly) (level : assembly.Level) (token : Token)
    (body tail : List Token) (plain : ∀ other ∈ body, other.kind.delimits = false)
    (behind : Converter.tail? token = some tail) :
    ((body ++ token.retyped .statementEnd :: tail).foldl feed assembly).Level ∧
      BracketStep token assembly.brackets
        ((body ++ token.retyped .statementEnd :: tail).foldl feed assembly).brackets := by
  rw [List.foldl_append,List.foldl_cons]
  obtain ⟨same,raw⟩ := blocks_fed_plain body plain assembly (by simp [level.operands])
  have counted : (body.foldl feed assembly).openBlocks.length =
      (body.foldl feed assembly).roots.countP Node.isDoMark := by
    simp only [blocks,Prod.mk.injEq] at same
    rw [same.1,same.2.1,level.counted]
  obtain ⟨ended,kept⟩ := level_statementEnd _ (token.retyped .statementEnd) rfl
    (fun node member => (raw node member).isDoMark node) counted
  have steps := step_tail _ ended token tail behind
  rwa [brackets_of_blocks _ _ (kept.trans same)] at steps

end Assembly

namespace Builder

structure Level (builder : Builder) : Prop where
  plain : builder.converter.Plain
  level : builder.assembly.Level

theorem level_empty : empty.Level := ⟨Converter.plain_empty,Assembly.level_empty⟩

theorem Level.report {builder : Builder} (level : builder.Level) (error : BuildError)
    (token : Token) (apart : error.ofBlock = false) :
    (builder.report error token).Level ∧
      (builder.report error token).assembly.brackets = builder.assembly.brackets := by
  have same := builder.assembly.blocks_report error token apart
  exact ⟨⟨level.plain,level.level.of_blocks level.level.operands level.level.awake same⟩,
    Assembly.brackets_of_blocks _ _ same⟩

theorem tail?_of_isStructural (token : Token) (structural : token.kind.isStructural = true) :
    ∃ tail, Converter.tail? token = some tail := by
  refine Option.ne_none_iff_exists'.mp ?_
  intro none
  have within := (Converter.tail?_eq_none_iff token).mp none
  simp [TokenKind.endsStatement,structural] at within

/-- Offered again after an error, a structural token meets a converter that holds nothing. -/
theorem convertOnce_again (reader : Declaration.Reader) (assembly : Assembly) (token : Token)
    (tail : List Token) (structural : token.kind.isStructural = true)
    (behind : Converter.tail? token = some tail) :
    convertOnce ⟨reader,.empty,assembly⟩ token =
      (true,⟨reader,.empty,(token.retyped .statementEnd :: tail).foldl Assembly.feed assembly⟩) := by
  have converted : Converter.empty.convert token =
      .ok (token.retyped .statementEnd :: tail,.empty) := by
    cases kind : token.kind with
    | fileEnd | doneWord | doWord | elseWord =>
      simp only [Converter.tail?,kind,Option.some.injEq] at behind
      subst behind
      simp [Converter.convert,kind,Converter.empty,Converter.settle,Converter.finish,unwind,
        Except.map]
    | _ => simp [kind,TokenKind.isStructural] at structural
  simp only [convertOnce,Converter.empty.feed_awake .empty token _ rfl converted]

theorem apart_of_not_structural (token : Token) (within : token.kind.isStructural = false) :
    token.kind ≠ .doWord ∧ token.kind ≠ .doneWord := by
  constructor <;> intro kind <;> simp [kind,TokenKind.isStructural] at within

/-- Offering a token to the converter is a step, whatever state an error has left the converter in.
-/
theorem step_convert (builder : Builder) (level : builder.Level) (token : Token) :
    (builder.convert token).Level ∧
      BracketStep token builder.assembly.brackets (builder.convert token).assembly.brackets := by
  obtain ⟨reader,converter,assembly⟩ := builder
  obtain ⟨plain,level⟩ := level
  have fed := converter.feed_fed plain token
  generalize same : converter.feed token = said at fed
  cases fed with
  | quiet next within plain =>
    have converted : convert ⟨reader,converter,assembly⟩ token = ⟨reader,next,assembly⟩ := by
      simp [convert,convertOnce,same]
    rw [converted]
    have goesOn := (Converter.tail?_eq_none_iff token).mp within
    simp only [TokenKind.endsStatement,Bool.or_eq_false_iff] at goesOn
    exact ⟨⟨plain,level⟩,.apart _ _ (apart_of_not_structural token goesOn.2)⟩
  | ended body tail behind plain =>
    have converted : convert ⟨reader,converter,assembly⟩ token = ⟨reader,.empty,
        (body ++ token.retyped .statementEnd :: tail).foldl Assembly.feed assembly⟩ := by
      simp only [convert,convertOnce,same]
    rw [converted]
    obtain ⟨level,steps⟩ := Assembly.step_statement assembly level token body tail plain behind
    exact ⟨⟨Converter.plain_empty,level⟩,steps⟩
  | failed error apart =>
    have empty : Level ⟨reader,{ Converter.empty with skipping := !token.kind.endsStatement },
        assembly⟩ := ⟨Converter.plain_skipping _,level⟩
    obtain ⟨reported,kept⟩ := empty.report error token apart
    cases structural : token.kind.isStructural with
    | false =>
      have converted : convert ⟨reader,converter,assembly⟩ token =
          Builder.report ⟨reader,{ Converter.empty with skipping := !token.kind.endsStatement },
            assembly⟩ error token := by
        simp [convert,convertOnce,same,structural]
      rw [converted,kept]
      exact ⟨reported,.apart _ _ (apart_of_not_structural token structural)⟩
    | true =>
      obtain ⟨tail,behind⟩ := tail?_of_isStructural token structural
      have ends : (!token.kind.endsStatement) = false := by
        simp [TokenKind.endsStatement,structural]
      have converted : convert ⟨reader,converter,assembly⟩ token = ⟨reader,.empty,
          (token.retyped .statementEnd :: tail).foldl Assembly.feed
            (assembly.report error token)⟩ := by
        have again := convertOnce_again reader (assembly.report error token) token tail structural
          behind
        simp only [convert,convertOnce,same,structural,ends,Builder.report] at again ⊢
        exact congrArg Prod.snd again
      rw [converted]
      obtain ⟨level,steps⟩ := Assembly.step_statement (assembly.report error token) reported.level
        token [] tail (by simp) behind
      refine ⟨⟨Converter.plain_empty,level⟩,?_⟩
      rwa [Assembly.brackets_of_blocks _ _ (assembly.blocks_report error token apart)] at steps

/-- One token: whatever has gone wrong and whatever goes wrong now, a `do` opens a block and a
`done` closes the innermost one that is open. -/
theorem step_feed (builder : Builder) (level : builder.Level) (token : Token) :
    (builder.feed token).Level ∧
      BracketStep token builder.assembly.brackets (builder.feed token).assembly.brackets := by
  obtain ⟨reader,converter,assembly⟩ := builder
  obtain ⟨plain,level⟩ := level
  have told := reader.feed_told token
  unfold feed
  dsimp only
  generalize reader.feed token = outcome at told
  obtain ⟨said,next⟩ := outcome
  cases said with
  | error error =>
    have here : Level ⟨next,converter,assembly⟩ := ⟨plain,level⟩
    obtain ⟨reported,kept⟩ := here.report error token told
    dsimp only
    split
    · rw [← kept]
      exact step_convert _ reported token
    next within =>
      rw [kept]
      exact ⟨reported,.apart _ _ (apart_of_not_structural token (by simpa using within))⟩
  | ok recognition =>
    cases recognition with
    | declined => exact step_convert ⟨next,converter,assembly⟩ ⟨plain,level⟩ token
    | consumed => exact ⟨⟨plain,level⟩,.apart _ _ (apart_of_not_structural token told)⟩
    | complete declaration =>
      obtain ⟨heading,within⟩ := told
      have same := assembly.blocks_declare declaration token (by cases heading <;> rfl)
      have dropped := level.dropHeader token
      have declared : (assembly.declare declaration token).Level :=
        level.of_blocks dropped.operands dropped.awake same
      rw [Assembly.brackets_of_blocks _ _ same]
      exact ⟨⟨plain,declared⟩,.apart _ _ (apart_of_not_structural token within)⟩

end Builder

end BlockScript
