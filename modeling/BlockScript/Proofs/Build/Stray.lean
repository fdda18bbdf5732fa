import BlockScript.Proofs.Build.Conserved
import BlockScript.Proofs.Grammar.RoundTrip

/-! A statement of any tokens at all that open no block, close none and declare nothing. It is built
whole or discarded whole, with one report, and where it stands makes no difference. -/
namespace BlockScript
open Postfix

/-- The kinds that neither end a statement nor lead to a block nor begin a declaration. -/
def TokenKind.isInner : TokenKind → Bool
  | semicolon | doWord | doneWord | elseWord | fileEnd | specifier | ifWord | whileWord
  | forWord => false
  | _ => true

theorem Token.tail?_of_isInner (token : Token) (inner : token.kind.isInner = true) :
    Converter.tail? token = none := by
  cases kind : token.kind <;> simp_all [Converter.tail?,TokenKind.isInner]

theorem Token.plain_of_isInner (token : Token) (inner : token.kind.isInner = true) :
    token.kind ≠ .specifier ∧ token.kind.isStructural = false ∧
      token.kind.endsStatement = false := by
  cases kind : token.kind <;>
    simp_all [TokenKind.isInner,TokenKind.isStructural,TokenKind.endsStatement]

theorem Builder.feed_skipped (assembly : Assembly) (token : Token)
    (inner : token.kind.isInner = true) :
    feed ⟨.idle,{ Converter.empty with skipping := true },assembly⟩ token =
      ⟨.idle,{ Converter.empty with skipping := true },assembly⟩ := by
  obtain ⟨plain,_,goesOn⟩ := token.plain_of_isInner inner
  simp [feed,Declaration.Reader.feed_idle token plain,convert,convertOnce,Converter.feed,goesOn]

inductive Postfix.Held (tokens : List Token) : Converter → List Report → Prop
  | reading (next : Converter) (plain : next.Plain) (awake : next.skipping = false)
      (named : next.Named) (pieces : next.trace = tokensTrace tokens) : Held tokens next []
  | skipping (report : Report) : Held tokens { Converter.empty with skipping := true } [report]

theorem held_inner (tokens : List Token) (inner : ∀ token ∈ tokens, token.kind.isInner = true) :
    ∃ next errors, Held tokens next errors ∧
      ∀ roots openBlocks reports, tokens.foldl Builder.feed (.resting roots openBlocks reports) =
        ⟨.idle,next,.resting roots openBlocks (errors ++ reports)⟩ := by
  induction tokens using List.reverseRecOn with
  | nil =>
    refine ⟨.empty,[],.reading .empty Converter.plain_empty rfl Converter.named_empty ?_,
      fun _ _ _ => rfl⟩
    rw [Converter.trace_empty,tokensTrace_nil]
  | append_singleton tokens token ih =>
    have here : token.kind.isInner = true := inner token (by simp)
    obtain ⟨next,errors,held,fed⟩ := ih fun other member => inner other (by simp [member])
    simp only [List.foldl_append,fed,List.foldl_cons,List.foldl_nil]
    obtain ⟨specifier,within,goesOn⟩ := token.plain_of_isInner here
    cases held with
    | skipping report =>
      exact ⟨_,[report],.skipping report,fun _ _ _ => Builder.feed_skipped _ token here⟩
    | reading _ plain awake named pieces =>
      cases ran : next.convert token with
      | error error =>
        refine ⟨_,[⟨error,token⟩],.skipping ⟨error,token⟩,fun roots openBlocks reports => ?_⟩
        rw [Builder.feed_refused next _ token error specifier within awake ran,goesOn]
        rfl
      | ok result =>
        obtain ⟨ready,after⟩ := result
        obtain ⟨stays,same⟩ := next.convert_trace after token ready named ran
        cases next.converted token ready after plain ran with
        | ended _ _ behind => simp [token.tail?_of_isInner here] at behind
        | kept _ _ plain skips =>
          refine ⟨after,[],.reading after plain (skips.trans awake) stays ?_,fun _ _ _ =>
            Builder.feed_quiet next after _ token specifier awake ran⟩
          rw [tokensTrace_nil,zero_add] at same
          rw [same,pieces,tokensTrace_append,tokensTrace_cons,tokensTrace_nil,add_zero]

/-- The semicolon hands on all that was read, or nothing. -/
theorem fed_semicolon (tokens : List Token) (inner : ∀ token ∈ tokens, token.kind.isInner = true)
    (stop : Grammar.Of .semicolon) :
    ∃ body errors, (∀ other ∈ body, other.kind.delimits = false) ∧
      (errors = [] ∧ tokensTrace body = tokensTrace tokens ∨ errors.length = 1 ∧ body = []) ∧
      ∀ roots openBlocks reports,
        (tokens ++ [stop.val]).foldl Builder.feed (.resting roots openBlocks reports) =
          ⟨.idle,.empty,(body ++ [stop.val.retyped .statementEnd]).foldl Assembly.feed
            (.resting roots openBlocks (errors ++ reports))⟩ := by
  have plain : stop.val.kind ≠ .specifier := by simp [stop.property]
  -- Where the statement was refused, nothing is left that its end could find.
  have blank (roots : List Node) (openBlocks : List Token) (reports : List Report) :
      Builder.resting roots openBlocks reports = ⟨.idle,.empty,
        ([] ++ [stop.val.retyped .statementEnd]).foldl Assembly.feed
          (.resting roots openBlocks reports)⟩ := by
    simp only [List.nil_append,List.foldl_cons,List.foldl_nil]
    rw [Assembly.feed_statementEnd_resting roots openBlocks reports _ rfl]
    rfl
  obtain ⟨next,errors,held,fed⟩ := held_inner tokens inner
  simp only [List.foldl_append,fed]
  cases held with
  | skipping report =>
    refine ⟨[],[report],by simp,.inr ⟨rfl,rfl⟩,fun roots openBlocks reports => ?_⟩
    refine Eq.trans ?_ (blank roots openBlocks _)
    exact Builder.feed_stop true roots openBlocks _ stop.val (.inl stop.property)
  | reading _ held awake named pieces =>
    cases ran : next.convert stop.val with
    | error error =>
      refine ⟨[],[⟨error,stop.val⟩],by simp,.inr ⟨rfl,rfl⟩,fun roots openBlocks reports => ?_⟩
      refine Eq.trans ?_ (blank roots openBlocks _)
      have within : stop.val.kind.isStructural = false := by
        simp [stop.property,TokenKind.isStructural]
      have ends : stop.val.kind.endsStatement = true := by
        simp [stop.property,TokenKind.endsStatement]
      have refused := Builder.feed_refused next (.resting roots openBlocks reports) stop.val error
        plain within awake ran
      rw [ends] at refused
      exact refused
    | ok result =>
      obtain ⟨ready,after⟩ := result
      obtain ⟨_,same⟩ := next.convert_trace after stop.val ready named ran
      cases next.converted stop.val ready after held ran with
      | kept _ within => simp [Converter.tail?,stop.property] at within
      | ended body tail behind plainBody =>
        obtain rfl : tail = [] := by simpa [Converter.tail?,stop.property] using behind.symm
        refine ⟨body,[],plainBody,.inl ⟨rfl,?_⟩,fun roots openBlocks reports => ?_⟩
        · rw [tokensTrace_append,tokensTrace_cons,tokensTrace_nil,Converter.trace_empty,pieces,
            Token.trace_eq_zero (stop.val.retyped .statementEnd) rfl,
            stop.val.trace_eq_zero (by simp [stop.property,TokenKind.hasPiece])] at same
          simpa using same
        · rw [← List.foldl_append]
          exact Builder.feed_ready next .empty _ stop.val _ plain awake ran

namespace Assembly

/-- What stands within a statement only makes operands, or one report and then nothing. -/
theorem fed_body (body : List Token) (plain : ∀ token ∈ body, token.kind.delimits = false) :
    ∃ left errors, (∀ node ∈ left, node.Raw) ∧
      (errors = [] ∨ errors.length = 1 ∧ left = []) ∧
      ∀ roots openBlocks reports, body.foldl feed (resting roots openBlocks reports) =
        ⟨left,roots,openBlocks,errors ++ reports,!errors.isEmpty⟩ := by
  induction body using List.reverseRecOn with
  | nil => exact ⟨[],[],by simp,.inl rfl,fun _ _ _ => rfl⟩
  | append_singleton body token ih =>
    have here : token.kind.delimits = false := plain token (by simp)
    obtain ⟨left,errors,raw,shape,fed⟩ := ih fun other member => plain other (by simp [member])
    simp only [List.foldl_append,fed,List.foldl_cons,List.foldl_nil]
    rcases shape with rfl | ⟨single,rfl⟩
    · obtain ⟨effect,well,affects⟩ := affects_of_plain token here
      cases failed : (effect left).2 with
      | none =>
        refine ⟨(effect left).1,[],well.raw left raw,.inl rfl,fun roots openBlocks reports => ?_⟩
        simp [feed,affects ⟨left,roots,openBlocks,reports,false⟩,failed,recover]
      | some error =>
        refine ⟨[],[⟨error,token⟩],by simp,.inr ⟨rfl,rfl⟩,fun roots openBlocks reports => ?_⟩
        simp [feed,affects ⟨left,roots,openBlocks,reports,false⟩,failed,recover,here,report]
    -- Behind an error the rest of the statement is skipped, so it reports nothing more.
    · refine ⟨[],errors,by simp,.inr ⟨single,rfl⟩,fun roots openBlocks reports => ?_⟩
      have skips : (!errors.isEmpty) = true := by
        cases errors <;> simp_all
      simp [feed,skips,here]

theorem feed_statementEnd_settled (left roots : List Node) (openBlocks : List Token)
    (reports : List Report) (token : Token) (kind : token.kind = .statementEnd)
    (whole : ∀ node ∈ left, node.wantsBlock = false) (settled : Settled roots) :
    feed ⟨left,roots,openBlocks,reports,false⟩ token =
      resting (left.reverse ++ roots) openBlocks reports := by
  have promoted (nodes operands roots : List Node) (whole : ∀ node ∈ nodes, node.wantsBlock = false)
      (settled : Settled roots) :
      nodes.foldl (promote token) ⟨operands,roots,openBlocks,reports,false⟩ =
        ⟨operands,nodes.reverse ++ roots,openBlocks,reports,false⟩ := by
    induction nodes generalizing roots with
    | nil => rfl
    | cons node nodes ih =>
      obtain ⟨here,others⟩ := List.forall_mem_cons.mp whole
      have calm : Calm roots := fun root below same =>
        root.awaitsBody_of_not_wantsBlock (settled root below same)
      rw [List.foldl_cons,promote_calm token node roots openBlocks reports operands false calm,
        ih (node :: roots) others (Settled.cons node roots here)]
      simp
  refine feed_awake _ _ token rfl ?_
  simp only [apply,kind,flush]
  rw [promoted left left roots whole settled]
  rfl

end Assembly

def Piece.leads : Piece → Bool
  | ifThen | whileDo | forIn => true
  | _ => false

theorem Node.Raw.leads (node : Node) (raw : node.Raw) (wants : node.wantsBlock = true) :
    ∃ piece, some piece ∈ node.trace ∧ piece.leads = true := by
  cases raw with
  | ifThen condition => exact ⟨.ifThen,by simp [Node.trace,Node.pieces],rfl⟩
  | whileDo condition => exact ⟨.whileDo,by simp [Node.trace,Node.pieces],rfl⟩
  | forIn iterator collection => exact ⟨.forIn,by simp [Node.trace,Node.pieces],rfl⟩
  | _ => simp [Node.wantsBlock,Node.awaitsBody] at wants

theorem Token.not_leads (token : Token) (inner : token.kind.isInner = true) (piece : Piece)
    (member : some piece ∈ token.trace) : piece.leads = false := by
  have stands : token.piece? = some piece := by
    unfold trace at member
    split at member
    · exact (Multiset.mem_singleton.mp member).symm
    · simp at member
  unfold piece? at stands
  cases kind : token.kind with
  | integer | real | additive | multiplicative | comparison =>
    rw [kind] at stands
    obtain ⟨_,-,rfl⟩ := Option.map_eq_some_iff.mp stands
    rfl
  | ifWord | whileWord | forWord | doWord => simp [kind,TokenKind.isInner] at inner
  | name | call | callNoArgs | string | andWord | orWord | assign | dot | putWord | retWord =>
    rw [kind] at stands
    obtain rfl := Option.some.inj stands
    rfl
  | _ => simp [kind] at stands

theorem not_leads_of_inner (tokens : List Token) (inner : ∀ token ∈ tokens, token.kind.isInner = true)
    (piece : Piece) (member : some piece ∈ tokensTrace tokens) : piece.leads = false := by
  induction tokens with
  | nil => simp at member
  | cons token tokens ih =>
    obtain ⟨here,others⟩ := List.forall_mem_cons.mp inner
    rw [tokensTrace_cons,Multiset.mem_add] at member
    rcases member with member | member
    · exact token.not_leads here piece member
    · exact ih others member

theorem mem_nodesTrace (node : Node) (nodes : List Node) (piece : Option Piece)
    (member : node ∈ nodes) (inside : piece ∈ node.trace) : piece ∈ nodesTrace nodes := by
  induction nodes with
  | nil => simp at member
  | cons first nodes ih =>
    rw [nodesTrace_cons,Multiset.mem_add]
    obtain rfl | member := List.mem_cons.mp member
    · exact .inl inside
    · exact .inr (ih member)

/-- Nothing that is made of inner tokens wants a block. -/
theorem wantsBlock_of_pieces (nodes : List Node) (tokens : List Token)
    (raw : ∀ node ∈ nodes, node.Raw) (inner : ∀ token ∈ tokens, token.kind.isInner = true)
    (pieces : nodesTrace nodes = tokensTrace tokens) :
    ∀ node ∈ nodes, node.wantsBlock = false := by
  intro node member
  by_contra wants
  -- The word that leads such a statement would be one of the tokens.
  obtain ⟨piece,inside,leads⟩ := (raw node member).leads node (by simpa using wants)
  have among : some piece ∈ tokensTrace tokens := by
    rw [← pieces]
    exact mem_nodesTrace node nodes (some piece) member inside
  rw [not_leads_of_inner tokens inner piece among] at leads
  contradiction

theorem Assembly.trace_body (body : List Token) (left : List Node)
    (fed : body.foldl feed (resting [] [] []) = ⟨left,[],[],[],false⟩) :
    nodesTrace left = tokensTrace body := by
  have smooth : (resting [] [] []).Smooth := ⟨rfl,rfl,rfl⟩
  have conserved := conserved_fed body (resting [] [] []) smooth (by rw [fed])
  rw [fed] at conserved
  simpa [trace,resting] using conserved

/-- The statement is built whole, or it is reported once and discarded whole. -/
theorem runs_stray (tokens : List Token) (inner : ∀ token ∈ tokens, token.kind.isInner = true)
    (stop : Grammar.Of .semicolon) :
    ∃ extra errors, Grammar.Runs (tokens ++ [stop.val]) extra errors ∧
      (errors = [] ∨ errors.length = 1 ∧ extra = []) := by
  have ends : (stop.val.retyped .statementEnd).kind = .statementEnd := rfl
  -- An error of the converter leaves the assembly nothing that it could report too.
  obtain ⟨body,early,plain,⟨rfl,pieces⟩ | ⟨single,rfl⟩,fed⟩ := fed_semicolon tokens inner stop
  · obtain ⟨left,late,raw,shape,assembled⟩ := Assembly.fed_body body plain
    have ended (roots : List Node) (openBlocks : List Token) (reports : List Report) :
        (tokens ++ [stop.val]).foldl Builder.feed (.resting roots openBlocks reports) =
          ⟨.idle,.empty,Assembly.feed ⟨left,roots,openBlocks,late ++ reports,!late.isEmpty⟩
            (stop.val.retyped .statementEnd)⟩ := by
      rw [fed,List.foldl_append,List.nil_append,assembled]
      rfl
    rcases shape with rfl | ⟨single,rfl⟩
    · have whole := wantsBlock_of_pieces left tokens raw inner
        ((Assembly.trace_body body left (assembled [] [] [])).trans pieces)
      refine ⟨left,[],⟨fun node member => ⟨whole node member,(raw node member).isDoMark node⟩,?_⟩,
        .inl rfl⟩
      intro roots openBlocks reports settled
      refine (ended roots openBlocks reports).trans ?_
      exact congrArg (Builder.mk .idle .empty)
        (Assembly.feed_statementEnd_settled left roots openBlocks reports _ ends whole settled)
    · refine ⟨[],late,⟨Grammar.Runs.nil.whole,?_⟩,.inr ⟨single,rfl⟩⟩
      intro roots openBlocks reports _
      refine (ended roots openBlocks reports).trans ?_
      have skips : (!late.isEmpty) = true := by cases late <;> simp_all
      simp [Assembly.feed,skips,ends,TokenKind.delimits,Builder.resting,Assembly.resting]
  · refine ⟨[],early,⟨Grammar.Runs.nil.whole,?_⟩,.inr ⟨single,rfl⟩⟩
    intro roots openBlocks reports _
    refine (fed roots openBlocks reports).trans ?_
    exact congrArg (Builder.mk .idle .empty)
      (Assembly.feed_statementEnd_resting roots openBlocks (early ++ reports) _ ends)

end BlockScript
