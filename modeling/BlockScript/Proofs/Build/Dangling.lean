import BlockScript.Proofs.Build.Structure

/-! An `else` that is given no block. Its mark stays among the roots until a block is closed around
it, and then it is a statement of that block. -/
namespace BlockScript

def Node.Buries (node : Node) : Prop := ∃ block ∈ node.blocks, StatementOf block .elseMark

/-- A mark of an `else` that no block can be given to any more. -/
inductive Lost (roots : List Node) : Prop
  | buried (node : Node) (member : node ∈ roots) (buries : node.Buries)
  | covered (above below : List Node) (root : Node)
      (shape : roots = above ++ root :: .elseMark :: below) (plain : root.isDoMark = false)

namespace Lost

theorem cons {roots : List Node} (lost : Lost roots) (node : Node) : Lost (node :: roots) := by
  cases lost with
  | buried other member buries => exact .buried other (List.mem_cons_of_mem node member) buries
  | covered above below root shape plain =>
    exact .covered (node :: above) below root (congrArg (node :: ·) shape) plain

theorem replace {root next : Node} {below : List Node} (lost : Lost (root :: below))
    (plain : next.isDoMark = false) (holds : root.Buries → next.Buries) :
    Lost (next :: below) := by
  cases lost with
  | buried node member buries =>
    obtain rfl | member := List.mem_cons.mp member
    · exact .buried next List.mem_cons_self (holds buries)
    · exact .buried node (List.mem_cons_of_mem next member) buries
  | covered above rest other shape apart =>
    cases above with
    | nil =>
      obtain ⟨rfl,rfl⟩ := List.cons.inj shape
      exact .covered [] rest next rfl plain
    | cons first above =>
      obtain ⟨rfl,rfl⟩ := List.cons.inj shape
      exact .covered (next :: above) rest other rfl apart

theorem attached {body before after : List Node} (lost : Lost before)
    (attached : Attached body before after) : Lost after := by
  cases attached with
  | otherwise condition first below =>
    have tail : Lost (.ifThen condition (some first) none :: below) := by
      cases lost with
      | buried node member buries =>
        obtain rfl | member := List.mem_cons.mp member
        · obtain ⟨block,owned,_⟩ := buries
          simp [Node.blocks] at owned
        · exact .buried node member buries
      | covered above rest root shape plain =>
        cases above with
        | nil =>
          obtain ⟨_,same⟩ := List.cons.inj shape
          obtain ⟨same,_⟩ := List.cons.inj same
          contradiction
        | cons mark above => exact .covered above rest root (List.cons.inj shape).2 plain
    refine tail.replace rfl ?_
    rintro ⟨block,owned,statement⟩
    obtain rfl : block = first := by simpa [Node.blocks] using owned
    exact ⟨block,by simp [Node.blocks],statement⟩
  | function called returns parameters below =>
    refine lost.replace rfl ?_
    rintro ⟨block,owned,statement⟩
    obtain rfl : block = [] := by simpa [Node.blocks] using owned
    exact (statement.nonempty rfl).elim
  | ifThen condition otherwise below =>
    refine lost.replace rfl ?_
    rintro ⟨block,owned,statement⟩
    exact ⟨block,List.mem_cons_of_mem _ owned,statement⟩
  | whileDo condition below =>
    refine lost.replace rfl ?_
    rintro ⟨block,owned,statement⟩
    simp [Node.blocks] at owned
  | forIn iterator collection below =>
    refine lost.replace rfl ?_
    rintro ⟨block,owned,statement⟩
    simp [Node.blocks] at owned
  | block roots settled => exact lost.cons _

theorem inside {body before after : List Node} (statement : StatementOf body .elseMark)
    (attached : Attached body before after) : Lost after := by
  cases attached with
  | otherwise condition first below =>
    exact .buried _ List.mem_cons_self ⟨body,by simp [Node.blocks],statement⟩
  | function called returns parameters below =>
    refine .buried _ List.mem_cons_self ⟨[.block body],by simp [Node.blocks],?_⟩
    have here : Node.block body ∈ [Node.block body] := List.mem_cons_self
    exact statement.lift here (by simp [Node.blocks])
  | ifThen condition otherwise below =>
    exact .buried _ List.mem_cons_self ⟨body,by simp [Node.blocks],statement⟩
  | whileDo condition below =>
    exact .buried _ List.mem_cons_self ⟨body,by simp [Node.blocks],statement⟩
  | forIn iterator collection below =>
    exact .buried _ List.mem_cons_self ⟨body,by simp [Node.blocks],statement⟩
  | block roots settled =>
    exact .buried _ List.mem_cons_self ⟨body,by simp [Node.blocks],statement⟩

theorem closed {inner outer after : List Node} (lost : Lost (inner ++ .doMark :: outer))
    (attached : Attached inner.reverse outer after) : Lost after := by
  cases lost with
  | buried node member buries =>
    obtain ⟨block,owned,statement⟩ := buries
    rcases List.mem_append.mp member with member | member
    · exact inside (statement.lift (List.mem_reverse.mpr member) owned) attached
    · obtain rfl | member := List.mem_cons.mp member
      · simp [Node.blocks] at owned
      · exact Lost.attached (.buried node member ⟨block,owned,statement⟩) attached
  | covered above below root shape plain =>
    rcases List.append_eq_append_iff.mp shape with ⟨rest,same,shape⟩ | ⟨rest,same,shape⟩
    · cases rest with
      | nil =>
        obtain rfl := (List.cons.inj shape).1
        contradiction
      | cons mark rest =>
        exact Lost.attached (.covered rest below root (List.cons.inj shape).2 plain) attached
    · cases rest with
      | nil =>
        obtain rfl := (List.cons.inj shape).1
        contradiction
      | cons first rest =>
        cases rest with
        | nil =>
          have marks := (List.cons.inj (List.cons.inj shape).2).1
          contradiction
        | cons mark rest =>
          obtain rfl := (List.cons.inj (List.cons.inj shape).2).1
          have member : Node.elseMark ∈ inner.reverse := by simp [same]
          exact inside (.root _ member) attached

theorem closes {token : Token} {before after : List Node} {openBlocks still : List Token}
    (lost : Lost before) (closes : Closes token before openBlocks after still) : Lost after := by
  cases closes with
  | plain => exact lost
  | opened => exact lost.cons _
  | otherwise => exact lost.cons _
  | closed inner outer after _ _ _ _ attached => exact lost.closed attached

theorem pushed {before after : List Node} (lost : Lost before)
    (pushed : Relation.ReflTransGen Pushed before after) : Lost after := by
  induction pushed with
  | refl => exact lost
  | tail _ push ih =>
    cases push with
    | push node roots raw calm => exact ih.cons node

theorem of_pushed {below after : List Node}
    (pushed : Relation.ReflTransGen Pushed (.elseMark :: below) after) :
    after = .elseMark :: below ∨ Lost after := by
  induction pushed with
  | refl => exact .inl rfl
  | tail _ push ih =>
    cases push with
    | push node roots raw calm =>
      rcases ih with rfl | lost
      · exact .inr (.covered [] below node rfl (by cases raw <;> rfl))
      · exact .inr (lost.cons node)

end Lost

/-- Where an `else` without a block stands while the tokens are read: still to come, last among the
roots with no `do` to come next or with something else half read, or lost. -/
inductive Stuck (rest : List Token) (builder : Builder) : Prop
  | ahead (comes : elsesOpen rest = false)
  | bare (below : List Node) (shape : builder.assembly.roots = .elseMark :: below)
      (idle : builder.reader = .idle) (blank : builder.converter.Blank)
      (comes : opensBlock rest = false)
  | begun (below : List Node) (shape : builder.assembly.roots = .elseMark :: below)
      (active : builder.reader = .idle → ¬builder.converter.Blank)
  | lost (lost : Lost builder.assembly.roots)

theorem comes_later (token : Token) (rest : List Token) (other : token.kind ≠ .elseWord)
    (comes : elsesOpen (token :: rest) = false) : elsesOpen rest = false := by
  simpa [elsesOpen,other] using comes

theorem Closes.elseMark {token : Token} {before after : List Node} {openBlocks still : List Token}
    (closes : Closes token before openBlocks after still) (kind : token.kind = .elseWord) :
    ∃ below, after = .elseMark :: below := by
  cases closes with
  | otherwise => exact ⟨before,rfl⟩
  | _ => simp_all

/-- A mark that comes last is lost unless a `do` is still to come. -/
theorem Closes.stuck {token : Token} {below after : List Node} {openBlocks still : List Token}
    (rest : List Token) (closes : Closes token (.elseMark :: below) openBlocks after still)
    (comes : opensBlock (token :: rest) = false) : Stuck rest (.clean .idle .empty after still) := by
  generalize same : Node.elseMark :: below = middle at closes
  cases closes with
  | plain _ _ kind =>
    refine .bare below same.symm rfl Postfix.Converter.blank_empty ?_
    rcases kind with kind | kind <;> simpa [opensBlock,kind] using comes
  | opened _ _ kind => simp [opensBlock,kind] at comes
  | otherwise =>
    exact .lost (.covered [] below .elseMark (congrArg (Node.elseMark :: ·) same.symm) rfl)
  | closed inner outer after _ _ _ _ attached =>
    cases inner with
    | nil =>
      have marks := (List.cons.inj same).1
      contradiction
    | cons mark inner =>
      obtain rfl := (List.cons.inj same).1
      have member : Node.elseMark ∈ (Node.elseMark :: inner).reverse := by simp
      exact .lost (Lost.inside (.root _ member) attached)

/-- No move gives a block to a mark of an `else` that has to go without one. -/
theorem Moves.stuck (token : Token) (rest : List Token) (builder next : Builder)
    (moves : Moves token builder next) (stuck : Stuck (token :: rest) builder) :
    Stuck rest next := by
  cases moves with
  | consumed reader next converter roots openBlocks active within begins =>
    cases stuck with
    | ahead comes =>
      refine .ahead (comes_later token rest ?_ comes)
      intro kind
      simp [kind,TokenKind.isStructural] at within
    | bare below shape idle blank comes => exact .begun below shape fun idle => (active idle).elim
    | begun below shape => exact .begun below shape fun idle => (active idle).elim
    | lost lost => exact .lost lost
  | declared reader converter declaration roots openBlocks active heading calm within =>
    have plain : declaration.isDoMark = false := by cases heading <;> rfl
    cases stuck with
    | ahead comes =>
      refine .ahead (comes_later token rest ?_ comes)
      intro kind
      simp [kind,TokenKind.isStructural] at within
    | bare below shape idle => exact (active idle).elim
    | begun below shape =>
      exact .lost (.covered [] below declaration (congrArg (declaration :: ·) shape) plain)
    | lost lost => exact .lost (lost.cons declaration)
  | kept converter next roots openBlocks plain within blank =>
    cases stuck with
    | ahead comes =>
      refine .ahead (comes_later token rest ?_ comes)
      intro kind
      simp [Postfix.Converter.tail?,kind] at within
    | bare below shape idle empty comes =>
      by_cases parenthesis : token.kind = .opening ∨ token.kind = .closing
      · refine .bare below shape rfl (blank.mpr ⟨empty,parenthesis⟩) ?_
        rcases parenthesis with kind | kind <;> simpa [opensBlock,kind] using comes
      · exact .begun below shape fun _ still => parenthesis (blank.mp still).2
    | begun below shape active =>
      exact .begun below shape fun idle still => active idle (blank.mp still).1
    | lost lost => exact .lost lost
  | ended converter roots nodes after openBlocks still blank pushed closes =>
    cases stuck with
    | ahead comes =>
      -- The `else` is either this token or still to come.
      by_cases kind : token.kind = .elseWord
      · cases bare : opensBlock rest with
        | true => exact .ahead (by simpa [elsesOpen,kind,bare] using comes)
        | false =>
          obtain ⟨below,rfl⟩ := closes.elseMark kind
          exact .bare below rfl rfl Postfix.Converter.blank_empty bare
      · exact .ahead (comes_later token rest kind comes)
    | bare below shape idle empty comes =>
      have nothing := blank.mpr empty
      subst nothing
      have shape : roots = .elseMark :: below := shape
      subst shape
      exact Closes.stuck rest closes comes
    | begun below shape active =>
      have shape : roots = .elseMark :: below := shape
      subst shape
      -- Something was half read behind the mark; it comes out now and covers the mark.
      have lost : Lost (nodes ++ .elseMark :: below) := by
        rcases Lost.of_pushed pushed with same | lost
        · exact (active rfl (blank.mp (by simpa using same))).elim
        · exact lost
      exact .lost (lost.closes closes)
    | lost lost => exact .lost (Lost.closes (Lost.pushed lost pushed) closes)

/-- If no mark of an `else` is a statement of a file that was built without a report, then every
`else` has its block. -/
theorem elsesOpen_of_build (tokens : List Token) (fine : (build tokens).reports = [])
    (none : ∀ node, StatementOf (build tokens).roots node → node ≠ .elseMark) :
    elsesOpen tokens = true := by
  cases comes : elsesOpen tokens with
  | true => rfl
  | false =>
    obtain ⟨reader,converter,roots,openBlocks,_,stuck,same,_,_,plain⟩ :=
      build_ok Stuck (fun token rest builder next moves before =>
        moves.stuck token rest builder next before) tokens (.ahead comes) fine
    have absent (node : Node) (member : node ∈ roots) : node ≠ .elseMark := by
      rintro rfl
      have marked := plain .elseMark member
      contradiction
    exfalso
    cases stuck with
    | ahead comes => contradiction
    | bare below shape =>
      have shape : roots = .elseMark :: below := shape
      exact absent .elseMark (by simp [shape]) rfl
    | begun below shape =>
      have shape : roots = .elseMark :: below := shape
      exact absent .elseMark (by simp [shape]) rfl
    | lost lost =>
      have lost : Lost roots := lost
      cases lost with
      | covered above below root shape => exact absent .elseMark (by simp [shape]) rfl
      | buried node member buries =>
        obtain ⟨block,owned,statement⟩ := buries
        have here : node ∈ (build tokens).roots := by rwa [same,List.mem_reverse]
        exact none .elseMark (statement.lift here owned) rfl

end BlockScript
