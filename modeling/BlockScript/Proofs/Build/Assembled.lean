import BlockScript.Proofs.Build.Convert
import BlockScript.Proofs.Build.Reports
import BlockScript.Proofs.Build.Resting
import Mathlib.Logic.Relation

/-! Statements assembled without a report. The operators of a statement make nodes, which are put on
the roots one by one, and the token that ends it does one of a few things to them. -/
namespace BlockScript
open Postfix

inductive Node.Heading : Node → Prop
  | typed (declared : TypedName) : Heading (.typed declared)
  | handler (called : String) : Heading (.handler called)
  | function (called : String) (returns : TypeName) (parameters : List TypedName) :
      Heading (.function called returns parameters [])

def Calm (roots : List Node) : Prop :=
  ∀ root below, roots = root :: below → root.awaitsBody = false

theorem Calm.nil : Calm [] := by
  intro root below same
  contradiction

theorem Calm.cons (root : Node) (below : List Node) (calm : root.awaitsBody = false) :
    Calm (root :: below) := by
  intro other rest same
  obtain ⟨rfl,_⟩ : root = other ∧ below = rest := by simpa using same
  exact calm

inductive Pushed : List Node → List Node → Prop
  | push (node : Node) (roots : List Node) (raw : node.Raw) (calm : Calm roots) :
      Pushed roots (node :: roots)

inductive Attached (body : List Node) : List Node → List Node → Prop
  | otherwise (condition : Node) (first below : List Node) :
      Attached body (.elseMark :: .ifThen condition (some first) none :: below)
        (.ifThen condition (some first) (some body) :: below)
  | function (called : String) (returns : TypeName) (parameters : List TypedName)
      (below : List Node) :
      Attached body (.function called returns parameters [] :: below)
        (.function called returns parameters [.block body] :: below)
  | ifThen (condition : Node) (otherwise : Option (List Node)) (below : List Node) :
      Attached body (.ifThen condition none otherwise :: below)
        (.ifThen condition (some body) otherwise :: below)
  | whileDo (condition : Node) (below : List Node) :
      Attached body (.whileDo condition none :: below) (.whileDo condition (some body) :: below)
  | forIn (iterator collection : Node) (below : List Node) :
      Attached body (.forIn iterator collection none :: below)
        (.forIn iterator collection (some body) :: below)
  | block (roots : List Node) (settled : Settled roots) :
      Attached body roots (.block body :: roots)

theorem cut_doMark (roots inner outer : List Node) (mark : Node)
    (cut : roots.span (fun root => !root.isDoMark) = (inner,mark :: outer)) :
    roots = inner ++ .doMark :: outer ∧ ∀ node ∈ inner, node.isDoMark = false := by
  rw [List.span_eq_takeWhile_dropWhile] at cut
  obtain ⟨above,below⟩ := Prod.mk.inj cut
  clear cut
  induction roots generalizing inner with
  | nil => contradiction
  | cons root roots ih =>
    cases marked : root.isDoMark with
    | true =>
      simp only [List.takeWhile_cons,List.dropWhile_cons,marked] at above below
      obtain ⟨rfl,rfl⟩ := List.cons.inj below
      subst above
      cases root <;> first | contradiction | exact ⟨rfl,by simp⟩
    | false =>
      simp only [List.takeWhile_cons,List.dropWhile_cons,marked] at above below
      subst above
      obtain ⟨same,apart⟩ := ih _ rfl below
      refine ⟨congrArg (root :: ·) same,?_⟩
      exact List.forall_mem_cons.mpr ⟨marked,apart⟩

inductive Closes (token : Token) : List Node → List Token → List Node → List Token → Prop
  | plain (roots : List Node) (openBlocks : List Token)
      (kind : token.kind = .semicolon ∨ token.kind = .fileEnd) :
      Closes token roots openBlocks roots openBlocks
  | opened (roots : List Node) (openBlocks : List Token) (kind : token.kind = .doWord) :
      Closes token roots openBlocks (.doMark :: roots) (token :: openBlocks)
  | otherwise (roots : List Node) (openBlocks : List Token) (kind : token.kind = .elseWord)
      (calm : Calm roots) : Closes token roots openBlocks (.elseMark :: roots) openBlocks
  | closed (inner outer after : List Node) (openBlocks : List Token)
      (kind : token.kind = .doneWord) (apart : ∀ node ∈ inner, node.isDoMark = false)
      (calm : Calm (inner ++ .doMark :: outer)) (attached : Attached inner.reverse outer after) :
      Closes token (inner ++ .doMark :: outer) openBlocks after (openBlocks.drop 1)

namespace Assembly

theorem attach_ok (assembly next : Assembly) (body : List Node)
    (attached : assembly.attach body = (next,none)) :
    ∃ roots, next = { assembly with roots } ∧ Attached body assembly.roots roots := by
  obtain ⟨operands,roots,openBlocks,reports,skipping⟩ := assembly
  unfold attach at attached
  split at attached
  next condition first below same =>
    obtain rfl : roots = _ := same
    obtain rfl := (Prod.mk.inj attached).1
    exact ⟨_,rfl,.otherwise condition first below⟩
  next => simp at attached
  next called returns parameters below same =>
    obtain rfl : roots = _ := same
    obtain rfl := (Prod.mk.inj attached).1
    exact ⟨_,rfl,.function called returns parameters below⟩
  next condition otherwise below same =>
    obtain rfl : roots = _ := same
    obtain rfl := (Prod.mk.inj attached).1
    exact ⟨_,rfl,.ifThen condition otherwise below⟩
  next condition below same =>
    obtain rfl : roots = _ := same
    obtain rfl := (Prod.mk.inj attached).1
    exact ⟨_,rfl,.whileDo condition below⟩
  next iterator collection below same =>
    obtain rfl : roots = _ := same
    obtain rfl := (Prod.mk.inj attached).1
    exact ⟨_,rfl,.forIn iterator collection below⟩
  next _ noElse noFunction noThen noWhile noFor =>
    obtain rfl := (Prod.mk.inj attached).1
    refine ⟨_,rfl,.block _ ?_⟩
    intro root below same
    cases root with
    | ifThen condition body otherwise =>
      cases body with
      | none => exact (noThen condition otherwise below same).elim
      | some body => rfl
    | whileDo condition body =>
      cases body with
      | none => exact (noWhile condition below same).elim
      | some body => rfl
    | forIn iterator collection body =>
      cases body with
      | none => exact (noFor iterator collection below same).elim
      | some body => rfl
    | function called returns parameters body =>
      cases body with
      | nil => exact (noFunction called returns parameters below same).elim
      | cons first rest => rfl
    | elseMark => exact (noElse below same).elim
    | _ => rfl

theorem calm_of_dropHeader (assembly : Assembly) (token : Token)
    (fine : (assembly.dropHeader token).reports = assembly.reports) : Calm assembly.roots := by
  intro root below same
  unfold dropHeader at fine
  rw [same] at fine
  dsimp only at fine
  split at fine
  · simp [report] at fine
  next calm => simpa using calm

theorem dropHeader_calm (assembly : Assembly) (token : Token) (calm : Calm assembly.roots) :
    assembly.dropHeader token = assembly :=
  assembly.dropHeader_of_not_awaits token calm

theorem fed_plain (body : List Token) (plain : ∀ token ∈ body, token.kind.delimits = false)
    (operands roots : List Node) (openBlocks : List Token) (raw : ∀ node ∈ operands, node.Raw)
    (fine : (body.foldl feed ⟨operands,roots,openBlocks,[],false⟩).reports = []) :
    ∃ left : List Node, body.foldl feed ⟨operands,roots,openBlocks,[],false⟩ =
        ⟨left,roots,openBlocks,[],false⟩ ∧
      (∀ node ∈ left, node.Raw) ∧ (left = [] ↔ body = [] ∧ operands = []) := by
  induction body generalizing operands with
  | nil => exact ⟨operands,rfl,raw,by simp⟩
  | cons token body ih =>
    obtain ⟨effect,well,affects⟩ := affects_of_plain token (plain token List.mem_cons_self)
    have applied := affects ⟨operands,roots,openBlocks,[],false⟩
    have before := nil_of_suffix (reports_fed _ body) fine
    cases failed : (effect operands).2 with
    | some error => simp [feed,applied,failed,recover,report] at before
    | none =>
      have fed : feed ⟨operands,roots,openBlocks,[],false⟩ token =
          ⟨(effect operands).1,roots,openBlocks,[],false⟩ := by
        simp [feed,applied,failed,recover]
      rw [List.foldl_cons,fed] at fine ⊢
      obtain ⟨left,same,rawLeft,empty⟩ := ih
        (fun other member => plain other (List.mem_cons_of_mem token member))
        (effect operands).1 (well.raw operands raw) fine
      refine ⟨left,same,rawLeft,?_⟩
      have some := well.left operands failed
      simp [empty,some]

theorem promote_calm (token : Token) (node : Node) (roots : List Node) (openBlocks : List Token)
    (reports : List Report) (operands : List Node) (skipping : Bool) (calm : Calm roots) :
    promote token ⟨operands,roots,openBlocks,reports,skipping⟩ node =
      ⟨operands,node :: roots,openBlocks,reports,skipping⟩ := by
  unfold promote
  split
  · rfl
  · rw [dropHeader_calm _ token calm]

theorem promoted (token : Token) (nodes operands roots : List Node) (openBlocks : List Token)
    (raw : ∀ node ∈ nodes, node.Raw)
    (fine : (nodes.foldl (promote token) ⟨operands,roots,openBlocks,[],false⟩).reports = []) :
    nodes.foldl (promote token) ⟨operands,roots,openBlocks,[],false⟩ =
        ⟨operands,nodes.reverse ++ roots,openBlocks,[],false⟩ ∧
      Relation.ReflTransGen Pushed roots (nodes.reverse ++ roots) := by
  induction nodes generalizing roots with
  | nil => exact ⟨rfl,.refl⟩
  | cons node nodes ih =>
    obtain ⟨here,others⟩ := List.forall_mem_cons.mp raw
    have first : (promote token ⟨operands,roots,openBlocks,[],false⟩ node).reports = [] :=
      nil_of_suffix (reports_promoted _ token nodes) fine
    have calm : Calm roots := by
      unfold promote at first
      split at first
      next mark => cases here <;> contradiction
      next => exact calm_of_dropHeader ⟨operands,roots,openBlocks,[],false⟩ token first
    rw [List.foldl_cons,promote_calm token node roots openBlocks [] operands false calm] at fine ⊢
    obtain ⟨same,pushed⟩ := ih (node :: roots) others fine
    have shape : (node :: nodes).reverse ++ roots = nodes.reverse ++ node :: roots := by simp
    rw [shape]
    exact ⟨same,.head (.push node roots here calm) pushed⟩

/-- Where nothing goes wrong the operands of a statement become roots, pushed one after the other.
-/
theorem fed_end (token : Token) (kind : token.kind = .statementEnd) (operands roots : List Node)
    (openBlocks : List Token) (raw : ∀ node ∈ operands, node.Raw)
    (fine : (feed ⟨operands,roots,openBlocks,[],false⟩ token).reports = []) :
    feed ⟨operands,roots,openBlocks,[],false⟩ token =
        .resting (operands.reverse ++ roots) openBlocks [] ∧
      Relation.ReflTransGen Pushed roots (operands.reverse ++ roots) := by
  have fed : feed ⟨operands,roots,openBlocks,[],false⟩ token =
      flush ⟨operands,roots,openBlocks,[],false⟩ token := by
    simp [feed,apply,kind,recover]
  rw [fed] at fine ⊢
  obtain ⟨same,pushed⟩ := promoted token operands operands roots openBlocks raw fine
  refine ⟨?_,pushed⟩
  unfold flush
  rw [same]
  rfl

theorem closeBlock_ok (assembly next : Assembly) (token : Token)
    (closed : assembly.closeBlock token = (next,none)) (fine : next.reports = assembly.reports) :
    ∃ inner outer after, assembly.roots = inner ++ .doMark :: outer ∧
      (∀ node ∈ inner, node.isDoMark = false) ∧ Calm assembly.roots ∧
        Attached inner.reverse outer after ∧
          next = { assembly with roots := after, openBlocks := assembly.openBlocks.drop 1 } := by
  have reports := assembly.reports_closeBlock token
  rw [closed,fine] at reports
  have calm : Calm assembly.roots := calm_of_dropHeader assembly token reports.symm
  unfold closeBlock at closed
  rw [dropHeader_calm _ token calm] at closed
  dsimp only at closed
  split at closed
  · simp at closed
  next inner mark outer cut =>
    obtain ⟨after,rfl,attached⟩ := attach_ok _ next inner.reverse closed
    obtain ⟨same,apart⟩ := cut_doMark assembly.roots inner outer mark cut
    exact ⟨inner,outer,after,same,apart,calm,attached,rfl⟩

theorem fed_tail (token : Token) (tail : List Token) (roots : List Node) (openBlocks : List Token)
    (behind : Converter.tail? token = some tail)
    (fine : (tail.foldl feed (resting roots openBlocks [])).reports = []) :
    ∃ after still, tail.foldl feed (resting roots openBlocks []) = resting after still [] ∧
      Closes token roots openBlocks after still := by
  unfold Converter.tail? at behind
  split at behind
  next kind =>
    obtain rfl := Option.some.inj behind
    exact ⟨roots,openBlocks,rfl,.plain roots openBlocks (.inl kind)⟩
  next kind =>
    obtain rfl := Option.some.inj behind
    exact ⟨roots,openBlocks,rfl,.plain roots openBlocks (.inr kind)⟩
  next kind =>
    obtain rfl := Option.some.inj behind
    have fed : feed (resting roots openBlocks []) token =
        recover token ((resting roots openBlocks []).closeBlock token) := by
      simp [feed,apply,kind,resting]
    simp only [List.foldl_cons,List.foldl_nil] at fine ⊢
    rw [fed] at fine ⊢
    cases closed : (resting roots openBlocks []).closeBlock token with | mk next failed =>
    rw [closed] at fine
    cases failed with
    | some error => simp [recover,report] at fine
    | none =>
      obtain ⟨inner,outer,after,same,apart,calm,attached,rfl⟩ :=
        closeBlock_ok (resting roots openBlocks []) next token closed fine
      obtain rfl : roots = inner ++ .doMark :: outer := same
      exact ⟨after,_,rfl,.closed inner outer after openBlocks kind apart calm attached⟩
  next kind =>
    obtain rfl := Option.some.inj behind
    refine ⟨_,_,?_,.opened roots openBlocks kind⟩
    simp only [List.foldl_cons,List.foldl_nil]
    exact feed_do roots openBlocks [] token _ kind rfl
  next kind =>
    obtain rfl := Option.some.inj behind
    have first : feed (resting roots openBlocks []) token =
        (resting roots openBlocks []).pushOperand .elseMark := by
      refine feed_awake _ _ token rfl ?_
      simp [apply,kind]
    have second : feed ((resting roots openBlocks []).pushOperand .elseMark)
        (token.retyped .statementEnd) =
          { promote (token.retyped .statementEnd)
              ((resting roots openBlocks []).pushOperand .elseMark) .elseMark with
            operands := [] } := by
      refine feed_awake _ _ _ rfl ?_
      simp [apply,Token.retyped,flush,pushOperand,resting]
    simp only [List.foldl_cons,List.foldl_nil] at fine ⊢
    rw [first,second] at fine ⊢
    have held : (((resting roots openBlocks []).pushOperand .elseMark).dropHeader
        (token.retyped .statementEnd)).reports = [] := by
      simpa [promote,Node.isDoMark] using fine
    have calm : Calm roots :=
      calm_of_dropHeader ((resting roots openBlocks []).pushOperand .elseMark) _ held
    refine ⟨_,_,?_,.otherwise roots openBlocks kind calm⟩
    have promoted := promote_calm (token.retyped .statementEnd) .elseMark roots openBlocks []
      [.elseMark] false calm
    exact congrArg (fun assembly : Assembly => { assembly with operands := [] }) promoted
  next => contradiction

/-- What one statement and the token that ends it do. -/
theorem fed_statement (body tail : List Token) (token : Token) (roots : List Node)
    (openBlocks : List Token) (plain : ∀ other ∈ body, other.kind.delimits = false)
    (behind : Converter.tail? token = some tail)
    (fine : ((body ++ token.retyped .statementEnd :: tail).foldl feed
      (resting roots openBlocks [])).reports = []) :
    ∃ nodes after still, (nodes = [] ↔ body = []) ∧
      Relation.ReflTransGen Pushed roots (nodes ++ roots) ∧
      Closes token (nodes ++ roots) openBlocks after still ∧
      (body ++ token.retyped .statementEnd :: tail).foldl feed (resting roots openBlocks []) =
        resting after still [] := by
  rw [List.foldl_append] at fine ⊢
  have before := nil_of_suffix (reports_fed _ _) fine
  obtain ⟨operands,fed,raw,empty⟩ := fed_plain body plain [] roots openBlocks (by simp) before
  simp only [resting] at fed fine ⊢
  rw [fed,List.foldl_cons] at fine ⊢
  have ended := nil_of_suffix (reports_fed _ _) fine
  obtain ⟨same,pushed⟩ := fed_end _ rfl operands roots openBlocks raw ended
  rw [same] at fine ⊢
  obtain ⟨after,still,finished,closes⟩ :=
    fed_tail token tail (operands.reverse ++ roots) openBlocks behind fine
  refine ⟨operands.reverse,after,still,by simpa using empty,pushed,closes,finished⟩

end Assembly

end BlockScript
