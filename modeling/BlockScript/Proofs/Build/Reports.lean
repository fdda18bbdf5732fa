import BlockScript.Proofs.Build.Operand

/-! Reports only ever get more. What ends without a report had none at any time. -/
namespace BlockScript

theorem nil_of_suffix {older newer : List Report} (suffix : older <:+ newer) (fine : newer = []) :
    older = [] := by
  rw [fine] at suffix
  exact List.suffix_nil.mp suffix

namespace Assembly

theorem reports_dropHeader (assembly : Assembly) (token : Token) :
    assembly.reports <:+ (assembly.dropHeader token).reports := by
  unfold dropHeader
  split
  · split
    · exact List.suffix_cons _ _
    · exact List.suffix_rfl
  · exact List.suffix_rfl

theorem reports_promote (assembly : Assembly) (token : Token) (node : Node) :
    assembly.reports <:+ (promote token assembly node).reports := by
  unfold promote
  split
  · exact List.suffix_rfl
  · exact assembly.reports_dropHeader token

theorem reports_promoted (assembly : Assembly) (token : Token) (nodes : List Node) :
    assembly.reports <:+ (nodes.foldl (promote token) assembly).reports := by
  induction nodes generalizing assembly with
  | nil => exact List.suffix_rfl
  | cons node nodes ih => exact (assembly.reports_promote token node).trans (ih _)

theorem reports_flush (assembly : Assembly) (token : Token) :
    assembly.reports <:+ (assembly.flush token).reports :=
  assembly.reports_promoted token assembly.operands

theorem reports_attach (assembly : Assembly) (body : List Node) :
    (assembly.attach body).1.reports = assembly.reports := by
  unfold attach
  split <;> rfl

theorem reports_closeBlock (assembly : Assembly) (token : Token) :
    (assembly.closeBlock token).1.reports = (assembly.dropHeader token).reports := by
  unfold closeBlock
  dsimp only
  split
  · rfl
  · rw [reports_attach]

theorem reports_apply (assembly : Assembly) (token : Token) :
    assembly.reports <:+ (assembly.apply token).1.reports := by
  cases plain : token.kind.delimits with
  | false =>
    obtain ⟨effect,_,affects⟩ := affects_of_plain token plain
    exact (affects assembly).symm ▸ List.suffix_rfl
  | true =>
    cases kind : token.kind with
    | doWord | elseWord =>
      simp only [apply,kind,pushOperand]
      exact List.suffix_rfl
    | doneWord =>
      simp only [apply,kind]
      rw [assembly.reports_closeBlock token]
      exact assembly.reports_dropHeader token
    | statementEnd =>
      simp only [apply,kind]
      exact assembly.reports_flush token
    | _ => simp [kind,TokenKind.delimits] at plain

theorem reports_recover (token : Token) (outcome : Outcome) :
    outcome.1.reports <:+ (recover token outcome).reports := by
  obtain ⟨assembly,error⟩ := outcome
  cases error with
  | none => exact List.suffix_rfl
  | some error => exact List.suffix_cons _ _

theorem reports_feed (assembly : Assembly) (token : Token) :
    assembly.reports <:+ (assembly.feed token).reports := by
  unfold feed
  split
  · exact (assembly.reports_apply token).trans (reports_recover token _)
  · split
    · exact List.suffix_rfl
    · dsimp only
      split
      · exact List.suffix_rfl
      · have applied := reports_apply { assembly with operands := [], skipping := false } token
        exact applied.trans (reports_recover token _)

theorem reports_fed (assembly : Assembly) (tokens : List Token) :
    assembly.reports <:+ (tokens.foldl feed assembly).reports := by
  induction tokens generalizing assembly with
  | nil => exact List.suffix_rfl
  | cons token tokens ih => exact (assembly.reports_feed token).trans (ih _)

theorem reports_declare (assembly : Assembly) (declaration : Node) (token : Token) :
    assembly.reports <:+ (assembly.declare declaration token).reports :=
  assembly.reports_dropHeader token

end Assembly

namespace Builder

theorem reports_convertOnce (builder : Builder) (token : Token) :
    builder.assembly.reports <:+ (builder.convertOnce token).2.assembly.reports := by
  unfold convertOnce
  split
  · exact builder.assembly.reports_fed _
  · exact List.suffix_cons _ _

theorem reports_convert (builder : Builder) (token : Token) :
    builder.assembly.reports <:+ (builder.convert token).assembly.reports := by
  have first := builder.reports_convertOnce token
  unfold convert
  split
  next same => rwa [same] at first
  next next same =>
    rw [same] at first
    split
    · exact first.trans (next.reports_convertOnce token)
    · exact first

theorem reports_feed (builder : Builder) (token : Token) :
    builder.assembly.reports <:+ (builder.feed token).assembly.reports := by
  unfold feed
  split
  · exact builder.assembly.reports_declare _ token
  · exact List.suffix_rfl
  next reader _ => exact reports_convert { builder with reader } token
  next error reader _ =>
    have noted : builder.assembly.reports <:+
        (report { builder with reader } error token).assembly.reports := List.suffix_cons _ _
    dsimp only
    split
    · exact noted.trans (reports_convert _ token)
    · exact noted

/-- What was reported stays reported. -/
theorem reports_fed (builder : Builder) (tokens : List Token) :
    builder.assembly.reports <:+ (tokens.foldl feed builder).assembly.reports := by
  induction tokens generalizing builder with
  | nil => exact List.suffix_rfl
  | cons token tokens ih => exact (builder.reports_feed token).trans (ih _)

end Builder

end BlockScript
