import BlockScript.Proofs.Build.Recovery
import Mathlib.Data.List.Basic

/-! The words `do` and `done` as brackets. Whatever else is wrong with a file, what building it
reports about blocks is exactly what bracket matching leaves unmatched. -/
namespace BlockScript

inductive Balanced : List Token → Prop
  | nil : Balanced []
  | plain (token : Token) (rest : List Token)
      (apart : token.kind ≠ .doWord ∧ token.kind ≠ .doneWord) (after : Balanced rest) :
      Balanced (token :: rest)
  | block (word done : Token) (inner rest : List Token) (opens : word.kind = .doWord)
      (closes : done.kind = .doneWord) (inside : Balanced inner) (after : Balanced rest) :
      Balanced (word :: inner ++ done :: rest)

/-- Matching leaves over these `done` tokens and, all of them farther back, these `do` tokens. What
stands between them is balanced. -/
inductive Brackets : List Token → List Token → List Token → Prop
  | balanced (tokens : List Token) (inside : Balanced tokens) : Brackets tokens [] []
  | unmatched (before after dones dos : List Token) (done : Token) (kind : done.kind = .doneWord)
      (inside : Balanced before) (behind : Brackets after dones dos) :
      Brackets (before ++ done :: after) (done :: dones) dos
  | unclosed (before after dos : List Token) (word : Token) (kind : word.kind = .doWord)
      (inside : Balanced before) (behind : Brackets after [] dos) :
      Brackets (before ++ word :: after) [] (word :: dos)

theorem Balanced.append (left right : List Token) (first : Balanced left)
    (second : Balanced right) : Balanced (left ++ right) := by
  induction first with
  | nil => exact second
  | plain token rest apart _ ih => exact .plain token _ apart ih
  | block word done inner rest opens closes inside _ _ ih =>
    have joined := Balanced.block word done inner (rest ++ right) opens closes inside ih
    simpa using joined

theorem Brackets.behind (before tokens dones dos : List Token) (inside : Balanced before)
    (brackets : Brackets tokens dones dos) : Brackets (before ++ tokens) dones dos := by
  cases brackets with
  | balanced _ balanced => exact .balanced _ (inside.append before tokens balanced)
  | unmatched first after dones dos done kind balanced behind =>
    rw [← List.append_assoc]
    exact .unmatched _ after dones dos done kind (inside.append before first balanced) behind
  | unclosed first after dos word kind balanced behind =>
    rw [← List.append_assoc]
    exact .unclosed _ after dos word kind (inside.append before first balanced) behind

/-- Every list of tokens can be matched. -/
theorem exists_brackets (tokens : List Token) : ∃ dones dos, Brackets tokens dones dos := by
  induction tokens with
  | nil => exact ⟨[],[],.balanced [] .nil⟩
  | cons token rest ih =>
    obtain ⟨dones,dos,brackets⟩ := ih
    by_cases opens : token.kind = .doWord
    · cases brackets with
      | balanced _ balanced =>
        exact ⟨[],[token],.unclosed [] rest [] token opens .nil (.balanced rest balanced)⟩
      | unmatched before after dones dos done kind balanced behind =>
        have block := Balanced.block token done before [] opens kind balanced .nil
        have closed := behind.behind _ after dones dos block
        exact ⟨dones,dos,by simpa using closed⟩
      | unclosed before after dos word kind balanced behind =>
        exact ⟨[],token :: word :: dos,
          .unclosed [] _ _ token opens .nil (.unclosed before after dos word kind balanced behind)⟩
    · by_cases closes : token.kind = .doneWord
      · exact ⟨token :: dones,dos,.unmatched [] rest dones dos token closes .nil brackets⟩
      · exact ⟨dones,dos,
          brackets.behind [token] rest dones dos (.plain token [] ⟨opens,closes⟩ .nil)⟩

namespace BracketStep
variable {token : Token} {before after : List Token × List Report}
  (step : BracketStep token before after)
include step

theorem of_do (kind : token.kind = .doWord) : after = (token :: before.1,before.2) := by
  cases step with
  | opened => rfl
  | closed _ _ _ other | unmatched _ other => simp [kind] at other
  | apart _ _ plain => exact (plain.1 kind).elim

theorem of_done (kind : token.kind = .doneWord) (word : Token) (openBlocks : List Token)
    (opened : before.1 = word :: openBlocks) : after = (openBlocks,before.2) := by
  cases step with
  | opened _ _ other => simp [kind] at other
  | closed =>
    obtain ⟨-,rfl⟩ := List.cons.inj opened
    rfl
  | unmatched => contradiction
  | apart _ _ plain => exact (plain.2 kind).elim

theorem of_unmatched (kind : token.kind = .doneWord) (none : before.1 = []) :
    after = ([],⟨.unmatchedDone,token⟩ :: before.2) := by
  cases step with
  | opened _ _ other => simp [kind] at other
  | closed => contradiction
  | unmatched => rfl
  | apart _ _ plain => exact (plain.2 kind).elim

theorem of_apart (plain : token.kind ≠ .doWord ∧ token.kind ≠ .doneWord) : after = before := by
  cases step with
  | opened _ _ kind => exact (plain.1 kind).elim
  | closed _ _ _ kind | unmatched _ kind => exact (plain.2 kind).elim
  | apart => rfl

end BracketStep

/-- Balanced tokens leave the open blocks and what was reported about blocks as they were. -/
theorem Balanced.fed (tokens : List Token) (balanced : Balanced tokens) (builder : Builder)
    (level : builder.Level) :
    (tokens.foldl Builder.feed builder).Level ∧
      (tokens.foldl Builder.feed builder).assembly.brackets = builder.assembly.brackets := by
  induction balanced generalizing builder with
  | nil => exact ⟨level,rfl⟩
  | plain token rest apart _ ih =>
    obtain ⟨next,step⟩ := builder.step_feed level token
    obtain ⟨last,same⟩ := ih (builder.feed token) next
    exact ⟨last,same.trans (step.of_apart apart)⟩
  | block word done inner rest opens closes _ _ ihInside ihAfter =>
    obtain ⟨begun,step⟩ := builder.step_feed level word
    obtain ⟨inside,same⟩ := ihInside (builder.feed word) begun
    rw [step.of_do opens] at same
    obtain ⟨closed,step⟩ := Builder.step_feed _ inside done
    have back := step.of_done closes word builder.assembly.brackets.1 (by rw [same])
    obtain ⟨last,kept⟩ := ihAfter _ closed
    have shape : word :: inner ++ done :: rest = [word] ++ (inner ++ ([done] ++ rest)) := by simp
    rw [shape]
    simp only [List.foldl_append,List.foldl_cons,List.foldl_nil]
    refine ⟨last,kept.trans (back.trans ?_)⟩
    rw [same]

/-- Where no block is open every `done` that is left over is reported. A `do` that is left over
stays open. -/
theorem Brackets.fed (tokens dones dos : List Token) (brackets : Brackets tokens dones dos)
    (builder : Builder) (level : builder.Level)
    (none : dones = [] ∨ builder.assembly.openBlocks = []) :
    (tokens.foldl Builder.feed builder).Level ∧
      (tokens.foldl Builder.feed builder).assembly.brackets =
        (dos.reverse ++ builder.assembly.brackets.1,
          (dones.map (Report.mk .unmatchedDone)).reverse ++ builder.assembly.brackets.2) := by
  induction brackets generalizing builder with
  | balanced tokens inside => exact inside.fed tokens builder level
  | unmatched before after dones dos done kind inside _ ih =>
    obtain ⟨here,same⟩ := inside.fed before builder level
    have none : builder.assembly.openBlocks = [] := none.resolve_left (by simp)
    obtain ⟨next,step⟩ := Builder.step_feed _ here done
    have noted := step.of_unmatched kind (by rw [same]; exact none)
    obtain ⟨last,kept⟩ := ih _ next (.inr (congrArg Prod.fst noted))
    rw [List.foldl_append,List.foldl_cons]
    refine ⟨last,kept.trans ?_⟩
    have nothing : builder.assembly.brackets.1 = [] := none
    rw [noted,same,nothing]
    simp
  | unclosed before after dos word kind inside _ ih =>
    obtain ⟨here,same⟩ := inside.fed before builder level
    obtain ⟨next,step⟩ := Builder.step_feed _ here word
    have opened := step.of_do kind
    obtain ⟨last,kept⟩ := ih _ next (.inl rfl)
    rw [List.foldl_append,List.foldl_cons]
    refine ⟨last,kept.trans ?_⟩
    rw [opened,same]
    simp

theorem Assembly.blocks_finish (assembly : Assembly) (level : assembly.Level) (last : Token) :
    (assembly.finish last).reports.filter (·.error.ofBlock) =
      assembly.brackets.2.reverse ++ assembly.brackets.1.reverse.map (Report.mk .unclosedDo) := by
  have unclosed (tokens : List Token) (assembly : Assembly) :
      (tokens.foldl (fun assembly token => assembly.report .unclosedDo token) assembly).reports =
        (tokens.map (Report.mk .unclosedDo)).reverse ++ assembly.reports := by
    induction tokens generalizing assembly with
    | nil => rfl
    | cons token tokens ih =>
      rw [List.foldl_cons,ih]
      simp [report]
  have flushed : assembly.flush last = assembly := by
    have operands := level.operands
    obtain ⟨operands,roots,openBlocks,reports,skipping⟩ := assembly
    subst operands
    rfl
  have same := brackets_of_blocks _ _ (assembly.blocks_dropHeader last)
  have level := level.dropHeader last
  have marks (assembly : Assembly) :
      (assembly.dropElseMarks last).reports.filter (·.error.ofBlock) =
        assembly.reports.filter (·.error.ofBlock) := by
    unfold dropElseMarks
    split
    · simp [report,BuildError.ofBlock]
    · rfl
  unfold finish
  dsimp only
  rw [List.filter_reverse,marks,flushed,← same]
  generalize assembly.dropHeader last = dropped at level
  unfold closeOpenBlocks
  cases opened : beforeOpenBlock? dropped.roots.reverse with
  | none =>
    have apart := (beforeOpenBlock?_eq_none_iff dropped.roots.reverse).mp opened
    have none : dropped.openBlocks = [] := by
      have counted := level.counted
      rw [List.countP_eq_zero.mpr fun node member => by
        simp [apart node (List.mem_reverse.mpr member)]] at counted
      exact List.length_eq_zero_iff.mp counted
    simp [brackets,none]
  | some kept =>
    dsimp only
    have all : ∀ report ∈ (dropped.openBlocks.reverse.map (Report.mk .unclosedDo)).reverse,
        report.error.ofBlock = true := by simp [BuildError.ofBlock]
    rw [unclosed,List.filter_append,List.filter_eq_self.mpr all]
    simp [brackets]

/-- The `done` tokens that matching leaves over are the ones that are reported as unmatched, and
the `do` tokens that it leaves over are the ones that are reported as unclosed, in source order. -/
theorem brackets_iff (tokens dones dos : List Token) :
    Brackets tokens dones dos ↔
      (build tokens).reports.filter (·.error = .unmatchedDone) =
        dones.map (Report.mk .unmatchedDone) ∧
      (build tokens).reports.filter (·.error = .unclosedDo) = dos.map (Report.mk .unclosedDo) := by
  have reported (dones dos : List Token) (brackets : Brackets tokens dones dos) :
      (build tokens).reports.filter (·.error = .unmatchedDone) =
        dones.map (Report.mk .unmatchedDone) ∧
      (build tokens).reports.filter (·.error = .unclosedDo) = dos.map (Report.mk .unclosedDo) := by
    obtain ⟨level,fed⟩ := brackets.fed tokens dones dos .empty Builder.level_empty (.inr rfl)
    have ended : (build tokens).reports.filter (·.error.ofBlock) =
        dones.map (Report.mk .unmatchedDone) ++ dos.map (Report.mk .unclosedDo) := by
      have ended := Assembly.blocks_finish _ level.level (lastToken tokens)
      rw [fed] at ended
      refine ended.trans ?_
      simp [Assembly.brackets,Builder.empty,Assembly.empty]
    have among (error : BuildError) (block : error.ofBlock = true) :
        (build tokens).reports.filter (·.error = error) =
          (dones.map (Report.mk .unmatchedDone) ++ dos.map (Report.mk .unclosedDo)).filter
            (·.error = error) := by
      rw [← ended,List.filter_filter]
      refine List.filter_congr ?_
      intro report _
      by_cases same : report.error = error <;> simp [same,block]
    rw [among .unmatchedDone rfl,among .unclosedDo rfl]
    simp [List.filter_append,List.filter_map,Function.comp_def]
  constructor
  · exact reported dones dos
  · rintro ⟨unmatched,unclosed⟩
    obtain ⟨others,further,brackets⟩ := exists_brackets tokens
    obtain ⟨first,second⟩ := reported others further brackets
    have injective (error : BuildError) : Function.Injective (Report.mk error) :=
      fun _ _ same => congrArg Report.token same
    obtain rfl : others = dones :=
      List.map_injective_iff.mpr (injective .unmatchedDone) (first.symm.trans unmatched)
    obtain rfl : further = dos :=
      List.map_injective_iff.mpr (injective .unclosedDo) (second.symm.trans unclosed)
    exact brackets

end BlockScript
