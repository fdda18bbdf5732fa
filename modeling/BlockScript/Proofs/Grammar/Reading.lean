import BlockScript.Proofs.Grammar.Postfixed
import BlockScript.Proofs.Grammar.Waiting

/-! Expressions read token by token. The converter keeps some operators of an expression back until
it sees what follows; with these behind what it has put out, the tokens build the tree of the
expression. -/
namespace BlockScript.Grammar
open Postfix

def Quiet (tokens : List Token) (before after : Converter) : Prop :=
  ∀ assembly : Assembly, tokens.foldl Builder.feed ⟨.idle,before,assembly⟩ = ⟨.idle,after,assembly⟩

namespace Quiet

theorem append (left right : List Token) (before middle after : Converter)
    (first : Quiet left before middle) (second : Quiet right middle after) :
    Quiet (left ++ right) before after := by
  intro assembly
  rw [List.foldl_append,first assembly,second assembly]

theorem single (token : Token) (before after : Converter) (plain : token.kind ≠ .specifier)
    (awake : before.skipping = false) (converted : before.convert token = .ok ([],after)) :
    Quiet [token] before after := by
  intro assembly
  exact Builder.feed_quiet before after assembly token plain awake converted

theorem settled (token : Token) (before middle after : Converter)
    (plain : token.kind ≠ .specifier ∧ token.kind ≠ .opening) (same : before.settle = middle)
    (awake : middle.skipping = false) (converted : middle.convert token = .ok ([],after)) :
    Quiet [token] before after := by
  subst same
  refine single token before after plain.1 (by rwa [before.settle_skipping] at awake) ?_
  rw [before.convert_settle token plain.2]
  exact converted

end Quiet

/-- The converter has read an expression: some of its operators are held back on the stack, all
of them of the given level or tighter. -/
structure Read (level : Nat) (tokens : List Token) (node : Node) (output : List Token)
    (stack : List Waiting) (next : Converter) (emitted held : List Token) : Prop where
  quiet : Quiet tokens ⟨output,stack,none,false⟩ next
  settled : next.settle = ⟨emitted ++ output,held.map .binary ++ stack,none,false⟩
  tight : ∀ operator ∈ held, level ≤ precedence operator.kind
  made : Postfixed (emitted.reverse ++ held) node

theorem Read.literal (level : Nat) (token : Token) (node : Node) (output : List Token)
    (stack : List Waiting)
    (kind : token.kind = .integer ∨ token.kind = .real ∨ token.kind = .string)
    (made : Postfixed [token] node) :
    Read level [token] node output stack ⟨token :: output,stack,none,false⟩ [token] [] := by
  refine ⟨?_,rfl,by simp,made⟩
  refine Quiet.single token _ _ ?_ rfl ?_
  · rcases kind with kind | kind | kind <;> simp [kind]
  · rcases kind with kind | kind | kind <;>
      simp [Converter.convert,kind,Converter.settle,Converter.emit]

theorem Read.name (level : Nat) (token : Token) (output : List Token) (stack : List Waiting)
    (kind : token.kind = .name) :
    Read level [token] (.name token.lexeme) output stack ⟨output,stack,some token,false⟩ [token]
      [] := by
  refine ⟨?_,rfl,by simp,?_⟩
  · refine Quiet.single token _ _ (by simp [kind]) rfl ?_
    simp [Converter.convert,kind,Converter.settle]
  · exact Postfixed.single token _ rfl fun assembly => by simp [Assembly.apply,kind]

theorem convert_joiner (joiner : Joiner) (token : Token) (output : List Token)
    (stack : List Waiting) (kind : token.kind = joiner.kind)
    (opens : joiner.level ≤ 1 → ∃ called before below, stack = .call called before :: below)
    (held emitted : List Token)
    (tight : ∀ operator ∈ held, joiner.leftLevel ≤ precedence operator.kind)
    (guarded : ∀ operator below, stack = .binary operator :: below →
      yields operator.kind joiner.kind = false) :
    Converter.convert ⟨emitted ++ output,held.map .binary ++ stack,none,false⟩ token =
      .ok ([],⟨held.reverse ++ (emitted ++ output),.binary token :: stack,none,false⟩) := by
  have pushed : Converter.pushBinary ⟨emitted ++ output,held.map .binary ++ stack,none,false⟩ token =
      ⟨held.reverse ++ (emitted ++ output),.binary token :: stack,none,false⟩ := by
    have all : ∀ operator ∈ held, yields operator.kind token.kind = true := by
      intro operator member
      rw [kind]
      exact yields_of_leftLevel joiner operator.kind (tight operator member)
    have stopped : ∀ operator below, stack = .binary operator :: below →
        yields operator.kind token.kind = false := by
      rw [kind]
      exact guarded
    have released := release_held (yields · token.kind) held stack (emitted ++ output) all
    rw [release_guarded (yields · token.kind) stack _ stopped] at released
    simp [Converter.pushBinary,Converter.releaseBinaries,Converter.push,released]
  cases joiner with
  | argument =>
    obtain ⟨called,before,below,same⟩ := opens (by simp [Joiner.level])
    subst same
    simp only [Joiner.kind] at kind
    simp [Converter.convert,kind,Converter.settle,Converter.pushComma,pushed,Except.map]
  | arithmetic sign =>
    cases sign <;> simp only [Joiner.kind] at kind <;>
      simp [Converter.convert,kind,Converter.settle,pushed]
  | _ =>
    simp only [Joiner.kind] at kind
    simp [Converter.convert,kind,Converter.settle,pushed]

/-- Reading the right operand of an operator finishes the expression around both. -/
theorem Read.joined (level : Nat) (joiner : Joiner) (token : Spelled joiner.kind joiner.spelling)
    (left right : List Token) (first second : Node) (output : List Token) (stack : List Waiting)
    (allowed : level ≤ joiner.level) (opens : Opens level stack)
    (middle : Converter) (emitted held : List Token)
    (leftRead : Read joiner.leftLevel left first output stack middle emitted held)
    (next : Converter) (emittedRight heldRight : List Token)
    (rightRead : Read joiner.rightLevel right second (held.reverse ++ (emitted ++ output))
      (.binary token.val :: stack) next emittedRight heldRight) :
    Read level (left ++ token.val :: right) (joiner.join first second) output stack next
      (emittedRight ++ (held.reverse ++ emitted)) (heldRight ++ [token.val]) := by
  have inner := opens.left level joiner stack allowed
  have outer : level ≤ joiner.rightLevel := by
    unfold Joiner.rightLevel
    split <;> omega
  refine ⟨?_,?_,?_,?_⟩
  · have between : Quiet [token.val] middle
        ⟨held.reverse ++ (emitted ++ output),.binary token.val :: stack,none,false⟩ := by
      have plain : token.val.kind ≠ .specifier ∧ token.val.kind ≠ .opening := by
        rw [token.property.1]
        cases joiner with
        | arithmetic sign => cases sign <;> simp [Joiner.kind]
        | _ => simp [Joiner.kind]
      refine Quiet.settled token.val middle _ _ plain leftRead.settled rfl ?_
      refine convert_joiner joiner token.val output stack token.property.1 ?_ held emitted
        leftRead.tight ?_
      · intro loose
        exact opens.called (by omega)
      · intro operator below same
        exact opens.guarded operator below same joiner.kind (by rw [joiner.precedence_kind]; exact allowed)
    have rest := Quiet.append [token.val] right _ _ _ between rightRead.quiet
    exact Quiet.append left _ _ _ _ leftRead.quiet rest
  · rw [rightRead.settled]
    simp
  · intro operator member
    rcases List.mem_append.mp member with inside | last
    · exact Nat.le_trans outer (rightRead.tight operator inside)
    · rw [List.mem_singleton.mp last,token.property.1,joiner.precedence_kind]
      exact allowed
  · have whole := Postfixed.joined joiner token _ _ first second leftRead.made rightRead.made
    simpa using whole

theorem releaseBinaries_held (emitted output held : List Token) (stack : List Waiting)
    (stopped : ∀ operator below, stack ≠ .binary operator :: below) :
    Converter.releaseBinaries (fun _ => true)
        ⟨emitted ++ output,held.map .binary ++ stack,none,false⟩ =
      ⟨held.reverse ++ (emitted ++ output),stack,none,false⟩ := by
  have released := release_held (fun _ => true) held stack (emitted ++ output) (by simp)
  rw [release_guarded (fun _ => true) stack _
    (fun operator below same => absurd same (stopped operator below))] at released
  simp [Converter.releaseBinaries,released]

theorem Read.parentheses (level : Nat) (opening : Of .opening) (closing : Of .closing)
    (tokens : List Token) (node : Node) (output : List Token) (stack : List Waiting)
    (middle : Converter) (emitted held : List Token)
    (inner : Read 2 tokens node output (.parenthesis :: stack) middle emitted held) :
    Read level (opening.val :: tokens ++ [closing.val]) node output stack
      ⟨held.reverse ++ (emitted ++ output),stack,none,false⟩ (held.reverse ++ emitted) [] := by
  obtain ⟨opening,opens⟩ := opening
  obtain ⟨closing,closes⟩ := closing
  refine ⟨?_,by simp [Converter.settle],by simp,by simpa using inner.made⟩
  have first : Quiet [opening] ⟨output,stack,none,false⟩
      ⟨output,.parenthesis :: stack,none,false⟩ := by
    refine Quiet.single opening _ _ (by simp [opens]) rfl ?_
    simp [Converter.convert,opens,Converter.settle,Converter.push]
  have last : Quiet [closing] middle ⟨held.reverse ++ (emitted ++ output),stack,none,false⟩ := by
    refine Quiet.settled closing middle _ _ (by simp [closes]) inner.settled rfl ?_
    simp [Converter.convert,closes,Converter.settle,Converter.closeParenthesis,
      releaseBinaries_held,Except.map]
  exact Quiet.append [opening] _ _ _ _ first (Quiet.append tokens _ _ _ _ inner.quiet last)

theorem Quiet.opening (called opening : Token) (output : List Token) (stack : List Waiting)
    (named : called.kind = .name) (opens : opening.kind = .opening) :
    Quiet [called,opening] ⟨output,stack,none,false⟩
      ⟨output,.call called output.length :: stack,none,false⟩ := by
  have first : Quiet [called] ⟨output,stack,none,false⟩ ⟨output,stack,some called,false⟩ := by
    refine Quiet.single called _ _ (by simp [named]) rfl ?_
    simp [Converter.convert,named,Converter.settle]
  have second : Quiet [opening] ⟨output,stack,some called,false⟩
      ⟨output,.call called output.length :: stack,none,false⟩ := by
    refine Quiet.single opening _ _ (by simp [opens]) rfl ?_
    simp [Converter.convert,opens,Converter.push]
  exact Quiet.append [called] [opening] _ _ _ first second

theorem Read.callNoArgs (level : Nat) (called : Of .name) (opening : Of .opening)
    (closing : Of .closing) (output : List Token) (stack : List Waiting) :
    ∃ next emitted, Read level [called.val,opening.val,closing.val]
      (.callNoArgs called.val.lexeme) output stack next emitted [] := by
  obtain ⟨called,named⟩ := called
  obtain ⟨opening,opens⟩ := opening
  obtain ⟨closing,closes⟩ := closing
  let whole : Token := ⟨.callNoArgs,called.lexeme,called.span.cover closing.span⟩
  refine ⟨⟨whole :: output,stack,none,false⟩,[whole],?_,by simp [Converter.settle],by simp,?_⟩
  · have last : Quiet [closing] ⟨output,.call called output.length :: stack,none,false⟩
        ⟨whole :: output,stack,none,false⟩ := by
      refine Quiet.single closing _ _ (by simp [closes]) rfl ?_
      have released := releaseBinaries_held [] output [] (.call called output.length :: stack)
        (by simp)
      simp only [List.map_nil,List.nil_append,List.reverse_nil] at released
      simp [Converter.convert,closes,Converter.settle,Converter.closeParenthesis,released,
        Except.map,whole]
    exact Quiet.append [called,opening] [closing] _ _ _
      (Quiet.opening called opening output stack named opens) last
  · exact Postfixed.single whole _ rfl fun assembly => by simp [Assembly.apply,whole]

theorem Read.call (level : Nat) (called : Of .name) (opening : Of .opening) (closing : Of .closing)
    (inside : Nat) (tokens : List Token) (node made : Node) (output : List Token)
    (stack : List Waiting) (middle : Converter) (emitted held : List Token)
    (inner : Read inside tokens node output (.call called.val output.length :: stack) middle emitted
      held)
    (covered : ∀ span, Postfixed (emitted.reverse ++ held ++ [⟨.call,called.val.lexeme,span⟩]) made) :
    ∃ next emitted, Read level (called.val :: opening.val :: tokens ++ [closing.val]) made output
      stack next emitted [] := by
  obtain ⟨called,named⟩ := called
  obtain ⟨opening,opens⟩ := opening
  obtain ⟨closing,closes⟩ := closing
  let whole : Token := ⟨.call,called.lexeme,called.span.cover closing.span⟩
  refine ⟨⟨whole :: (held.reverse ++ (emitted ++ output)),stack,none,false⟩,
    whole :: (held.reverse ++ emitted),?_,by simp [Converter.settle],by simp,?_⟩
  · have grown : ¬(held.length + (emitted.length + output.length) = output.length) := by
      have nonempty := inner.made.ne_nil
      intro same
      apply nonempty
      have none : emitted.length = 0 ∧ held.length = 0 := by omega
      simp [List.length_eq_zero_iff.mp none.1,List.length_eq_zero_iff.mp none.2]
    have last : Quiet [closing] middle
        ⟨whole :: (held.reverse ++ (emitted ++ output)),stack,none,false⟩ := by
      refine Quiet.settled closing middle _ _ (by simp [closes]) inner.settled rfl ?_
      simp [Converter.convert,closes,Converter.settle,Converter.closeParenthesis,
        releaseBinaries_held,Except.map,grown,whole]
    have rest := Quiet.append tokens [closing] _ _ _ inner.quiet last
    exact Quiet.append [called,opening] _ _ _ _
      (Quiet.opening called opening output stack named opens) rest
  · simpa using covered (called.span.cover closing.span)

/-- Outside of a call's parentheses no expression is a list of arguments. -/
theorem chain_of_expression (level : Nat) (tokens : List Token) (node : Node) (tight : 2 ≤ level)
    (written : Expression level tokens node) : Assembly.chain node = .lastArgument node := by
  induction written with
  | joined level joiner token left right first second allowed _ _ =>
    cases joiner with
    | argument =>
      simp only [Joiner.level] at allowed
      omega
    | _ => rfl
  | parentheses _ _ _ _ _ _ inner => exact inner (by omega)
  | _ => rfl

/-- Wherever an expression may start, its tokens leave the converter with the expression read. -/
theorem read_expression (level : Nat) (tokens : List Token) (node : Node)
    (written : Expression level tokens node) (output : List Token) (stack : List Waiting)
    (opens : Opens level stack) :
    ∃ next emitted held, Read level tokens node output stack next emitted held := by
  induction written generalizing output stack with
  | name level token => exact ⟨_,_,_,Read.name level token.val output stack token.property⟩
  | integer level token value read =>
    refine ⟨_,_,_,Read.literal level token.val _ output stack (.inl token.property) ?_⟩
    exact Postfixed.single token.val _ rfl fun assembly => by
      simp [Assembly.apply,token.property,read]
  | real level token value read =>
    refine ⟨_,_,_,Read.literal level token.val _ output stack (.inr (.inl token.property)) ?_⟩
    exact Postfixed.single token.val _ rfl fun assembly => by
      simp [Assembly.apply,token.property,read]
  | string level token =>
    refine ⟨_,_,_,Read.literal level token.val _ output stack (.inr (.inr token.property)) ?_⟩
    exact Postfixed.single token.val _ rfl fun assembly => by
      simp [Assembly.apply,token.property]
  | joined level joiner token left right first second allowed _ _ firstRead secondRead =>
    obtain ⟨middle,emitted,held,leftRead⟩ := firstRead output stack
      (opens.left level joiner stack allowed)
    obtain ⟨next,emittedRight,heldRight,rightRead⟩ := secondRead
      (held.reverse ++ (emitted ++ output)) (.binary token.val :: stack)
      (Opens.right joiner token.val stack token.property.1)
    exact ⟨_,_,_,Read.joined level joiner token left right first second output stack allowed opens
      middle emitted held leftRead next emittedRight heldRight rightRead⟩
  | parentheses level opening closing tokens node _ innerRead =>
    obtain ⟨middle,emitted,held,inner⟩ := innerRead output (.parenthesis :: stack)
      (Opens.parenthesis 2 stack (by omega))
    exact ⟨_,_,_,Read.parentheses level opening closing tokens node output stack middle emitted held
      inner⟩
  | callNoArgs level called opening closing =>
    obtain ⟨next,emitted,whole⟩ := Read.callNoArgs level called opening closing output stack
    exact ⟨next,emitted,[],whole⟩
  | callOne level called opening closing tokens node written innerRead =>
    obtain ⟨middle,emitted,held,inner⟩ := innerRead output (.call called.val output.length :: stack)
      (Opens.call 2 called.val output.length stack)
    have single := chain_of_expression 2 tokens node (by omega) written
    obtain ⟨next,whole,read⟩ := Read.call level called opening closing 2 tokens node _ output stack
      middle emitted held inner fun _ => Postfixed.callOne _ _ _ node rfl rfl single inner.made
    exact ⟨next,whole,[],read⟩
  | callMany level called opening closing tokens earlier last _ innerRead =>
    obtain ⟨middle,emitted,held,inner⟩ := innerRead output (.call called.val output.length :: stack)
      (Opens.call 1 called.val output.length stack)
    obtain ⟨next,whole,read⟩ := Read.call level called opening closing 1 tokens _ _ output stack
      middle emitted held inner fun _ => Postfixed.callMany _ _ _ earlier last rfl rfl inner.made
    exact ⟨next,whole,[],read⟩

end BlockScript.Grammar
