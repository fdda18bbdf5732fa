import BlockScript.Proofs.Grammar.Basic

/-! The operators that wait while an expression is read. An operator is released by one that comes
in on its right if and only if it belongs to that one's left operand. -/
namespace BlockScript.Grammar
open Postfix

theorem Joiner.precedence_kind (joiner : Joiner) : precedence joiner.kind = joiner.level := by
  cases joiner with
  | arithmetic sign => cases sign <;> rfl
  | _ => rfl

theorem eq_assign_of_precedence (kind : TokenKind) (level : precedence kind = 2) :
    kind = .assign := by
  cases kind <;> simp_all [precedence]

theorem yields_of_leftLevel (joiner : Joiner) (kind : TokenKind)
    (tight : joiner.leftLevel ≤ precedence kind) : yields kind joiner.kind = true := by
  unfold Joiner.leftLevel at tight
  split at tight
  next same =>
    subst same
    simp only [Joiner.level] at tight
    have least : precedence .assign = 2 := rfl
    simp [yields,Joiner.kind,least]
    omega
  next other =>
    have apart : joiner.kind ≠ .assign := by
      cases joiner with
      | assign => contradiction
      | arithmetic sign => cases sign <;> simp [Joiner.kind]
      | _ => simp [Joiner.kind]
    simp [yields,Joiner.precedence_kind,apart]
    omega

theorem not_yields_of_rightLevel (joiner : Joiner) (kind : TokenKind)
    (tight : joiner.rightLevel ≤ precedence kind) : yields joiner.kind kind = false := by
  unfold Joiner.rightLevel at tight
  split at tight
  next same =>
    subst same
    simp only [Joiner.level] at tight
    by_cases equal : precedence kind = 2
    · rw [eq_assign_of_precedence kind equal]
      rfl
    · have least : precedence .assign = 2 := rfl
      simp [yields,Joiner.kind,least]
      omega
  next other =>
    simp [yields,Joiner.precedence_kind]
    omega

theorem release_held (goes : TokenKind → Bool) (held : List Token) (stack : List Waiting)
    (output : List Token) (all : ∀ operator ∈ held, goes operator.kind = true) :
    release goes (held.map .binary ++ stack) output =
      release goes stack (held.reverse ++ output) := by
  induction held generalizing output with
  | nil => rfl
  | cons operator rest ih =>
    have first := all operator (by simp)
    simp only [List.map_cons,List.cons_append,release,first,if_true]
    rw [ih (operator :: output) (fun other member => all other (by simp [member]))]
    simp

theorem release_guarded (goes : TokenKind → Bool) (stack : List Waiting) (output : List Token)
    (guarded : ∀ operator below, stack = .binary operator :: below → goes operator.kind = false) :
    release goes stack output = (stack,output) := by
  cases stack with
  | nil => rfl
  | cons waiting below =>
    cases waiting with
    | binary operator => simp [release,guarded operator below rfl]
    | _ => rfl

theorem unwind_held (held : List Token) (stack : List Waiting) (output : List Token) :
    unwind (held.map .binary ++ stack) output = unwind stack (held.reverse ++ output) := by
  induction held generalizing output with
  | nil => rfl
  | cons operator rest ih =>
    simp only [List.map_cons,List.cons_append,unwind]
    rw [ih (operator :: output)]
    simp

/-- The stack on which an expression of the given level may start: what waits on it waits for
all of the expression, and arguments stand right above their call. -/
structure Opens (level : Nat) (stack : List Waiting) : Prop where
  guarded : ∀ operator below, stack = .binary operator :: below →
    ∀ kind, level ≤ precedence kind → yields operator.kind kind = false
  called : level ≤ 1 → ∃ called before below, stack = .call called before :: below

theorem Opens.leading (level : Nat) (word : Token) (stack : List Waiting) (tight : 2 ≤ level) :
    Opens level (.leading word :: stack) := ⟨by simp,by omega⟩

theorem Opens.parenthesis (level : Nat) (stack : List Waiting) (tight : 2 ≤ level) :
    Opens level (.parenthesis :: stack) := ⟨by simp,by omega⟩

theorem Opens.call (level : Nat) (called : Token) (before : Nat) (stack : List Waiting) :
    Opens level (.call called before :: stack) := ⟨by simp,fun _ => ⟨called,before,stack,rfl⟩⟩

theorem Opens.nil (level : Nat) (tight : 2 ≤ level) : Opens level [] := ⟨by simp,by omega⟩

/-- The left operand may start where the expression around it may. -/
theorem Opens.left (level : Nat) (joiner : Joiner) (stack : List Waiting)
    (allowed : level ≤ joiner.level) (opens : Opens level stack) :
    Opens joiner.leftLevel stack := by
  have lower : joiner.level ≤ joiner.leftLevel := by
    unfold Joiner.leftLevel
    split <;> omega
  refine ⟨?_,?_⟩
  · intro operator below same kind tight
    exact opens.guarded operator below same kind (by omega)
  · intro loose
    exact opens.called (by omega)

theorem Opens.right (joiner : Joiner) (token : Token) (stack : List Waiting)
    (kind : token.kind = joiner.kind) : Opens joiner.rightLevel (.binary token :: stack) := by
  refine ⟨?_,?_⟩
  · intro operator below same incoming tight
    obtain ⟨rfl,-⟩ : token = operator ∧ stack = below := by simpa using same
    rw [kind]
    exact not_yields_of_rightLevel joiner incoming tight
  · intro loose
    exfalso
    unfold Joiner.rightLevel at loose
    cases joiner with
    | arithmetic sign => cases sign <;> simp [Joiner.level] at loose
    | _ => simp [Joiner.level] at loose

end BlockScript.Grammar
