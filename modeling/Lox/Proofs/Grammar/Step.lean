import Lox.Grammar.Statement

set_option autoImplicit false

namespace Lox

def Cursor.past (cursor : Cursor) (token : Token) (ahead : List Token) : Cursor :=
  { cursor with behind := token :: cursor.behind, ahead }

namespace Parse

open Reader

variable {α β : Type}

/-- The plain reader takes a step as it is. -/
@[simp] theorem step_eq (reading : Parse α) : (step reading : Parse α) = reading := rfl

theorem bind_eq (step : Parse α) (next : α → Parse β) : step >>= next = step.andThen next := rfl

theorem map_eq (f : α → β) (step : Parse α) : f <$> step = step >>= fun value => pure (f value) :=
  rfl

theorem bind_of_ok {step : Parse α} {cursor middle : Cursor} {value : α}
    (success : step cursor = .ok value middle) (next : α → Parse β) :
    (step >>= next) cursor = next value middle := by
  simp only [bind_eq, andThen, success]

theorem bind_of_failed {step : Parse α} {cursor middle : Cursor}
    (failed : step cursor = .failed middle) (next : α → Parse β) :
    (step >>= next) cursor = .failed middle := by
  simp only [bind_eq, andThen, failed]

theorem bind_of_spent {step : Parse α} {cursor : Cursor} (short : step cursor = .spent)
    (next : α → Parse β) : (step >>= next) cursor = .spent := by
  simp only [bind_eq, andThen, short]

theorem accept_cases (among : Kind → Bool) (cursor : Cursor) :
    (accept among cursor = .ok none cursor ∧
      ∀ token ∈ cursor.ahead.head?, among token.kind = false) ∨
    ∃ token ahead, cursor.ahead = token :: ahead ∧ among token.kind = true ∧
      accept among cursor = .ok (some token) (cursor.past token ahead) := by
  unfold accept
  cases tokens : cursor.ahead with
  | nil => exact Or.inl ⟨rfl, by simp⟩
  | cons token ahead =>
    by_cases wanted : among token.kind = true
    · refine Or.inr ⟨token, ahead, rfl, wanted, ?_⟩
      simp only [wanted, ↓reduceIte, Cursor.past]
    · refine Or.inl ⟨by simp only [wanted, Bool.false_eq_true, ↓reduceIte], ?_⟩
      intro next member
      cases member
      simpa using wanted

theorem expect_cases (kind : Kind) (error : SyntaxError) (cursor : Cursor) :
    expect (M := Parse) kind error cursor = .failed (cursor.record error cursor.here) ∨
    ∃ token ahead, cursor.ahead = token :: ahead ∧ token.kind = kind ∧
      expect (M := Parse) kind error cursor = .ok token (cursor.past token ahead) := by
  unfold expect
  rw [step_eq]
  rcases accept_cases (· == kind) cursor with ⟨out, _⟩ | ⟨token, ahead, tokens, wanted, out⟩
  · rw [bind_of_ok out]
    exact Or.inl rfl
  · rw [bind_of_ok out]
    exact Or.inr ⟨token, ahead, tokens, beq_iff_eq.mp wanted, rfl⟩

theorem acceptAtom_cases (cursor : Cursor) :
    (acceptAtom cursor = .ok none cursor ∧
      ∀ token ∈ cursor.ahead.head?, Expr.ofToken? token = none) ∨
    ∃ token ahead expr, cursor.ahead = token :: ahead ∧ Expr.ofToken? token = some expr ∧
      acceptAtom cursor = .ok (some expr) (cursor.past token ahead) := by
  unfold acceptAtom
  cases tokens : cursor.ahead with
  | nil => exact Or.inl ⟨rfl, by simp⟩
  | cons token ahead =>
    cases atom : Expr.ofToken? token with
    | none =>
      refine Or.inl ⟨by simp only [atom], ?_⟩
      intro next member
      cases member
      exact atom
    | some expr => exact Or.inr ⟨token, ahead, expr, rfl, atom, by simp only [atom, Cursor.past]⟩

theorem declarationsWithin_succ (depth : Nat) (inBlock : Bool) (cursor : Cursor) :
    declarationsWithin (M := Parse) (depth + 1) inBlock cursor =
      if cursor.ahead.isEmpty || (inBlock && cursor.sees .rightBrace) then .ok [] cursor
      else (declarationWithin depth >>= fun first => declarationsWithin depth inBlock >>=
        fun others => pure (first.toList ++ others) : Parse (List Stmt)) cursor := by
  rw [declarationsWithin]
  show (if _ then _ else _ : Parse (List Stmt)) cursor = _
  split <;> rfl

end Parse

namespace Cursor

theorem skipTo_eq (behind ahead : List Token) :
    ∃ skipped rest, ahead = skipped ++ rest ∧
      skipTo behind ahead = (skipped.reverse ++ behind, rest) := by
  induction ahead generalizing behind with
  | nil => exact ⟨[], [], rfl, rfl⟩
  | cons next ahead ih =>
    unfold skipTo
    split
    · exact ⟨[], next :: ahead, rfl, rfl⟩
    · obtain ⟨skipped, rest, rfl, out⟩ := ih (next :: behind)
      exact ⟨next :: skipped, rest, rfl, by simp [out]⟩

/-- At least the token ahead is left out, if there is one. -/
theorem synchronize_eq (cursor : Cursor) :
    ∃ skipped rest, cursor.ahead = skipped ++ rest ∧ (cursor.ahead = [] ∨ skipped ≠ []) ∧
      cursor.synchronize =
        { cursor with behind := skipped.reverse ++ cursor.behind, ahead := rest } := by
  obtain ⟨behind, ahead, last, functions, problems⟩ := cursor
  cases ahead with
  | nil => exact ⟨[], [], rfl, Or.inl rfl, rfl⟩
  | cons next ahead =>
    obtain ⟨skipped, rest, rfl, out⟩ := skipTo_eq (next :: behind) ahead
    refine ⟨next :: skipped, rest, rfl, Or.inr (List.cons_ne_nil _ _), ?_⟩
    simp [synchronize, out]

end Cursor

end Lox
