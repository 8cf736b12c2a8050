import Lox.Proofs.Grammar.Depth

set_option autoImplicit false

namespace Lox

namespace Parse

open Reader

variable {α : Type} {n least : Nat}

theorem agrees_parametersWithin (depth : Nat) : ∀ more n count, n < depth → n < more →
    Agrees n 1 (parametersWithin depth count) (parametersWithin more count) := by
  induction depth with
  | zero =>
    intro more n count deep
    omega
  | succ depth ih =>
    intro more n count deep deeper
    obtain ⟨fewer, rfl⟩ : ∃ fewer, more = fewer + 1 := ⟨more - 1, by omega⟩
    rw [parametersWithin, parametersWithin]
    apply (agrees_ite (agrees_noteHere _) (agrees_pure ())).andThen (k := 1) _ (Nat.le_refl _)
    intro _
    apply (agrees_expect .identifier _).andThen (k := 0) _ (Nat.le_refl _)
    intro name
    apply agrees_accept
    · exact agrees_pure _
    · intro comma closer less
      apply ((ih fewer closer (count + 1) (by omega) (by omega)).lax).andThen (k := 0) _ (Nat.le_refl _)
      intro others
      exact agrees_pure _

theorem parametersWithin_eq {depth : Nat} {cursor : Cursor}
    (deep : cursor.ahead.length < depth) :
    parametersWithin (M := Parse) depth 0 cursor = parameterNames (M := Parse) cursor :=
  (agrees_parametersWithin (ample cursor) depth cursor.ahead.length 0
    (by unfold ample; omega) deep cursor (Nat.le_refl _)).1

theorem agrees_parameterNames (n : Nat) : Agrees n 1 parameterNames parameterNames := by
  intro cursor _
  have deep : cursor.ahead.length < ample cursor := by
    unfold ample
    omega
  exact agrees_parametersWithin _ _ _ 0 deep deep cursor (Nat.le_refl _)

theorem agrees_parameters (n : Nat) : Agrees n 1 parameters parameters := by
  unfold parameters
  apply (agrees_expect .leftParen _).andThen (k := 0) _ (Nat.le_refl _)
  intro _
  have names := (agrees_parameterNames (n - 1)).lax
  apply (agrees_sees_ite .rightParen (agrees_pure _) names).andThen (k := 0) _ (Nat.le_refl _)
  intro names
  apply (agrees_expect .rightParen _).andThen (k := 0) _ (Nat.zero_le _)
  intro _
  exact agrees_pure _

theorem agrees_variableStatement (n : Nat) : Agrees n 1 variableStatement variableStatement := by
  unfold variableStatement
  apply (agrees_expect .identifier _).andThen (k := 0) _ (Nat.le_refl _)
  intro name
  refine @Agrees.andThen _ _ _ 0 _ 0 _ _ _ _ (agrees_accept (agrees_pure _) ?_) ?_ (Nat.le_refl _)
  · intro _ fewer _
    exact (agrees_expression fewer).lax
  · intro value
    apply (agrees_expect .semicolon _).andThen (k := 0) _ (Nat.zero_le _)
    intro _
    exact agrees_pure _

theorem agrees_ended (n : Nat) (error : SyntaxError) (make : Expr → Stmt) :
    Agrees n 1 (ended error make) (ended error make) := by
  unfold ended
  apply (agrees_expression n).andThen (k := 0) _ (Nat.le_refl _)
  intro value
  apply (agrees_expect .semicolon _).andThen (k := 0) _ (Nat.zero_le _)
  intro _
  exact agrees_pure _

theorem agrees_returning (n : Nat) (keyword : Token) :
    Agrees n 0 (returning keyword) (returning keyword) := by
  unfold returning
  apply agrees_insideFunction.andThen (k := 0) _ (Nat.le_refl _)
  intro inside
  exact agrees_ite (agrees_pure ()) (agrees_note _ keyword)

theorem agrees_returnStatement (n : Nat) (keyword : Token) :
    Agrees n 1 (returnStatement keyword) (returnStatement keyword) := by
  unfold returnStatement
  apply (agrees_returning n keyword).andThen (k := 1) _ (Nat.le_refl _)
  intro _
  have value := (agrees_map some (agrees_expression n)).lax
  apply (agrees_sees_ite .semicolon (agrees_pure _) value).andThen (k := 1) _ (Nat.le_refl _)
  intro value
  apply (agrees_expect .semicolon _).andThen (k := 0) _ (Nat.le_refl _)
  intro _
  exact agrees_pure _

theorem agrees_forInitial (n : Nat) : Agrees n 1 forInitial forInitial := by
  unfold forInitial
  apply agrees_accept
  · apply agrees_accept
    · exact agrees_map some (agrees_ended n _ .expression)
    · intro _ fewer _
      exact (agrees_map some (agrees_variableStatement fewer)).lax
  · intro _ _ _
    exact agrees_pure _

theorem agrees_forCondition (n : Nat) : Agrees n 1 forCondition forCondition := by
  unfold forCondition
  have value := (agrees_expression n).lax
  apply (agrees_sees_ite .semicolon (agrees_pure _) value).andThen (k := 1) _ (Nat.le_refl _)
  intro condition
  apply (agrees_expect .semicolon _).andThen (k := 0) _ (Nat.le_refl _)
  intro _
  exact agrees_pure _

theorem agrees_forIncrement (n : Nat) : Agrees n 1 forIncrement forIncrement := by
  unfold forIncrement
  have value := (agrees_map some (agrees_expression n)).lax
  apply (agrees_sees_ite .rightParen (agrees_pure _) value).andThen (k := 1) _ (Nat.le_refl _)
  intro increment
  apply (agrees_expect .rightParen _).andThen (k := 0) _ (Nat.le_refl _)
  intro _
  exact agrees_pure _

theorem Agrees.inFunction {first second : Parse α} (agrees : Agrees n least first second) :
    Agrees n least (inFunction first) (inFunction second) := by
  intro cursor short
  obtain ⟨same, leaves⟩ := agrees { cursor with functions := cursor.functions + 1 } short
  unfold Parse.inFunction
  rw [same]
  refine ⟨rfl, ?_⟩
  revert leaves
  cases first { cursor with functions := cursor.functions + 1 } <;> exact id

/-- Where nothing can be read, at least one token is left out. -/
theorem Agrees.recovering {first second : Parse α} (agrees : Agrees n 1 first second) :
    Agrees n 1 (recovering first) (recovering second) := by
  intro cursor short
  obtain ⟨same, leaves⟩ := agrees cursor short
  unfold Parse.recovering
  rw [same]
  refine ⟨rfl, ?_⟩
  cases out : first cursor with
  | ok value next =>
    rw [out] at leaves
    exact leaves
  | failed next =>
    rw [out] at leaves
    have left : next.ahead.length ≤ cursor.ahead.length := leaves
    obtain ⟨skipped, rest, tokens, least, synchronized⟩ := next.synchronize_eq
    show next.synchronize.ahead.length ≤ cursor.ahead.length - 1
    rw [synchronized]
    have split := congrArg List.length tokens
    rw [List.length_append] at split
    rcases least with empty | more
    · have silence := congrArg List.length empty
      simp only [List.length_nil] at silence ⊢
      omega
    · have noted := List.length_pos_iff.mpr more
      simp only
      omega
  | spent =>
    rw [out] at leaves
    exact leaves

structure StatementsAgree (depth more : Nat) : Prop where
  declaration (n : Nat) (deep : 16 * n + 5 ≤ depth) (deeper : 16 * n + 5 ≤ more) :
    Agrees n 1 (declarationWithin depth) (declarationWithin more)
  function (n : Nat) (deep : 16 * n + 12 ≤ depth) (deeper : 16 * n + 12 ≤ more) :
    Agrees n 1 (functionWithin depth) (functionWithin more)
  statement (n : Nat) (deep : 16 * n + 4 ≤ depth) (deeper : 16 * n + 4 ≤ more) :
    Agrees n 1 (statementWithin depth) (statementWithin more)
  forLoop (n : Nat) (deep : 16 * n + 12 ≤ depth) (deeper : 16 * n + 12 ≤ more) :
    Agrees n 1 (forWithin depth) (forWithin more)
  branch (n : Nat) (deep : 16 * n + 12 ≤ depth) (deeper : 16 * n + 12 ≤ more) :
    Agrees n 1 (ifWithin depth) (ifWithin more)
  loop (n : Nat) (deep : 16 * n + 12 ≤ depth) (deeper : 16 * n + 12 ≤ more) :
    Agrees n 1 (whileWithin depth) (whileWithin more)
  block (n : Nat) (deep : 16 * n + 11 ≤ depth) (deeper : 16 * n + 11 ≤ more) :
    Agrees n 0 (blockWithin depth) (blockWithin more)
  declarations (n : Nat) (inBlock : Bool) (deep : 16 * n + 6 ≤ depth)
    (deeper : 16 * n + 6 ≤ more) :
    Agrees n 0 (declarationsWithin depth inBlock) (declarationsWithin more inBlock)

namespace StatementsAgree

variable {depth more : Nat}

theorem declaration_succ (agree : StatementsAgree depth more) (n : Nat)
    (deep : 16 * n + 5 ≤ depth + 1) (deeper : 16 * n + 5 ≤ more + 1) :
    Agrees n 1 (declarationWithin (depth + 1)) (declarationWithin (more + 1)) := by
  rw [declarationWithin, declarationWithin]
  apply Agrees.recovering
  apply agrees_accept
  · apply agrees_accept
    · exact agree.statement n (by omega) (by omega)
    · intro _ fewer _
      exact (agrees_variableStatement fewer).lax
  · intro _ fewer less
    exact (agree.function fewer (by omega) (by omega)).lax

theorem function_succ (agree : StatementsAgree depth more) (n : Nat)
    (deep : 16 * n + 12 ≤ depth + 1) (deeper : 16 * n + 12 ≤ more + 1) :
    Agrees n 1 (functionWithin (depth + 1)) (functionWithin (more + 1)) := by
  rw [functionWithin, functionWithin]
  apply (agrees_expect .identifier _).andThen (k := 0) _ (Nat.le_refl _)
  intro name
  apply (agrees_parameters _).andThen (k := 0) _ (Nat.zero_le _)
  intro params
  apply (agrees_expect .leftBrace _).andThen (k := 0) _ (Nat.zero_le _)
  intro _
  apply (agree.block _ (by omega) (by omega)).inFunction.andThen (k := 0) _ (Nat.le_refl _)
  intro body
  exact agrees_pure _

theorem statement_succ (agree : StatementsAgree depth more) (n : Nat)
    (deep : 16 * n + 4 ≤ depth + 1) (deeper : 16 * n + 4 ≤ more + 1) :
    Agrees n 1 (statementWithin (depth + 1)) (statementWithin (more + 1)) := by
  rw [statementWithin, statementWithin]
  apply agrees_accept _ fun _ fewer less => (agree.forLoop fewer (by omega) (by omega)).lax
  apply agrees_accept _ fun _ fewer less => (agree.branch fewer (by omega) (by omega)).lax
  apply agrees_accept _ fun _ fewer _ => (agrees_ended fewer _ .print).lax
  apply agrees_accept _ fun keyword fewer _ => (agrees_returnStatement fewer keyword).lax
  apply agrees_accept _ fun _ fewer less => (agree.loop fewer (by omega) (by omega)).lax
  apply agrees_accept
  · exact agrees_ended n _ .expression
  · intro _ fewer less
    apply (agree.block fewer (by omega) (by omega)).andThen (k := 0) _ (Nat.le_refl _)
    intro body
    exact agrees_pure _

theorem forLoop_succ (agree : StatementsAgree depth more) (n : Nat)
    (deep : 16 * n + 12 ≤ depth + 1) (deeper : 16 * n + 12 ≤ more + 1) :
    Agrees n 1 (forWithin (depth + 1)) (forWithin (more + 1)) := by
  rw [forWithin, forWithin]
  apply (agrees_expect .leftParen _).andThen (k := 0) _ (Nat.le_refl _)
  intro _
  apply (agrees_forInitial _).andThen (k := 0) _ (Nat.zero_le _)
  intro initial
  apply (agrees_forCondition _).andThen (k := 0) _ (Nat.zero_le _)
  intro condition
  apply (agrees_forIncrement _).andThen (k := 0) _ (Nat.zero_le _)
  intro increment
  apply (agree.statement _ (by omega) (by omega)).andThen (k := 0) _ (Nat.zero_le _)
  intro body
  exact agrees_pure _

theorem branch_succ (agree : StatementsAgree depth more) (n : Nat)
    (deep : 16 * n + 12 ≤ depth + 1) (deeper : 16 * n + 12 ≤ more + 1) :
    Agrees n 1 (ifWithin (depth + 1)) (ifWithin (more + 1)) := by
  rw [ifWithin, ifWithin]
  apply (agrees_expect .leftParen _).andThen (k := 0) _ (Nat.le_refl _)
  intro _
  apply (agrees_expression _).andThen (k := 0) _ (Nat.zero_le _)
  intro condition
  apply (agrees_expect .rightParen _).andThen (k := 0) _ (Nat.zero_le _)
  intro _
  apply (agree.statement _ (by omega) (by omega)).andThen (k := 0) _ (Nat.zero_le _)
  intro yes
  apply agrees_accept
  · exact agrees_pure _
  · intro _ fewer less
    apply (agree.statement fewer (by omega) (by omega)).andThen (k := 0) _ (Nat.zero_le _)
    intro no
    exact agrees_pure _

theorem loop_succ (agree : StatementsAgree depth more) (n : Nat)
    (deep : 16 * n + 12 ≤ depth + 1) (deeper : 16 * n + 12 ≤ more + 1) :
    Agrees n 1 (whileWithin (depth + 1)) (whileWithin (more + 1)) := by
  rw [whileWithin, whileWithin]
  apply (agrees_expect .leftParen _).andThen (k := 0) _ (Nat.le_refl _)
  intro _
  apply (agrees_expression _).andThen (k := 0) _ (Nat.zero_le _)
  intro condition
  apply (agrees_expect .rightParen _).andThen (k := 0) _ (Nat.zero_le _)
  intro _
  apply (agree.statement _ (by omega) (by omega)).andThen (k := 0) _ (Nat.zero_le _)
  intro body
  exact agrees_pure _

theorem block_succ (agree : StatementsAgree depth more) (n : Nat)
    (deep : 16 * n + 11 ≤ depth + 1) (deeper : 16 * n + 11 ≤ more + 1) :
    Agrees n 0 (blockWithin (depth + 1)) (blockWithin (more + 1)) := by
  rw [blockWithin, blockWithin]
  apply (agree.declarations n true (by omega) (by omega)).andThen (k := 0) _ (Nat.le_refl _)
  intro body
  apply (agrees_expect .rightBrace _).andThen (k := 0) _ (Nat.zero_le _)
  intro _
  exact agrees_pure _

theorem declarations_succ (agree : StatementsAgree depth more) (n : Nat) (inBlock : Bool)
    (deep : 16 * n + 6 ≤ depth + 1) (deeper : 16 * n + 6 ≤ more + 1) :
    Agrees n 0 (declarationsWithin (depth + 1) inBlock) (declarationsWithin (more + 1) inBlock) := by
  intro cursor short
  rw [declarationsWithin_succ, declarationsWithin_succ]
  split
  · exact ⟨rfl, Nat.le_refl _⟩
  · rename_i unfinished
    -- There is a token ahead, and the first declaration takes it.
    have noted : 0 < cursor.ahead.length := by
      cases tokens : cursor.ahead with
      | nil => simp [tokens] at unfinished
      | cons token ahead => simp
    have both : Agrees cursor.ahead.length 0
        (declarationWithin depth >>= fun first => declarationsWithin depth inBlock >>= fun others =>
          pure (first.toList ++ others))
        (declarationWithin more >>= fun first => declarationsWithin more inBlock >>= fun others =>
          pure (first.toList ++ others)) := by
      apply (agree.declaration _ (by omega) (by omega)).andThen (k := 0) _ (Nat.zero_le _)
      intro first
      apply (agree.declarations _ inBlock (by omega) (by omega)).andThen (k := 0) _ (Nat.le_refl _)
      intro others
      exact agrees_pure _
    exact both cursor (Nat.le_refl _)

end StatementsAgree

theorem statementsAgree_of_zero {depth more : Nat} (silence : depth = 0 ∨ more = 0) :
    StatementsAgree depth more := by
  refine ⟨?_, ?_, ?_, ?_, ?_, ?_, ?_, ?_⟩ <;>
  · intros
    omega

theorem statementsAgree (depth : Nat) : ∀ more, StatementsAgree depth more := by
  induction depth with
  | zero => exact fun _ => statementsAgree_of_zero (Or.inl rfl)
  | succ depth ih =>
    intro more
    cases more with
    | zero => exact statementsAgree_of_zero (Or.inr rfl)
    | succ more =>
      have agree := ih more
      exact ⟨agree.declaration_succ, agree.function_succ, agree.statement_succ, agree.forLoop_succ,
        agree.branch_succ, agree.loop_succ, agree.block_succ, agree.declarations_succ⟩

/-- The depth that is computed for a program is as good as any other that is enough. -/
theorem declarationsWithin_eq {depth : Nat} {cursor : Cursor}
    (deep : 16 * cursor.ahead.length + 6 ≤ depth) :
    declarationsWithin (M := Parse) depth false cursor = declarations (M := Parse) cursor :=
  (((statementsAgree (ample cursor) depth).declarations cursor.ahead.length false
    (by unfold ample; omega) deep) cursor (Nat.le_refl _)).1

/-- Reading a program never runs out of depth. -/
theorem declarations_ne_spent (cursor : Cursor) : declarations (M := Parse) cursor ≠ .spent := by
  have deep : 16 * cursor.ahead.length + 6 ≤ ample cursor := by
    unfold ample
    omega
  have leaves := ((statementsAgree (ample cursor) (ample cursor)).declarations _ false deep deep
    cursor (Nat.le_refl _)).2
  intro short
  change (declarations (M := Parse) cursor).Leaves 0 _ at leaves
  rw [short] at leaves
  exact leaves

end Parse

end Lox
