import Lox.Proofs.Grammar.Step

set_option autoImplicit false

namespace Lox

/-- What was come to leaves so many tokens ahead of `count`, and if it is a success fewer by
`least`. -/
def Parsed.Leaves {α : Type} (least count : Nat) : Parsed α → Prop
  | .ok _ cursor => cursor.ahead.length ≤ count - least
  | .failed cursor => cursor.ahead.length ≤ count
  | .spent => False

theorem Parsed.Leaves.mono {α : Type} {least fewer count more : Nat} {parsed : Parsed α}
    (leaves : parsed.Leaves least count) (failing : count ≤ more)
    (succeeding : count - least ≤ more - fewer) : parsed.Leaves fewer more := by
  cases parsed with
  | ok value cursor => exact Nat.le_trans leaves succeeding
  | failed cursor => exact Nat.le_trans leaves failing
  | spent => exact leaves

namespace Parse

open Reader

variable {α β : Type} {n least total : Nat}

/-- From no more than `n` tokens ahead two steps come to the same, and if they succeed they take
`least` tokens if there are so many. -/
def Agrees (n least : Nat) (first second : Parse α) : Prop :=
  ∀ cursor : Cursor, cursor.ahead.length ≤ n →
    second cursor = first cursor ∧ (first cursor).Leaves least cursor.ahead.length

theorem Agrees.mono {m fewer : Nat} {first second : Parse α} (agrees : Agrees n least first second)
    (closer : m ≤ n) (less : fewer ≤ least) : Agrees m fewer first second := by
  intro cursor short
  obtain ⟨same, leaves⟩ := agrees cursor (Nat.le_trans short closer)
  exact ⟨same, leaves.mono (Nat.le_refl _) (by omega)⟩

theorem Agrees.andThen {k : Nat} {first second : Parse α} {next after : α → Parse β}
    (firsts : Agrees n least first second)
    (nexts : ∀ value, Agrees (n - least) k (next value) (after value))
    (enough : total ≤ least + k) : Agrees n total (first >>= next) (second >>= after) := by
  intro cursor short
  obtain ⟨same, leaves⟩ := firsts cursor short
  cases out : first cursor with
  | ok value middle =>
    rw [out] at same leaves
    have left : middle.ahead.length ≤ cursor.ahead.length - least := leaves
    obtain ⟨alike, further⟩ := nexts value middle (by omega)
    rw [bind_of_ok out, bind_of_ok same]
    exact ⟨alike, further.mono (by omega) (by omega)⟩
  | failed middle =>
    rw [out] at same leaves
    rw [bind_of_failed out, bind_of_failed same]
    exact ⟨rfl, leaves⟩
  | spent =>
    rw [out] at leaves
    cases leaves

theorem agrees_pure (value : α) : Agrees n 0 (pure value) (pure value) :=
  fun _ _ => ⟨rfl, Nat.le_refl _⟩

theorem agrees_fail (error : SyntaxError) : Agrees (α := α) n least (fail error) (fail error) :=
  fun _ _ => ⟨rfl, Nat.le_refl _⟩

theorem agrees_sees (kind : Kind) : Agrees n 0 (sees kind) (sees kind) :=
  fun _ _ => ⟨rfl, Nat.le_refl _⟩

theorem agrees_note (error : SyntaxError) (token : Token) :
    Agrees n 0 (note error token) (note error token) :=
  fun _ _ => ⟨rfl, Nat.le_refl _⟩

theorem agrees_noteHere (error : SyntaxError) : Agrees n 0 (noteHere error) (noteHere error) :=
  fun _ _ => ⟨rfl, Nat.le_refl _⟩

theorem agrees_insideFunction : Agrees n 0 insideFunction insideFunction :=
  fun _ _ => ⟨rfl, Nat.le_refl _⟩

/-- What comes after a token that is taken has one token less ahead. -/
theorem agrees_accept {among : Kind → Bool} {next after : Option Token → Parse β}
    (without : Agrees n total (next none) (after none))
    (taken : ∀ token fewer, n = fewer + 1 →
      Agrees fewer (total - 1) (next (some token)) (after (some token))) :
    Agrees n total (accept among >>= next) (accept among >>= after) := by
  intro cursor short
  rcases accept_cases among cursor with ⟨out, _⟩ | ⟨token, ahead, tokens, _, out⟩
  · rw [bind_of_ok out, bind_of_ok out]
    exact without cursor short
  · rw [tokens, List.length_cons] at short
    rw [bind_of_ok out, bind_of_ok out, tokens, List.length_cons]
    obtain ⟨same, leaves⟩ := taken token (n - 1) (by omega) (cursor.past token ahead)
      (Nat.le_sub_of_add_le short)
    have left : (cursor.past token ahead).ahead.length = ahead.length := rfl
    exact ⟨same, leaves.mono (by omega) (by omega)⟩

theorem agrees_acceptAtom {next after : Option Expr → Parse β}
    (without : Agrees n total (next none) (after none))
    (taken : ∀ expr, Agrees (n - 1) (total - 1) (next (some expr)) (after (some expr))) :
    Agrees n total (acceptAtom >>= next) (acceptAtom >>= after) := by
  intro cursor short
  rcases acceptAtom_cases cursor with ⟨out, _⟩ | ⟨token, ahead, expr, tokens, _, out⟩
  · rw [bind_of_ok out, bind_of_ok out]
    exact without cursor short
  · rw [tokens, List.length_cons] at short
    rw [bind_of_ok out, bind_of_ok out, tokens, List.length_cons]
    obtain ⟨same, leaves⟩ := taken expr (cursor.past token ahead) (Nat.le_sub_of_add_le short)
    have left : (cursor.past token ahead).ahead.length = ahead.length := rfl
    exact ⟨same, leaves.mono (by omega) (by omega)⟩

theorem agrees_expect (kind : Kind) (error : SyntaxError) :
    Agrees n 1 (expect kind error) (expect kind error) :=
  agrees_accept (agrees_fail error) fun token _ _ => agrees_pure token

/-- A step that takes no token for certain. -/
theorem Agrees.lax {first second : Parse α} (agrees : Agrees n least first second) :
    Agrees n 0 first second :=
  agrees.mono (Nat.le_refl _) (Nat.zero_le _)

theorem agrees_ite {condition : Prop} [Decidable condition] {first second third fourth : Parse α}
    (yes : Agrees n least first second) (no : Agrees n least third fourth) :
    Agrees n least (if condition then first else third) (if condition then second else fourth) := by
  split
  · exact yes
  · exact no

theorem agrees_sees_ite {first second third fourth : Parse α} (kind : Kind)
    (yes : Agrees n least first second) (no : Agrees n least third fourth) :
    Agrees n least (sees kind >>= fun seen => if seen then first else third)
      (sees kind >>= fun seen => if seen then second else fourth) := by
  apply (agrees_sees kind).andThen (k := least) _ (by omega)
  intro seen
  exact agrees_ite yes no

theorem agrees_map {first second : Parse α} (f : α → β) (agrees : Agrees n least first second) :
    Agrees n least (f <$> first) (f <$> second) := by
  rw [map_eq, map_eq]
  exact agrees.andThen (k := 0) (fun _ => agrees_pure _) (Nat.le_refl _)

/-- How many rules lie between an operand of a level and the token that it begins with. -/
def rules : Option Level → Nat
  | some .disjunction => 10
  | some .conjunction => 9
  | some .equality => 8
  | some .comparison => 7
  | some .term => 6
  | some .factor => 5
  | none => 4

theorem rules_tighter (level : Level) : rules level.tighter + 1 = rules (some level) := by
  cases level <;> rfl

theorem four_le_rules (level : Option Level) : 4 ≤ rules level := by
  cases level with
  | none => decide
  | some level => cases level <;> decide

theorem rules_le (level : Option Level) : rules level ≤ 10 := by
  cases level with
  | none => decide
  | some level => cases level <;> decide

structure ExpressionsAgree (depth more : Nat) : Prop where
  expression (n : Nat) (deep : 16 * n + 11 ≤ depth) (deeper : 16 * n + 11 ≤ more) :
    Agrees n 1 (expressionWithin depth) (expressionWithin more)
  operand (n : Nat) (level : Option Level) (deep : 16 * n + rules level ≤ depth)
    (deeper : 16 * n + rules level ≤ more) :
    Agrees n 1 (operandWithin depth level) (operandWithin more level)
  chain (n : Nat) (level : Level) (left : Expr) (deep : 16 * n + 1 ≤ depth)
    (deeper : 16 * n + 1 ≤ more) :
    Agrees n 0 (chainWithin depth level left) (chainWithin more level left)
  unary (n : Nat) (deep : 16 * n + 3 ≤ depth) (deeper : 16 * n + 3 ≤ more) :
    Agrees n 1 (unaryWithin depth) (unaryWithin more)
  calls (n : Nat) (callee : Expr) (deep : 16 * n + 1 ≤ depth) (deeper : 16 * n + 1 ≤ more) :
    Agrees n 0 (callsWithin depth callee) (callsWithin more callee)
  arguments (n count : Nat) (deep : 16 * n + 12 ≤ depth) (deeper : 16 * n + 12 ≤ more) :
    Agrees n 1 (argumentsWithin depth count) (argumentsWithin more count)
  primary (n : Nat) (deep : 16 * n + 2 ≤ depth) (deeper : 16 * n + 2 ≤ more) :
    Agrees n 1 (primaryWithin depth) (primaryWithin more)

namespace ExpressionsAgree

variable {depth more : Nat}

theorem expression_succ (agree : ExpressionsAgree depth more) (n : Nat)
    (deep : 16 * n + 11 ≤ depth + 1) (deeper : 16 * n + 11 ≤ more + 1) :
    Agrees n 1 (expressionWithin (depth + 1)) (expressionWithin (more + 1)) := by
  rw [expressionWithin, expressionWithin]
  apply (agree.operand n (some .disjunction) (by simp only [rules]; omega)
    (by simp only [rules]; omega)).andThen (k := 0) _ (Nat.le_refl _)
  intro left
  apply agrees_accept
  · exact agrees_pure left
  · intro equals fewer less
    apply ((agree.expression fewer (by omega) (by omega)).lax).andThen (k := 0) _ (Nat.le_refl _)
    intro value
    cases left with
    | var name => exact agrees_pure _
    | assign | binary | call | grouping | literal | logical | unary =>
      exact (agrees_note _ equals).andThen (fun _ => agrees_pure _) (Nat.le_refl _)

theorem operand_succ (agree : ExpressionsAgree depth more) (n : Nat) (level : Option Level)
    (deep : 16 * n + rules level ≤ depth + 1) (deeper : 16 * n + rules level ≤ more + 1) :
    Agrees n 1 (operandWithin (depth + 1) level) (operandWithin (more + 1) level) := by
  cases level with
  | none =>
    rw [operandWithin, operandWithin]
    simp only [rules] at deep deeper
    exact agree.unary n (by omega) (by omega)
  | some level =>
    rw [operandWithin, operandWithin]
    have one := rules_tighter level
    have noted := four_le_rules level.tighter
    apply (agree.operand n level.tighter (by omega) (by omega)).andThen (k := 0) _ (Nat.le_refl _)
    intro left
    exact agree.chain (n - 1) level left (by omega) (by omega)

theorem chain_succ (agree : ExpressionsAgree depth more) (n : Nat) (level : Level) (left : Expr)
    (deep : 16 * n + 1 ≤ depth + 1) (deeper : 16 * n + 1 ≤ more + 1) :
    Agrees n 0 (chainWithin (depth + 1) level left) (chainWithin (more + 1) level left) := by
  rw [chainWithin, chainWithin]
  apply agrees_accept
  · exact agrees_pure left
  · intro operator fewer less
    have few := rules_le level.tighter
    apply (agree.operand fewer level.tighter (by omega) (by omega)).andThen (k := 0) _
      (Nat.zero_le _)
    intro right
    exact agree.chain (fewer - 1) level _ (by omega) (by omega)

theorem unary_succ (agree : ExpressionsAgree depth more) (n : Nat)
    (deep : 16 * n + 3 ≤ depth + 1) (deeper : 16 * n + 3 ≤ more + 1) :
    Agrees n 1 (unaryWithin (depth + 1)) (unaryWithin (more + 1)) := by
  rw [unaryWithin, unaryWithin]
  apply agrees_accept
  · apply (agree.primary n (by omega) (by omega)).andThen (k := 0) _ (Nat.le_refl _)
    intro callee
    exact agree.calls (n - 1) callee (by omega) (by omega)
  · intro operator fewer less
    apply (agree.unary fewer (by omega) (by omega)).andThen (k := 0) _ (Nat.zero_le _)
    intro right
    exact agrees_pure _

theorem calls_succ (agree : ExpressionsAgree depth more) (n : Nat) (callee : Expr)
    (deep : 16 * n + 1 ≤ depth + 1) (deeper : 16 * n + 1 ≤ more + 1) :
    Agrees n 0 (callsWithin (depth + 1) callee) (callsWithin (more + 1) callee) := by
  rw [callsWithin, callsWithin]
  apply agrees_accept
  · exact agrees_pure callee
  · intro opening fewer less
    have arguments : Agrees fewer 0
        (sees .rightParen >>= fun closed => if closed then pure [] else argumentsWithin depth 0)
        (sees .rightParen >>= fun closed => if closed then pure [] else argumentsWithin more 0) := by
      apply (agrees_sees .rightParen).andThen (k := 0) _ (Nat.le_refl _)
      intro closed
      apply agrees_ite (agrees_pure _)
      exact (agree.arguments fewer 0 (by omega) (by omega)).lax
    apply arguments.andThen (k := 0) _ (Nat.le_refl _)
    intro values
    apply (agrees_expect .rightParen _).andThen (k := 0) _ (Nat.zero_le _)
    intro paren
    exact agree.calls _ _ (by omega) (by omega)

theorem arguments_succ (agree : ExpressionsAgree depth more) (n count : Nat)
    (deep : 16 * n + 12 ≤ depth + 1) (deeper : 16 * n + 12 ≤ more + 1) :
    Agrees n 1 (argumentsWithin (depth + 1) count) (argumentsWithin (more + 1) count) := by
  rw [argumentsWithin, argumentsWithin]
  apply (agrees_ite (agrees_noteHere _) (agrees_pure ())).andThen (k := 1) _ (Nat.le_refl _)
  intro _
  apply (agree.expression n (by omega) (by omega)).andThen (k := 0) _ (Nat.le_refl _)
  intro argument
  apply agrees_accept
  · exact agrees_pure _
  · intro comma fewer less
    apply ((agree.arguments fewer (count + 1) (by omega) (by omega)).lax).andThen (k := 0) _ (Nat.le_refl _)
    intro others
    exact agrees_pure _

theorem primary_succ (agree : ExpressionsAgree depth more) (n : Nat)
    (deep : 16 * n + 2 ≤ depth + 1) (deeper : 16 * n + 2 ≤ more + 1) :
    Agrees n 1 (primaryWithin (depth + 1)) (primaryWithin (more + 1)) := by
  rw [primaryWithin, primaryWithin]
  apply agrees_acceptAtom
  · apply agrees_accept
    · exact agrees_fail _
    · intro opening fewer less
      apply ((agree.expression fewer (by omega) (by omega)).lax).andThen (k := 0) _ (Nat.zero_le _)
      intro inner
      apply ((agrees_expect .rightParen _).lax).andThen
        (k := 0) _ (Nat.le_refl _)
      intro _
      exact agrees_pure _
  · intro expr
    exact agrees_pure expr

end ExpressionsAgree

theorem expressionsAgree_of_zero {depth more : Nat} (silence : depth = 0 ∨ more = 0) :
    ExpressionsAgree depth more := by
  refine ⟨?_, ?_, ?_, ?_, ?_, ?_, ?_⟩
  · intro n deep deeper
    omega
  · intro n level deep deeper
    have := four_le_rules level
    omega
  all_goals
    intros
    omega

theorem expressionsAgree (depth : Nat) : ∀ more, ExpressionsAgree depth more := by
  induction depth with
  | zero => exact fun _ => expressionsAgree_of_zero (Or.inl rfl)
  | succ depth ih =>
    intro more
    cases more with
    | zero => exact expressionsAgree_of_zero (Or.inr rfl)
    | succ more =>
      have agree := ih more
      exact ⟨agree.expression_succ, agree.operand_succ, agree.chain_succ, agree.unary_succ,
        agree.calls_succ, agree.arguments_succ, agree.primary_succ⟩

/-- The depth that is computed for an expression is as good as any other that is enough. -/
theorem expressionWithin_eq {depth : Nat} {cursor : Cursor}
    (deep : 16 * cursor.ahead.length + 11 ≤ depth) :
    expressionWithin (M := Parse) depth cursor = expression (M := Parse) cursor :=
  (((expressionsAgree (ample cursor) depth).expression cursor.ahead.length
    (by unfold ample; omega) deep) cursor (Nat.le_refl _)).1

theorem agrees_expression (n : Nat) : Agrees n 1 expression expression := by
  intro cursor _
  have deep : 16 * cursor.ahead.length + 11 ≤ ample cursor := by
    unfold ample
    omega
  exact ((expressionsAgree (ample cursor) (ample cursor)).expression cursor.ahead.length
    deep deep) cursor (Nat.le_refl _)

end Parse

end Lox
