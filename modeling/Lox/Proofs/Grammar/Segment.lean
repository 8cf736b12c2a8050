import Lox.Proofs.Grammar.Continuing

set_option autoImplicit false

namespace Lox

/-- A kind of token that opens what a semicolon does not end. -/
def Kind.Barred (kind : Kind) : Prop :=
  kind = .leftBrace ∨ kind = .kwFor

/-- Tokens of which just the last is a semicolon, with no `for` and no brace that opens. -/
inductive Sealed : List Token → Prop
  | semicolon {token : Token} (ends : token.kind = .semicolon) : Sealed [token]
  | before {token : Token} {tokens : List Token} (noEnd : token.kind ≠ .semicolon)
      (plain : ¬ token.kind.Barred) (more : Sealed tokens) : Sealed (token :: tokens)

theorem sealed_of_body {body : List Token} {semicolon : Token} (ends : semicolon.kind = .semicolon)
    (plain : ∀ token ∈ body, token.kind ≠ .semicolon ∧ ¬ token.kind.Barred) :
    Sealed (body ++ [semicolon]) := by
  induction body with
  | nil => exact .semicolon ends
  | cons token body ih =>
    obtain ⟨⟨noEnd, first⟩, others⟩ := List.forall_mem_cons.mp plain
    exact .before noEnd first (ih others)

theorem Sealed.plain {token : Token} {tokens : List Token} (closed : Sealed (token :: tokens)) :
    ¬ token.kind.Barred := by
  cases closed with
  | semicolon ends =>
    rw [Kind.Barred, ends]
    decide
  | before _ plain _ => exact plain

theorem Sealed.of_noEnd {token : Token} {tokens : List Token} (closed : Sealed (token :: tokens))
    (noEnd : token.kind ≠ .semicolon) : Sealed tokens := by
  cases closed with
  | semicolon ends => exact absurd ends noEnd
  | before _ _ more => exact more

theorem Sealed.of_ends {token : Token} {tokens : List Token} (closed : Sealed (token :: tokens))
    (ends : token.kind = .semicolon) : tokens = [] := by
  cases closed with
  | semicolon _ => rfl
  | before noEnd _ _ => exact absurd ends noEnd

namespace Cursor

/-- A place before tokens and `rest`, and one before the same tokens on their own. -/
structure Beside (rest : List Token) (last : Token) (cursor alone : Cursor) : Prop where
  ahead : cursor.ahead = alone.ahead ++ rest
  last : cursor.last = last
  functions : cursor.functions = 0
  outside : alone.functions = 0
  problems : cursor.problems = alone.problems

structure Within (rest : List Token) (last : Token) (cursor alone : Cursor) : Prop
    extends Beside rest last cursor alone where
  closed : Sealed alone.ahead

structure Behind (rest : List Token) (last : Token) (cursor alone : Cursor) : Prop
    extends Beside rest last cursor alone where
  done : alone.ahead = []

variable {rest : List Token} {last : Token} {cursor alone : Cursor}

theorem Within.tokens (within : Within rest last cursor alone) : ∃ token tokens,
    alone.ahead = token :: tokens ∧ cursor.ahead = token :: (tokens ++ rest) ∧
      Sealed (token :: tokens) := by
  have whole := within.ahead
  have closed := within.closed
  generalize alone.ahead = ahead at whole closed
  cases ahead with
  | nil => cases closed
  | cons token tokens => exact ⟨token, tokens, rfl, whole, closed⟩

/-- Past a token, on both sides. -/
theorem Beside.past (beside : Beside rest last cursor alone) (token : Token) (tokens : List Token) :
    Beside rest last (cursor.past token (tokens ++ rest)) (alone.past token tokens) :=
  ⟨rfl, beside.last, beside.functions, beside.outside, beside.problems⟩

theorem within_steady : Steady (Within rest last) Eq (· ≠ .semicolon) where
  next there := by
    obtain ⟨token, tokens, one, two, _⟩ := there.tokens
    rw [one, two]
    exact .some rfl
  past := by
    intro cursor alone token other ahead others there two one noEnd
    obtain ⟨token, tokens, three, four, closed⟩ := there.tokens
    cases three.symm.trans one
    cases four.symm.trans two
    exact ⟨there.toBeside.past _ _, closed.of_noEnd noEnd⟩
  record := by
    rintro cursor alone token _ there rfl error
    exact ⟨⟨there.ahead, there.last, there.functions, there.outside,
      congrArg (Array.push · _) there.problems⟩, there.closed⟩
  here there := by
    obtain ⟨token, tokens, one, two, _⟩ := there.tokens
    rw [here, here, one, two]
    rfl

/-- Past the semicolon the tokens are all gone past. -/
theorem Within.pastEnd (within : Within rest last cursor alone) {token : Token}
    {tokens others : List Token} (one : alone.ahead = token :: tokens)
    (two : cursor.ahead = token :: others) (ends : token.kind = .semicolon) :
    Behind rest last (cursor.past token others) (alone.past token tokens) := by
  obtain ⟨token, tokens, three, four, closed⟩ := within.tokens
  cases three.symm.trans one
  cases four.symm.trans two
  exact ⟨within.toBeside.past _ _, closed.of_ends ends⟩

/-- Nothing is skipped after a semicolon. -/
theorem skipTo_of_ends {behind : List Token} (ends : behind.head?.any (·.kind == .semicolon) = true)
    (ahead : List Token) : (skipTo behind ahead).2 = ahead := by
  cases ahead with
  | nil => rfl
  | cons next ahead =>
    rw [skipTo, ends, Bool.true_or, if_pos rfl]

/-- What is skipped of sealed tokens is skipped of them on their own, and nothing after them is. -/
theorem skipTo_sealed (rest : List Token) {tokens : List Token} : ∀ {token : Token},
    Sealed (token :: tokens) → ∀ behind past : List Token,
      (skipTo (token :: behind) (tokens ++ rest)).2 = (skipTo (token :: past) tokens).2 ++ rest ∧
        (Sealed (skipTo (token :: past) tokens).2 ∨ (skipTo (token :: past) tokens).2 = []) := by
  -- What is skipped last decides, and it is the same on both sides.
  induction tokens with
  | nil =>
    intro token closed behind past
    have latest : (token :: behind).head?.any (·.kind == .semicolon) = true := by
      cases closed with
      | semicolon ends => simpa using ends
      | before _ _ more => cases more
    rw [List.nil_append, skipTo_of_ends latest]
    exact ⟨rfl, .inr rfl⟩
  | cons next tokens ih =>
    intro token closed behind past
    cases closed with
    | before noEnd plain more =>
      have latest (latest : List Token) :
          (token :: latest).head?.any (·.kind == .semicolon) = false := by
        simpa using noEnd
      rw [List.cons_append, skipTo, skipTo, latest, latest, Bool.false_or]
      split
      · exact ⟨rfl, .inl more⟩
      · exact ih more _ _

/-- After an error reading goes on within the sealed tokens, or just behind them. -/
theorem Within.synchronize (within : Within rest last cursor alone) :
    Within rest last cursor.synchronize alone.synchronize ∨
      Behind rest last cursor.synchronize alone.synchronize := by
  obtain ⟨token, tokens, one, two, closed⟩ := within.tokens
  obtain ⟨skipped, remains⟩ := skipTo_sealed rest closed cursor.behind alone.behind
  rw [synchronize_of_ahead one, synchronize_of_ahead two]
  rcases remains with closed | done
  · exact .inl ⟨⟨skipped, within.last, within.functions, within.outside, within.problems⟩, closed⟩
  · exact .inr ⟨⟨skipped, within.last, within.functions, within.outside, within.problems⟩, done⟩

end Cursor

namespace Parse

open Reader

variable {rest : List Token} {last : Token} {α β : Type}

/-- A step that stays within sealed tokens, and is taken the same way whatever follows. -/
def Stays (rest : List Token) (last : Token) (step : Parse α) : Prop :=
  ∀ cursor alone, cursor.Within rest last alone →
    (step cursor).Rel (Cursor.Within rest last) (Cursor.Within rest last) Eq (step alone)

/-- A reading that ends behind sealed tokens or fails within, the same way whatever follows. -/
def Closes (rest : List Token) (last : Token) (step : Parse α) : Prop :=
  ∀ cursor alone, cursor.Within rest last alone →
    (step cursor).Rel (Cursor.Behind rest last) (Cursor.Within rest last) Eq (step alone)

theorem Stays.andThen {step : Parse α} {next : α → Parse β} (stays : Stays rest last step)
    (goes : ∀ value, Stays rest last (next value)) : Stays rest last (step >>= next) := by
  intro cursor alone within
  apply rel_bind (stays cursor alone within)
  rintro value _ middle further rfl there
  exact goes value middle further there

theorem Stays.closes {step : Parse α} {next : α → Parse β} (stays : Stays rest last step)
    (goes : ∀ value, Closes rest last (next value)) : Closes rest last (step >>= next) := by
  intro cursor alone within
  apply rel_bind (stays cursor alone within)
  rintro value _ middle further rfl there
  exact goes value middle further there

/-- What comes after the semicolon. -/
theorem Closes.andThen {step : Parse α} {next : α → Parse β} (closes : Closes rest last step)
    (goes : ∀ value cursor alone, cursor.Behind rest last alone →
      (next value cursor).Rel (Cursor.Behind rest last) (Cursor.Within rest last) Eq
        (next value alone)) :
    Closes rest last (step >>= next) := by
  intro cursor alone within
  apply rel_bind (closes cursor alone within)
  rintro value _ middle further rfl there
  exact goes value middle further there

theorem stays_pure (value : α) : Stays rest last (pure value) :=
  fun _ _ within => .ok rfl within

/-- Expressions never go past a semicolon. -/
theorem within_expressions :
    (SideBySide.fromPlaces (Cursor.Within rest last)).Expressions Eq :=
  rel_expressions Cursor.within_steady Likeness.faithful_eq Likeness.sameLiterals_eq fun _ noEnd =>
    noEnd

theorem stays_of_keeps {R : α → α → Prop} {step : Parse α}
    (keeps : (SideBySide.fromPlaces (Cursor.Within rest last)).keeps R step step)
    (same : ∀ value other, R value other → value = other) : Stays rest last step :=
  fun cursor alone within => (keeps cursor alone within).imp same

theorem stays_accept {among : Kind → Bool} (passing : among .semicolon = false) :
    Stays rest last (accept among) := by
  apply stays_of_keeps (rel_accept Cursor.within_steady Likeness.faithful_eq ?_)
  · intro token other same
    cases same with
    | none => rfl
    | some same => rw [same]
  · rintro kind wanted rfl
    rw [passing] at wanted
    cases wanted

theorem stays_expect {kind : Kind} (passing : (Kind.semicolon == kind) = false)
    {error : SyntaxError} (other : error ≠ .returnOutsideFunction) :
    Stays rest last (expect kind error) :=
  stays_of_keeps (within_expressions.expect passing other) fun _ _ => id

theorem stays_expression : Stays rest last expression := by
  intro cursor alone within
  have deep : 16 * alone.ahead.length + 11 ≤ ample cursor := by
    rw [ample, within.ahead, List.length_append]
    omega
  have read := (within_expressions.upto (ample cursor)).expression cursor alone within
  rw [expressionWithin_eq deep] at read
  exact read.imp fun _ _ alike => alike.eq.symm

theorem stays_sees (kind : Kind) : Stays rest last (sees kind) :=
  stays_of_keeps (within_expressions.sees kind) fun _ _ => id

theorem stays_ite {condition : Prop} [Decidable condition] {first second : Parse α}
    (yes : Stays rest last first) (no : Stays rest last second) :
    Stays rest last (if condition then first else second) := by
  split
  · exact yes
  · exact no

theorem stays_parameterNames : Stays rest last parameterNames := by
  intro cursor alone within
  have deep : alone.ahead.length < ample cursor := by
    rw [ample, within.ahead, List.length_append]
    omega
  have read := within_expressions.parameters (ample cursor) 0 cursor alone within
  rw [parametersWithin_eq deep] at read
  exact read.imp fun _ _ alike => List.forall₂_eq_eq_eq ▸ alike

theorem stays_parameters : Stays rest last parameters := by
  apply (stays_expect rfl (by decide)).andThen
  intro _
  apply ((stays_sees .rightParen).andThen fun _ =>
    stays_ite (stays_pure []) stays_parameterNames).andThen
  intro _
  apply (stays_expect rfl (by decide)).andThen
  intro _
  exact stays_pure _

theorem accept_of_ahead {among : Kind → Bool} {cursor : Cursor} {token : Token} {tokens : List Token}
    (ahead : cursor.ahead = token :: tokens) :
    accept among cursor =
      if among token.kind then .ok (some token) (cursor.past token tokens) else .ok none cursor := by
  simp only [accept, ahead]
  rfl

theorem closes_accept {among : Kind → Bool} (passing : among .semicolon = false)
    {next : Option Token → Parse β} (without : Closes rest last (next none))
    (taken : ∀ token, Closes rest last (next (some token))) :
    Closes rest last (accept among >>= next) := by
  apply (stays_accept passing).closes
  intro found
  cases found with
  | none => exact without
  | some token => exact taken token

/-- Sealed tokens have none that is barred. -/
theorem accept_barred {kind : Kind} (barred : kind.Barred) {cursor alone : Cursor}
    (within : cursor.Within rest last alone) :
    accept (· == kind) cursor = .ok none cursor ∧ accept (· == kind) alone = .ok none alone := by
  obtain ⟨token, tokens, one, two, closed⟩ := within.tokens
  have other : ¬ (token.kind == kind) = true := by
    rw [beq_iff_eq]
    rintro rfl
    exact closed.plain barred
  rw [accept_of_ahead one, accept_of_ahead two, if_neg other, if_neg other]
  exact ⟨rfl, rfl⟩

theorem closes_acceptBarred {kind : Kind} (barred : kind.Barred) {next : Option Token → Parse β}
    (without : Closes rest last (next none)) : Closes rest last (accept (· == kind) >>= next) := by
  intro cursor alone within
  obtain ⟨one, two⟩ := accept_barred barred within
  rw [bind_of_ok one, bind_of_ok two]
  exact without cursor alone within

theorem closes_fail (error : SyntaxError) : Closes (α := α) rest last (fail error) :=
  fun _ _ within =>
    .failed (Cursor.within_steady.record within (Cursor.within_steady.here within) error)

theorem closes_expectBarred {kind : Kind} (barred : kind.Barred) (error : SyntaxError)
    (next : Token → Parse β) : Closes rest last (expect kind error >>= next) := by
  intro cursor alone within
  obtain ⟨one, two⟩ := accept_barred barred within
  have failed := closes_fail (α := β) error cursor alone within
  rw [expect, step_eq, bind_of_failed (bind_of_ok one _), bind_of_failed (bind_of_ok two _)]
  exact failed

/-- The semicolon is the end. -/
theorem closes_ending (error : SyntaxError) (value : β) :
    Closes rest last (do let _ ← expect .semicolon error; pure value) := by
  have semicolon : Closes rest last (expect .semicolon error) := by
    intro cursor alone within
    obtain ⟨token, tokens, one, two, _⟩ := within.tokens
    rw [expect, step_eq]
    by_cases ends : token.kind = .semicolon
    · have taken {place : Cursor} {tokens : List Token} (ahead : place.ahead = token :: tokens) :
          accept (· == .semicolon) place = .ok (some token) (place.past token tokens) := by
        rw [accept_of_ahead ahead, if_pos (beq_iff_eq.mpr ends)]
      rw [bind_of_ok (taken one), bind_of_ok (taken two)]
      exact .ok rfl (within.pastEnd one two ends)
    · have left {place : Cursor} {tokens : List Token} (ahead : place.ahead = token :: tokens) :
          accept (· == .semicolon) place = .ok none place := by
        rw [accept_of_ahead ahead, if_neg (mt beq_iff_eq.mp ends)]
      rw [bind_of_ok (left one), bind_of_ok (left two)]
      exact closes_fail error cursor alone within
  exact semicolon.andThen fun _ _ _ behind => .ok rfl behind

theorem closes_ended (error : SyntaxError) (make : Expr → Stmt) :
    Closes rest last (ended error make) :=
  stays_expression.closes fun value => closes_ending error (make value)

theorem closes_variableStatement : Closes rest last variableStatement := by
  apply (stays_expect rfl (by decide)).closes
  intro name
  refine Stays.closes ?_ fun value => closes_ending _ _
  apply (stays_accept rfl).andThen
  intro found
  cases found with
  | none => exact stays_pure _
  | some _ => exact stays_expression

/-- Outside every function a return statement leaves its problem on both sides. -/
theorem stays_returning (keyword : Token) : Stays rest last (returning keyword) := by
  have inside : Stays rest last insideFunction := by
    intro cursor alone within
    rw [insideFunction, insideFunction, within.functions, within.outside]
    exact .ok rfl within
  have noted : Stays rest last (note .returnOutsideFunction keyword) :=
    fun _ _ within => .ok rfl (Cursor.within_steady.record within rfl _)
  apply inside.andThen
  intro inside
  exact stays_ite (stays_pure ()) noted

theorem closes_returnStatement (keyword : Token) : Closes rest last (returnStatement keyword) := by
  have value : Stays rest last (some <$> expression) :=
    stays_expression.andThen fun value => stays_pure (some value)
  apply (stays_returning keyword).closes
  intro _
  apply ((stays_sees .semicolon).andThen fun _ => stays_ite (stays_pure none) value).closes
  intro value
  exact closes_ending _ _

theorem closes_spent : Closes (α := α) rest last spent :=
  fun _ _ _ => .spent

/-- A function is not read without the brace before its body. -/
theorem closes_functionWithin (depth : Nat) : Closes rest last (functionWithin depth) := by
  cases depth with
  | zero => exact closes_spent
  | succ depth =>
    rw [functionWithin]
    apply (stays_expect rfl (by decide)).closes
    intro name
    apply stays_parameters.closes
    intro names
    exact closes_expectBarred (.inl rfl) _ _

/-- The test of an `if` or a `while`, in parentheses. -/
theorem closes_test {opening closing : SyntaxError} (opens : opening ≠ .returnOutsideFunction)
    (closes : closing ≠ .returnOutsideFunction) {next : Expr → Parse β}
    (goes : ∀ condition, Closes rest last (next condition)) :
    Closes rest last (do
      let _ ← expect .leftParen opening
      let condition ← expression
      let _ ← expect .rightParen closing
      next condition) := by
  apply (stays_expect rfl opens).closes
  intro _
  apply stays_expression.closes
  intro condition
  apply (stays_expect rfl closes).closes
  intro _
  exact goes condition

/-- An `else` that does not follow is not found past the semicolon. -/
theorem accept_behind (unfollowed : ∀ token ∈ rest.head?, token.kind ≠ .kwElse) {cursor alone : Cursor}
    (behind : cursor.Behind rest last alone) :
    accept (· == .kwElse) cursor = .ok none cursor ∧ accept (· == .kwElse) alone = .ok none alone := by
  have ahead := behind.ahead
  rw [behind.done, List.nil_append] at ahead
  rcases accept_cases (· == .kwElse) cursor with ⟨one, _⟩ | ⟨token, tokens, same, other, _⟩
  · rcases accept_cases (· == .kwElse) alone with ⟨two, _⟩ | ⟨token, tokens, same, _⟩
    · exact ⟨one, two⟩
    · rw [behind.done] at same
      cases same
  · rw [ahead] at same
    rw [same] at unfollowed
    exact absurd (beq_iff_eq.mp other) (unfollowed token rfl)

structure StatementsClose (rest : List Token) (last : Token) (depth : Nat) : Prop where
  statement : Closes rest last (statementWithin depth)
  branch : Closes rest last (ifWithin depth)
  loop : Closes rest last (whileWithin depth)

namespace StatementsClose

variable {depth : Nat}

theorem statement_succ (close : StatementsClose rest last depth) :
    Closes rest last (statementWithin (depth + 1)) := by
  rw [statementWithin]
  apply closes_acceptBarred (.inr rfl)
  apply closes_accept rfl _ fun _ => close.branch
  apply closes_accept rfl _ fun _ => closes_ended _ _
  apply closes_accept rfl _ closes_returnStatement
  apply closes_accept rfl _ fun _ => close.loop
  apply closes_acceptBarred (.inl rfl)
  exact closes_ended _ _

theorem branch_succ (close : StatementsClose rest last depth)
    (unfollowed : ∀ token ∈ rest.head?, token.kind ≠ .kwElse) :
    Closes rest last (ifWithin (depth + 1)) := by
  rw [ifWithin]
  apply closes_test (by decide) (by decide)
  intro condition
  apply close.statement.andThen
  intro yes cursor alone behind
  obtain ⟨one, two⟩ := accept_behind unfollowed behind
  rw [step_eq, bind_of_ok one, bind_of_ok two]
  exact .ok rfl behind

theorem loop_succ (close : StatementsClose rest last depth) :
    Closes rest last (whileWithin (depth + 1)) := by
  rw [whileWithin]
  apply closes_test (by decide) (by decide)
  intro condition
  exact close.statement.andThen fun _ _ _ behind => .ok rfl behind

end StatementsClose

theorem statementsClose (unfollowed : ∀ token ∈ rest.head?, token.kind ≠ .kwElse) (depth : Nat) :
    StatementsClose rest last depth := by
  induction depth with
  | zero => exact ⟨closes_spent, closes_spent, closes_spent⟩
  | succ depth close =>
    exact ⟨close.statement_succ, close.branch_succ unfollowed, close.loop_succ⟩

def Remains (rest : List Token) (last : Token) (cursor alone : Cursor) : Prop :=
  cursor.Within rest last alone ∨ cursor.Behind rest last alone

/-- A statement that fails is left out, and reading goes on. -/
theorem Closes.recovering {step : Parse α} (closes : Closes rest last step) {cursor alone : Cursor}
    (within : cursor.Within rest last alone) :
    (recovering step cursor).Rel (Remains rest last) (fun _ _ => False) Eq (recovering step alone) := by
  have read := closes cursor alone within
  unfold Parse.recovering
  generalize step cursor = one, step alone = two at read ⊢
  cases read with
  | ok same behind => exact .ok (congrArg some same) (.inr behind)
  | failed within => exact .ok rfl within.synchronize
  | spent => exact .spent

theorem closes_declarationWithin (unfollowed : ∀ token ∈ rest.head?, token.kind ≠ .kwElse)
    (depth : Nat) {cursor alone : Cursor} (within : cursor.Within rest last alone) :
    (declarationWithin (M := Parse) depth cursor).Rel (Remains rest last) (fun _ _ => False) Eq
      (declarationWithin (M := Parse) depth alone) := by
  cases depth with
  | zero => exact .spent
  | succ depth =>
    rw [declarationWithin]
    refine Closes.recovering ?_ within
    apply closes_accept rfl _ fun _ => closes_functionWithin depth
    apply closes_accept rfl _ fun _ => closes_variableStatement
    exact (statementsClose unfollowed depth).statement

/-- One declaration of sealed tokens is read, or skipped, as on their own. -/
theorem continues_within (unfollowed : ∀ token ∈ rest.head?, token.kind ≠ .kwElse)
    {cursor alone : Cursor} (within : cursor.Within rest last alone) :
    ∃ first later further, Continues cursor first later ∧ Continues alone first further ∧
      Remains rest last later further ∧ further.ahead.length < alone.ahead.length := by
  obtain ⟨token, tokens, one, two, _⟩ := within.tokens
  have some : alone.ahead ≠ [] := one ▸ List.cons_ne_nil _ _
  have someToo : cursor.ahead ≠ [] := two ▸ List.cons_ne_nil _ _
  have shorter : alone.ahead.length ≤ cursor.ahead.length := by
    rw [within.ahead, List.length_append]
    omega
  let depth := 16 * cursor.ahead.length + 5
  have deep : 16 * alone.ahead.length + 5 ≤ depth := by omega
  have read := closes_declarationWithin unfollowed depth within
  cases first : declarationWithin (M := Parse) depth cursor with
  | ok value later =>
    rw [first] at read
    generalize second : declarationWithin (M := Parse) depth alone = parsed at read
    cases read with
    | ok same there =>
      subst same
      have less := declarationWithin_shrinks deep second
      have noted := List.length_pos_iff.mpr some
      exact ⟨_, _, _, continues_declaration someToo (Nat.le_refl _) first,
        continues_declaration some deep second, there, by omega⟩
  | failed later =>
    rw [first] at read
    generalize declarationWithin (M := Parse) depth alone = parsed at read
    cases read with
    | failed impossible => exact impossible.elim
  | spent =>
    have leaves := declarationWithin_leaves (Nat.le_refl depth)
    rw [first] at leaves
    exact leaves.elim

/-- Sealed tokens are read, and skipped, up to their end as they are on their own. -/
theorem continues_sealed (unfollowed : ∀ token ∈ rest.head?, token.kind ≠ .kwElse)
    {cursor alone : Cursor} (within : cursor.Within rest last alone) :
    ∃ trees later further, Continues cursor trees later ∧ Continues alone trees further ∧
      later.Behind rest last further := by
  -- Each declaration, read or left out, leaves fewer of the tokens ahead.
  induction size : alone.ahead.length using Nat.strongRecOn generalizing cursor alone with
  | ind size ih =>
    obtain ⟨first, middle, between, begins, beginsToo, there, less⟩ :=
      continues_within unfollowed within
    rcases there with within | behind
    · obtain ⟨trees, later, further, goes, goesToo, behind⟩ := ih _ (size ▸ less) within rfl
      exact ⟨_, _, _, begins.trans goes, beginsToo.trans goesToo, behind⟩
    · exact ⟨_, _, _, begins, beginsToo, behind⟩

end Parse

namespace Program

open Parse Reader

/-- Sealed tokens add to a program, and to its problems, what they do on their own. -/
theorem ofTokens_sealed {tokens rest : List Token} (closed : Sealed tokens)
    (unfollowed : ∀ token ∈ rest.head?, token.kind ≠ .kwElse) (last own : Token) :
    ofTokens (tokens ++ rest) last = ((ofTokens tokens own).1 ++ (ofTokens rest last).1,
      (ofTokens tokens own).2 ++ (ofTokens rest last).2) := by
  have within : (Cursor.start (tokens ++ rest) last).Within rest last (.start tokens own) :=
    ⟨⟨rfl, rfl, rfl, rfl, rfl⟩, closed⟩
  obtain ⟨trees, later, further, goes, goesToo, behind⟩ := continues_sealed unfollowed within
  have ahead : later.ahead = rest := by
    rw [behind.ahead, behind.done, List.nil_append]
  have alone : ofTokens tokens own = (trees, further.problems.toList) := by
    rw [ofTokens, goesToo _ _ (declarations_of_done behind.done), List.append_nil]
  rw [ofTokens_of_continues goes ahead behind.last behind.functions, alone, behind.problems]

theorem ofTokens_silent {tokens rest : List Token} {other : Token}
    (silent : (ofTokens tokens other).2 = [])
    (unfollowed : ∀ token ∈ rest.head?, token.kind ≠ .kwElse) (last own : Token) :
    ofTokens (tokens ++ rest) last = ((ofTokens tokens own).1 ++ (ofTokens rest last).1,
      (ofTokens tokens own).2 ++ (ofTokens rest last).2) := by
  have derives := derives_of_ofTokens (Prod.ext rfl silent : ofTokens tokens other = (_, []))
  have goes := continues_of_derives unfollowed derives (.start (tokens ++ rest) last) rfl
  rw [ofTokens_of_continues goes rfl rfl rfl, ofTokens_of_derives derives own]
  rfl

/-- In a row of which none begins with an `else`, the first token is no `else`. -/
theorem unfollowed_flatten {segments : List (List Token)}
    (others : ∀ tokens ∈ segments, ∀ token ∈ tokens.head?, token.kind ≠ .kwElse) :
    ∀ token ∈ segments.flatten.head?, token.kind ≠ .kwElse := by
  induction segments with
  | nil =>
    intro token member
    cases member
  | cons tokens segments ih =>
    obtain ⟨first, rest⟩ := List.forall_mem_cons.mp others
    cases tokens with
    | nil => exact ih rest
    | cons token tokens => exact first

/-- Tokens that do not depend on what follows them: they are read without a problem, or end in their
only semicolon with no `for` and no brace that opens, whatever is wrong with them. -/
inductive Segment (tokens : List Token) : Prop
  | silent {own : Token} (silent : (ofTokens tokens own).2 = [])
  | single (ends : tokens.getLast?.map Token.kind = some .semicolon)
      (only : ∀ token ∈ tokens.dropLast, token.kind ≠ .semicolon)
      (plain : ∀ token ∈ tokens, token.kind ≠ .leftBrace ∧ token.kind ≠ .kwFor)

theorem Segment.append {tokens rest : List Token} (segment : Segment tokens)
    (unfollowed : ∀ token ∈ rest.head?, token.kind ≠ .kwElse) (last own : Token) :
    ofTokens (tokens ++ rest) last = ((ofTokens tokens own).1 ++ (ofTokens rest last).1,
      (ofTokens tokens own).2 ++ (ofTokens rest last).2) := by
  cases segment with
  | silent silent => exact ofTokens_silent silent unfollowed last own
  | single ends only plain =>
    obtain ⟨semicolon, final, kind⟩ := Option.map_eq_some_iff.mp ends
    obtain ⟨body, rfl⟩ := List.getLast?_eq_some_iff.mp final
    rw [List.dropLast_concat] at only
    have closed : Sealed (body ++ [semicolon]) := by
      refine sealed_of_body kind fun token member => ⟨only token member, ?_⟩
      obtain ⟨noBrace, noFor⟩ := plain token (List.mem_append_left _ member)
      exact not_or.mpr ⟨noBrace, noFor⟩
    exact ofTokens_sealed closed unfollowed last own

/-- Syntax errors stay local. A segment adds to what is read, and to the problems that are found, just
what it does on its own, whatever follows that does not begin with an `else`; and so does each in a
row of segments. -/
theorem segments_local :
    (∀ tokens rest : List Token, Segment tokens → (∀ token ∈ rest.head?, token.kind ≠ .kwElse) →
      ∀ last own : Token,
        ofTokens (tokens ++ rest) last = ((ofTokens tokens own).1 ++ (ofTokens rest last).1,
          (ofTokens tokens own).2 ++ (ofTokens rest last).2)) ∧
    ∀ segments : List (List Token),
      (∀ tokens ∈ segments, Segment tokens ∧ ∀ token ∈ tokens.head?, token.kind ≠ .kwElse) →
      ∀ last own : Token,
        ofTokens segments.flatten last = (segments.flatMap fun tokens => (ofTokens tokens own).1,
          segments.flatMap fun tokens => (ofTokens tokens own).2) := by
  refine ⟨fun tokens rest => Segment.append, ?_⟩
  intro segments good last own
  induction segments with
  | nil => rfl
  | cons tokens segments ih =>
    obtain ⟨⟨segment, _⟩, others⟩ := List.forall_mem_cons.mp good
    rw [List.flatten_cons, segment.append (unfollowed_flatten fun tokens member =>
      (others tokens member).2) last own, ih others]
    rfl

/-- A line that is wrong adds its problem to that of what follows it, which has no end; and of three
lines of which the outer two are wrong the one between is read, and both problems are found. -/
theorem segments_local_threeLines :
    let faulty := (Scan.ofSource "var = 1;").tokens
    let endless := (Scan.ofSource "print 2").tokens
    let segments := [faulty, (Scan.ofSource "print 2;").tokens, (Scan.ofSource "print ;").tokens]
    let last := Token.plain .endOfInput "" 3
    Segment faulty ∧ (∀ token ∈ endless.head?, token.kind ≠ .kwElse) ∧
      (ofTokens (faulty ++ endless) last).2.map (·.message) =
        ["Expect variable name.", "Expect ';' after value."] ∧
      (∀ tokens ∈ segments, Segment tokens ∧ ∀ token ∈ tokens.head?, token.kind ≠ .kwElse) ∧
      (ofTokens segments.flatten last).1.length = 1 ∧
      (ofTokens segments.flatten last).2.map (·.message) =
        ["Expect variable name.", "Expect expression."] := by
  intro faulty endless segments last
  have silent : (ofTokens (Scan.ofSource "print 2;").tokens last).2 = [] := by decide +kernel
  have broken : Segment faulty :=
    .single (by decide +kernel) (by decide +kernel) (by decide +kernel)
  have unfollowed : ∀ token ∈ endless.head?, token.kind ≠ .kwElse := by decide +kernel
  have good : ∀ tokens ∈ segments, Segment tokens ∧ ∀ token ∈ tokens.head?, token.kind ≠ .kwElse := by
    rw [List.forall_mem_cons, List.forall_mem_cons, List.forall_mem_singleton]
    exact ⟨⟨broken, by decide +kernel⟩, ⟨.silent silent, by decide +kernel⟩,
      ⟨.single (by decide +kernel) (by decide +kernel) (by decide +kernel), by decide +kernel⟩⟩
  refine ⟨broken, unfollowed, ?_, good, ?_⟩
  · rw [segments_local.1 faulty endless broken unfollowed last last]
    decide +kernel
  · rw [segments_local.2 segments good last last]
    exact ⟨by decide +kernel, by decide +kernel⟩

end Program

end Lox
