import Lox.Proofs.Grammar.Taking
import Lox.Proofs.Grammar.Sentence

set_option autoImplicit false

namespace Lox

namespace Sentence

def beginnings : List Kind :=
  [.kwPrint, .kwReturn, .leftBrace, .kwIf, .kwWhile, .kwFor] ++ Phrase.allBeginnings

end Sentence

theorem Ended.begins {value : Expr} {tokens : List Token} (ended : Ended value tokens) :
    ∃ token more, tokens = token :: more ∧ token.kind ∈ Phrase.allBeginnings := by
  obtain ⟨values, _⟩ := ended
  obtain ⟨token, more, rfl, member⟩ := values.begins
  exact ⟨token, _, rfl, Phrase.beginnings_subset _ member⟩

/-- No token of another kind is the first of an expression. -/
theorem Ended.other {value : Expr} {tokens : List Token} (ended : Ended value tokens) {kind : Kind}
    (other : kind ∉ Phrase.allBeginnings) {rest : List Token} :
    ∀ token ∈ (tokens ++ rest).head?, (token.kind == kind) = false := by
  obtain ⟨token, more, rfl, member⟩ := ended.begins
  intro next same
  cases same
  rw [beq_eq_false_iff_ne]
  rintro rfl
  exact other member

namespace Sentence

variable {inside hangs : Bool} {tree : Stmt} {tokens : List Token}

theorem Derives.statement_begins (derives : Derives inside (.statement hangs tree) tokens) :
    ∃ token more, tokens = token :: more ∧ token.kind ∈ beginnings := by
  cases derives with
  | expression values =>
    obtain ⟨token, more, rfl, member⟩ := values.begins
    exact ⟨token, more, rfl, List.mem_append_right _ member⟩
  | print key _ | retNothing key _ | ret key _ | block key _ _ | branch key _ _ _ _
  | branchElse key _ _ _ _ _ _ | loop key _ _ _ _ | forever key _ _ _ | forFrom key _ _ _ =>
    exact ⟨_, _, rfl, by rw [key]; decide⟩

/-- A declaration begins neither with a closing brace nor with an `else`. -/
theorem Derives.declaration_begins (derives : Derives inside (.declaration tree) tokens) :
    ∃ token more, tokens = token :: more ∧ token.kind ≠ .rightBrace ∧ token.kind ≠ .kwElse := by
  cases derives with
  | statement statements =>
    obtain ⟨token, more, rfl, member⟩ := statements.statement_begins
    refine ⟨token, more, rfl, ?_⟩
    revert member
    cases token.kind <;> decide
  | binding key _ | function key _ _ _ _ _ _ _ => exact ⟨_, _, rfl, by rw [key]; decide⟩

end Sentence

namespace Parse

open Reader

variable {α β : Type} {inside : Bool} {rest : List Token}

theorem Takes.recovering {steps : Nat → Parse α} {tokens : List Token} {value : α}
    (takes : Takes inside steps tokens rest value) :
    Takes inside (fun depth => recovering (steps depth)) tokens rest (some value) := by
  obtain ⟨least, reads⟩ := takes
  refine ⟨least, ?_⟩
  intro depth enough cursor whole place
  show Parse.recovering (steps depth) cursor = _
  simp only [Parse.recovering, reads depth enough cursor whole place]

theorem Takes.inFunction {steps : Nat → Parse α} {tokens : List Token} {value : α}
    (takes : Takes true steps tokens rest value) :
    Takes inside (fun depth => inFunction (steps depth)) tokens rest value := by
  obtain ⟨least, reads⟩ := takes
  refine ⟨least, ?_⟩
  intro depth enough cursor whole _
  have within := reads depth enough { cursor with functions := cursor.functions + 1 } whole
    fun _ => Nat.succ_pos _
  show Parse.inFunction (steps depth) cursor = _
  simp only [Parse.inFunction, within]
  rfl

theorem takes_insideFunction {next : Nat → Bool → Parse β} {tokens : List Token} {result : β}
    (goes : Takes true (fun depth => next depth true) tokens rest result) :
    Takes true (fun depth => insideFunction >>= next depth) tokens rest result := by
  obtain ⟨least, reads⟩ := goes
  refine ⟨least, ?_⟩
  intro depth enough cursor whole place
  show next depth (decide (0 < cursor.functions)) cursor = _
  rw [decide_eq_true (place rfl)]
  exact reads depth enough cursor whole place

theorem takes_ended {value : Expr} {tokens : List Token} (whole : Ended value tokens)
    (error : SyntaxError) (make : Expr → Stmt) :
    Takes inside (fun _ => ended error make) tokens rest (make value) := by
  obtain ⟨values, ends⟩ := whole
  unfold ended
  apply (takes_expression values (Grade.unfollowed_of_strength (by rw [ends]; decide))).andThen
  apply takes_expect ends
  exact takes_pure _

theorem takes_variableStatement {tree : Stmt} {tokens : List Token} (declares : Variable tree tokens) :
    Takes inside (fun _ => variableStatement) tokens rest tree := by
  unfold variableStatement
  cases declares with
  | bare named ends =>
    apply takes_expect named
    apply Takes.nil_andThen
    · apply takes_accept_nil (by intro token member; cases member; rw [ends]; rfl)
      exact takes_pure _
    · apply takes_expect ends
      exact takes_pure _
  | valued named sign ended =>
    apply takes_expect named
    obtain ⟨values, ends⟩ := ended
    rw [← List.cons_append]
    apply Takes.andThen
    · apply takes_accept (by rw [sign]; rfl)
      exact takes_expression values (Grade.unfollowed_of_strength (by rw [ends]; decide))
    · apply takes_expect ends
      exact takes_pure _

theorem takes_returning (keyword : Token) :
    Takes true (fun _ => returning keyword) [] rest () := by
  unfold returning
  apply takes_insideFunction
  exact takes_pure ()

theorem takes_returnNothing {keyword semicolon : Token} (ends : semicolon.kind = .semicolon) :
    Takes true (fun _ => returnStatement keyword) [semicolon] rest (.ret keyword none) := by
  simp only [returnStatement]
  apply Takes.nil_andThen (takes_returning keyword)
  apply Takes.nil_andThen
  · apply takes_sees true (by simp [ends])
    exact takes_pure _
  · apply takes_expect ends
    exact takes_pure _

theorem takes_returnStatement {keyword : Token} {value : Expr} {tokens : List Token}
    (ended : Ended value tokens) :
    Takes true (fun _ => returnStatement keyword) tokens rest (.ret keyword (some value)) := by
  obtain ⟨values, ends⟩ := ended
  simp only [returnStatement]
  apply Takes.nil_andThen (takes_returning keyword)
  apply Takes.andThen
  · apply takes_sees false (values.unseen (by decide) _)
    exact (takes_expression values (Grade.unfollowed_of_strength (by rw [ends]; decide))).map some
  · apply takes_expect ends
    exact takes_pure _

theorem takes_parametersWithin {names tokens : List Token} (listed : NameList names tokens) :
    ∀ count, count + names.length ≤ 255 →
      (∀ token ∈ rest.head?, (token.kind == .comma) = false) →
      Takes inside (fun depth => parametersWithin depth count) tokens rest names := by
  induction listed with
  | single named =>
    intro count few noComma
    rw [List.length_singleton] at few
    refine Takes.succ ?_ fun depth => by rw [parametersWithin]
    apply takes_count (by omega)
    apply takes_expect named
    apply takes_accept_nil noComma
    exact takes_pure _
  | @several name comma names tokens named sign others ih =>
    intro count few noComma
    rw [List.length_cons] at few
    refine Takes.succ ?_ fun depth => by rw [parametersWithin]
    apply takes_count (by omega)
    apply takes_expect named
    apply takes_accept (by rw [sign]; rfl)
    apply (ih (count + 1) (by omega) noComma).andThen_nil
    exact takes_pure _

theorem takes_parameterNames {names tokens : List Token} (listed : NameList names tokens)
    (few : names.length ≤ 255) (noComma : ∀ token ∈ rest.head?, (token.kind == .comma) = false) :
    Takes inside (fun _ => parameterNames) tokens rest names := by
  have names : Takes inside (fun depth => parametersWithin depth 0) tokens rest names :=
    takes_parametersWithin listed 0 (by omega) noComma
  obtain ⟨least, reads⟩ := names
  refine ⟨0, ?_⟩
  intro _ _ cursor whole place
  have deep : cursor.ahead.length < max least (cursor.ahead.length + 1) := by omega
  have same := reads _ (Nat.le_max_left _ (cursor.ahead.length + 1)) cursor whole place
  simp only [parametersWithin_eq deep] at same
  exact same

theorem takes_parameters {opening closing : Token} {names params : List Token}
    (opens : opening.kind = .leftParen) (listed : ParameterList names params)
    (closes : closing.kind = .rightParen) :
    Takes inside (fun _ => parameters) (opening :: (params ++ [closing])) rest names := by
  have within : Takes inside (fun _ => sees .rightParen >>= fun closed =>
      if closed then pure [] else parameterNames) params ([closing] ++ rest) names := by
    cases listed with
    | empty =>
      apply takes_sees true (by simp [closes])
      exact takes_pure _
    | names listed few =>
      apply takes_sees false (by cases listed <;> simp [*])
      simp only [Bool.false_eq_true, ↓reduceIte]
      apply takes_parameterNames listed few
      intro token member
      cases member
      rw [closes]
      rfl
  unfold parameters
  apply takes_expect opens
  apply within.andThen
  apply takes_expect closes
  exact takes_pure _

theorem takes_forInitial {tree : Stmt} {tokens : List Token} (initial : Initial tree tokens) :
    Takes inside (fun _ => forInitial) tokens rest (some tree) := by
  unfold forInitial
  cases initial with
  | binding key declares =>
    apply takes_accept_none (by intro token member; cases member; rw [key]; rfl)
    apply takes_accept (by rw [key]; rfl)
    exact (takes_variableStatement declares).map some
  | @expression value tokens ended =>
    apply takes_accept_none (ended.other (by decide))
    apply takes_accept_none (ended.other (by decide))
    exact (takes_ended ended .noSemicolonAfterExpression Stmt.expression).map some

theorem takes_forCondition {condition : Expr} {tokens : List Token}
    (tests : Condition condition tokens) :
    Takes inside (fun _ => forCondition) tokens rest condition := by
  unfold forCondition
  cases tests with
  | absent ends =>
    apply Takes.nil_andThen
    · apply takes_sees true (by simp [ends])
      exact takes_pure _
    · apply takes_expect ends
      exact takes_pure _
  | given ended =>
    obtain ⟨values, ends⟩ := ended
    apply Takes.andThen
    · apply takes_sees false (values.unseen (by decide) _)
      exact takes_expression values (Grade.unfollowed_of_strength (by rw [ends]; decide))
    · apply takes_expect ends
      exact takes_pure _

theorem takes_forIncrement {step : Option Expr} {closing : Token} {tokens : List Token}
    (steps : step = none ∧ tokens = [] ∨
      ∃ value, step = some value ∧ (Phrase.expr .assignment value).Derives tokens)
    (closes : closing.kind = .rightParen) :
    Takes inside (fun _ => forIncrement) (tokens ++ [closing]) rest step := by
  unfold forIncrement
  rcases steps with ⟨rfl, rfl⟩ | ⟨value, rfl, values⟩
  · apply Takes.andThen
    · apply takes_sees true (by simp [closes])
      exact takes_pure none
    · apply takes_expect closes
      exact takes_pure none
  · apply Takes.andThen
    · apply takes_sees false (values.unseen (by decide) _)
      exact (takes_expression values (Grade.unfollowed_of_strength (by rw [closes]; decide))).map some
    · apply takes_expect closes
      exact takes_pure _

/-- A `for` after its first clause. -/
def turnsWithin (depth : Nat) (initial : Option Stmt) : Parse Stmt := do
  let condition ← forCondition
  let increment ← forIncrement
  let body ← statementWithin depth
  pure (.ofFor initial condition increment body)

end Parse

namespace Sentence

open Parse Reader

/-- What reading does where the tokens of a sentence lie ahead. No `else` may follow a statement to
which it would belong, and declarations have to be at their end. -/
def Taken (inside : Bool) : Sentence → List Token → Prop
  | .statement hangs tree, tokens => ∀ rest,
      (hangs = true → ∀ token ∈ rest.head?, (token.kind == .kwElse) = false) →
      Takes inside statementWithin tokens rest tree
  | .turns hangs tree, tokens => ∀ rest,
      (hangs = true → ∀ token ∈ rest.head?, (token.kind == .kwElse) = false) →
      Takes inside (fun depth => turnsWithin depth none) tokens rest tree ∧
      ∀ first, Takes inside (fun depth => turnsWithin depth (some first)) tokens rest
        (.block [first, tree])
  | .declaration tree, tokens => ∀ rest,
      (∀ token ∈ rest.head?, (token.kind == .kwElse) = false) →
      Takes inside declarationWithin tokens rest (some tree)
  | .declarations trees, tokens => ∀ inBlock rest,
      (if inBlock then ∃ token more, rest = token :: more ∧ token.kind = .rightBrace
        else rest = []) →
      Takes inside (fun depth => declarationsWithin depth inBlock) tokens rest trees

variable {inside hangs : Bool} {tree : Stmt} {tokens rest : List Token}

theorem head_other {token : Token} {more : List Token} {kind : Kind} (other : token.kind ≠ kind) :
    ∀ next ∈ (token :: more).head?, (next.kind == kind) = false := by
  intro next same
  cases same
  exact beq_eq_false_iff_ne.mpr other

theorem taken_expression {value : Expr} (ended : Ended value tokens) :
    Taken inside (.statement false (.expression value)) tokens := by
  intro rest _
  refine Takes.succ ?_ fun depth => by rw [statementWithin]
  apply takes_accept_none (ended.other (by decide))
  apply takes_accept_none (ended.other (by decide))
  apply takes_accept_none (ended.other (by decide))
  apply takes_accept_none (ended.other (by decide))
  apply takes_accept_none (ended.other (by decide))
  apply takes_accept_none (ended.other (by decide))
  exact takes_ended ended .noSemicolonAfterExpression Stmt.expression

theorem taken_print {keyword : Token} {value : Expr} (key : keyword.kind = .kwPrint)
    (ended : Ended value tokens) :
    Taken inside (.statement false (.print value)) (keyword :: tokens) := by
  intro rest _
  refine Takes.succ ?_ fun depth => by rw [statementWithin]
  apply takes_accept_none (head_other (by rw [key]; decide))
  apply takes_accept_none (head_other (by rw [key]; decide))
  apply takes_accept (by rw [key]; rfl)
  exact takes_ended ended .noSemicolonAfterValue Stmt.print

theorem taken_ret {keyword : Token} {value : Option Expr} (key : keyword.kind = .kwReturn)
    (goes : ∀ rest, Takes true (fun _ => returnStatement keyword) tokens rest (.ret keyword value)) :
    Taken true (.statement false (.ret keyword value)) (keyword :: tokens) := by
  intro rest _
  refine Takes.succ ?_ fun depth => by rw [statementWithin]
  apply takes_accept_none (head_other (by rw [key]; decide))
  apply takes_accept_none (head_other (by rw [key]; decide))
  apply takes_accept_none (head_other (by rw [key]; decide))
  apply takes_accept (by rw [key]; rfl)
  exact goes rest

/-- A block is read up to its closing brace. -/
theorem takes_block {body : List Stmt} {closing : Token} (closes : closing.kind = .rightBrace)
    (bodies : Taken inside (.declarations body) tokens) :
    Takes inside blockWithin (tokens ++ [closing]) rest body := by
  refine Takes.succ ?_ fun depth => by rw [blockWithin]
  apply (bodies true ([closing] ++ rest) ⟨closing, rest, rfl, closes⟩).andThen
  apply takes_expect closes
  exact takes_pure _

theorem taken_block {opening closing : Token} {body : List Stmt} (opens : opening.kind = .leftBrace)
    (bodies : Taken inside (.declarations body) tokens) (closes : closing.kind = .rightBrace) :
    Taken inside (.statement false (.block body)) (opening :: (tokens ++ [closing])) := by
  intro rest _
  refine Takes.succ ?_ fun depth => by rw [statementWithin]
  apply takes_accept_none (head_other (by rw [opens]; decide))
  apply takes_accept_none (head_other (by rw [opens]; decide))
  apply takes_accept_none (head_other (by rw [opens]; decide))
  apply takes_accept_none (head_other (by rw [opens]; decide))
  apply takes_accept_none (head_other (by rw [opens]; decide))
  apply takes_accept (by rw [opens]; rfl)
  apply (takes_block closes bodies).andThen_nil
  exact takes_pure _

/-- The condition of an `if` or a `while`, in parentheses. -/
theorem takes_test {opening closing : Token} {condition : Expr} {test : List Token}
    {missing unclosed : SyntaxError} {next : Nat → Expr → Parse Stmt}
    (opens : opening.kind = .leftParen) (tests : (Phrase.expr .assignment condition).Derives test)
    (closes : closing.kind = .rightParen)
    (goes : Takes inside (fun depth => next depth condition) tokens rest tree) :
    Takes inside (fun depth => do
      let _ ← expect .leftParen missing
      let condition ← expression
      let _ ← expect .rightParen unclosed
      next depth condition) (opening :: (test ++ closing :: tokens)) rest tree := by
  apply takes_expect opens
  apply (takes_expression tests (Grade.unfollowed_of_strength (by rw [closes]; decide))).andThen
  exact takes_expect closes goes

theorem taken_loop {keyword opening closing : Token} {condition : Expr} {test : List Token}
    (key : keyword.kind = .kwWhile) (opens : opening.kind = .leftParen)
    (tests : (Phrase.expr .assignment condition).Derives test)
    (closes : closing.kind = .rightParen) (body : Taken inside (.statement hangs tree) tokens) :
    Taken inside (.statement hangs (.loop condition tree))
      (keyword :: opening :: (test ++ closing :: tokens)) := by
  intro rest alone
  refine Takes.succ ?_ fun depth => by rw [statementWithin]
  apply takes_accept_none (head_other (by rw [key]; decide))
  apply takes_accept_none (head_other (by rw [key]; decide))
  apply takes_accept_none (head_other (by rw [key]; decide))
  apply takes_accept_none (head_other (by rw [key]; decide))
  apply takes_accept (by rw [key]; rfl)
  refine Takes.succ ?_ fun depth => by rw [whileWithin]
  apply takes_test opens tests closes
  apply (body rest alone).andThen_nil
  exact takes_pure _

/-- An `if` is taken if its branches are. -/
theorem takes_branch {keyword opening closing : Token} {condition : Expr} {test : List Token}
    (key : keyword.kind = .kwIf) (opens : opening.kind = .leftParen)
    (tests : (Phrase.expr .assignment condition).Derives test)
    (closes : closing.kind = .rightParen)
    (branches : Takes inside (fun depth => do
      let yes ← statementWithin depth
      match ← accept (· == .kwElse) with
      | none => pure (.branch condition yes none)
      | some _ => do
        let no ← statementWithin depth
        pure (.branch condition yes (some no))) tokens rest tree) :
    Takes inside statementWithin (keyword :: opening :: (test ++ closing :: tokens)) rest tree := by
  refine Takes.succ ?_ fun depth => by rw [statementWithin]
  apply takes_accept_none (head_other (by rw [key]; decide))
  apply takes_accept (by rw [key]; rfl)
  refine Takes.succ ?_ fun depth => by rw [ifWithin]
  exact takes_test opens tests closes branches

theorem taken_branch {keyword opening closing : Token} {condition : Expr} {test : List Token}
    (key : keyword.kind = .kwIf) (opens : opening.kind = .leftParen)
    (tests : (Phrase.expr .assignment condition).Derives test)
    (closes : closing.kind = .rightParen) (yes : Taken inside (.statement hangs tree) tokens) :
    Taken inside (.statement true (.branch condition tree none))
      (keyword :: opening :: (test ++ closing :: tokens)) := by
  intro rest alone
  apply takes_branch key opens tests closes
  apply (yes rest fun _ => alone rfl).andThen_nil
  apply takes_accept_nil (alone rfl)
  exact takes_pure _

theorem taken_branchElse {keyword opening closing other : Token} {condition : Expr} {yes no : Stmt}
    {test before after : List Token} (key : keyword.kind = .kwIf) (opens : opening.kind = .leftParen)
    (tests : (Phrase.expr .assignment condition).Derives test)
    (closes : closing.kind = .rightParen) (yeses : Taken inside (.statement false yes) before)
    (others : other.kind = .kwElse) (noes : Taken inside (.statement hangs no) after) :
    Taken inside (.statement hangs (.branch condition yes (some no)))
      (keyword :: opening :: (test ++ closing :: (before ++ other :: after))) := by
  intro rest alone
  apply takes_branch key opens tests closes
  apply (yeses (other :: after ++ rest) nofun).andThen
  apply takes_accept (by rw [others]; rfl)
  apply (noes rest alone).andThen_nil
  exact takes_pure _

theorem takes_turns {closing : Token} {condition : Expr} {step : Option Expr}
    {before middle after : List Token} (tests : Condition condition before)
    (steps : step = none ∧ middle = [] ∨
      ∃ value, step = some value ∧ (Phrase.expr .assignment value).Derives middle)
    (closes : closing.kind = .rightParen) (body : Takes inside statementWithin after rest tree)
    (first : Option Stmt) :
    Takes inside (fun depth => turnsWithin depth first) (before ++ (middle ++ closing :: after)) rest
      (.ofFor first condition step tree) := by
  unfold turnsWithin
  apply (takes_forCondition tests).andThen
  rw [List.append_cons]
  apply (takes_forIncrement steps closes).andThen
  apply body.andThen_nil
  exact takes_pure _

theorem taken_turns {closing : Token} {condition : Expr} {before after : List Token}
    (tests : Condition condition before) (closes : closing.kind = .rightParen)
    (body : Taken inside (.statement hangs tree) after) :
    Taken inside (.turns hangs (.loop condition tree)) (before ++ closing :: after) := by
  intro rest alone
  have rounds := takes_turns tests (Or.inl ⟨rfl, rfl⟩) closes (body rest alone)
  exact ⟨rounds none, fun first => rounds (some first)⟩

theorem taken_turnsStepping {closing : Token} {condition increment : Expr}
    {before middle after : List Token} (tests : Condition condition before)
    (steps : (Phrase.expr .assignment increment).Derives middle)
    (closes : closing.kind = .rightParen) (body : Taken inside (.statement hangs tree) after) :
    Taken inside (.turns hangs (.loop condition (.block [tree, .expression increment])))
      (before ++ (middle ++ closing :: after)) := by
  intro rest alone
  have rounds := takes_turns tests (Or.inr ⟨increment, rfl, steps⟩) closes (body rest alone)
  exact ⟨rounds none, fun first => rounds (some first)⟩

theorem taken_forever {keyword opening semicolon : Token} (key : keyword.kind = .kwFor)
    (opens : opening.kind = .leftParen) (ends : semicolon.kind = .semicolon)
    (rounds : Taken inside (.turns hangs tree) tokens) :
    Taken inside (.statement hangs tree) (keyword :: opening :: semicolon :: tokens) := by
  intro rest alone
  refine Takes.succ ?_ fun depth => by rw [statementWithin]
  apply takes_accept (by rw [key]; rfl)
  refine Takes.succ ?_ fun depth => by rw [forWithin]
  apply takes_expect opens
  have initial : Takes inside (fun _ => forInitial) [semicolon] (tokens ++ rest) none := by
    unfold forInitial
    apply takes_accept (by rw [ends]; rfl)
    exact takes_pure none
  exact initial.andThen (rounds rest alone).1

theorem taken_forFrom {keyword opening : Token} {first : Stmt} {before after : List Token}
    (key : keyword.kind = .kwFor) (opens : opening.kind = .leftParen)
    (initials : Initial first before) (rounds : Taken inside (.turns hangs tree) after) :
    Taken inside (.statement hangs (.block [first, tree]))
      (keyword :: opening :: (before ++ after)) := by
  intro rest alone
  refine Takes.succ ?_ fun depth => by rw [statementWithin]
  apply takes_accept (by rw [key]; rfl)
  refine Takes.succ ?_ fun depth => by rw [forWithin]
  apply takes_expect opens
  apply (takes_forInitial initials).andThen
  exact (rounds rest alone).2 first

theorem taken_statement (derives : Derives inside (.statement hangs tree) tokens)
    (statement : Taken inside (.statement hangs tree) tokens) :
    Taken inside (.declaration tree) tokens := by
  intro rest alone
  obtain ⟨token, more, rfl, member⟩ := derives.statement_begins
  refine Takes.succ ?_ fun depth => by rw [declarationWithin]
  apply Takes.recovering
  apply takes_accept_none (head_other (by rintro kind; rw [kind] at member; revert member; decide))
  apply takes_accept_none (head_other (by rintro kind; rw [kind] at member; revert member; decide))
  exact statement rest fun _ => alone

theorem taken_binding {keyword : Token} (key : keyword.kind = .kwVar)
    (declares : Variable tree tokens) : Taken inside (.declaration tree) (keyword :: tokens) := by
  intro rest _
  refine Takes.succ ?_ fun depth => by rw [declarationWithin]
  apply Takes.recovering
  apply takes_accept_none (head_other (by rw [key]; decide))
  apply takes_accept (by rw [key]; rfl)
  exact takes_variableStatement declares

theorem taken_function {keyword name opening closing first last : Token}
    {params body : List Token} {stmts : List Stmt} {names : List Token}
    (key : keyword.kind = .kwFun) (named : name.kind = .identifier)
    (opens : opening.kind = .leftParen) (listed : ParameterList names params)
    (closes : closing.kind = .rightParen) (begins : first.kind = .leftBrace)
    (bodies : Taken true (.declarations stmts) body) (ends : last.kind = .rightBrace) :
    Taken inside (.declaration (.function name names stmts))
      (keyword :: name :: opening :: (params ++ closing :: first :: (body ++ [last]))) := by
  intro rest _
  refine Takes.succ ?_ fun depth => by rw [declarationWithin]
  apply Takes.recovering
  apply takes_accept (by rw [key]; rfl)
  refine Takes.succ ?_ fun depth => by rw [functionWithin]
  apply takes_expect named
  rw [List.append_cons, ← List.cons_append]
  apply (takes_parameters opens listed closes).andThen
  apply takes_expect begins
  apply (takes_block ends bodies).inFunction.andThen_nil
  exact takes_pure _

theorem taken_nothing : Taken inside (.declarations []) [] := by
  intro inBlock rest stops
  refine ⟨1, ?_⟩
  intro depth enough cursor whole _
  obtain ⟨less, rfl⟩ : ∃ less, depth = less + 1 := ⟨depth - 1, by omega⟩
  have finished : (cursor.ahead.isEmpty || (inBlock && cursor.sees .rightBrace)) = true := by
    unfold Cursor.sees
    rw [whole]
    cases inBlock with
    | false =>
      rw [if_neg Bool.false_ne_true] at stops
      rw [stops]
      rfl
    | true =>
      obtain ⟨token, more, rfl, closes⟩ := stops
      simp [closes]
  show declarationsWithin (M := Parse) (less + 1) inBlock cursor = _
  rw [declarationsWithin_succ, if_pos finished]
  exact congrArg (Parsed.ok []) (by rw [Cursor.beyond, ← List.nil_append rest, ← whole]; rfl)

theorem taken_first {trees : List Stmt} {before after : List Token}
    (derives : Derives inside (.declaration tree) before)
    (following : Derives inside (.declarations trees) after)
    (first : Taken inside (.declaration tree) before)
    (others : Taken inside (.declarations trees) after) :
    Taken inside (.declarations (tree :: trees)) (before ++ after) := by
  intro inBlock rest stops
  -- What follows the first declaration is another one, or the end.
  have alone : ∀ token ∈ (after ++ rest).head?, (token.kind == .kwElse) = false := by
    cases following with
    | nothing =>
      cases inBlock with
      | false =>
        rw [if_neg Bool.false_ne_true] at stops
        rw [stops]
        nofun
      | true =>
        obtain ⟨token, more, rfl, closes⟩ := stops
        exact head_other (by rw [closes]; decide)
    | first next _ =>
      obtain ⟨token, more, rfl, _, noElse⟩ := next.declaration_begins
      exact head_other noElse
  obtain ⟨token, more, rfl, noBrace, _⟩ := derives.declaration_begins
  have both : Takes inside (fun depth => declarationWithin depth >>= fun first =>
      declarationsWithin depth inBlock >>= fun others => pure (first.toList ++ others))
      (token :: more ++ after) rest (tree :: trees) := by
    apply (first (after ++ rest) alone).andThen
    apply (others inBlock rest stops).andThen_nil
    exact takes_pure _
  obtain ⟨least, reads⟩ := both
  refine ⟨least + 1, ?_⟩
  intro depth enough cursor whole place
  obtain ⟨less, rfl⟩ : ∃ less, depth = less + 1 := ⟨depth - 1, by omega⟩
  have unfinished : ¬ (cursor.ahead.isEmpty || (inBlock && cursor.sees .rightBrace)) = true := by
    unfold Cursor.sees
    rw [whole]
    simp [noBrace]
  show declarationsWithin (M := Parse) (less + 1) inBlock cursor = _
  rw [declarationsWithin_succ, if_neg unfinished]
  exact reads less (by omega) cursor whole place

theorem Derives.taken {sentence : Sentence} {tokens : List Token}
    (derives : sentence.Derives inside tokens) : Taken inside sentence tokens := by
  induction derives with
  | expression values => exact taken_expression values
  | print key values => exact taken_print key values
  | retNothing key ends => exact taken_ret key fun _ => takes_returnNothing ends
  | ret key values => exact taken_ret key fun _ => takes_returnStatement values
  | block opens _ closes bodies => exact taken_block opens bodies closes
  | branch key opens tests closes _ yes => exact taken_branch key opens tests closes yes
  | branchElse key opens tests closes _ others _ yes no =>
    exact taken_branchElse key opens tests closes yes others no
  | loop key opens tests closes _ body => exact taken_loop key opens tests closes body
  | forever key opens ends _ rounds => exact taken_forever key opens ends rounds
  | forFrom key opens initials _ rounds => exact taken_forFrom key opens initials rounds
  | turns tests closes _ body => exact taken_turns tests closes body
  | turnsStepping tests steps closes _ body => exact taken_turnsStepping tests steps closes body
  | statement derives statement => exact taken_statement derives statement
  | binding key declares => exact taken_binding key declares
  | function key named opens listed closes begins _ ends bodies =>
    exact taken_function key named opens listed closes begins bodies ends
  | nothing => exact taken_nothing
  | first derives others first rest => exact taken_first derives others first rest

end Sentence

namespace Program

/-- What the tokens derive is read from them without a problem. -/
theorem ofTokens_of_derives {tokens : List Token} {program : Program}
    (derives : Sentence.Derives false (.declarations program) tokens) (last : Token) :
    ofTokens tokens last = (program, []) := by
  obtain ⟨least, reads⟩ := derives.taken false [] (if_neg Bool.false_ne_true ▸ rfl)
  have start : (Cursor.start tokens last).ahead = tokens ++ [] := (List.append_nil tokens).symm
  have taken := reads (max least (16 * (Cursor.start tokens last).ahead.length + 6))
    (Nat.le_max_left _ _) (.start tokens last) start nofun
  simp only [Parse.declarationsWithin_eq (Nat.le_max_right _ _)] at taken
  simp only [ofTokens, taken]
  rfl

/-- A program is read from tokens without a problem exactly where the grammar derives it. -/
theorem ofTokens_eq_iff (tokens : List Token) (last : Token) (program : Program) :
    ofTokens tokens last = (program, []) ↔ Sentence.Derives false (.declarations program) tokens :=
  ⟨derives_of_ofTokens, fun derives => ofTokens_of_derives derives last⟩

theorem ofSource_eq_ok_iff (source : String) (program : Program) :
    ofSource source = .ok program ↔ (Scan.ofSource source).problems = [] ∧
      Sentence.Derives false (.declarations program) (Scan.ofSource source).tokens := by
  rw [← ofTokens_eq_iff _ (Scan.ofSource source).last]
  simp only [ofSource]
  rcases ofTokens (Scan.ofSource source).tokens (Scan.ofSource source).last with ⟨read, problems⟩
  cases (Scan.ofSource source).problems with
  | nil =>
    cases problems with
    | nil => simp
    | cons problem others => simp
  | cons problem others => simp

theorem eq_ok_get {Problem : Type} (read : Except Problem Program)
    (fine : read.toOption.isSome = true) : read = .ok (read.toOption.get fine) := by
  cases read with
  | ok => rfl
  | error => cases fine

theorem eq_error {Problem : Type} {read : Except Problem Program}
    (unread : read.toOption.isNone = true) : ∃ problem, read = .error problem := by
  cases read with
  | ok => cases unread
  | error problem => exact ⟨problem, rfl⟩

/-- Reading is right and complete: from tokens a program is read without a problem exactly where
they derive it, each token being used once and in order; and a text is a program exactly where it is
scanned without a problem and its tokens derive one. -/
theorem read_iff_derives :
    (∀ (tokens : List Token) (last : Token) (program : Program),
      ofTokens tokens last = (program, []) ↔
        Sentence.Derives false (.declarations program) tokens) ∧
    ∀ (source : String) (program : Program), ofSource source = .ok program ↔
      (Scan.ofSource source).problems = [] ∧
        Sentence.Derives false (.declarations program) (Scan.ofSource source).tokens :=
  ⟨ofTokens_eq_iff, ofSource_eq_ok_iff⟩

end Program

end Lox
