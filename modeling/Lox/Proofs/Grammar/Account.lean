import Lox.Proofs.Grammar.Step
import Lox.Proofs.Grammar.Derivation

set_option autoImplicit false

namespace Lox

/-- From one cursor to another: the tokens between, and the problems found meanwhile. -/
structure Cursor.Went (before : Cursor) (read : List Token) (found : List Diagnostic)
    (after : Cursor) : Prop where
  behind : after.behind = read.reverse ++ before.behind
  ahead : before.ahead = read ++ after.ahead
  last : after.last = before.last
  functions : after.functions = before.functions
  problems : after.problems.toList = before.problems.toList ++ found

namespace Cursor

variable {before middle after : Cursor}

theorem Went.refl (cursor : Cursor) : cursor.Went [] [] cursor :=
  ⟨rfl, rfl, rfl, rfl, (List.append_nil _).symm⟩

theorem Went.trans {read more : List Token} {found others : List Diagnostic}
    (first : before.Went read found middle) (rest : middle.Went more others after) :
    before.Went (read ++ more) (found ++ others) after := by
  refine ⟨?_, ?_, ?_, ?_, ?_⟩
  · rw [rest.behind, first.behind, List.reverse_append, List.append_assoc]
  · rw [first.ahead, rest.ahead, List.append_assoc]
  · rw [rest.last, first.last]
  · rw [rest.functions, first.functions]
  · rw [rest.problems, first.problems, List.append_assoc]

theorem went_past {cursor : Cursor} {token : Token} {ahead : List Token}
    (tokens : cursor.ahead = token :: ahead) : cursor.Went [token] [] (cursor.past token ahead) :=
  ⟨rfl, tokens, rfl, rfl, (List.append_nil _).symm⟩

theorem went_record (cursor : Cursor) (error : SyntaxError) (token : Token) :
    cursor.Went [] [error.diagnostic token] (cursor.record error token) :=
  ⟨rfl, rfl, rfl, rfl, by simp [record]⟩

theorem went_synchronize (cursor : Cursor) : ∃ skipped, cursor.Went skipped [] cursor.synchronize := by
  obtain ⟨skipped, rest, tokens, _, synchronized⟩ := cursor.synchronize_eq
  refine ⟨skipped, ?_⟩
  rw [synchronized]
  exact ⟨rfl, tokens, rfl, rfl, (List.append_nil _).symm⟩

end Cursor

/-- What was come to from a cursor: a value that fits the tokens read and those ahead, unless there
were problems, or a failure for which there was one. -/
def Parsed.Accounted {α : Type} (before : Cursor) (fits : List Token → List Token → α → Prop) :
    Parsed α → Prop
  | .ok value after => ∃ read found, before.Went read found after ∧
      (found = [] → fits read after.ahead value)
  | .failed after => ∃ read found, before.Went read found after ∧ found ≠ []
  | .spent => True

theorem Parsed.Accounted.imp {α : Type} {before : Cursor}
    {fits better : List Token → List Token → α → Prop} {parsed : Parsed α}
    (accounted : parsed.Accounted before fits)
    (imp : ∀ read ahead value, before.ahead = read ++ ahead → fits read ahead value →
      better read ahead value) : parsed.Accounted before better := by
  cases parsed with
  | ok value after =>
    obtain ⟨read, found, went, good⟩ := accounted
    exact ⟨read, found, went, fun clean => imp read after.ahead value went.ahead (good clean)⟩
  | failed after => exact accounted
  | spent => trivial

/-- What is accounted for from behind a token is accounted for from before it. -/
theorem Parsed.Accounted.past {α : Type} {cursor : Cursor} {token : Token} {ahead : List Token}
    {fits : List Token → List Token → α → Prop} {parsed : Parsed α}
    (accounted : parsed.Accounted (cursor.past token ahead) fun read => fits (token :: read))
    (tokens : cursor.ahead = token :: ahead) : parsed.Accounted cursor fits := by
  cases parsed with
  | ok value after =>
    obtain ⟨read, found, went, good⟩ := accounted
    exact ⟨token :: read, found, (Cursor.went_past tokens).trans went, good⟩
  | failed after =>
    obtain ⟨read, found, went, noted⟩ := accounted
    exact ⟨token :: read, found, (Cursor.went_past tokens).trans went, noted⟩
  | spent => trivial

namespace Parse

open Reader

variable {α β : Type} {inside : Bool}

/-- From everywhere inside a function, or outside every one, a step accounts for the tokens. -/
def Accounts (inside : Bool) (fits : List Token → List Token → α → Prop) (step : Parse α) : Prop :=
  ∀ cursor : Cursor, decide (0 < cursor.functions) = inside →
    (step cursor).Accounted cursor fits

theorem Accounts.imp {fits better : List Token → List Token → α → Prop} {step : Parse α}
    (accounts : Accounts inside fits step)
    (imp : ∀ read ahead value, fits read ahead value → better read ahead value) :
    Accounts inside better step :=
  fun cursor place => (accounts cursor place).imp fun read ahead value _ => imp read ahead value

/-- The value of the whole has to fit whatever was read before and fitted the first value. -/
theorem Accounts.andThen {fits : List Token → List Token → α → Prop}
    {whole : List Token → List Token → β → Prop} {step : Parse α} {next : α → Parse β}
    (first : Accounts inside fits step)
    (rest : ∀ value, Accounts inside (fun read ahead result => ∀ before,
      fits before (read ++ ahead) value → whole (before ++ read) ahead result) (next value)) :
    Accounts inside whole (step >>= next) := by
  intro cursor place
  have accounted := first cursor place
  cases out : step cursor with
  | ok value middle =>
    rw [out] at accounted
    obtain ⟨read, found, went, good⟩ := accounted
    have onward := rest value middle (went.functions ▸ place)
    rw [bind_of_ok out]
    cases ended : next value middle with
    | ok result after =>
      rw [ended] at onward
      obtain ⟨more, others, further, fine⟩ := onward
      refine ⟨read ++ more, found ++ others, went.trans further, ?_⟩
      intro clean
      obtain ⟨silence, nor⟩ := List.append_eq_nil_iff.mp clean
      exact fine nor read (further.ahead ▸ good silence)
    | failed after =>
      rw [ended] at onward
      obtain ⟨more, others, further, noted⟩ := onward
      exact ⟨read ++ more, found ++ others, went.trans further,
        fun clean => noted (List.append_eq_nil_iff.mp clean).2⟩
    | spent => trivial
  | failed middle =>
    rw [out] at accounted
    rw [bind_of_failed out]
    exact accounted
  | spent =>
    rw [bind_of_spent out]
    trivial

theorem accounts_spent {fits : List Token → List Token → α → Prop} :
    Accounts inside fits (spent (α := α)) :=
  fun _ _ => trivial

theorem accounts_pure {fits : List Token → List Token → α → Prop} {value : α}
    (good : ∀ ahead, fits [] ahead value) : Accounts inside fits (pure value) :=
  fun cursor _ => ⟨[], [], .refl cursor, fun _ => good cursor.ahead⟩

theorem accounts_fail {fits : List Token → List Token → α → Prop} (error : SyntaxError) :
    Accounts inside fits (fail error) :=
  fun cursor _ => ⟨[], _, cursor.went_record error cursor.here, List.cons_ne_nil _ _⟩

/-- After a problem was noted nothing is claimed any more. -/
theorem accounts_note {fits : List Token → List Token → Unit → Prop} (error : SyntaxError)
    (token : Token) : Accounts inside fits (note error token) :=
  fun cursor _ => ⟨[], _, cursor.went_record error token, fun clean => by cases clean⟩

theorem accounts_noteHere {fits : List Token → List Token → Unit → Prop} (error : SyntaxError) :
    Accounts inside fits (noteHere error) :=
  fun cursor _ => ⟨[], _, cursor.went_record error cursor.here, fun clean => by cases clean⟩

theorem accounts_accept {among : Kind → Bool} {fits : List Token → List Token → β → Prop}
    {next : Option Token → Parse β}
    (without : Accounts inside (fun read ahead value =>
      (∀ token ∈ (read ++ ahead).head?, among token.kind = false) → fits read ahead value)
      (next none))
    (taken : ∀ token, among token.kind = true →
      Accounts inside (fun read => fits (token :: read)) (next (some token))) :
    Accounts inside fits (accept among >>= next) := by
  intro cursor place
  rcases accept_cases among cursor with ⟨out, others⟩ | ⟨token, ahead, tokens, wanted, out⟩
  · rw [bind_of_ok out]
    apply (without cursor place).imp
    intro read after value whole good
    exact good (whole ▸ others)
  · rw [bind_of_ok out]
    exact (taken token wanted (cursor.past token ahead) place).past tokens

theorem accounts_acceptAtom {fits : List Token → List Token → β → Prop}
    {next : Option Expr → Parse β} (without : Accounts inside fits (next none))
    (taken : ∀ token expr, Expr.ofToken? token = some expr →
      Accounts inside (fun read => fits (token :: read)) (next (some expr))) :
    Accounts inside fits (acceptAtom >>= next) := by
  intro cursor place
  rcases acceptAtom_cases cursor with ⟨out, _⟩ | ⟨token, ahead, expr, tokens, atom, out⟩
  · rw [bind_of_ok out]
    exact without cursor place
  · rw [bind_of_ok out]
    exact (taken token expr atom (cursor.past token ahead) place).past tokens

theorem accounts_expect {kind : Kind} {error : SyntaxError}
    {fits : List Token → List Token → β → Prop} {next : Token → Parse β}
    (taken : ∀ token, token.kind = kind →
      Accounts inside (fun read => fits (token :: read)) (next token)) :
    Accounts inside fits (expect kind error >>= next) := by
  intro cursor place
  rcases expect_cases kind error cursor with out | ⟨token, ahead, tokens, right, out⟩
  · rw [bind_of_failed out]
    exact ⟨[], _, cursor.went_record error cursor.here, List.cons_ne_nil _ _⟩
  · rw [bind_of_ok out]
    exact (taken token right (cursor.past token ahead) place).past tokens

theorem accounts_ite {condition : Prop} [Decidable condition]
    {fits : List Token → List Token → α → Prop} {first second : Parse α}
    (yes : condition → Accounts inside fits first)
    (no : ¬ condition → Accounts inside fits second) :
    Accounts inside fits (if condition then first else second) := by
  split
  · rename_i holds
    exact yes holds
  · rename_i fails
    exact no fails

theorem accounts_sees {fits : List Token → List Token → β → Prop} {kind : Kind}
    {next : Bool → Parse β} (rest : ∀ seen, Accounts inside fits (next seen)) :
    Accounts inside fits (sees kind >>= next) := by
  intro cursor place
  show (next (cursor.sees kind) cursor).Accounted cursor fits
  exact rest _ cursor place

def grade : Option Level → Grade
  | none => .unary
  | some level => .chain level

theorem tighter_chain (level : Level) :
    (Grade.chain level).tighter = some (grade level.tighter) := by
  cases level <;> rfl

theorem joins_iff (level : Level) (kind : Kind) :
    level.joins kind = true ↔ kind ∈ level.operators := by
  cases level <;> simp [Level.joins, Level.operators, or_assoc]

theorem derives_join {level : Level} {left right : Expr} {operator : Token}
    {before after : List Token} (joins : level.joins operator.kind = true)
    (lefts : (Phrase.expr (.chain level) left).Derives before)
    (rights : (Phrase.expr (grade level.tighter) right).Derives after) :
    (Phrase.expr (.chain level) (level.join left operator right)).Derives
      (before ++ operator :: after) := by
  have sign := (joins_iff level operator.kind).mp joins
  have step := tighter_chain level
  cases level with
  | disjunction | conjunction => exact .logical rfl step sign lefts rights
  | equality | comparison | term | factor => exact .binary rfl step sign lefts rights

theorem derives_atom {token : Token} {expr : Expr} (atom : Expr.ofToken? token = some expr) :
    (Phrase.expr .primary expr).Derives [token] := by
  unfold Expr.ofToken? at atom
  split at atom
  · cases atom
    exact .no (by assumption)
  · cases atom
    exact .yes (by assumption)
  · cases atom
    exact .nil (by assumption)
  · cases atom
    exact .number (by assumption) (by assumption)
  · cases atom
    exact .text (by assumption) (by assumption)
  · cases atom
    exact .var (by assumption)
  · cases atom

/-- A name, whatever it is read as, is written by itself alone. -/
theorem eq_of_derives_var {grade : Grade} {name : Token} {tokens : List Token}
    (derives : (Phrase.expr grade (.var name)).Derives tokens) :
    tokens = [name] ∧ name.kind = .identifier := by
  generalize whole : Phrase.expr grade (.var name) = phrase at derives
  induction derives generalizing grade with
  | tighter step inner ih =>
    cases whole
    exact ih rfl
  | var named =>
    cases whole
    exact ⟨rfl, named⟩
  | _ => cases whole

structure ExpressionsAccount (inside : Bool) (depth : Nat) : Prop where
  expression : Accounts inside (fun read _ tree => (Phrase.expr .assignment tree).Derives read)
    (expressionWithin depth)
  operand (level : Option Level) :
    Accounts inside (fun read _ tree => (Phrase.expr (grade level) tree).Derives read)
      (operandWithin depth level)
  chain (level : Level) (left : Expr) :
    Accounts inside (fun read _ tree => ∀ before, (Phrase.expr (.chain level) left).Derives before →
      (Phrase.expr (.chain level) tree).Derives (before ++ read)) (chainWithin depth level left)
  unary : Accounts inside (fun read _ tree => (Phrase.expr .unary tree).Derives read)
    (unaryWithin depth)
  calls (callee : Expr) :
    Accounts inside (fun read _ tree => ∀ before, (Phrase.expr .call callee).Derives before →
      (Phrase.expr .call tree).Derives (before ++ read)) (callsWithin depth callee)
  arguments (count : Nat) :
    Accounts inside (fun read _ trees => (Phrase.list trees).Derives read ∧
      count + trees.length ≤ 255) (argumentsWithin depth count)
  primary : Accounts inside (fun read _ tree => (Phrase.expr .primary tree).Derives read)
    (primaryWithin depth)

namespace ExpressionsAccount

variable {depth : Nat}

theorem expression_succ (account : ExpressionsAccount inside depth) :
    Accounts inside (fun read _ tree => (Phrase.expr .assignment tree).Derives read)
      (expressionWithin (depth + 1)) := by
  rw [expressionWithin]
  apply (account.operand (some .disjunction)).andThen
  intro left
  apply accounts_accept
  · apply accounts_pure
    intro ahead _ before lefts
    rw [List.append_nil]
    exact .tighter rfl lefts
  · intro equals sign
    apply account.expression.andThen
    intro value
    cases left with
    | var name =>
      apply accounts_pure
      intro ahead read values before lefts
      obtain ⟨rfl, named⟩ := eq_of_derives_var lefts
      rw [List.append_nil]
      exact .assign named (beq_iff_eq.mp sign) values
    | assign | binary | call | grouping | literal | logical | unary =>
      have refused (error : SyntaxError) : Accounts inside (fun _ _ _ => False) (note error equals) :=
        accounts_note error equals
      apply (refused _).andThen
      intro _
      apply accounts_pure
      intro ahead read never
      cases never

theorem operand_succ (account : ExpressionsAccount inside depth) (level : Option Level) :
    Accounts inside (fun read _ tree => (Phrase.expr (grade level) tree).Derives read)
      (operandWithin (depth + 1) level) := by
  cases level with
  | none =>
    rw [operandWithin]
    exact account.unary
  | some level =>
    rw [operandWithin]
    apply (account.operand level.tighter).andThen
    intro left
    apply (account.chain level left).imp
    intro read ahead tree onward before lefts
    exact onward before (.tighter (tighter_chain level) lefts)

theorem chain_succ (account : ExpressionsAccount inside depth) (level : Level) (left : Expr) :
    Accounts inside (fun read _ tree => ∀ before, (Phrase.expr (.chain level) left).Derives before →
      (Phrase.expr (.chain level) tree).Derives (before ++ read))
      (chainWithin (depth + 1) level left) := by
  rw [chainWithin]
  apply accounts_accept
  · apply accounts_pure
    intro ahead _ before lefts
    rw [List.append_nil]
    exact lefts
  · intro operator joins
    apply (account.operand level.tighter).andThen
    intro right
    apply (account.chain level (level.join left operator right)).imp
    intro read ahead tree onward middle rights before lefts
    have whole := onward _ (derives_join joins lefts rights)
    simpa only [List.append_assoc, List.cons_append] using whole

theorem unary_succ (account : ExpressionsAccount inside depth) :
    Accounts inside (fun read _ tree => (Phrase.expr .unary tree).Derives read)
      (unaryWithin (depth + 1)) := by
  rw [unaryWithin]
  apply accounts_accept
  · apply account.primary.andThen
    intro callee
    apply (account.calls callee).imp
    intro read ahead tree onward before callees _
    exact .tighter rfl (onward before (.tighter rfl callees))
  · intro operator sign
    apply account.unary.andThen
    intro right
    apply accounts_pure
    intro ahead read rights
    rw [List.append_nil]
    exact .unary (by simpa [isUnary] using sign) rights

theorem calls_succ (account : ExpressionsAccount inside depth) (callee : Expr) :
    Accounts inside (fun read _ tree => ∀ before, (Phrase.expr .call callee).Derives before →
      (Phrase.expr .call tree).Derives (before ++ read)) (callsWithin (depth + 1) callee) := by
  rw [callsWithin]
  apply accounts_accept
  · apply accounts_pure
    intro ahead _ before callees
    rw [List.append_nil]
    exact callees
  · intro opening sign
    have listed : Accounts inside (fun read _ trees => trees = [] ∧ read = [] ∨
        (Phrase.list trees).Derives read ∧ trees.length ≤ 255)
        (sees .rightParen >>= fun closed =>
          if closed then pure [] else argumentsWithin depth 0) := by
      apply accounts_sees
      intro closed
      apply accounts_ite
      · intro _
        exact accounts_pure fun _ => Or.inl ⟨rfl, rfl⟩
      · intro _
        apply (account.arguments 0).imp
        intro read ahead trees good
        exact Or.inr ⟨good.1, by omega⟩
    apply listed.andThen
    intro arguments
    apply accounts_expect
    intro paren closes
    apply (account.calls (.call callee paren arguments)).imp
    intro read ahead tree onward list lists before callees
    have opens := beq_iff_eq.mp sign
    rcases lists with ⟨rfl, rfl⟩ | ⟨lists, few⟩
    · have whole := onward _ (.callEmpty callees opens closes)
      simpa only [List.append_assoc, List.cons_append, List.nil_append] using whole
    · have whole := onward _ (.call callees opens lists few closes)
      simpa only [List.append_assoc, List.cons_append, List.nil_append] using whole

theorem arguments_succ (account : ExpressionsAccount inside depth) (count : Nat) :
    Accounts inside (fun read _ trees => (Phrase.list trees).Derives read ∧
      count + trees.length ≤ 255) (argumentsWithin (depth + 1) count) := by
  rw [argumentsWithin]
  have checked : Accounts inside (fun read _ _ => read = [] ∧ count < 255)
      (if maxArguments ≤ count then noteHere .tooManyArguments else pure ()) := by
    apply accounts_ite
    · intro _
      exact accounts_noteHere _
    · intro few
      exact accounts_pure fun _ => ⟨rfl, Nat.lt_of_not_le few⟩
  apply checked.andThen
  intro _
  apply account.expression.andThen
  intro argument
  apply accounts_accept
  · apply accounts_pure
    rintro ahead _ read one before ⟨rfl, few⟩
    rw [List.append_nil]
    refine ⟨.single one, ?_⟩
    simp only [List.length_singleton]
    omega
  · intro comma sign
    apply (account.arguments (count + 1)).andThen
    intro others
    apply accounts_pure
    rintro ahead after ⟨rest, few⟩ read one before ⟨rfl, _⟩
    rw [List.append_nil]
    refine ⟨.several one (beq_iff_eq.mp sign) rest, ?_⟩
    simp only [List.length_cons]
    omega

theorem primary_succ (account : ExpressionsAccount inside depth) :
    Accounts inside (fun read _ tree => (Phrase.expr .primary tree).Derives read)
      (primaryWithin (depth + 1)) := by
  rw [primaryWithin]
  apply accounts_acceptAtom
  · apply accounts_accept
    · exact accounts_fail _
    · intro opening sign
      apply account.expression.andThen
      intro inner
      apply accounts_expect
      intro closing closes
      apply accounts_pure
      intro ahead read inners
      exact .grouping (beq_iff_eq.mp sign) inners closes
  · intro token expr atom
    exact accounts_pure fun _ => derives_atom atom

end ExpressionsAccount

theorem expressionsAccount (inside : Bool) (depth : Nat) : ExpressionsAccount inside depth := by
  induction depth with
  | zero =>
    exact ⟨accounts_spent, fun _ => accounts_spent, fun _ _ => accounts_spent, accounts_spent,
      fun _ => accounts_spent, fun _ => accounts_spent, accounts_spent⟩
  | succ depth account =>
    exact ⟨account.expression_succ, account.operand_succ, account.chain_succ, account.unary_succ,
      account.calls_succ, account.arguments_succ, account.primary_succ⟩

theorem accounts_expression :
    Accounts inside (fun read _ tree => (Phrase.expr .assignment tree).Derives read) expression :=
  fun cursor => (expressionsAccount inside (ample cursor)).expression cursor

end Parse

end Lox
