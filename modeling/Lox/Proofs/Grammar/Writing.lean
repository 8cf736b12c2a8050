import Lox.Proofs.Grammar.Recognition
import Lox.Proofs.Pairing

set_option autoImplicit false

namespace Lox

/-- What a tree says about one of the tokens that write it out. -/
inductive Slot where
  /-- The token that the tree holds. -/
  | kept (token : Token)
  /-- Some token of the kind. -/
  | sign (kind : Kind)
  | number (value : Float)
  | text (value : String)

def Slot.Fits : Slot → Token → Prop
  | kept same, token => token = same
  | sign kind, token => token.kind = kind
  | number value, token => token.kind = .number ∧ token.literal = some (.number value)
  | text value, token => token.kind = .string ∧ token.literal = some (.text value)

def Written (slots : List Slot) (tokens : List Token) : Prop :=
  List.Forall₂ Slot.Fits slots tokens

namespace Value

def spelling : Value → List Slot
  | .number value => [.number value]
  | .text value => [.text value]
  | .bool true => [.sign .kwTrue]
  | .bool false => [.sign .kwFalse]
  | .nil => [.sign .kwNil]
  | .uninitialized | .returned _ | .function .. | .native _ => []

def writable : Value → Bool
  | .number _ | .text _ | .bool _ | .nil => true
  | .uninitialized | .returned _ | .function .. | .native _ => false

def absent : Value → Bool
  | .uninitialized => true
  | _ => false

end Value

namespace Expr

mutual

def spelling : Expr → List Slot
  | assign name value => .kept name :: .sign .equal :: value.spelling
  | binary left operator right => left.spelling ++ .kept operator :: right.spelling
  | call callee paren arguments =>
    callee.spelling ++ .sign .leftParen :: (allSpelling arguments ++ [.kept paren])
  | grouping inner => .sign .leftParen :: (inner.spelling ++ [.sign .rightParen])
  | literal value => value.spelling
  | logical left operator right => left.spelling ++ .kept operator :: right.spelling
  | unary operator right => .kept operator :: right.spelling
  | var name => [.kept name]

def allSpelling : List Expr → List Slot
  | [] => []
  | expr :: rest => expr.spelling ++ moreSpelling rest

def moreSpelling : List Expr → List Slot
  | [] => []
  | expr :: rest => .sign .comma :: (expr.spelling ++ moreSpelling rest)

end

def absent : Expr → Bool
  | literal value => value.absent
  | _ => false

end Expr

def Level.ofOperator? : Kind → Option Level
  | .kwOr => some .disjunction
  | .kwAnd => some .conjunction
  | .bangEqual | .equalEqual => some .equality
  | .greater | .greaterEqual | .less | .lessEqual => some .comparison
  | .minus | .plus => some .term
  | .slash | .star => some .factor
  | _ => none

def Grade.rank : Grade → Nat
  | assignment => 0
  | chain .disjunction => 1
  | chain .conjunction => 2
  | chain .equality => 3
  | chain .comparison => 4
  | chain .term => 5
  | chain .factor => 6
  | unary => 7
  | call => 8
  | primary => 9

/-- Whether an operator of a level that does or does not evaluate both its operands may stand in a
place for an expression of the grade; then its level is given. -/
def Grade.operator? (grade : Grade) (logical : Bool) (operator : Token) : Option Level :=
  match Level.ofOperator? operator.kind with
  | some level =>
    if level.logical = logical ∧ grade.rank ≤ (Grade.chain level).rank then some level else none
  | none => none

mutual

/-- Whether an expression can be written in a place for one of the grade: the left operand of a
binary operator is of its own level, the right one of the next tighter. -/
def Expr.writable : Grade → Expr → Bool
  | grade, .assign name value =>
    grade == .assignment && name.kind == .identifier && value.writable .assignment
  | grade, .binary left operator right =>
    match grade.operator? false operator with
    | some level => left.writable (.chain level) && right.writable (Parse.grade level.tighter)
    | none => false
  | grade, .call callee paren arguments =>
    grade.rank ≤ Grade.call.rank && paren.kind == .rightParen && callee.writable .call &&
      Expr.allWritable arguments && arguments.length ≤ 255
  | _, .grouping inner => inner.writable .assignment
  | _, .literal value => value.writable
  | grade, .logical left operator right =>
    match grade.operator? true operator with
    | some level => left.writable (.chain level) && right.writable (Parse.grade level.tighter)
    | none => false
  | grade, .unary operator right =>
    grade.rank ≤ Grade.unary.rank && (operator.kind == .bang || operator.kind == .minus) &&
      right.writable .unary
  | _, .var name => name.kind == .identifier

def Expr.allWritable : List Expr → Bool
  | [] => true
  | expr :: rest => expr.writable .assignment && Expr.allWritable rest

end

namespace Stmt

def namesSpelling : List Token → List Slot
  | [] => []
  | [name] => [.kept name]
  | name :: rest => .kept name :: .sign .comma :: namesSpelling rest

mutual

def spelling : Stmt → List Slot
  | block body => .sign .leftBrace :: (allSpelling body ++ [.sign .rightBrace])
  | expression value => value.spelling ++ [.sign .semicolon]
  | function name params body => .sign .kwFun :: .kept name :: .sign .leftParen ::
      (namesSpelling params ++ .sign .rightParen :: .sign .leftBrace ::
        (allSpelling body ++ [.sign .rightBrace]))
  | branch condition yes none => .sign .kwIf :: .sign .leftParen ::
      (condition.spelling ++ .sign .rightParen :: yes.spelling)
  | branch condition yes (some no) => .sign .kwIf :: .sign .leftParen ::
      (condition.spelling ++ .sign .rightParen :: (yes.spelling ++ .sign .kwElse :: no.spelling))
  | print value => .sign .kwPrint :: (value.spelling ++ [.sign .semicolon])
  | ret keyword none => [.kept keyword, .sign .semicolon]
  | ret keyword (some value) => .kept keyword :: (value.spelling ++ [.sign .semicolon])
  | declare name value =>
    if value.absent then [.sign .kwVar, .kept name, .sign .semicolon]
    else .sign .kwVar :: .kept name :: .sign .equal :: (value.spelling ++ [.sign .semicolon])
  | loop condition body => .sign .kwWhile :: .sign .leftParen ::
      (condition.spelling ++ .sign .rightParen :: body.spelling)

def allSpelling : List Stmt → List Slot
  | [] => []
  | stmt :: rest => stmt.spelling ++ allSpelling rest

end

/-- Whether a statement ends in an `if` without an `else`. -/
def hangs : Stmt → Bool
  | branch _ _ none => true
  | branch _ _ (some no) => no.hangs
  | loop _ body => body.hangs
  | _ => false

/-- Whether a statement is a declaration, which is no branch and no body. -/
def declares : Stmt → Bool
  | function .. | declare .. => true
  | _ => false

mutual

def writable : Bool → Stmt → Bool
  | inside, block body => allWritable inside body
  | _, expression value => value.writable .assignment
  | _, function name params body =>
    name.kind == .identifier && params.all (·.kind == .identifier) && params.length ≤ 255 &&
      allWritable true body
  | inside, branch condition yes none =>
    condition.writable .assignment && !yes.declares && yes.writable inside
  | inside, branch condition yes (some no) =>
    condition.writable .assignment && !yes.declares && !yes.hangs && yes.writable inside &&
      !no.declares && no.writable inside
  | _, print value => value.writable .assignment
  | inside, ret keyword none => inside && keyword.kind == .kwReturn
  | inside, ret keyword (some value) =>
    inside && keyword.kind == .kwReturn && value.writable .assignment
  | _, declare name value =>
    name.kind == .identifier && (value.absent || value.writable .assignment)
  | inside, loop condition body =>
    condition.writable .assignment && !body.declares && body.writable inside

def allWritable : Bool → List Stmt → Bool
  | _, [] => true
  | inside, stmt :: rest => stmt.writable inside && allWritable inside rest

end

end Stmt

section Written

variable {slots others : List Slot} {tokens : List Token}

theorem written_nil : Written [] tokens ↔ tokens = [] :=
  List.forall₂_nil_left_iff

theorem written_cons {slot : Slot} : Written (slot :: slots) tokens ↔
    ∃ token rest, slot.Fits token ∧ Written slots rest ∧ tokens = token :: rest :=
  List.forall₂_cons_left_iff

theorem written_append : Written (slots ++ others) tokens ↔
    ∃ before after, tokens = before ++ after ∧ Written slots before ∧ Written others after :=
  forall₂_append_left

end Written

namespace Grade

theorem rank_le (grade : Grade) : grade.rank ≤ primary.rank := by
  rcases grade with _ | (_ | _ | _ | _ | _ | _) | _ | _ | _ <;> decide

theorem exists_tighter {grade below : Grade} (looser : grade.rank < below.rank) :
    ∃ next, grade.tighter = some next ∧ next.rank = grade.rank + 1 := by
  rcases grade with _ | level | _ | _ | _
  case primary =>
    exfalso
    rcases below with _ | level | _ | _ | _
    case chain => cases level <;> revert looser <;> decide
    all_goals revert looser; decide
  case chain => cases level <;> exact ⟨_, rfl, rfl⟩
  all_goals exact ⟨_, rfl, rfl⟩

theorem eq_of_rank {grade below : Grade} (same : grade.rank = below.rank) : grade = below := by
  rcases grade with _ | (_ | _ | _ | _ | _ | _) | _ | _ | _ <;>
    rcases below with _ | (_ | _ | _ | _ | _ | _) | _ | _ | _ <;>
    first
    | rfl
    | cases same

end Grade

namespace Phrase

/-- What is tight enough for a place is tight enough for a looser one. -/
theorem Derives.loosen {below : Grade} {tree : Expr} {tokens : List Token}
    (derives : (Phrase.expr below tree).Derives tokens) {grade : Grade}
    (looser : grade.rank ≤ below.rank) : (Phrase.expr grade tree).Derives tokens := by
  obtain ⟨steps, reached⟩ := Nat.exists_eq_add_of_le looser
  induction steps generalizing grade with
  | zero => exact Grade.eq_of_rank reached ▸ derives
  | succ steps ih =>
    have strictly : grade.rank < below.rank := by omega
    obtain ⟨next, step, above⟩ := Grade.exists_tighter strictly
    exact .tighter step (ih (by omega) (by omega))

end Phrase

theorem Level.mem_operators {level : Level} {kind : Kind}
    (found : Level.ofOperator? kind = some level) : kind ∈ level.operators := by
  revert found
  cases kind <;> rintro ⟨⟩ <;> decide

theorem Grade.of_operator? {grade : Grade} {logical : Bool} {operator : Token} {level : Level}
    (found : grade.operator? logical operator = some level) :
    operator.kind ∈ level.operators ∧ level.logical = logical ∧
      grade.rank ≤ (Grade.chain level).rank := by
  unfold operator? at found
  split at found
  · rename_i other known
    split at found
    · rename_i fits
      cases found
      exact ⟨Level.mem_operators known, fits⟩
    · cases found
  · cases found

theorem Value.derives_of_written {value : Value} {tokens : List Token}
    (writable : value.writable = true) (written : Written value.spelling tokens) :
    (Phrase.expr .primary (.literal value)).Derives tokens := by
  cases value with
  | uninitialized | returned | function | native => cases writable
  | number v =>
    obtain ⟨token, _, ⟨kind, literal⟩, ended, rfl⟩ := written_cons.mp written
    rw [written_nil.mp ended]
    exact .number kind literal
  | text v =>
    obtain ⟨token, _, ⟨kind, literal⟩, ended, rfl⟩ := written_cons.mp written
    rw [written_nil.mp ended]
    exact .text kind literal
  | nil =>
    obtain ⟨token, _, kind, ended, rfl⟩ := written_cons.mp written
    rw [written_nil.mp ended]
    exact .nil kind
  | bool b =>
    cases b with
    | true =>
      obtain ⟨token, _, kind, ended, rfl⟩ := written_cons.mp written
      rw [written_nil.mp ended]
      exact .yes kind
    | false =>
      obtain ⟨token, _, kind, ended, rfl⟩ := written_cons.mp written
      rw [written_nil.mp ended]
      exact .no kind

namespace Expr

theorem eq_of_absent {value : Expr} (absent : value.absent = true) :
    value = .literal .uninitialized := by
  cases value with
  | literal value => cases value <;> first | rfl | cases absent
  | _ => cases absent

mutual

theorem derives_of_written : ∀ (tree : Expr) (grade : Grade) (tokens : List Token),
    tree.writable grade = true → Written tree.spelling tokens →
      (Phrase.expr grade tree).Derives tokens
  | .assign name value, grade, tokens, fit, written => by
    simp only [writable, Bool.and_eq_true, beq_iff_eq] at fit
    obtain ⟨⟨rfl, named⟩, right⟩ := fit
    obtain ⟨_, _, rfl, more, rfl⟩ := written_cons.mp written
    obtain ⟨equals, _, sign, values, rfl⟩ := written_cons.mp more
    exact .assign named sign (derives_of_written value _ _ right values)
  | .binary left operator right, grade, tokens, fit, written => by
    simp only [writable] at fit
    split at fit
    · rename_i level found
      obtain ⟨sign, logical, looser⟩ := Grade.of_operator? found
      obtain ⟨leftFits, rightFits⟩ := Bool.and_eq_true_iff.mp fit
      obtain ⟨before, _, rfl, lefts, more⟩ := written_append.mp written
      obtain ⟨_, after, rfl, rights, rfl⟩ := written_cons.mp more
      exact (Phrase.Derives.binary logical (Parse.tighter_chain level) sign
        (derives_of_written left _ _ leftFits lefts)
        (derives_of_written right _ _ rightFits rights)).loosen looser
    · cases fit
  | .call callee paren arguments, grade, tokens, fit, written => by
    simp only [writable, Bool.and_eq_true, beq_iff_eq, decide_eq_true_eq] at fit
    obtain ⟨⟨⟨⟨looser, closes⟩, calleeFits⟩, listFits⟩, few⟩ := fit
    obtain ⟨before, _, rfl, callees, more⟩ := written_append.mp written
    obtain ⟨opening, _, opens, list, rfl⟩ := written_cons.mp more
    obtain ⟨within, _, rfl, inner, closing⟩ := written_append.mp list
    obtain ⟨_, _, rfl, ended, rfl⟩ := written_cons.mp closing
    rw [written_nil.mp ended]
    have calls := derives_of_written callee _ _ calleeFits callees
    have lists := list_derives_of_written arguments within listFits inner
    cases arguments with
    | nil =>
      rw [written_nil.mp inner]
      exact (Phrase.Derives.callEmpty calls opens closes).loosen looser
    | cons argument others =>
      exact (Phrase.Derives.call calls opens (lists (List.cons_ne_nil _ _)) few closes).loosen looser
  | .grouping inner, grade, tokens, fit, written => by
    obtain ⟨opening, _, opens, more, rfl⟩ := written_cons.mp written
    obtain ⟨within, _, rfl, inners, ends⟩ := written_append.mp more
    obtain ⟨closing, _, closes, ended, rfl⟩ := written_cons.mp ends
    rw [written_nil.mp ended]
    exact (Phrase.Derives.grouping opens (derives_of_written inner _ _ fit inners) closes).loosen
      grade.rank_le
  | .literal value, grade, tokens, fit, written =>
    (value.derives_of_written fit written).loosen grade.rank_le
  | .logical left operator right, grade, tokens, fit, written => by
    simp only [writable] at fit
    split at fit
    · rename_i level found
      obtain ⟨sign, logical, looser⟩ := Grade.of_operator? found
      obtain ⟨leftFits, rightFits⟩ := Bool.and_eq_true_iff.mp fit
      obtain ⟨before, _, rfl, lefts, more⟩ := written_append.mp written
      obtain ⟨_, after, rfl, rights, rfl⟩ := written_cons.mp more
      exact (Phrase.Derives.logical logical (Parse.tighter_chain level) sign
        (derives_of_written left _ _ leftFits lefts)
        (derives_of_written right _ _ rightFits rights)).loosen looser
    · cases fit
  | .unary operator right, grade, tokens, fit, written => by
    simp only [writable, Bool.and_eq_true, Bool.or_eq_true, beq_iff_eq, decide_eq_true_eq] at fit
    obtain ⟨⟨looser, sign⟩, rightFits⟩ := fit
    obtain ⟨_, after, rfl, rights, rfl⟩ := written_cons.mp written
    exact (Phrase.Derives.unary sign (derives_of_written right _ _ rightFits rights)).loosen looser
  | .var name, grade, tokens, fit, written => by
    obtain ⟨_, _, rfl, ended, rfl⟩ := written_cons.mp written
    rw [written_nil.mp ended]
    exact (Phrase.Derives.var (beq_iff_eq.mp fit)).loosen grade.rank_le

theorem list_derives_of_written : ∀ (trees : List Expr) (tokens : List Token),
    allWritable trees = true → Written (allSpelling trees) tokens → trees ≠ [] →
      (Phrase.list trees).Derives tokens
  | [], _, _, _, nonempty => absurd rfl nonempty
  | [tree], tokens, fit, written, _ => by
    obtain ⟨treeFits, _⟩ := Bool.and_eq_true_iff.mp fit
    obtain ⟨before, after, rfl, one, ended⟩ := written_append.mp written
    rw [written_nil.mp ended, List.append_nil]
    exact .single (derives_of_written tree _ _ treeFits one)
  | tree :: next :: rest, tokens, fit, written, _ => by
    obtain ⟨treeFits, restFits⟩ := Bool.and_eq_true_iff.mp fit
    obtain ⟨before, _, rfl, one, more⟩ := written_append.mp written
    obtain ⟨comma, after, sign, others, rfl⟩ := written_cons.mp more
    exact .several (derives_of_written tree _ _ treeFits one) sign
      (list_derives_of_written (next :: rest) after restFits others (List.cons_ne_nil _ _))

end

end Expr

/-- An expression that is written with a semicolon after it. -/
theorem Expr.ended_of_written {value : Expr} {tokens : List Token}
    (fit : value.writable .assignment = true)
    (written : Written (value.spelling ++ [.sign .semicolon]) tokens) : Ended value tokens := by
  obtain ⟨before, _, rfl, values, more⟩ := written_append.mp written
  obtain ⟨semicolon, _, ends, ended, rfl⟩ := written_cons.mp more
  rw [written_nil.mp ended]
  exact .intro (value.derives_of_written _ _ fit values) ends

namespace Stmt

theorem nameList_of_written : ∀ (names tokens : List Token),
    (∀ name ∈ names, name.kind = .identifier) → Written (namesSpelling names) tokens →
      names ≠ [] → NameList names tokens
  | [], _, _, _, nonempty => absurd rfl nonempty
  | [name], tokens, named, written, _ => by
    obtain ⟨_, _, rfl, ended, rfl⟩ := written_cons.mp written
    rw [written_nil.mp ended]
    exact .single (named _ (List.mem_singleton_self _))
  | name :: next :: rest, tokens, named, written, _ => by
    obtain ⟨_, _, rfl, more, rfl⟩ := written_cons.mp written
    obtain ⟨comma, after, sign, others, rfl⟩ := written_cons.mp more
    exact .several (named _ List.mem_cons_self) sign (nameList_of_written (next :: rest) after
      (fun name member => named name (List.mem_cons_of_mem _ member)) others (List.cons_ne_nil _ _))

theorem parameterList_of_written {names tokens : List Token}
    (named : ∀ name ∈ names, name.kind = .identifier) (few : names.length ≤ 255)
    (written : Written (namesSpelling names) tokens) : ParameterList names tokens := by
  cases names with
  | nil =>
    rw [written_nil.mp written]
    exact .empty
  | cons name rest =>
    exact .names (nameList_of_written _ _ named written (List.cons_ne_nil _ _)) few

theorem variable_of_written {name : Token} {value : Expr} {tokens : List Token}
    (fit : writable false (declare name value) = true)
    (written : Written (declare name value).spelling tokens) :
    ∃ keyword rest, tokens = keyword :: rest ∧ keyword.kind = .kwVar ∧
      Variable (.declare name value) rest := by
  simp only [writable, Bool.and_eq_true, Bool.or_eq_true, beq_iff_eq] at fit
  obtain ⟨named, values⟩ := fit
  unfold spelling at written
  split at written
  · rename_i absent
    obtain ⟨keyword, _, key, more, rfl⟩ := written_cons.mp written
    obtain ⟨_, _, rfl, last, rfl⟩ := written_cons.mp more
    obtain ⟨semicolon, _, ends, ended, rfl⟩ := written_cons.mp last
    rw [written_nil.mp ended, Expr.eq_of_absent absent]
    exact ⟨keyword, _, rfl, key, .bare named ends⟩
  · rename_i given
    obtain ⟨keyword, _, key, more, rfl⟩ := written_cons.mp written
    obtain ⟨_, _, rfl, last, rfl⟩ := written_cons.mp more
    obtain ⟨equals, _, sign, value, rfl⟩ := written_cons.mp last
    have valued := values.resolve_left given
    exact ⟨keyword, _, rfl, key, .valued named sign (Expr.ended_of_written valued value)⟩

/-- A condition in parentheses, after the keyword, and what follows. -/
theorem test_of_written {key : Kind} {condition : Expr} {slots : List Slot} {tokens : List Token}
    (fit : condition.writable .assignment = true)
    (written : Written (.sign key :: .sign .leftParen ::
      (condition.spelling ++ .sign .rightParen :: slots)) tokens) :
    ∃ keyword opening test closing rest, tokens = keyword :: opening :: (test ++ closing :: rest) ∧
      keyword.kind = key ∧ opening.kind = .leftParen ∧
      (Phrase.expr .assignment condition).Derives test ∧ closing.kind = .rightParen ∧
      Written slots rest := by
  obtain ⟨keyword, _, key, more, rfl⟩ := written_cons.mp written
  obtain ⟨opening, _, opens, inner, rfl⟩ := written_cons.mp more
  obtain ⟨test, _, rfl, tests, last⟩ := written_append.mp inner
  obtain ⟨closing, rest, closes, others, rfl⟩ := written_cons.mp last
  exact ⟨keyword, opening, test, closing, rest, rfl, key, opens,
    condition.derives_of_written _ _ fit tests, closes, others⟩

mutual

theorem derives_of_written : ∀ (tree : Stmt) (inside : Bool) (tokens : List Token),
    tree.writable inside = true → Written tree.spelling tokens →
      Sentence.Derives inside (.declaration tree) tokens ∧
        (tree.declares = false → Sentence.Derives inside (.statement tree.hangs tree) tokens)
  | .block body, inside, tokens, fit, written => by
    obtain ⟨opening, _, opens, more, rfl⟩ := written_cons.mp written
    obtain ⟨within, _, rfl, bodies, last⟩ := written_append.mp more
    obtain ⟨closing, _, closes, ended, rfl⟩ := written_cons.mp last
    rw [written_nil.mp ended]
    have whole := Sentence.Derives.block opens (list_derives_of_written body _ _ fit bodies) closes
    exact ⟨.statement whole, fun _ => whole⟩
  | .expression value, inside, tokens, fit, written => by
    have whole : Sentence.Derives inside (.statement false (.expression value)) tokens :=
      .expression (Expr.ended_of_written fit written)
    exact ⟨.statement whole, fun _ => whole⟩
  | .function name params body, inside, tokens, fit, written => by
    simp only [writable, Bool.and_eq_true, List.all_eq_true, beq_iff_eq, decide_eq_true_eq] at fit
    obtain ⟨⟨⟨named, allNamed⟩, few⟩, bodyFits⟩ := fit
    obtain ⟨keyword, _, key, more, rfl⟩ := written_cons.mp written
    obtain ⟨_, _, rfl, head, rfl⟩ := written_cons.mp more
    obtain ⟨opening, _, opens, list, rfl⟩ := written_cons.mp head
    obtain ⟨names, _, rfl, listed, tail⟩ := written_append.mp list
    obtain ⟨closing, _, closes, block, rfl⟩ := written_cons.mp tail
    obtain ⟨first, _, begins, inner, rfl⟩ := written_cons.mp block
    obtain ⟨within, _, rfl, bodies, last⟩ := written_append.mp inner
    obtain ⟨ending, _, ends, ended, rfl⟩ := written_cons.mp last
    rw [written_nil.mp ended]
    exact ⟨.function key named opens (parameterList_of_written allNamed few listed) closes begins
      (list_derives_of_written body _ _ bodyFits bodies) ends, nofun⟩
  | .branch condition yes none, inside, tokens, fit, written => by
    simp only [writable, Bool.and_eq_true, Bool.not_eq_true'] at fit
    obtain ⟨⟨tested, statement⟩, yesFits⟩ := fit
    obtain ⟨_, _, _, _, rest, rfl, key, opens, tests, closes, branch⟩ := test_of_written tested written
    have yeses := (derives_of_written yes _ _ yesFits branch).2 statement
    have whole := Sentence.Derives.branch key opens tests closes yeses
    exact ⟨.statement whole, fun _ => whole⟩
  | .branch condition yes (some no), inside, tokens, fit, written => by
    simp only [writable, Bool.and_eq_true, Bool.not_eq_true'] at fit
    obtain ⟨⟨⟨⟨⟨tested, statement⟩, closed⟩, yesFits⟩, otherwise⟩, noFits⟩ := fit
    obtain ⟨_, _, _, _, rest, rfl, key, opens, tests, closes, branches⟩ :=
      test_of_written tested written
    obtain ⟨before, _, rfl, branch, last⟩ := written_append.mp branches
    obtain ⟨other, after, others, final, rfl⟩ := written_cons.mp last
    have yeses := (derives_of_written yes _ _ yesFits branch).2 statement
    rw [closed] at yeses
    have noes := (derives_of_written no _ _ noFits final).2 otherwise
    have whole := Sentence.Derives.branchElse key opens tests closes yeses others noes
    exact ⟨.statement whole, fun _ => whole⟩
  | .print value, inside, tokens, fit, written => by
    obtain ⟨keyword, _, key, values, rfl⟩ := written_cons.mp written
    have whole : Sentence.Derives inside (.statement false (.print value)) (keyword :: _) :=
      .print key (Expr.ended_of_written fit values)
    exact ⟨.statement whole, fun _ => whole⟩
  | .ret keyword none, inside, tokens, fit, written => by
    simp only [writable, Bool.and_eq_true, beq_iff_eq] at fit
    obtain ⟨rfl, key⟩ := fit
    obtain ⟨_, _, rfl, more, rfl⟩ := written_cons.mp written
    obtain ⟨semicolon, _, ends, ended, rfl⟩ := written_cons.mp more
    rw [written_nil.mp ended]
    have whole := Sentence.Derives.retNothing key ends
    exact ⟨.statement whole, fun _ => whole⟩
  | .ret keyword (some value), inside, tokens, fit, written => by
    simp only [writable, Bool.and_eq_true, beq_iff_eq] at fit
    obtain ⟨⟨rfl, key⟩, valueFits⟩ := fit
    obtain ⟨_, _, rfl, values, rfl⟩ := written_cons.mp written
    have whole := Sentence.Derives.ret key (Expr.ended_of_written valueFits values)
    exact ⟨.statement whole, fun _ => whole⟩
  | .declare name value, inside, tokens, fit, written => by
    obtain ⟨keyword, rest, rfl, key, declares⟩ := variable_of_written fit written
    exact ⟨.binding key declares, nofun⟩
  | .loop condition body, inside, tokens, fit, written => by
    simp only [writable, Bool.and_eq_true, Bool.not_eq_true'] at fit
    obtain ⟨⟨tested, statement⟩, bodyFits⟩ := fit
    obtain ⟨_, _, _, _, rest, rfl, key, opens, tests, closes, branch⟩ := test_of_written tested written
    have bodies := (derives_of_written body _ _ bodyFits branch).2 statement
    have whole := Sentence.Derives.loop key opens tests closes bodies
    exact ⟨.statement whole, fun _ => whole⟩

theorem list_derives_of_written : ∀ (trees : List Stmt) (inside : Bool) (tokens : List Token),
    allWritable inside trees = true → Written (allSpelling trees) tokens →
      Sentence.Derives inside (.declarations trees) tokens
  | [], inside, tokens, _, written => by
    rw [written_nil.mp written]
    exact .nothing
  | tree :: rest, inside, tokens, fit, written => by
    obtain ⟨treeFits, restFits⟩ := Bool.and_eq_true_iff.mp fit
    obtain ⟨before, after, rfl, first, others⟩ := written_append.mp written
    exact .first (derives_of_written tree _ _ treeFits first).1
      (list_derives_of_written rest _ _ restFits others)

end

end Stmt

namespace Program

/-- Whatever writes out a program that can be written is read back as that program, without a
problem. -/
theorem read_written (program : Program) (tokens : List Token) (last : Token)
    (writable : Stmt.allWritable false program = true)
    (written : Written (Stmt.allSpelling program) tokens) :
    ofTokens tokens last = (program, []) :=
  ofTokens_of_derives (Stmt.list_derives_of_written program false tokens writable written) last

/-- A function that returns a disjunction, and a call of it compared. -/
theorem read_written_disjunction :
    let name (text : String) : Token := .plain .identifier text 1
    let sign (kind : Kind) : Token := .plain kind "" 1
    let returned : Expr := .logical (.var (name "a")) (sign .kwOr) (.literal .nil)
    let called : Expr := .call (.var (name "f")) (sign .rightParen) [.unary (sign .bang) (.var (name "f"))]
    ofTokens
      [sign .kwFun, name "f", sign .leftParen, name "a", sign .rightParen, sign .leftBrace,
        sign .kwReturn, name "a", sign .kwOr, sign .kwNil, sign .semicolon, sign .rightBrace,
        name "f", sign .leftParen, sign .bang, name "f", sign .rightParen, sign .equalEqual,
        sign .kwTrue, sign .semicolon]
      (sign .endOfInput) =
      ([.function (name "f") [name "a"] [.ret (sign .kwReturn) (some returned)],
        .expression (.binary called (sign .equalEqual) (.literal (.bool true)))], []) := by
  refine read_written _ _ _ rfl ?_
  repeat first | exact List.Forall₂.nil | refine List.Forall₂.cons rfl ?_

end Program

end Lox
