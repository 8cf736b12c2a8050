import Lox.Proofs.Grammar.Recognition
import Lox.Proofs.Likeness

set_option autoImplicit false

namespace Lox

/-- Tokens that may stand for each other write the same value. -/
def Likeness.SameLiterals (like : Likeness) : Prop :=
  ∀ token other : Token, like token other → other.literal = token.literal

namespace Phrase

def Relabels (like : Likeness) : Phrase → List Token → Prop
  | .expr grade tree, tokens => ∃ twin, tree.Like like twin ∧ (Phrase.expr grade twin).Derives tokens
  | .list trees, tokens => ∃ twins, Expr.AllLike like trees twins ∧ (Phrase.list twins).Derives tokens

theorem Derives.relabel {like : Likeness} (faithful : like.Faithful) (literals : like.SameLiterals)
    {phrase : Phrase} {tokens : List Token} (derives : phrase.Derives tokens) :
    ∀ others, List.Forall₂ like tokens others → phrase.Relabels like others := by
  induction derives with
  | tighter step _ ih =>
    intro others alike
    obtain ⟨twin, same, derived⟩ := ih others alike
    exact ⟨twin, same, .tighter step derived⟩
  | assign named sign _ ih =>
    intro others alike
    obtain ⟨name, _, one, more, rfl⟩ := forall₂_cons_left.mp alike
    obtain ⟨equals, rest, two, last, rfl⟩ := forall₂_cons_left.mp more
    obtain ⟨twin, same, derived⟩ := ih rest last
    exact ⟨_, .assign one same,
      .assign ((faithful.kind one).trans named) ((faithful.kind two).trans sign) derived⟩
  | @logical level _ _ _ operator _ _ logical step sign _ _ lefts rights =>
    intro others alike
    obtain ⟨before, _, rfl, first, more⟩ := forall₂_append_left.mp alike
    obtain ⟨other, after, one, last, rfl⟩ := forall₂_cons_left.mp more
    obtain ⟨left, sameLeft, derivedLeft⟩ := lefts before first
    obtain ⟨right, sameRight, derivedRight⟩ := rights after last
    exact ⟨_, .logical sameLeft one sameRight,
      .logical logical step (faithful.kind one ▸ sign) derivedLeft derivedRight⟩
  | @binary level _ _ _ operator _ _ binary step sign _ _ lefts rights =>
    intro others alike
    obtain ⟨before, _, rfl, first, more⟩ := forall₂_append_left.mp alike
    obtain ⟨other, after, one, last, rfl⟩ := forall₂_cons_left.mp more
    obtain ⟨left, sameLeft, derivedLeft⟩ := lefts before first
    obtain ⟨right, sameRight, derivedRight⟩ := rights after last
    exact ⟨_, .binary sameLeft one sameRight,
      .binary binary step (faithful.kind one ▸ sign) derivedLeft derivedRight⟩
  | unary sign _ rights =>
    intro others alike
    obtain ⟨other, rest, one, last, rfl⟩ := forall₂_cons_left.mp alike
    obtain ⟨right, same, derived⟩ := rights rest last
    exact ⟨_, .unary one same, .unary (faithful.kind one ▸ sign) derived⟩
  | callEmpty _ opens closes callees =>
    intro others alike
    obtain ⟨before, _, rfl, first, more⟩ := forall₂_append_left.mp alike
    obtain ⟨opening, _, one, last, rfl⟩ := forall₂_cons_left.mp more
    obtain ⟨closing, two, rfl⟩ := forall₂_singleton_left.mp last
    obtain ⟨callee, same, derived⟩ := callees before first
    exact ⟨_, .call same two .nil, .callEmpty derived ((faithful.kind one).trans opens)
      ((faithful.kind two).trans closes)⟩
  | call _ opens _ few closes callees lists =>
    intro others alike
    obtain ⟨before, _, rfl, first, more⟩ := forall₂_append_left.mp alike
    obtain ⟨opening, _, one, inner, rfl⟩ := forall₂_cons_left.mp more
    obtain ⟨within, _, rfl, list, last⟩ := forall₂_append_left.mp inner
    obtain ⟨closing, two, rfl⟩ := forall₂_singleton_left.mp last
    obtain ⟨callee, same, derived⟩ := callees before first
    obtain ⟨arguments, sameList, derivedList⟩ := lists within list
    exact ⟨_, .call same two sameList, .call derived ((faithful.kind one).trans opens) derivedList
      (sameList.length_eq ▸ few) ((faithful.kind two).trans closes)⟩
  | grouping opens _ closes ih =>
    intro others alike
    obtain ⟨opening, _, one, inner, rfl⟩ := forall₂_cons_left.mp alike
    obtain ⟨within, _, rfl, list, last⟩ := forall₂_append_left.mp inner
    obtain ⟨closing, two, rfl⟩ := forall₂_singleton_left.mp last
    obtain ⟨twin, same, derived⟩ := ih within list
    exact ⟨_, .grouping same, .grouping ((faithful.kind one).trans opens) derived
      ((faithful.kind two).trans closes)⟩
  | number kind written =>
    intro others alike
    obtain ⟨other, one, rfl⟩ := forall₂_singleton_left.mp alike
    exact ⟨_, .literal (.number _), .number ((faithful.kind one).trans kind)
      ((literals _ _ one).trans written)⟩
  | text kind written =>
    intro others alike
    obtain ⟨other, one, rfl⟩ := forall₂_singleton_left.mp alike
    exact ⟨_, .literal (.text _), .text ((faithful.kind one).trans kind)
      ((literals _ _ one).trans written)⟩
  | yes kind =>
    intro others alike
    obtain ⟨other, one, rfl⟩ := forall₂_singleton_left.mp alike
    exact ⟨_, .literal (.bool _), .yes ((faithful.kind one).trans kind)⟩
  | no kind =>
    intro others alike
    obtain ⟨other, one, rfl⟩ := forall₂_singleton_left.mp alike
    exact ⟨_, .literal (.bool _), .no ((faithful.kind one).trans kind)⟩
  | nil kind =>
    intro others alike
    obtain ⟨other, one, rfl⟩ := forall₂_singleton_left.mp alike
    exact ⟨_, .literal .nil, .nil ((faithful.kind one).trans kind)⟩
  | var named =>
    intro others alike
    obtain ⟨other, one, rfl⟩ := forall₂_singleton_left.mp alike
    exact ⟨_, .var one, .var ((faithful.kind one).trans named)⟩
  | single _ ih =>
    intro others alike
    obtain ⟨twin, same, derived⟩ := ih others alike
    exact ⟨_, .cons same .nil, .single derived⟩
  | several _ sign _ ih list =>
    intro others alike
    obtain ⟨before, _, rfl, first, more⟩ := forall₂_append_left.mp alike
    obtain ⟨comma, after, one, last, rfl⟩ := forall₂_cons_left.mp more
    obtain ⟨twin, same, derived⟩ := ih before first
    obtain ⟨twins, sameList, derivedList⟩ := list after last
    exact ⟨_, .cons same sameList, .several derived ((faithful.kind one).trans sign) derivedList⟩

end Phrase

section Parts

variable {like : Likeness} {tokens others : List Token}

theorem NameList.relabel (faithful : like.Faithful) {names : List Token}
    (listed : NameList names tokens) : ∀ others, List.Forall₂ like tokens others →
      ∃ twins, List.Forall₂ like names twins ∧ NameList twins others := by
  induction listed with
  | single named =>
    intro others alike
    obtain ⟨name, one, rfl⟩ := forall₂_singleton_left.mp alike
    exact ⟨_, .cons one .nil, .single ((faithful.kind one).trans named)⟩
  | several named sign _ ih =>
    intro others alike
    obtain ⟨name, _, one, more, rfl⟩ := forall₂_cons_left.mp alike
    obtain ⟨comma, rest, two, last, rfl⟩ := forall₂_cons_left.mp more
    obtain ⟨twins, same, derived⟩ := ih rest last
    exact ⟨_, .cons one same,
      .several ((faithful.kind one).trans named) ((faithful.kind two).trans sign) derived⟩

theorem ParameterList.relabel (faithful : like.Faithful) {names : List Token}
    (listed : ParameterList names tokens) (alike : List.Forall₂ like tokens others) :
    ∃ twins, List.Forall₂ like names twins ∧ ParameterList twins others := by
  cases listed with
  | empty =>
    rw [List.forall₂_nil_left_iff.mp alike]
    exact ⟨[], .nil, .empty⟩
  | names listed few =>
    obtain ⟨twins, same, derived⟩ := listed.relabel faithful others alike
    exact ⟨twins, same, .names derived (same.length_eq ▸ few)⟩

theorem Ended.relabel (faithful : like.Faithful) (literals : like.SameLiterals) {value : Expr}
    (ended : Ended value tokens) (alike : List.Forall₂ like tokens others) :
    ∃ twin, value.Like like twin ∧ Ended twin others := by
  obtain ⟨values, ends⟩ := ended
  obtain ⟨before, _, rfl, first, last⟩ := forall₂_append_left.mp alike
  obtain ⟨semicolon, one, rfl⟩ := forall₂_singleton_left.mp last
  obtain ⟨twin, same, derived⟩ := values.relabel faithful literals before first
  exact ⟨twin, same, .intro derived ((faithful.kind one).trans ends)⟩

theorem Variable.relabel (faithful : like.Faithful) (literals : like.SameLiterals) {tree : Stmt}
    (declares : Variable tree tokens) (alike : List.Forall₂ like tokens others) :
    ∃ twin, tree.Like like twin ∧ Variable twin others := by
  cases declares with
  | bare named ends =>
    obtain ⟨name, _, one, more, rfl⟩ := forall₂_cons_left.mp alike
    obtain ⟨semicolon, two, rfl⟩ := forall₂_singleton_left.mp more
    exact ⟨_, .declare one (.literal .uninitialized),
      .bare ((faithful.kind one).trans named) ((faithful.kind two).trans ends)⟩
  | valued named sign values =>
    obtain ⟨name, _, one, more, rfl⟩ := forall₂_cons_left.mp alike
    obtain ⟨equals, rest, two, last, rfl⟩ := forall₂_cons_left.mp more
    obtain ⟨twin, same, derived⟩ := values.relabel faithful literals last
    exact ⟨_, .declare one same,
      .valued ((faithful.kind one).trans named) ((faithful.kind two).trans sign) derived⟩

theorem Initial.relabel (faithful : like.Faithful) (literals : like.SameLiterals) {tree : Stmt}
    (initial : Initial tree tokens) (alike : List.Forall₂ like tokens others) :
    ∃ twin, tree.Like like twin ∧ Initial twin others := by
  cases initial with
  | binding key declares =>
    obtain ⟨keyword, rest, one, last, rfl⟩ := forall₂_cons_left.mp alike
    obtain ⟨twin, same, derived⟩ := declares.relabel faithful literals last
    exact ⟨twin, same, .binding ((faithful.kind one).trans key) derived⟩
  | expression values =>
    obtain ⟨twin, same, derived⟩ := values.relabel faithful literals alike
    exact ⟨_, .expression same, .expression derived⟩

theorem Condition.relabel (faithful : like.Faithful) (literals : like.SameLiterals) {test : Expr}
    (condition : Condition test tokens) (alike : List.Forall₂ like tokens others) :
    ∃ twin, test.Like like twin ∧ Condition twin others := by
  cases condition with
  | absent ends =>
    obtain ⟨semicolon, one, rfl⟩ := forall₂_singleton_left.mp alike
    exact ⟨_, .literal (.bool true), .absent ((faithful.kind one).trans ends)⟩
  | given values =>
    obtain ⟨twin, same, derived⟩ := values.relabel faithful literals alike
    exact ⟨twin, same, .given derived⟩

/-- What stands for a keyword, a condition in parentheses and the tokens after them. -/
theorem relabel_tested (faithful : like.Faithful) (literals : like.SameLiterals)
    {keyword opening closing : Token} {condition : Expr} {test after : List Token}
    (opens : opening.kind = .leftParen)
    (tests : (Phrase.expr .assignment condition).Derives test) (closes : closing.kind = .rightParen)
    (alike : List.Forall₂ like (keyword :: opening :: (test ++ closing :: after)) others) :
    ∃ first left asked read right rest, others = first :: left :: (read ++ right :: rest) ∧
      first.kind = keyword.kind ∧ left.kind = .leftParen ∧ right.kind = .rightParen ∧
      condition.Like like asked ∧ (Phrase.expr .assignment asked).Derives read ∧
      List.Forall₂ like after rest := by
  obtain ⟨first, _, one, more, rfl⟩ := forall₂_cons_left.mp alike
  obtain ⟨left, _, two, inner, rfl⟩ := forall₂_cons_left.mp more
  obtain ⟨read, _, rfl, asks, tail⟩ := forall₂_append_left.mp inner
  obtain ⟨right, rest, three, last, rfl⟩ := forall₂_cons_left.mp tail
  obtain ⟨asked, same, derived⟩ := tests.relabel faithful literals read asks
  exact ⟨first, left, asked, read, right, rest, rfl, faithful.kind one, (faithful.kind two).trans opens,
    (faithful.kind three).trans closes, same, derived, last⟩

end Parts

namespace Sentence

def Relabels (like : Likeness) (inside : Bool) : Sentence → List Token → Prop
  | .statement hangs tree, tokens =>
    ∃ twin, tree.Like like twin ∧ Derives inside (.statement hangs twin) tokens
  | .turns hangs tree, tokens =>
    ∃ twin, tree.Like like twin ∧ Derives inside (.turns hangs twin) tokens
  | .declaration tree, tokens =>
    ∃ twin, tree.Like like twin ∧ Derives inside (.declaration twin) tokens
  | .declarations trees, tokens =>
    ∃ twins, Stmt.AllLike like trees twins ∧ Derives inside (.declarations twins) tokens

theorem Derives.relabel {like : Likeness} (faithful : like.Faithful) (literals : like.SameLiterals)
    {inside : Bool} {sentence : Sentence} {tokens : List Token}
    (derives : sentence.Derives inside tokens) :
    ∀ others, List.Forall₂ like tokens others → sentence.Relabels like inside others := by
  induction derives with
  | expression values =>
    intro others alike
    obtain ⟨twin, same, derived⟩ := values.relabel faithful literals alike
    exact ⟨_, .expression same, .expression derived⟩
  | print key values =>
    intro others alike
    obtain ⟨keyword, rest, one, last, rfl⟩ := forall₂_cons_left.mp alike
    obtain ⟨twin, same, derived⟩ := values.relabel faithful literals last
    exact ⟨_, .print same, .print ((faithful.kind one).trans key) derived⟩
  | retNothing key ends =>
    intro others alike
    obtain ⟨keyword, _, one, more, rfl⟩ := forall₂_cons_left.mp alike
    obtain ⟨semicolon, two, rfl⟩ := forall₂_singleton_left.mp more
    exact ⟨_, .retNothing one,
      .retNothing ((faithful.kind one).trans key) ((faithful.kind two).trans ends)⟩
  | ret key values =>
    intro others alike
    obtain ⟨keyword, rest, one, last, rfl⟩ := forall₂_cons_left.mp alike
    obtain ⟨twin, same, derived⟩ := values.relabel faithful literals last
    exact ⟨_, .ret one same, .ret ((faithful.kind one).trans key) derived⟩
  | block opens _ closes ih =>
    intro others alike
    obtain ⟨opening, _, one, more, rfl⟩ := forall₂_cons_left.mp alike
    obtain ⟨within, _, rfl, body, last⟩ := forall₂_append_left.mp more
    obtain ⟨closing, two, rfl⟩ := forall₂_singleton_left.mp last
    obtain ⟨twins, same, derived⟩ := ih within body
    exact ⟨_, .block same,
      .block ((faithful.kind one).trans opens) derived ((faithful.kind two).trans closes)⟩
  | branch key opens tests closes _ ih =>
    intro others alike
    obtain ⟨_, _, _, _, _, rest, rfl, one, two, three, sameTest, derivedTest, last⟩ :=
      relabel_tested faithful literals opens tests closes alike
    obtain ⟨twin, same, derived⟩ := ih rest last
    exact ⟨_, .branch sameTest same, .branch (one.trans key) two derivedTest three derived⟩
  | branchElse key opens tests closes _ others _ yeses noes =>
    intro copies alike
    obtain ⟨_, _, _, _, _, _, rfl, one, two, three, sameTest, derivedTest, branches⟩ :=
      relabel_tested faithful literals opens tests closes alike
    obtain ⟨before, _, rfl, first, last⟩ := forall₂_append_left.mp branches
    obtain ⟨other, after, four, second, rfl⟩ := forall₂_cons_left.mp last
    obtain ⟨yes, sameYes, derivedYes⟩ := yeses before first
    obtain ⟨no, sameNo, derivedNo⟩ := noes after second
    exact ⟨_, .branchElse sameTest sameYes sameNo, .branchElse (one.trans key) two derivedTest three
      derivedYes ((faithful.kind four).trans others) derivedNo⟩
  | loop key opens tests closes _ ih =>
    intro others alike
    obtain ⟨_, _, _, _, _, rest, rfl, one, two, three, sameTest, derivedTest, last⟩ :=
      relabel_tested faithful literals opens tests closes alike
    obtain ⟨twin, same, derived⟩ := ih rest last
    exact ⟨_, .loop sameTest same, .loop (one.trans key) two derivedTest three derived⟩
  | forever key opens ends _ ih =>
    intro others alike
    obtain ⟨keyword, _, one, more, rfl⟩ := forall₂_cons_left.mp alike
    obtain ⟨opening, _, two, inner, rfl⟩ := forall₂_cons_left.mp more
    obtain ⟨semicolon, rest, three, last, rfl⟩ := forall₂_cons_left.mp inner
    obtain ⟨twin, same, derived⟩ := ih rest last
    exact ⟨_, same, .forever ((faithful.kind one).trans key) ((faithful.kind two).trans opens)
      ((faithful.kind three).trans ends) derived⟩
  | forFrom key opens initials _ ih =>
    intro others alike
    obtain ⟨keyword, _, one, more, rfl⟩ := forall₂_cons_left.mp alike
    obtain ⟨opening, _, two, inner, rfl⟩ := forall₂_cons_left.mp more
    obtain ⟨before, after, rfl, start, last⟩ := forall₂_append_left.mp inner
    obtain ⟨first, sameFirst, derivedFirst⟩ := initials.relabel faithful literals start
    obtain ⟨twin, same, derived⟩ := ih after last
    exact ⟨_, .block (.cons sameFirst (.cons same .nil)), .forFrom ((faithful.kind one).trans key)
      ((faithful.kind two).trans opens) derivedFirst derived⟩
  | turns tests closes _ ih =>
    intro others alike
    obtain ⟨before, _, rfl, condition, more⟩ := forall₂_append_left.mp alike
    obtain ⟨closing, rest, one, last, rfl⟩ := forall₂_cons_left.mp more
    obtain ⟨asked, sameTest, derivedTest⟩ := tests.relabel faithful literals condition
    obtain ⟨twin, same, derived⟩ := ih rest last
    exact ⟨_, .loop sameTest same, .turns derivedTest ((faithful.kind one).trans closes) derived⟩
  | turnsStepping tests steps closes _ ih =>
    intro others alike
    obtain ⟨before, _, rfl, condition, more⟩ := forall₂_append_left.mp alike
    obtain ⟨middle, _, rfl, step, tail⟩ := forall₂_append_left.mp more
    obtain ⟨closing, rest, one, last, rfl⟩ := forall₂_cons_left.mp tail
    obtain ⟨asked, sameTest, derivedTest⟩ := tests.relabel faithful literals condition
    obtain ⟨increment, sameStep, derivedStep⟩ := steps.relabel faithful literals middle step
    obtain ⟨twin, same, derived⟩ := ih rest last
    exact ⟨_, .loop sameTest (.block (.cons same (.cons (.expression sameStep) .nil))),
      .turnsStepping derivedTest derivedStep ((faithful.kind one).trans closes) derived⟩
  | statement _ ih =>
    intro others alike
    obtain ⟨twin, same, derived⟩ := ih others alike
    exact ⟨twin, same, .statement derived⟩
  | binding key declares =>
    intro others alike
    obtain ⟨keyword, rest, one, last, rfl⟩ := forall₂_cons_left.mp alike
    obtain ⟨twin, same, derived⟩ := declares.relabel faithful literals last
    exact ⟨twin, same, .binding ((faithful.kind one).trans key) derived⟩
  | function key named opens listed closes begins _ ends ih =>
    intro others alike
    obtain ⟨keyword, _, one, more, rfl⟩ := forall₂_cons_left.mp alike
    obtain ⟨name, _, two, head, rfl⟩ := forall₂_cons_left.mp more
    obtain ⟨opening, _, three, inner, rfl⟩ := forall₂_cons_left.mp head
    obtain ⟨params, _, rfl, names, tail⟩ := forall₂_append_left.mp inner
    obtain ⟨closing, _, four, block, rfl⟩ := forall₂_cons_left.mp tail
    obtain ⟨first, _, five, whole, rfl⟩ := forall₂_cons_left.mp block
    obtain ⟨body, _, rfl, stmts, last⟩ := forall₂_append_left.mp whole
    obtain ⟨ending, six, rfl⟩ := forall₂_singleton_left.mp last
    obtain ⟨twins, sameNames, derivedNames⟩ := listed.relabel faithful names
    obtain ⟨bodies, same, derived⟩ := ih body stmts
    exact ⟨_, .function two sameNames same, .function ((faithful.kind one).trans key)
      ((faithful.kind two).trans named) ((faithful.kind three).trans opens) derivedNames
      ((faithful.kind four).trans closes) ((faithful.kind five).trans begins) derived
      ((faithful.kind six).trans ends)⟩
  | nothing =>
    intro others alike
    rw [List.forall₂_nil_left_iff.mp alike]
    exact ⟨[], .nil, .nothing⟩
  | first _ _ ih rest =>
    intro others alike
    obtain ⟨before, after, rfl, one, two⟩ := forall₂_append_left.mp alike
    obtain ⟨twin, same, derived⟩ := ih before one
    obtain ⟨twins, sameRest, derivedRest⟩ := rest after two
    exact ⟨_, .cons same sameRest, .first derived derivedRest⟩

/-- What is written one after the other is derived one after the other. -/
theorem Derives.append {inside : Bool} {second : List Stmt} {after : List Token}
    (others : Derives inside (.declarations second) after) : ∀ {first : List Stmt} {before : List Token},
    Derives inside (.declarations first) before →
      Derives inside (.declarations (first ++ second)) (before ++ after)
  | [], _, .nothing => others
  | _ :: _, _, .first tree rest => by
    rw [List.cons_append, List.append_assoc]
    exact .first tree (others.append rest)

end Sentence

namespace Program

/-- Programs that tokens which are alike derive are alike: each list of tokens derives one. -/
theorem alike_of_derives {like : Likeness} (faithful : like.Faithful) (literals : like.SameLiterals)
    {program twin : Program} {tokens others : List Token}
    (derives : Sentence.Derives false (.declarations program) tokens)
    (derived : Sentence.Derives false (.declarations twin) others)
    (alike : List.Forall₂ like tokens others) : Stmt.AllLike like program twin := by
  obtain ⟨copy, same, read⟩ := derives.relabel faithful literals others alike
  let last := Token.plain .endOfInput "" 1
  have one := ofTokens_of_derives read last
  have two := ofTokens_of_derives derived last
  rw [one] at two
  cases two
  exact same

end Program

end Lox
