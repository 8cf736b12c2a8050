import Lox.Program
import Lox.Proofs.Grammar.Account
import Lox.Proofs.Grammar.Progress

set_option autoImplicit false

namespace Lox

namespace Parse

open Reader

variable {α β : Type} {inside : Bool}

theorem Accounts.map {fits : List Token → List Token → α → Prop}
    {better : List Token → List Token → β → Prop} {step : Parse α} {f : α → β}
    (accounts : Accounts inside fits step)
    (imp : ∀ read ahead value, fits read ahead value → better read ahead (f value)) :
    Accounts inside better (f <$> step) := by
  rw [map_eq]
  apply accounts.andThen
  intro value
  apply accounts_pure
  intro ahead read good
  rw [List.append_nil]
  exact imp read ahead value good

theorem Accounts.inFunction {fits : List Token → List Token → α → Prop} {body : Parse α}
    (accounts : Accounts true fits body) : Accounts inside fits (inFunction body) := by
  intro cursor _
  have accounted := accounts { cursor with functions := cursor.functions + 1 } (by simp)
  unfold Parse.inFunction
  cases out : body { cursor with functions := cursor.functions + 1 } with
  | ok value after =>
    rw [out] at accounted
    obtain ⟨read, found, went, good⟩ := accounted
    have back : after.functions - 1 = cursor.functions := by
      rw [went.functions]
      rfl
    exact ⟨read, found, ⟨went.behind, went.ahead, went.last, back, went.problems⟩, good⟩
  | failed after =>
    rw [out] at accounted
    obtain ⟨read, found, went, noted⟩ := accounted
    have back : after.functions - 1 = cursor.functions := by
      rw [went.functions]
      rfl
    exact ⟨read, found, ⟨went.behind, went.ahead, went.last, back, went.problems⟩, noted⟩
  | spent => trivial

/-- A statement that was left out leaves a problem behind. -/
theorem Accounts.recovering {fits : List Token → List Token → α → Prop} {statement : Parse α}
    (accounts : Accounts inside fits statement) :
    Accounts inside (fun read ahead result => ∃ value, result = some value ∧ fits read ahead value)
      (recovering statement) := by
  intro cursor place
  have accounted := accounts cursor place
  unfold Parse.recovering
  cases out : statement cursor with
  | ok value after =>
    rw [out] at accounted
    obtain ⟨read, found, went, good⟩ := accounted
    exact ⟨read, found, went, fun clean => ⟨value, rfl, good clean⟩⟩
  | failed after =>
    rw [out] at accounted
    obtain ⟨read, found, went, noted⟩ := accounted
    obtain ⟨skipped, further⟩ := after.went_synchronize
    refine ⟨read ++ skipped, found, ?_, fun clean => absurd clean noted⟩
    simpa only [List.append_nil] using went.trans further
  | spent => trivial

theorem accounts_insideFunction {fits : List Token → List Token → β → Prop} {next : Bool → Parse β}
    (rest : Accounts inside fits (next inside)) : Accounts inside fits (insideFunction >>= next) := by
  intro cursor place
  show (next (decide (0 < cursor.functions)) cursor).Accounted cursor fits
  rw [place]
  exact rest cursor place

theorem accounts_parametersWithin (depth : Nat) : ∀ count,
    Accounts inside (fun read _ names => NameList names read ∧ count + names.length ≤ 255)
      (parametersWithin depth count) := by
  induction depth with
  | zero => exact fun _ => accounts_spent
  | succ depth ih =>
    intro count
    rw [parametersWithin]
    have checked : Accounts inside (fun read _ _ => read = [] ∧ count < 255)
        (if maxArguments ≤ count then noteHere .tooManyParameters else pure ()) := by
      apply accounts_ite
      · intro _
        exact accounts_noteHere _
      · intro few
        exact accounts_pure fun _ => ⟨rfl, Nat.lt_of_not_le few⟩
    apply checked.andThen
    intro _
    apply accounts_expect
    intro name named
    apply accounts_accept
    · apply accounts_pure
      rintro ahead _ before ⟨rfl, few⟩
      refine ⟨.single named, ?_⟩
      simp only [List.length_singleton]
      omega
    · intro comma sign
      apply (ih (count + 1)).andThen
      intro others
      apply accounts_pure
      rintro ahead after ⟨rest, few⟩ before ⟨rfl, _⟩
      rw [List.append_nil]
      refine ⟨.several named (beq_iff_eq.mp sign) rest, ?_⟩
      simp only [List.length_cons]
      omega

theorem accounts_parameters :
    Accounts inside (fun read _ names => ∃ opening tokens closing,
      read = opening :: (tokens ++ [closing]) ∧ opening.kind = .leftParen ∧
        ParameterList names tokens ∧ closing.kind = .rightParen) parameters := by
  unfold parameters
  apply accounts_expect
  intro opening opens
  have listed : Accounts inside (fun read _ names => ParameterList names read)
      (sees .rightParen >>= fun closed => if closed then pure [] else parameterNames) := by
    apply accounts_sees
    intro closed
    apply accounts_ite
    · intro _
      exact accounts_pure fun _ => .empty
    · intro _ cursor place
      apply (accounts_parametersWithin (ample cursor) 0 cursor place).imp
      intro read ahead names _ good
      exact .names good.1 (by omega)
  apply listed.andThen
  intro names
  apply accounts_expect
  intro closing closes
  apply accounts_pure
  intro ahead tokens lists
  exact ⟨opening, tokens, closing, rfl, opens, lists, closes⟩

theorem accounts_ended (error : SyntaxError) (make : Expr → Stmt) :
    Accounts inside (fun read _ tree => ∃ value, tree = make value ∧ Ended value read)
      (ended error make) := by
  unfold ended
  apply accounts_expression.andThen
  intro value
  apply accounts_expect
  intro semicolon ends
  apply accounts_pure
  intro ahead tokens values
  exact ⟨value, rfl, .intro values ends⟩

theorem accounts_variableStatement :
    Accounts inside (fun read _ tree => Variable tree read) variableStatement := by
  unfold variableStatement
  apply accounts_expect
  intro name named
  refine Accounts.andThen (?_ : Accounts inside
    (fun read _ value => value = .literal .uninitialized ∧ read = [] ∨ ∃ equals tokens,
      read = equals :: tokens ∧ equals.kind = .equal ∧
        (Phrase.expr .assignment value).Derives tokens) _) ?_
  · apply accounts_accept
    · exact accounts_pure fun _ _ => Or.inl ⟨rfl, rfl⟩
    · intro equals sign
      apply accounts_expression.imp
      intro read ahead value derives
      exact Or.inr ⟨equals, read, rfl, beq_iff_eq.mp sign, derives⟩
  · intro value
    apply accounts_expect
    intro semicolon ends
    apply accounts_pure
    rintro ahead before (⟨rfl, rfl⟩ | ⟨equals, tokens, rfl, sign, derives⟩)
    · exact .bare named ends
    · exact .valued named sign (.intro derives ends)

theorem accounts_returning (keyword : Token) :
    Accounts inside (fun read _ _ => read = [] ∧ inside = true) (returning keyword) := by
  unfold returning
  apply accounts_insideFunction
  apply accounts_ite
  · intro around
    exact accounts_pure fun _ => ⟨rfl, around⟩
  · intro _
    exact accounts_note _ keyword

theorem accounts_returnStatement {keyword : Token} (key : keyword.kind = .kwReturn) :
    Accounts inside (fun read _ tree =>
      Sentence.Derives inside (.statement false tree) (keyword :: read))
      (returnStatement keyword) := by
  unfold returnStatement
  apply (accounts_returning keyword).andThen
  intro _
  have valued : Accounts inside (fun read _ value => value = none ∧ read = [] ∨
      ∃ expr, value = some expr ∧ (Phrase.expr .assignment expr).Derives read)
      (sees .semicolon >>= fun finished => if finished then pure none else some <$> expression) := by
    apply accounts_sees
    intro finished
    apply accounts_ite
    · intro _
      exact accounts_pure fun _ => Or.inl ⟨rfl, rfl⟩
    · intro _
      exact accounts_expression.map fun _ _ value derives => Or.inr ⟨value, rfl, derives⟩
  apply valued.andThen
  intro value
  apply accounts_expect
  intro semicolon ends
  apply accounts_pure
  rintro ahead tokens (⟨rfl, rfl⟩ | ⟨expr, rfl, derives⟩) before ⟨rfl, rfl⟩
  · exact .retNothing key ends
  · exact .ret key (.intro derives ends)

theorem accounts_forInitial :
    Accounts inside (fun read _ first =>
      (first = none ∧ ∃ semicolon, read = [semicolon] ∧ semicolon.kind = .semicolon) ∨
        ∃ tree, first = some tree ∧ Initial tree read) forInitial := by
  unfold forInitial
  apply accounts_accept
  · apply accounts_accept
    · apply (accounts_ended _ .expression).map
      rintro read ahead _ ⟨value, rfl, values⟩ _ _
      exact Or.inr ⟨.expression value, rfl, .expression values⟩
    · intro keyword key
      apply accounts_variableStatement.map
      intro read ahead tree declares _
      exact Or.inr ⟨tree, rfl, .binding (beq_iff_eq.mp key) declares⟩
  · intro semicolon ends
    exact accounts_pure fun _ => Or.inl ⟨rfl, semicolon, rfl, beq_iff_eq.mp ends⟩

theorem accounts_forCondition :
    Accounts inside (fun read _ condition => Condition condition read) forCondition := by
  unfold forCondition
  have valued : Accounts inside (fun read _ value => value = .literal (.bool true) ∧ read = [] ∨
      (Phrase.expr .assignment value).Derives read)
      (sees .semicolon >>= fun ended =>
        if ended then pure (.literal (.bool true)) else expression) := by
    apply accounts_sees
    intro finished
    apply accounts_ite
    · intro _
      exact accounts_pure fun _ => Or.inl ⟨rfl, rfl⟩
    · intro _
      exact accounts_expression.imp fun _ _ _ derives => Or.inr derives
  apply valued.andThen
  intro value
  apply accounts_expect
  intro semicolon ends
  apply accounts_pure
  rintro ahead tokens (⟨rfl, rfl⟩ | derives)
  · exact .absent ends
  · exact .given (.intro derives ends)

theorem accounts_forIncrement :
    Accounts inside (fun read _ increment => ∃ tokens closing, read = tokens ++ [closing] ∧
      closing.kind = .rightParen ∧ (increment = none ∧ tokens = [] ∨
        ∃ step, increment = some step ∧ (Phrase.expr .assignment step).Derives tokens))
      forIncrement := by
  unfold forIncrement
  have valued : Accounts inside (fun read _ value => value = none ∧ read = [] ∨
      ∃ step, value = some step ∧ (Phrase.expr .assignment step).Derives read)
      (sees .rightParen >>= fun closed => if closed then pure none else some <$> expression) := by
    apply accounts_sees
    intro closed
    apply accounts_ite
    · intro _
      exact accounts_pure fun _ => Or.inl ⟨rfl, rfl⟩
    · intro _
      exact accounts_expression.map fun _ _ value derives => Or.inr ⟨value, rfl, derives⟩
  apply valued.andThen
  intro value
  apply accounts_expect
  intro closing closes
  apply accounts_pure
  intro ahead tokens steps
  exact ⟨tokens, closing, rfl, closes, steps⟩

/-- A statement was read of these tokens; if an `else` could belong to it, none follows. -/
def ReadAs (inside : Bool) (read ahead : List Token) (tree : Stmt) : Prop :=
  ∃ hangs, Sentence.Derives inside (.statement hangs tree) read ∧
    (hangs = true → ∀ token ∈ ahead.head?, token.kind ≠ .kwElse)

theorem readAs_of_derives {read ahead : List Token} {tree : Stmt}
    (derives : Sentence.Derives inside (.statement false tree) read) :
    ReadAs inside read ahead tree :=
  ⟨false, derives, fun hangs => by cases hangs⟩

structure StatementsAccount (depth : Nat) : Prop where
  declaration (inside : Bool) :
    Accounts inside (fun read _ result => ∃ tree, result = some tree ∧
      Sentence.Derives inside (.declaration tree) read) (declarationWithin depth)
  function (inside : Bool) {keyword : Token} (key : keyword.kind = .kwFun) :
    Accounts inside (fun read _ tree =>
      Sentence.Derives inside (.declaration tree) (keyword :: read)) (functionWithin depth)
  statement (inside : Bool) : Accounts inside (ReadAs inside) (statementWithin depth)
  forLoop (inside : Bool) {keyword : Token} (key : keyword.kind = .kwFor) :
    Accounts inside (fun read => ReadAs inside (keyword :: read)) (forWithin depth)
  branch (inside : Bool) {keyword : Token} (key : keyword.kind = .kwIf) :
    Accounts inside (fun read => ReadAs inside (keyword :: read)) (ifWithin depth)
  loop (inside : Bool) {keyword : Token} (key : keyword.kind = .kwWhile) :
    Accounts inside (fun read => ReadAs inside (keyword :: read)) (whileWithin depth)
  block (inside : Bool) :
    Accounts inside (fun read _ body => ∃ tokens closing, read = tokens ++ [closing] ∧
      Sentence.Derives inside (.declarations body) tokens ∧ closing.kind = .rightBrace)
      (blockWithin depth)
  declarations (inside inBlock : Bool) :
    Accounts inside (fun read ahead trees => Sentence.Derives inside (.declarations trees) read ∧
      (inBlock = false → ahead = [])) (declarationsWithin depth inBlock)

namespace StatementsAccount

variable {depth : Nat}

theorem declaration_succ (account : StatementsAccount depth) (inside : Bool) :
    Accounts inside (fun read _ result => ∃ tree, result = some tree ∧
      Sentence.Derives inside (.declaration tree) read) (declarationWithin (depth + 1)) := by
  rw [declarationWithin]
  refine Accounts.recovering ?_
  apply accounts_accept
  · apply accounts_accept
    · apply (account.statement inside).imp
      rintro read ahead tree ⟨hangs, derives, _⟩ _ _
      exact .statement derives
    · intro keyword key
      apply accounts_variableStatement.imp
      intro read ahead tree declares _
      exact .binding (beq_iff_eq.mp key) declares
  · intro keyword key
    exact account.function inside (beq_iff_eq.mp key)

theorem function_succ (account : StatementsAccount depth) (inside : Bool) {keyword : Token}
    (key : keyword.kind = .kwFun) :
    Accounts inside (fun read _ tree =>
      Sentence.Derives inside (.declaration tree) (keyword :: read))
      (functionWithin (depth + 1)) := by
  rw [functionWithin]
  apply accounts_expect
  intro name named
  apply accounts_parameters.andThen
  intro names
  apply accounts_expect
  intro first begins
  apply (account.block true).inFunction.andThen
  intro body
  apply accounts_pure
  rintro ahead _ ⟨tokens, last, rfl, bodies, ends⟩ _ ⟨opening, params, closing, rfl, opens, listed,
    closes⟩
  have whole : Sentence.Derives inside _ _ :=
    .function key named opens listed closes begins bodies ends
  simpa only [List.append_assoc, List.cons_append, List.nil_append, List.append_nil] using whole

theorem statement_succ (account : StatementsAccount depth) (inside : Bool) :
    Accounts inside (ReadAs inside) (statementWithin (depth + 1)) := by
  rw [statementWithin]
  apply accounts_accept
  · apply accounts_accept
    · apply accounts_accept
      · apply accounts_accept
        · apply accounts_accept
          · apply accounts_accept
            · apply (accounts_ended _ .expression).imp
              rintro read ahead _ ⟨value, rfl, values⟩ _ _ _ _ _ _
              exact readAs_of_derives (.expression values)
            · intro opening opens
              apply (account.block inside).andThen
              intro body
              apply accounts_pure
              rintro ahead _ ⟨tokens, closing, rfl, bodies, closes⟩ _ _ _ _ _
              rw [List.append_nil]
              exact readAs_of_derives (.block (beq_iff_eq.mp opens) bodies closes)
          · intro keyword key
            apply (account.loop inside (beq_iff_eq.mp key)).imp
            exact fun _ _ _ good _ _ _ _ => good
        · intro keyword key
          apply (accounts_returnStatement (beq_iff_eq.mp key)).imp
          intro read ahead tree derives _ _ _
          exact readAs_of_derives derives
      · intro keyword key
        apply (accounts_ended _ .print).imp
        rintro read ahead _ ⟨value, rfl, values⟩ _ _
        exact readAs_of_derives (.print (beq_iff_eq.mp key) values)
    · intro keyword key
      apply (account.branch inside (beq_iff_eq.mp key)).imp
      exact fun _ _ _ good _ => good
  · intro keyword key
    exact account.forLoop inside (beq_iff_eq.mp key)

theorem forLoop_succ (account : StatementsAccount depth) (inside : Bool) {keyword : Token}
    (key : keyword.kind = .kwFor) :
    Accounts inside (fun read => ReadAs inside (keyword :: read)) (forWithin (depth + 1)) := by
  rw [forWithin]
  apply accounts_expect
  intro opening opens
  apply accounts_forInitial.andThen
  intro initial
  apply accounts_forCondition.andThen
  intro condition
  apply accounts_forIncrement.andThen
  intro increment
  apply (account.statement inside).andThen
  intro body
  apply accounts_pure
  rintro ahead after ⟨hangs, bodies, alone⟩ _ ⟨middle, closing, rfl, closes, steps⟩ tests tested
    before initials
  -- The loop is derived first; the first clause decides whether a block is around it.
  obtain ⟨turn, stands, rounds⟩ : ∃ turn, Stmt.ofFor none condition increment body = turn ∧
      Sentence.Derives inside (.turns hangs turn) (tests ++ (middle ++ closing :: after)) := by
    rcases steps with ⟨rfl, rfl⟩ | ⟨step, rfl, steps⟩
    · exact ⟨_, rfl, .turns tested closes bodies⟩
    · exact ⟨_, rfl, .turnsStepping tested steps closes bodies⟩
  refine ⟨hangs, ?_, alone⟩
  rcases initials with ⟨rfl, semicolon, rfl, ends⟩ | ⟨first, rfl, initials⟩
  · have whole := Sentence.Derives.forever key opens ends rounds
    rw [stands]
    simpa only [List.append_assoc, List.cons_append, List.nil_append, List.append_nil] using whole
  · have whole := Sentence.Derives.forFrom key opens initials rounds
    have around : Stmt.ofFor (some first) condition increment body = .block [first, turn] := by
      rw [← stands]
      rfl
    rw [around]
    simpa only [List.append_assoc, List.cons_append, List.nil_append, List.append_nil] using whole

theorem branch_succ (account : StatementsAccount depth) (inside : Bool) {keyword : Token}
    (key : keyword.kind = .kwIf) :
    Accounts inside (fun read => ReadAs inside (keyword :: read)) (ifWithin (depth + 1)) := by
  rw [ifWithin]
  apply accounts_expect
  intro opening opens
  apply accounts_expression.andThen
  intro condition
  apply accounts_expect
  intro closing closes
  apply (account.statement inside).andThen
  intro yes
  apply accounts_accept
  · apply accounts_pure
    rintro ahead others before ⟨hangs, yeses, _⟩ test tests
    have whole := Sentence.Derives.branch key opens tests closes yeses
    refine ⟨true, ?_, ?_⟩
    · simpa only [List.append_assoc, List.cons_append, List.append_nil] using whole
    · intro _ token member
      simpa using others token member
  · intro other follows
    apply (account.statement inside).andThen
    intro no
    apply accounts_pure
    rintro ahead after ⟨hangs, noes, alone⟩ before ⟨dangling, yeses, unfollowed⟩ test tests
    -- An `else` follows the first branch, which therefore is closed.
    have closed : dangling = false := by
      cases dangling with
      | false => rfl
      | true => exact absurd (beq_iff_eq.mp follows) (unfollowed rfl other rfl)
    subst closed
    have whole := Sentence.Derives.branchElse key opens tests closes yeses (beq_iff_eq.mp follows) noes
    refine ⟨hangs, ?_, alone⟩
    simpa only [List.append_assoc, List.cons_append, List.append_nil] using whole

theorem loop_succ (account : StatementsAccount depth) (inside : Bool) {keyword : Token}
    (key : keyword.kind = .kwWhile) :
    Accounts inside (fun read => ReadAs inside (keyword :: read)) (whileWithin (depth + 1)) := by
  rw [whileWithin]
  apply accounts_expect
  intro opening opens
  apply accounts_expression.andThen
  intro condition
  apply accounts_expect
  intro closing closes
  apply (account.statement inside).andThen
  intro body
  apply accounts_pure
  rintro ahead before ⟨hangs, bodies, alone⟩ test tests
  have whole := Sentence.Derives.loop key opens tests closes bodies
  refine ⟨hangs, ?_, alone⟩
  simpa only [List.append_assoc, List.cons_append, List.append_nil] using whole

theorem block_succ (account : StatementsAccount depth) (inside : Bool) :
    Accounts inside (fun read _ body => ∃ tokens closing, read = tokens ++ [closing] ∧
      Sentence.Derives inside (.declarations body) tokens ∧ closing.kind = .rightBrace)
      (blockWithin (depth + 1)) := by
  rw [blockWithin]
  apply (account.declarations inside true).andThen
  intro body
  apply accounts_expect
  intro closing closes
  apply accounts_pure
  rintro ahead tokens ⟨bodies, _⟩
  exact ⟨tokens, closing, rfl, bodies, closes⟩

theorem declarations_succ (account : StatementsAccount depth) (inside inBlock : Bool) :
    Accounts inside (fun read ahead trees => Sentence.Derives inside (.declarations trees) read ∧
      (inBlock = false → ahead = [])) (declarationsWithin (depth + 1) inBlock) := by
  intro cursor place
  rw [declarationsWithin_succ]
  split
  · rename_i finished
    refine ⟨[], [], .refl cursor, fun _ => ⟨.nothing, ?_⟩⟩
    intro outside
    simpa [outside] using finished
  · apply (account.declaration inside).andThen _ cursor place
    intro result
    apply (account.declarations inside inBlock).andThen
    intro others
    apply accounts_pure
    rintro ahead after ⟨rest, ends⟩ before ⟨tree, rfl, first⟩
    rw [List.append_nil]
    exact ⟨.first first rest, ends⟩

end StatementsAccount

theorem statementsAccount (depth : Nat) : StatementsAccount depth := by
  induction depth with
  | zero =>
    exact ⟨fun _ => accounts_spent, fun _ _ _ => accounts_spent, fun _ => accounts_spent,
      fun _ _ _ => accounts_spent, fun _ _ _ => accounts_spent, fun _ _ _ => accounts_spent,
      fun _ => accounts_spent, fun _ _ => accounts_spent⟩
  | succ depth account =>
    exact ⟨account.declaration_succ, account.function_succ, account.statement_succ,
      account.forLoop_succ, account.branch_succ, account.loop_succ, account.block_succ,
      account.declarations_succ⟩

end Parse

namespace Program

/-- A program that is read without a problem is derived by its tokens. -/
theorem derives_of_ofTokens {tokens : List Token} {last : Token} {program : Program}
    (clean : ofTokens tokens last = (program, [])) :
    Sentence.Derives false (.declarations program) tokens := by
  have accounted := (Parse.statementsAccount (Parse.ample (.start tokens last))).declarations
    false false (.start tokens last) rfl
  have finite := Parse.declarations_ne_spent (.start tokens last)
  change (Reader.declarations (M := Parse) (.start tokens last)).Accounted _ _ at accounted
  unfold ofTokens at clean
  cases out : Reader.declarations (M := Parse) (.start tokens last) with
  | ok trees after =>
    rw [out] at clean accounted
    obtain ⟨read, found, went, good⟩ := accounted
    obtain ⟨rfl, silent⟩ := Prod.mk.inj clean
    have silence : found = [] := by
      have problems := went.problems
      rw [silent] at problems
      exact problems.symm
    obtain ⟨derives, ends⟩ := good silence
    have whole : tokens = read ++ after.ahead := went.ahead
    rw [whole, ends rfl, List.append_nil]
    exact derives
  | failed after =>
    rw [out] at clean accounted
    obtain ⟨read, found, went, noted⟩ := accounted
    have problems := went.problems
    rw [(Prod.mk.inj clean).2] at problems
    exact absurd problems.symm noted
  | spent => exact absurd out finite

end Program

end Lox
