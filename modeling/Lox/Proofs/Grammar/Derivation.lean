import Lox.Grammar.Statement

set_option autoImplicit false

/- Every token of a derivation is used once. Tokens that the trees do not hold, such as commas, are
given by their kinds alone. -/

namespace Lox

/-- The expressions that the grammar has names for, the loosest first. -/
inductive Grade where
  | assignment
  | chain (level : Level)
  | unary
  | call
  | primary
deriving DecidableEq, Repr

/-- What an expression of a grade is that has no operator of the grade. -/
def Grade.tighter : Grade → Option Grade
  | assignment => some (chain .disjunction)
  | chain .disjunction => some (chain .conjunction)
  | chain .conjunction => some (chain .equality)
  | chain .equality => some (chain .comparison)
  | chain .comparison => some (chain .term)
  | chain .term => some (chain .factor)
  | chain .factor => some unary
  | unary => some call
  | call => some primary
  | primary => none

namespace Level

def operators : Level → List Kind
  | disjunction => [.kwOr]
  | conjunction => [.kwAnd]
  | equality => [.bangEqual, .equalEqual]
  | comparison => [.greater, .greaterEqual, .less, .lessEqual]
  | term => [.minus, .plus]
  | factor => [.slash, .star]

/-- Whether the operators of a level need not evaluate their right operand. -/
def logical : Level → Bool
  | disjunction | conjunction => true
  | equality | comparison | term | factor => false

end Level

/-- What tokens inside a statement may be. -/
inductive Phrase where
  | expr (grade : Grade) (tree : Expr)
  /-- At least one expression, with commas between. -/
  | list (trees : List Expr)

inductive Phrase.Derives : Phrase → List Token → Prop
  | tighter {grade below : Grade} {tree : Expr} {tokens : List Token}
      (step : grade.tighter = some below) (inner : Derives (.expr below tree) tokens) :
      Derives (.expr grade tree) tokens
  | assign {name equals : Token} {value : Expr} {tokens : List Token}
      (named : name.kind = .identifier) (sign : equals.kind = .equal)
      (right : Derives (.expr .assignment value) tokens) :
      Derives (.expr .assignment (.assign name value)) (name :: equals :: tokens)
  | logical {level : Level} {below : Grade} {left right : Expr} {operator : Token}
      {before after : List Token} (logical : level.logical = true)
      (step : (Grade.chain level).tighter = some below) (sign : operator.kind ∈ level.operators)
      (lefts : Derives (.expr (.chain level) left) before)
      (rights : Derives (.expr below right) after) :
      Derives (.expr (.chain level) (.logical left operator right)) (before ++ operator :: after)
  | binary {level : Level} {below : Grade} {left right : Expr} {operator : Token}
      {before after : List Token} (binary : level.logical = false)
      (step : (Grade.chain level).tighter = some below) (sign : operator.kind ∈ level.operators)
      (lefts : Derives (.expr (.chain level) left) before)
      (rights : Derives (.expr below right) after) :
      Derives (.expr (.chain level) (.binary left operator right)) (before ++ operator :: after)
  | unary {operator : Token} {right : Expr} {tokens : List Token}
      (sign : operator.kind = .bang ∨ operator.kind = .minus)
      (rights : Derives (.expr .unary right) tokens) :
      Derives (.expr .unary (.unary operator right)) (operator :: tokens)
  | callEmpty {callee : Expr} {opening paren : Token} {before : List Token}
      (callees : Derives (.expr .call callee) before) (opens : opening.kind = .leftParen)
      (closes : paren.kind = .rightParen) :
      Derives (.expr .call (.call callee paren [])) (before ++ [opening, paren])
  | call {callee : Expr} {opening paren : Token} {arguments : List Expr}
      {before inside : List Token} (callees : Derives (.expr .call callee) before)
      (opens : opening.kind = .leftParen) (lists : Derives (.list arguments) inside)
      (few : arguments.length ≤ 255) (closes : paren.kind = .rightParen) :
      Derives (.expr .call (.call callee paren arguments)) (before ++ opening :: (inside ++ [paren]))
  | grouping {opening closing : Token} {inner : Expr} {tokens : List Token}
      (opens : opening.kind = .leftParen) (inners : Derives (.expr .assignment inner) tokens)
      (closes : closing.kind = .rightParen) :
      Derives (.expr .primary (.grouping inner)) (opening :: (tokens ++ [closing]))
  | number {token : Token} {value : Float} (kind : token.kind = .number)
      (written : token.literal = some (.number value)) :
      Derives (.expr .primary (.literal (.number value))) [token]
  | text {token : Token} {value : String} (kind : token.kind = .string)
      (written : token.literal = some (.text value)) :
      Derives (.expr .primary (.literal (.text value))) [token]
  | yes {token : Token} (kind : token.kind = .kwTrue) :
      Derives (.expr .primary (.literal (.bool true))) [token]
  | no {token : Token} (kind : token.kind = .kwFalse) :
      Derives (.expr .primary (.literal (.bool false))) [token]
  | nil {token : Token} (kind : token.kind = .kwNil) :
      Derives (.expr .primary (.literal .nil)) [token]
  | var {name : Token} (named : name.kind = .identifier) :
      Derives (.expr .primary (.var name)) [name]
  | single {tree : Expr} {tokens : List Token} (one : Derives (.expr .assignment tree) tokens) :
      Derives (.list [tree]) tokens
  | several {tree : Expr} {trees : List Expr} {comma : Token} {before after : List Token}
      (one : Derives (.expr .assignment tree) before) (sign : comma.kind = .comma)
      (others : Derives (.list trees) after) :
      Derives (.list (tree :: trees)) (before ++ comma :: after)

inductive NameList : List Token → List Token → Prop
  | single {name : Token} (named : name.kind = .identifier) : NameList [name] [name]
  | several {name comma : Token} {names tokens : List Token} (named : name.kind = .identifier)
      (sign : comma.kind = .comma) (others : NameList names tokens) :
      NameList (name :: names) (name :: comma :: tokens)

inductive ParameterList : List Token → List Token → Prop
  | empty : ParameterList [] []
  | names {names tokens : List Token} (listed : NameList names tokens)
      (few : names.length ≤ 255) : ParameterList names tokens

inductive Ended (value : Expr) : List Token → Prop
  | intro {tokens : List Token} {semicolon : Token}
      (values : (Phrase.expr .assignment value).Derives tokens)
      (ends : semicolon.kind = .semicolon) : Ended value (tokens ++ [semicolon])

inductive Variable : Stmt → List Token → Prop
  | bare {name semicolon : Token} (named : name.kind = .identifier)
      (ends : semicolon.kind = .semicolon) :
      Variable (.declare name (.literal .uninitialized)) [name, semicolon]
  | valued {name equals : Token} {value : Expr} {tokens : List Token}
      (named : name.kind = .identifier) (sign : equals.kind = .equal)
      (values : Ended value tokens) : Variable (.declare name value) (name :: equals :: tokens)

inductive Initial : Stmt → List Token → Prop
  | binding {keyword : Token} {tree : Stmt} {tokens : List Token} (key : keyword.kind = .kwVar)
      (declares : Variable tree tokens) : Initial tree (keyword :: tokens)
  | expression {value : Expr} {tokens : List Token} (values : Ended value tokens) :
      Initial (.expression value) tokens

inductive Condition : Expr → List Token → Prop
  | absent {semicolon : Token} (ends : semicolon.kind = .semicolon) :
      Condition (.literal (.bool true)) [semicolon]
  | given {value : Expr} {tokens : List Token} (values : Ended value tokens) :
      Condition value tokens

inductive Sentence where
  /-- A statement; whether an `else` after it would belong to it. -/
  | statement (hangs : Bool) (tree : Stmt)
  /-- The clauses of a `for` after the first, and its body. -/
  | turns (hangs : Bool) (tree : Stmt)
  | declaration (tree : Stmt)
  | declarations (trees : List Stmt)

/-- The tokens of a sentence, inside a function or outside every one. -/
inductive Sentence.Derives : Bool → Sentence → List Token → Prop
  | expression {inside : Bool} {value : Expr} {tokens : List Token}
      (values : Ended value tokens) :
      Derives inside (.statement false (.expression value)) tokens
  | print {inside : Bool} {keyword : Token} {value : Expr} {tokens : List Token}
      (key : keyword.kind = .kwPrint) (values : Ended value tokens) :
      Derives inside (.statement false (.print value)) (keyword :: tokens)
  | retNothing {keyword semicolon : Token} (key : keyword.kind = .kwReturn)
      (ends : semicolon.kind = .semicolon) :
      Derives true (.statement false (.ret keyword none)) [keyword, semicolon]
  | ret {keyword : Token} {value : Expr} {tokens : List Token} (key : keyword.kind = .kwReturn)
      (values : Ended value tokens) :
      Derives true (.statement false (.ret keyword (some value))) (keyword :: tokens)
  | block {inside : Bool} {opening closing : Token} {body : List Stmt} {tokens : List Token}
      (opens : opening.kind = .leftBrace) (bodies : Derives inside (.declarations body) tokens)
      (closes : closing.kind = .rightBrace) :
      Derives inside (.statement false (.block body)) (opening :: (tokens ++ [closing]))
  | branch {inside hangs : Bool} {keyword opening closing : Token} {condition : Expr} {yes : Stmt}
      {test tokens : List Token} (key : keyword.kind = .kwIf) (opens : opening.kind = .leftParen)
      (tests : (Phrase.expr .assignment condition).Derives test)
      (closes : closing.kind = .rightParen)
      (yeses : Derives inside (.statement hangs yes) tokens) :
      Derives inside (.statement true (.branch condition yes none))
        (keyword :: opening :: (test ++ closing :: tokens))
  | branchElse {inside hangs : Bool} {keyword opening closing other : Token} {condition : Expr}
      {yes no : Stmt} {test before after : List Token} (key : keyword.kind = .kwIf)
      (opens : opening.kind = .leftParen)
      (tests : (Phrase.expr .assignment condition).Derives test)
      (closes : closing.kind = .rightParen)
      (yeses : Derives inside (.statement false yes) before) (others : other.kind = .kwElse)
      (noes : Derives inside (.statement hangs no) after) :
      Derives inside (.statement hangs (.branch condition yes (some no)))
        (keyword :: opening :: (test ++ closing :: (before ++ other :: after)))
  | loop {inside hangs : Bool} {keyword opening closing : Token} {condition : Expr} {body : Stmt}
      {test tokens : List Token} (key : keyword.kind = .kwWhile)
      (opens : opening.kind = .leftParen)
      (tests : (Phrase.expr .assignment condition).Derives test)
      (closes : closing.kind = .rightParen)
      (bodies : Derives inside (.statement hangs body) tokens) :
      Derives inside (.statement hangs (.loop condition body))
        (keyword :: opening :: (test ++ closing :: tokens))
  | forever {inside hangs : Bool} {keyword opening semicolon : Token} {tree : Stmt}
      {tokens : List Token} (key : keyword.kind = .kwFor) (opens : opening.kind = .leftParen)
      (ends : semicolon.kind = .semicolon) (rounds : Derives inside (.turns hangs tree) tokens) :
      Derives inside (.statement hangs tree) (keyword :: opening :: semicolon :: tokens)
  | forFrom {inside hangs : Bool} {keyword opening : Token} {first tree : Stmt}
      {before after : List Token} (key : keyword.kind = .kwFor)
      (opens : opening.kind = .leftParen) (initials : Initial first before)
      (rounds : Derives inside (.turns hangs tree) after) :
      Derives inside (.statement hangs (.block [first, tree]))
        (keyword :: opening :: (before ++ after))
  | turns {inside hangs : Bool} {closing : Token} {condition : Expr} {body : Stmt}
      {before after : List Token} (tests : Condition condition before)
      (closes : closing.kind = .rightParen)
      (bodies : Derives inside (.statement hangs body) after) :
      Derives inside (.turns hangs (.loop condition body)) (before ++ closing :: after)
  | turnsStepping {inside hangs : Bool} {closing : Token} {condition increment : Expr} {body : Stmt}
      {before middle after : List Token} (tests : Condition condition before)
      (steps : (Phrase.expr .assignment increment).Derives middle)
      (closes : closing.kind = .rightParen)
      (bodies : Derives inside (.statement hangs body) after) :
      Derives inside (.turns hangs (.loop condition (.block [body, .expression increment])))
        (before ++ (middle ++ closing :: after))
  | statement {inside hangs : Bool} {tree : Stmt} {tokens : List Token}
      (statements : Derives inside (.statement hangs tree) tokens) :
      Derives inside (.declaration tree) tokens
  | binding {inside : Bool} {keyword : Token} {tree : Stmt} {tokens : List Token}
      (key : keyword.kind = .kwVar) (declares : Variable tree tokens) :
      Derives inside (.declaration tree) (keyword :: tokens)
  | function {inside : Bool} {keyword name opening closing first last : Token}
      {params body : List Token} {stmts : List Stmt} {names : List Token}
      (key : keyword.kind = .kwFun) (named : name.kind = .identifier)
      (opens : opening.kind = .leftParen) (listed : ParameterList names params)
      (closes : closing.kind = .rightParen) (begins : first.kind = .leftBrace)
      (bodies : Derives true (.declarations stmts) body) (ends : last.kind = .rightBrace) :
      Derives inside (.declaration (.function name names stmts))
        (keyword :: name :: opening :: (params ++ closing :: first :: (body ++ [last])))
  | nothing {inside : Bool} : Derives inside (.declarations []) []
  | first {inside : Bool} {tree : Stmt} {trees : List Stmt} {before after : List Token}
      (firsts : Derives inside (.declaration tree) before)
      (others : Derives inside (.declarations trees) after) :
      Derives inside (.declarations (tree :: trees)) (before ++ after)

end Lox
