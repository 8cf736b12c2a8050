import Lox.Proofs.Plain
import Lox.Proofs.Pairing

set_option autoImplicit false

namespace Lox

/-- Which tokens may stand for which. -/
abbrev Likeness := Token → Token → Prop

mutual

/-- Values that differ in the tokens of functions alone. -/
inductive Value.Like (like : Likeness) : Value → Value → Prop
  | text (value : String) : Value.Like like (.text value) (.text value)
  | number (value : Float) : Value.Like like (.number value) (.number value)
  | bool (value : Bool) : Value.Like like (.bool value) (.bool value)
  | nil : Value.Like like .nil .nil
  | uninitialized : Value.Like like .uninitialized .uninitialized
  | returned {value other : Value} (inner : Value.Like like value other) :
      Value.Like like (.returned value) (.returned other)
  | function {name other : Token} {params others : List Token} {body twin : List Stmt}
      (named : like name other) (listed : List.Forall₂ like params others)
      (bodies : Stmt.AllLike like body twin) (closure : ScopeId) :
      Value.Like like (.function name params body closure) (.function other others twin closure)
  | native (native : Native) : Value.Like like (.native native) (.native native)

inductive Expr.Like (like : Likeness) : Expr → Expr → Prop
  | assign {name other : Token} {value twin : Expr} (named : like name other)
      (values : Expr.Like like value twin) : Expr.Like like (.assign name value) (.assign other twin)
  | binary {left right first second : Expr} {operator other : Token}
      (lefts : Expr.Like like left first) (sign : like operator other)
      (rights : Expr.Like like right second) :
      Expr.Like like (.binary left operator right) (.binary first other second)
  | call {callee twin : Expr} {paren other : Token} {arguments others : List Expr}
      (callees : Expr.Like like callee twin) (sign : like paren other)
      (lists : Expr.AllLike like arguments others) :
      Expr.Like like (.call callee paren arguments) (.call twin other others)
  | grouping {inner twin : Expr} (inners : Expr.Like like inner twin) :
      Expr.Like like (.grouping inner) (.grouping twin)
  | literal {value twin : Value} (values : Value.Like like value twin) :
      Expr.Like like (.literal value) (.literal twin)
  | logical {left right first second : Expr} {operator other : Token}
      (lefts : Expr.Like like left first) (sign : like operator other)
      (rights : Expr.Like like right second) :
      Expr.Like like (.logical left operator right) (.logical first other second)
  | unary {operator other : Token} {right twin : Expr} (sign : like operator other)
      (rights : Expr.Like like right twin) : Expr.Like like (.unary operator right) (.unary other twin)
  | var {name other : Token} (named : like name other) : Expr.Like like (.var name) (.var other)

inductive Expr.AllLike (like : Likeness) : List Expr → List Expr → Prop
  | nil : Expr.AllLike like [] []
  | cons {expr twin : Expr} {rest others : List Expr} (first : Expr.Like like expr twin)
      (more : Expr.AllLike like rest others) : Expr.AllLike like (expr :: rest) (twin :: others)

inductive Stmt.Like (like : Likeness) : Stmt → Stmt → Prop
  | block {body twin : List Stmt} (bodies : Stmt.AllLike like body twin) :
      Stmt.Like like (.block body) (.block twin)
  | expression {value twin : Expr} (values : Expr.Like like value twin) :
      Stmt.Like like (.expression value) (.expression twin)
  | function {name other : Token} {params others : List Token} {body twin : List Stmt}
      (named : like name other) (listed : List.Forall₂ like params others)
      (bodies : Stmt.AllLike like body twin) :
      Stmt.Like like (.function name params body) (.function other others twin)
  | branch {condition test : Expr} {yes twin : Stmt} (conditions : Expr.Like like condition test)
      (yeses : Stmt.Like like yes twin) :
      Stmt.Like like (.branch condition yes none) (.branch test twin none)
  | branchElse {condition test : Expr} {yes no first second : Stmt}
      (conditions : Expr.Like like condition test) (yeses : Stmt.Like like yes first)
      (noes : Stmt.Like like no second) :
      Stmt.Like like (.branch condition yes (some no)) (.branch test first (some second))
  | print {value twin : Expr} (values : Expr.Like like value twin) :
      Stmt.Like like (.print value) (.print twin)
  | retNothing {keyword other : Token} (key : like keyword other) :
      Stmt.Like like (.ret keyword none) (.ret other none)
  | ret {keyword other : Token} {value twin : Expr} (key : like keyword other)
      (values : Expr.Like like value twin) :
      Stmt.Like like (.ret keyword (some value)) (.ret other (some twin))
  | declare {name other : Token} {value twin : Expr} (named : like name other)
      (values : Expr.Like like value twin) : Stmt.Like like (.declare name value) (.declare other twin)
  | loop {condition test : Expr} {body twin : Stmt} (conditions : Expr.Like like condition test)
      (bodies : Stmt.Like like body twin) : Stmt.Like like (.loop condition body) (.loop test twin)

inductive Stmt.AllLike (like : Likeness) : List Stmt → List Stmt → Prop
  | nil : Stmt.AllLike like [] []
  | cons {stmt twin : Stmt} {rest others : List Stmt} (first : Stmt.Like like stmt twin)
      (more : Stmt.AllLike like rest others) : Stmt.AllLike like (stmt :: rest) (twin :: others)

end

theorem Expr.AllLike.length_eq {like : Likeness} : ∀ {exprs twins : List Expr},
    Expr.AllLike like exprs twins → twins.length = exprs.length
  | _, _, .nil => rfl
  | _, _, .cons _ more => congrArg (· + 1) more.length_eq

/-- What tokens that may stand for each other have in common: all that a run looks at. -/
structure Likeness.Faithful (like : Likeness) : Prop where
  kind {token other : Token} (stands : like token other) : other.kind = token.kind
  lexeme {token other : Token} (stands : like token other) : other.lexeme = token.lexeme

namespace Value

variable {like : Likeness}

theorem Like.print_eq (faithful : like.Faithful) : ∀ {value other : Value},
    value.Like like other → other.print = value.print
  | _, _, .text _ | _, _, .number _ | _, _, .nil | _, _, .uninitialized | _, _, .native _ => rfl
  | _, _, .bool _ => rfl
  | _, _, .returned inner => congrArg ("return " ++ ·) (inner.print_eq faithful)
  | _, _, .function named _ _ _ => by simp only [print, faithful.lexeme named]

theorem Like.truthy_eq {value other : Value} (alike : value.Like like other) :
    other.truthy = value.truthy := by
  cases alike <;> rfl

/-- Where there is no function there is no token. -/
theorem Like.self : ∀ {value : Value}, value.closure? = none → value.Like like value
  | .text _, _ => .text _
  | .number _, _ => .number _
  | .bool _, _ => .bool _
  | .nil, _ => .nil
  | .uninitialized, _ => .uninitialized
  | .native _, _ => .native _
  | .returned value, tokenless => by
    have inner : value.closure? = none := by simpa only [closure?, core] using tokenless
    exact .returned (Like.self inner)
  | .function .., tokenless => by cases tokenless

end Value

namespace Answer

variable {like : Likeness}

theorem ofUnary_like (kind : Kind) {right twin : Value} (rights : right.Like like twin) :
    ofUnary kind twin = ofUnary kind right := by
  unfold ofUnary
  rw [rights.truthy_eq]
  cases rights <;> rfl

theorem ofBinary_like (kind : Kind) {left right first second : Value}
    (lefts : left.Like like first) (rights : right.Like like second) :
    ofBinary kind first second = ofBinary kind left right := by
  cases lefts <;> cases rights <;> rfl

end Answer

structure Fault.Like (like : Likeness) (fault twin : Fault) : Prop where
  token : like fault.token twin.token
  cause : twin.cause = fault.cause

structure Diagnostic.Like (like : Likeness) (diagnostic twin : Diagnostic) : Prop where
  token : Option.Rel like diagnostic.token twin.token
  message : twin.message = diagnostic.message
  runtime : twin.runtime = diagnostic.runtime

theorem Diagnostic.Like.messages {like : Likeness} {problems twins : List Diagnostic}
    (alike : List.Forall₂ (Diagnostic.Like like) problems twins) :
    twins.map (·.message) = problems.map (·.message) := by
  induction alike with
  | nil => rfl
  | cons first _ ih => rw [List.map_cons, List.map_cons, first.message, ih]

inductive Event.Like (like : Likeness) : Event → Event → Prop
  | printed (text : String) : Event.Like like (.printed text) (.printed text)
  | reported {fault twin : Fault} (faults : fault.Like like twin) :
      Event.Like like (.reported fault) (.reported twin)
  | entered (name : String) (params : List String) (depth : Nat) :
      Event.Like like (.entered name params depth) (.entered name params depth)
  | noOperator {operator other : Token} (sign : like operator other) :
      Event.Like like (.noOperator operator) (.noOperator other)

theorem Event.Like.output_eq {like : Likeness} {event twin : Event} (alike : event.Like like twin) :
    twin.output? = event.output? := by
  cases alike <;> rfl

theorem Event.Like.diagnostic {like : Likeness} {event twin : Event} (alike : event.Like like twin) :
    Option.Rel (Diagnostic.Like like) event.diagnostic? twin.diagnostic? := by
  cases alike with
  | reported faults => exact .some ⟨.some faults.token, congrArg Cause.message faults.cause, rfl⟩
  | printed | entered | noOperator => exact .none

def Bindings.Like (like : Likeness) (bindings twin : Bindings) : Prop :=
  List.Forall₂ (fun bound other => other.1 = bound.1 ∧ bound.2.Like like other.2) bindings twin

structure Store.Like (like : Likeness) (store twin : Store) : Prop where
  size : twin.size = store.size
  enclosing (id : ScopeId) : twin.enclosing id = store.enclosing id
  bindings (id : ScopeId) : (store.bindings id).Like like (twin.bindings id)

/-- States that differ in tokens alone, in what they recorded too. -/
structure State.Like (like : Likeness) (state twin : State) : Prop where
  store : state.store.Like like twin.store
  current : twin.current = state.current
  calls : twin.calls = state.calls
  trace : List.Forall₂ (Event.Like like) state.trace.toList twin.trace.toList
  asked : twin.asked = state.asked

inductive Outcome.Like {α β : Type} (like : Likeness) (relates : α → β → Prop) :
    Outcome α → Outcome β → Prop
  | done {value : α} {other : β} {state twin : State} (values : relates value other)
      (states : state.Like like twin) : Outcome.Like like relates (.done value state) (.done other twin)
  | fault {fault other : Fault} {state twin : State} (faults : fault.Like like other)
      (states : state.Like like twin) : Outcome.Like like relates (.fault fault state) (.fault other twin)
  | spent : Outcome.Like like relates .spent .spent

namespace Bindings

variable {like : Likeness} {bindings twin : Bindings}

theorem Like.names (alike : bindings.Like like twin) : twin.names = bindings.names := by
  induction alike with
  | nil => rfl
  | cons first _ ih =>
    unfold Bindings.names at ih ⊢
    rw [List.map_cons, List.map_cons, first.1, ih]

theorem Like.get? (alike : bindings.Like like twin) (name : String) :
    Option.Rel (Value.Like like) (bindings.get? name) (twin.get? name) := by
  induction alike with
  | nil => exact .none
  | @cons bound other rest others first _ ih =>
    obtain ⟨key, value⟩ := bound
    obtain ⟨key', value'⟩ := other
    obtain ⟨same, values⟩ := first
    cases same
    rw [Bindings.get?_cons, Bindings.get?_cons]
    split
    · exact .some values
    · exact ih

theorem Like.has (alike : bindings.Like like twin) (name : String) :
    twin.has name = bindings.has name := by
  have same {first second : Option Value} (related : Option.Rel (Value.Like like) first second) :
      second.isSome = first.isSome := by
    cases related <;> rfl
  exact same (alike.get? name)

theorem Like.set (alike : bindings.Like like twin) (name : String) {value other : Value}
    (values : value.Like like other) :
    (bindings.set name value).Like like (twin.set name other) := by
  induction alike with
  | nil => exact .cons ⟨rfl, values⟩ .nil
  | @cons bound other rest others first more ih =>
    obtain ⟨key, value⟩ := bound
    obtain ⟨key', value'⟩ := other
    obtain ⟨same, inner⟩ := first
    cases same
    unfold Bindings.set
    split
    · exact .cons ⟨rfl, values⟩ more
    · exact .cons ⟨rfl, inner⟩ ih

/-- Parameters of the same names, bound to arguments that are alike. -/
theorem like_ofArguments (faithful : like.Faithful) {params others : List Token}
    {arguments twins : List Value} (listed : List.Forall₂ like params others)
    (values : List.Forall₂ (Value.Like like) arguments twins) :
    (ofArguments params arguments).Like like (ofArguments others twins) := by
  have bound : ∀ {bindings twin : Bindings}, bindings.Like like twin →
      ((params.zip arguments).foldl (fun bindings pair => bindings.set pair.1.lexeme pair.2)
        bindings).Like like
      ((others.zip twins).foldl (fun bindings pair => bindings.set pair.1.lexeme pair.2)
        twin) := by
    induction listed generalizing arguments twins with
    | nil => exact id
    | @cons param other rest more stands _ ih =>
      intro bindings twin alike
      cases values with
      | nil => exact alike
      | cons first later =>
        simp only [List.zip_cons_cons, List.foldl_cons, faithful.lexeme stands]
        exact ih later (alike.set param.lexeme first)
  exact bound .nil

end Bindings

namespace Store

variable {like : Likeness} {store twin : Store}

theorem Like.chain (alike : store.Like like twin) (id : ScopeId) : twin.chain id = store.chain id :=
  chain_congr fun scope _ => alike.enclosing scope

theorem Like.resolve (alike : store.Like like twin) (id : ScopeId) (name : String) :
    twin.resolve id name = store.resolve id name :=
  resolve_congr (alike.chain id) fun scope _ => (alike.bindings scope).has name

theorem Like.get? (alike : store.Like like twin) (id : ScopeId) (name : String) :
    Option.Rel (Value.Like like) (store.get? id name) (twin.get? id name) := by
  unfold Store.get?
  rw [alike.resolve id name]
  cases store.resolve id name with
  | none => exact .none
  | some scope => exact (alike.bindings scope).get? name

theorem Like.depth (alike : store.Like like twin) (id : ScopeId) :
    twin.depth id = store.depth id := by
  unfold Store.depth
  rw [alike.chain id]

theorem Like.define (alike : store.Like like twin) (scope : ScopeId) (name : String)
    {value other : Value} (values : value.Like like other) :
    (store.define scope name value).Like like (twin.define scope name other) := by
  refine ⟨?_, ?_, ?_⟩
  · rw [size_define, size_define, alike.size]
  · intro id
    rw [enclosing_define, enclosing_define, alike.enclosing]
  · intro id
    by_cases there : id = scope
    · subst there
      by_cases inside : id < store.size
      · have within : id < twin.size := alike.size ▸ inside
        rw [bindings_define_self inside, bindings_define_self within]
        exact (alike.bindings id).set name values
      · have outside : twin.size ≤ id := alike.size ▸ Nat.not_lt.mp inside
        rw [define_of_le (Nat.not_lt.mp inside), define_of_le outside]
        exact alike.bindings id
    · rw [bindings_define_of_ne there, bindings_define_of_ne there]
      exact alike.bindings id

theorem Like.extend (alike : store.Like like twin) (outer : Option ScopeId)
    {bindings others : Bindings} (bound : bindings.Like like others) :
    (store.extend outer bindings).Like like (twin.extend outer others) := by
  refine ⟨?_, ?_, ?_⟩
  · rw [size_extend, size_extend, alike.size]
  · intro id
    rw [enclosing_extend, enclosing_extend, alike.size, alike.enclosing]
  · intro id
    rw [bindings_extend, bindings_extend, alike.size]
    split
    · exact bound
    · exact alike.bindings id

end Store

namespace State

variable {like : Likeness} {state twin : State}

theorem Like.add (alike : state.Like like twin) {event other : Event}
    (events : event.Like like other) : (state.add event).Like like (twin.add other) := by
  refine ⟨alike.store, alike.current, alike.calls, ?_, alike.asked⟩
  rw [add_trace, add_trace]
  exact List.rel_append alike.trace (.cons events .nil)

theorem Like.withCurrent (alike : state.Like like twin) (scope : ScopeId) :
    State.Like like { state with current := scope } { twin with current := scope } :=
  ⟨alike.store, rfl, alike.calls, alike.trace, alike.asked⟩

theorem Like.withCalls (alike : state.Like like twin) (calls : Nat) :
    State.Like like { state with calls := calls } { twin with calls := calls } :=
  ⟨alike.store, alike.current, rfl, alike.trace, alike.asked⟩

theorem Like.leave (alike : state.Like like twin) :
    State.Like like { state with calls := state.calls - 1 } { twin with calls := twin.calls - 1 } :=
  ⟨alike.store, alike.current, congrArg (· - 1) alike.calls, alike.trace, alike.asked⟩

theorem Like.output (alike : state.Like like twin) : twin.output = state.output := by
  have traces := alike.trace
  unfold State.output
  generalize state.trace.toList = events, twin.trace.toList = others at traces ⊢
  induction traces with
  | nil => rfl
  | cons first _ ih => rw [List.filterMap_cons, List.filterMap_cons, first.output_eq, ih]

end State

mutual

/-- Where each token stands only for itself, what is alike is the same. -/
theorem Value.Like.eq : ∀ {value other : Value}, Value.Like Eq value other → other = value
  | _, _, .text _ | _, _, .number _ | _, _, .bool _ | _, _, .nil | _, _, .uninitialized
  | _, _, .native _ => rfl
  | _, _, .returned inner => congrArg _ inner.eq
  | _, _, .function named listed bodies closure => by
    rw [List.forall₂_eq_eq_eq] at listed
    rw [named, listed, bodies.eq]

theorem Expr.Like.eq : ∀ {expr twin : Expr}, Expr.Like Eq expr twin → twin = expr
  | _, _, .assign named values => by rw [named, values.eq]
  | _, _, .binary lefts sign rights => by rw [lefts.eq, sign, rights.eq]
  | _, _, .call callees sign lists => by rw [callees.eq, sign, lists.eq]
  | _, _, .grouping inners => by rw [inners.eq]
  | _, _, .literal values => by rw [values.eq]
  | _, _, .logical lefts sign rights => by rw [lefts.eq, sign, rights.eq]
  | _, _, .unary sign rights => by rw [sign, rights.eq]
  | _, _, .var named => by rw [named]

theorem Expr.AllLike.eq : ∀ {exprs twins : List Expr}, Expr.AllLike Eq exprs twins → twins = exprs
  | _, _, .nil => rfl
  | _, _, .cons first more => by rw [first.eq, more.eq]

theorem Stmt.Like.eq : ∀ {stmt twin : Stmt}, Stmt.Like Eq stmt twin → twin = stmt
  | _, _, .block bodies => by rw [bodies.eq]
  | _, _, .expression values => by rw [values.eq]
  | _, _, .function named listed bodies => by
    rw [List.forall₂_eq_eq_eq] at listed
    rw [named, listed, bodies.eq]
  | _, _, .branch tests yeses => by rw [tests.eq, yeses.eq]
  | _, _, .branchElse tests yeses noes => by rw [tests.eq, yeses.eq, noes.eq]
  | _, _, .print values => by rw [values.eq]
  | _, _, .retNothing key => by rw [key]
  | _, _, .ret key values => by rw [key, values.eq]
  | _, _, .declare named values => by rw [named, values.eq]
  | _, _, .loop tests bodies => by rw [tests.eq, bodies.eq]

theorem Stmt.AllLike.eq : ∀ {stmts twins : List Stmt}, Stmt.AllLike Eq stmts twins → twins = stmts
  | _, _, .nil => rfl
  | _, _, .cons first more => by rw [first.eq, more.eq]

end

theorem Likeness.faithful_eq : Likeness.Faithful Eq :=
  ⟨fun same => by rw [same], fun same => by rw [same]⟩

theorem Diagnostic.Like.eq {problem other : Diagnostic} (alike : Diagnostic.Like Eq problem other) :
    other = problem := by
  obtain ⟨token, message, runtime⟩ := problem
  obtain ⟨copy, _, _⟩ := other
  obtain ⟨tokens, rfl, rfl⟩ := alike
  have same : copy = token := by
    cases tokens with
    | none => rfl
    | some stands => rw [stands]
  rw [same]

theorem Diagnostic.Like.eq_all {problems others : List Diagnostic}
    (alike : List.Forall₂ (Diagnostic.Like Eq) problems others) : others = problems := by
  induction alike with
  | nil => rfl
  | cons first _ ih => rw [first.eq, ih]

end Lox
