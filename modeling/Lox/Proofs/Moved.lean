import Mathlib.Data.List.Basic
import Lox.Proofs.Pruned

set_option autoImplicit false

/- Two runs that open different numbers of scopes give different places to what are the same scopes.
A tree is anchored if all functions among its literals were declared in scopes so old that they have
the same place in both runs. -/

namespace Lox

/-- The value with the scope of its declaration, if it is a function, at another place. -/
def Value.moved (f : ScopeId → ScopeId) : Value → Value
  | .returned value => .returned (value.moved f)
  | .function name params body closure => .function name params body (f closure)
  | .text s => .text s
  | .number v => .number v
  | .bool b => .bool b
  | .nil => .nil
  | .uninitialized => .uninitialized
  | .native n => .native n

mutual

/-- Whether a value, if it is a function, was declared in one of so many scopes, with a body that is
anchored there too. -/
def Value.anchored (base : Nat) : Value → Bool
  | .returned value => value.anchored base
  | .function _ _ body closure => decide (closure < base) && Stmt.allAnchored base body
  | .text _ | .number _ | .bool _ | .nil | .uninitialized | .native _ => true

def Expr.anchored (base : Nat) : Expr → Bool
  | .assign _ value => value.anchored base
  | .binary left _ right => left.anchored base && right.anchored base
  | .call callee _ arguments => callee.anchored base && Expr.allAnchored base arguments
  | .grouping inner => inner.anchored base
  | .literal value => value.anchored base
  | .logical left _ right => left.anchored base && right.anchored base
  | .unary _ right => right.anchored base
  | .var _ => true

def Expr.allAnchored (base : Nat) : List Expr → Bool
  | [] => true
  | expr :: rest => expr.anchored base && Expr.allAnchored base rest

def Stmt.anchored (base : Nat) : Stmt → Bool
  | .block body => Stmt.allAnchored base body
  | .expression value => value.anchored base
  | .function _ _ body => Stmt.allAnchored base body
  | .branch condition yes none => condition.anchored base && yes.anchored base
  | .branch condition yes (some no) =>
    condition.anchored base && yes.anchored base && no.anchored base
  | .print value => value.anchored base
  | .ret _ none => true
  | .ret _ (some value) => value.anchored base
  | .declare _ value => value.anchored base
  | .loop condition body => condition.anchored base && body.anchored base

def Stmt.allAnchored (base : Nat) : List Stmt → Bool
  | [] => true
  | stmt :: rest => stmt.anchored base && Stmt.allAnchored base rest

end

/-- The value, if it is a function, was declared in one of the first `count` scopes, and its body is
anchored in the first `base`. -/
def Value.Within (base count : Nat) (value : Value) : Prop :=
  ∀ name params body closure, value.core = .function name params body closure →
    Stmt.allAnchored base body = true ∧ closure < count

/-- Natives do not look at the scopes in which functions were declared, and may tell one from
another by them at most. -/
def Host.Unscoped (host : Host) : Prop :=
  ∀ f : ScopeId → ScopeId, Function.Injective f → ∀ count native arguments,
    host.answerAfter count native (arguments.map (Value.moved f)) =
      (host.answerAfter count native arguments).moved f

namespace Value

variable {f g : ScopeId → ScopeId} {base count more : Nat} {value : Value}

@[simp] theorem print_moved (f : ScopeId → ScopeId) (value : Value) :
    (value.moved f).print = value.print := by
  fun_induction Value.print value <;> simp only [moved, print, *]

@[simp] theorem truthy_moved (f : ScopeId → ScopeId) (value : Value) :
    (value.moved f).truthy = value.truthy := by
  cases value <;> rfl

/-- Only where the scope of a function comes to lie makes a difference. -/
theorem moved_congr : ∀ {value : Value},
    (∀ id, value.closure? = some id → g id = f id) → value.moved g = value.moved f
  | .returned value, same => by
    have inner : value.moved g = value.moved f := moved_congr same
    rw [moved, moved, inner]
  | .function name params body closure, same => by rw [moved, moved, same closure rfl]
  | .text _, _ | .number _, _ | .bool _, _ | .nil, _ | .uninitialized, _ | .native _, _ => rfl

@[simp] theorem moved_id : ∀ value : Value, value.moved id = value
  | .returned value => by rw [moved, moved_id value]
  | .function .. | .text _ | .number _ | .bool _ | .nil | .uninitialized | .native _ => rfl

/-- A value that is no function is left as it is. -/
theorem moved_of_closure?_none (none_there : value.closure? = none) : value.moved f = value := by
  have same : value.moved f = value.moved id := by
    apply moved_congr
    intro id some_there
    rw [none_there] at some_there
    cases some_there
  rw [same, moved_id]

theorem within_of_closure?_none (none_there : value.closure? = none) :
    value.Within base count := by
  intro name params body closure core
  have some_there := closure?_eq_some.mpr ⟨name, params, body, core⟩
  rw [none_there] at some_there
  cases some_there

theorem Within.mono (within : value.Within base count) (enough : count ≤ more) :
    value.Within base more := by
  intro name params body closure core
  obtain ⟨anchored, declared⟩ := within name params body closure core
  exact ⟨anchored, Nat.lt_of_lt_of_le declared enough⟩

theorem within_function {name : Token} {params : List Token} {body : List Stmt}
    {closure : ScopeId} (anchored : Stmt.allAnchored base body = true) (declared : closure < count) :
    (Value.function name params body closure).Within base count := by
  intro _ _ _ _ core
  cases core
  exact ⟨anchored, declared⟩

theorem within_of_anchored : ∀ {value : Value}, value.anchored base = true →
    value.Within base base
  | .returned value, anchored => by
    have inner : value.Within base base := within_of_anchored anchored
    exact inner
  | .function .., anchored => by
    obtain ⟨declared, body⟩ := Bool.and_eq_true_iff.mp anchored
    exact within_function body (of_decide_eq_true declared)
  | .text _, _ | .number _, _ | .bool _, _ | .nil, _ | .uninitialized, _ | .native _, _ =>
    within_of_closure?_none rfl

theorem Within.moved_congr (within : value.Within base count) (same : ∀ id < count, g id = f id) :
    value.moved g = value.moved f := by
  apply Value.moved_congr
  intro id found
  obtain ⟨name, params, body, core⟩ := closure?_eq_some.mp found
  exact same id (within name params body id core).2

end Value

namespace Answer

theorem ofUnary_moved (f : ScopeId → ScopeId) (kind : Kind) (right : Value) :
    ofUnary kind (right.moved f) = ofUnary kind right := by
  cases right <;> rfl

theorem ofBinary_moved (f : ScopeId → ScopeId) (kind : Kind) (left right : Value) :
    ofBinary kind (left.moved f) (right.moved f) = ofBinary kind left right := by
  cases left <;> cases right <;> rfl

end Answer

namespace Host

variable {host : Host} {base count : Nat}

theorem HandsOn.within (handsOn : host.HandsOn) {arguments : List Value}
    (within : ∀ argument ∈ arguments, argument.Within base count) (asked : Nat) (native : Native) :
    (host.answerAfter asked native arguments).Within base count := by
  intro name params body closure core
  obtain ⟨argument, member, same⟩ := handsOn asked native arguments name params body closure core
  exact within argument member name params body closure same

end Host

theorem World.bare_unscoped : World.bare.host.Unscoped := by
  intro f _ count native arguments
  rw [World.bare_answerAfter, World.bare_answerAfter, Value.moved]

namespace Bindings

theorem mem_set {bindings : Bindings} {name : String} {value : Value} {bound : String × Value}
    (member : bound ∈ bindings.set name value) : bound ∈ bindings ∨ bound.2 = value := by
  induction bindings with
  | nil =>
    rw [List.mem_singleton.mp member]
    exact Or.inr rfl
  | cons entry rest ih =>
    obtain ⟨first, old⟩ := entry
    unfold set at member
    split at member
    · rcases List.mem_cons.mp member with rfl | later
      · exact Or.inr rfl
      · exact Or.inl (List.mem_cons_of_mem _ later)
    · rcases List.mem_cons.mp member with rfl | later
      · exact Or.inl List.mem_cons_self
      · rcases ih later with earlier | new
        · exact Or.inl (List.mem_cons_of_mem _ earlier)
        · exact Or.inr new

/-- What is bound after binding many names was bound before, or is one of them. -/
theorem mem_foldl_set {α : Type} (key : α → String) (item : α → Value) (items : List α)
    {bound : String × Value} : ∀ bindings : Bindings,
    bound ∈ items.foldl (fun bindings i => bindings.set (key i) (item i)) bindings →
      bound ∈ bindings ∨ ∃ i ∈ items, bound.2 = item i := by
  induction items with
  | nil => exact fun _ => Or.inl
  | cons first rest ih =>
    intro bindings folded
    rcases ih _ folded with earlier | ⟨later, member, same⟩
    · rcases mem_set earlier with old | new
      · exact Or.inl old
      · exact Or.inr ⟨first, List.mem_cons_self, new⟩
    · exact Or.inr ⟨later, List.mem_cons_of_mem _ member, same⟩

theorem mem_ofArguments {params : List Token} {arguments : List Value} {bound : String × Value}
    (member : bound ∈ ofArguments params arguments) : bound.2 ∈ arguments := by
  rcases mem_foldl_set (fun pair : Token × Value => pair.1.lexeme) Prod.snd (params.zip arguments) []
    member with nothing | ⟨pair, inside, same⟩
  · cases nothing
  · rw [same]
    exact (List.of_mem_zip inside).2

/-- Bindings whose values all lie within so many scopes are changed alike by maps that agree
there. -/
theorem mapValues_congr {f g : Value → Value} {bindings : Bindings}
    (same : ∀ bound ∈ bindings, g bound.2 = f bound.2) :
    bindings.mapValues g = bindings.mapValues f := by
  apply List.map_congr_left
  intro bound member
  rw [same bound member]

theorem mapValues_id (bindings : Bindings) {f : Value → Value}
    (same : ∀ bound ∈ bindings, f bound.2 = bound.2) : bindings.mapValues f = bindings := by
  have all := mapValues_congr (f := fun value => value) same
  rw [all]
  exact List.map_id' bindings

end Bindings

end Lox
