import Lox.Proofs.Plain

set_option autoImplicit false

namespace Lox

/-- Two stores of one size agree on some scopes, and from these neither links nor functions lead
to others. -/
structure Store.Shared (part : ScopeId → Prop) (first second : Store) : Prop where
  size : second.size = first.size
  enclosing : ∀ id, part id → second.enclosing id = first.enclosing id
  get? : ∀ id, part id → ∀ name,
    (second.bindings id).get? name = (first.bindings id).get? name
  outward : ∀ id outer, part id → first.enclosing id = some outer → part outer
  tame : ∀ id, part id → ∀ name value, (first.bindings id).get? name = some value →
    value.Tame part

namespace Store

variable {part : ScopeId → Prop} {first second : Store}

theorem Shared.chain (shared : first.Shared part second) {id : ScopeId} (inside : part id) :
    second.chain id = first.chain id := by
  apply chain_congr
  intro i member
  exact shared.enclosing i (chain_inside shared.outward inside i member)

theorem Shared.depth (shared : first.Shared part second) {id : ScopeId} (inside : part id) :
    second.depth id = first.depth id := by
  unfold Store.depth
  rw [shared.chain inside]

theorem Shared.resolve (shared : first.Shared part second) {id : ScopeId} (inside : part id)
    (name : String) : second.resolve id name = first.resolve id name := by
  apply resolve_congr (shared.chain inside)
  intro i member
  unfold Bindings.has
  rw [shared.get? i (chain_inside shared.outward inside i member)]

theorem Shared.inside_of_resolve (shared : first.Shared part second) {id scope : ScopeId}
    (inside : part id) {name : String} (found : first.resolve id name = some scope) :
    part scope :=
  chain_inside shared.outward inside scope (resolve_eq_some found).1

/-- A name means the same in both. -/
theorem Shared.lookUp (shared : first.Shared part second) {id : ScopeId} (inside : part id)
    (name : String) : second.get? id name = first.get? id name := by
  unfold Store.get?
  rw [shared.resolve inside]
  cases found : first.resolve id name with
  | none => rfl
  | some scope => exact shared.get? scope (shared.inside_of_resolve inside found) name

theorem Shared.tame_of_lookUp (shared : first.Shared part second) {id : ScopeId}
    (inside : part id) {name : String} {value : Value} (found : first.get? id name = some value) :
    value.Tame part := by
  unfold Store.get? at found
  obtain ⟨scope, resolved, bound⟩ := Option.bind_eq_some_iff.mp found
  exact shared.tame scope (shared.inside_of_resolve inside resolved) name value bound

theorem Shared.define (shared : first.Shared part second) (scope : ScopeId) (name : String)
    {value : Value} (tame : value.Tame part) :
    (first.define scope name value).Shared part (second.define scope name value) := by
  refine ⟨?_, ?_, ?_, ?_, ?_⟩
  · rw [size_define, size_define]
    exact shared.size
  · intro id inside
    rw [enclosing_define, enclosing_define]
    exact shared.enclosing id inside
  · intro id inside other
    rw [get?_define, get?_define, shared.size, shared.get? id inside]
  · intro id outer inside link
    rw [enclosing_define] at link
    exact shared.outward id outer inside link
  · intro id inside other stored found
    rw [get?_define] at found
    split at found
    · cases found
      exact tame
    · exact shared.tame id inside other stored found

theorem Shared.extend (shared : first.Shared part second) {outer : ScopeId} (inside : part outer)
    {bindings : Bindings}
    (tame : ∀ name value, bindings.get? name = some value → value.Tame part) :
    (first.extend (some outer) bindings).Shared part (second.extend (some outer) bindings) := by
  refine ⟨?_, ?_, ?_, ?_, ?_⟩
  · rw [size_extend, size_extend, shared.size]
  · intro id there
    rw [enclosing_extend, enclosing_extend, shared.size, shared.enclosing id there]
  · intro id there name
    rw [bindings_extend, bindings_extend, shared.size]
    split
    · rfl
    · exact shared.get? id there name
  · intro id around there link
    rw [enclosing_extend] at link
    split at link
    · cases link
      exact inside
    · exact shared.outward id around there link
  · intro id there name value found
    rw [bindings_extend] at found
    split at found
    · exact tame name value found
    · exact shared.tame id there name value found

end Store

end Lox
