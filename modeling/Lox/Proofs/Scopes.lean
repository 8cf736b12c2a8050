import Mathlib.Data.List.Find
import Lox.Scope

set_option autoImplicit false

namespace Lox

namespace Bindings

theorem get?_cons (bound name : String) (value : Value) (rest : Bindings) :
    get? ((bound, value) :: rest) name = if name = bound then some value else get? rest name := by
  unfold get?
  rw [List.lookup_cons]
  by_cases same : name = bound
  · simp only [same, beq_self_eq_true, ↓reduceIte]
  · simp only [beq_false_of_ne same, same, ↓reduceIte]

theorem mem_of_get? {bindings : Bindings} {name : String} {value : Value}
    (found : bindings.get? name = some value) : (name, value) ∈ bindings := by
  obtain ⟨before, after, rfl, _⟩ := List.lookup_eq_some_iff.mp found
  exact List.mem_append_right before List.mem_cons_self

theorem get?_set (bindings : Bindings) (name other : String) (value : Value) :
    (bindings.set name value).get? other = if other = name then some value
      else bindings.get? other := by
  induction bindings with
  | nil => rw [set, get?_cons]
  | cons entry rest ih =>
    obtain ⟨bound, old⟩ := entry
    unfold set
    by_cases same : bound = name
    · subst bound
      by_cases asked : other = name
      · simp only [get?_cons, asked, ↓reduceIte]
      · simp only [get?_cons, asked, ↓reduceIte]
    · simp only [same, ↓reduceIte, get?_cons, ih]
      by_cases asked : other = bound
      · subst other
        simp only [same, ↓reduceIte]
      · simp only [asked, ↓reduceIte]

/-- What is found after binding many names was there before, or is the value of one of them. -/
theorem get?_foldl_set {α : Type} (key : α → String) (item : α → Value) (items : List α)
    {name : String} {value : Value} : ∀ bindings : Bindings,
    (items.foldl (fun bindings i => bindings.set (key i) (item i)) bindings).get? name =
      some value → bindings.get? name = some value ∨ ∃ i ∈ items, item i = value := by
  induction items with
  | nil =>
    intro bindings found
    exact Or.inl found
  | cons first rest ih =>
    intro bindings found
    rcases ih _ found with earlier | ⟨i, member, same⟩
    · rw [get?_set] at earlier
      split at earlier
      · exact Or.inr ⟨first, List.mem_cons_self, Option.some.inj earlier⟩
      · exact Or.inl earlier
    · exact Or.inr ⟨i, List.mem_cons_of_mem _ member, same⟩

theorem has_iff (bindings : Bindings) (name : String) :
    bindings.has name = true ↔ name ∈ bindings.names := by
  unfold has
  induction bindings with
  | nil => simp [get?, names]
  | cons entry rest ih =>
    obtain ⟨bound, old⟩ := entry
    rw [get?_cons]
    by_cases same : name = bound
    · simp [same, names]
    · simp only [same, ↓reduceIte, ih]
      simp [names, same]

theorem names_set_of_has {bindings : Bindings} {name : String} (value : Value)
    (bound : bindings.has name = true) : (bindings.set name value).names = bindings.names := by
  rw [has_iff] at bound
  induction bindings with
  | nil => cases bound
  | cons entry rest ih =>
    obtain ⟨first, old⟩ := entry
    unfold set
    by_cases same : first = name
    · simp only [same, ↓reduceIte, names, List.map_cons]
    · have later : name ∈ names rest := by
        rcases List.mem_cons.mp bound with head | tail
        · exact absurd head.symm same
        · exact tail
      have tail := ih later
      simp only [same, ↓reduceIte, names, List.map_cons] at tail ⊢
      rw [tail]

theorem names_set_of_not_has {bindings : Bindings} {name : String} (value : Value)
    (unbound : ¬ bindings.has name = true) :
    (bindings.set name value).names = bindings.names ++ [name] := by
  rw [has_iff] at unbound
  induction bindings with
  | nil => rfl
  | cons entry rest ih =>
    obtain ⟨first, old⟩ := entry
    have other : first ≠ name := by
      rintro rfl
      exact unbound List.mem_cons_self
    have later := ih fun member => unbound (List.mem_cons_of_mem _ member)
    unfold set
    simp only [other, ↓reduceIte, names, List.map_cons, List.cons_append] at later ⊢
    rw [later]

/-- A name bound again keeps its place, and a new one comes last. -/
theorem names_prefix_set (bindings : Bindings) (name : String) (value : Value) :
    bindings.names <+: (bindings.set name value).names := by
  by_cases bound : bindings.has name = true
  · exact names_set_of_has value bound ▸ List.prefix_rfl
  · exact names_set_of_not_has value bound ▸ List.prefix_append _ _

def mapValues (f : Value → Value) (bindings : Bindings) : Bindings :=
  bindings.map fun bound => (bound.1, f bound.2)

theorem get?_mapValues (f : Value → Value) (bindings : Bindings) (name : String) :
    (bindings.mapValues f).get? name = (bindings.get? name).map f := by
  induction bindings with
  | nil => rfl
  | cons entry rest ih =>
    obtain ⟨bound, old⟩ := entry
    have tail : get? (mapValues f ((bound, old) :: rest)) name =
        if name = bound then some (f old) else get? (mapValues f rest) name := get?_cons _ _ _ _
    rw [tail, get?_cons, ih]
    split <;> rfl

theorem set_mapValues (f : Value → Value) (bindings : Bindings) (name : String) (value : Value) :
    (bindings.mapValues f).set name (f value) = (bindings.set name value).mapValues f := by
  induction bindings with
  | nil => rfl
  | cons entry rest ih =>
    obtain ⟨bound, old⟩ := entry
    unfold mapValues at ih ⊢
    simp only [List.map_cons, set, ih]
    split <;> rfl

end Bindings

namespace Store

variable {store after : Store} {id scope : ScopeId}

@[simp] theorem size_define (store : Store) (scope : ScopeId) (name : String) (value : Value) :
    (store.define scope name value).size = store.size := by
  simp [define, size]

@[simp] theorem enclosing_define (store : Store) (scope : ScopeId) (name : String) (value : Value)
    (id : ScopeId) : (store.define scope name value).enclosing id = store.enclosing id := by
  simp only [enclosing, define, Array.getElem?_modify]
  split
  · cases store.scopes[id]? <;> rfl
  · rfl

theorem bindings_define_self (inside : scope < store.size) (name : String) (value : Value) :
    (store.define scope name value).bindings scope = (store.bindings scope).set name value := by
  have there : scope < store.scopes.size := inside
  simp [bindings, define, there, Array.getElem_modify]

theorem bindings_define_of_ne (other : id ≠ scope) (name : String) (value : Value) :
    (store.define scope name value).bindings id = store.bindings id := by
  simp only [bindings, define, Array.getElem?_modify, other.symm, ↓reduceIte]

theorem define_of_le (outside : store.size ≤ scope) (name : String) (value : Value) :
    store.define scope name value = store := by
  have beyond : ¬ scope < store.scopes.size := Nat.not_lt.mpr outside
  simp [define, Array.modify, Array.modifyM, beyond]

theorem get?_define (store : Store) (scope id : ScopeId) (name other : String) (value : Value) :
    ((store.define scope name value).bindings id).get? other =
      if (id = scope ∧ scope < store.size) ∧ other = name then some value
      else (store.bindings id).get? other := by
  by_cases there : id = scope ∧ scope < store.size
  · obtain ⟨rfl, inside⟩ := there
    rw [bindings_define_self inside, Bindings.get?_set]
    simp only [inside, true_and]
  · have same : (store.define scope name value).bindings id = store.bindings id := by
      by_cases outside : store.size ≤ scope
      · rw [define_of_le outside]
      · apply bindings_define_of_ne
        rintro rfl
        exact there ⟨rfl, Nat.not_le.mp outside⟩
    rw [same]
    simp only [there, false_and, ↓reduceIte]

@[simp] theorem size_extend (store : Store) (outer : Option ScopeId) (bindings : Bindings) :
    (store.extend outer bindings).size = store.size + 1 := by
  simp [extend, size]

theorem enclosing_extend (store : Store) (outer : Option ScopeId) (bindings : Bindings)
    (id : ScopeId) : (store.extend outer bindings).enclosing id =
      if id = store.size then outer else store.enclosing id := by
  by_cases new : id = store.scopes.size
  · simp [extend, enclosing, size, new]
  · simp [extend, enclosing, size, new, Array.getElem?_push]

theorem bindings_extend (store : Store) (outer : Option ScopeId) (bindings : Bindings)
    (id : ScopeId) : (store.extend outer bindings).bindings id =
      if id = store.size then bindings else store.bindings id := by
  by_cases new : id = store.scopes.size
  · simp [extend, Store.bindings, size, new]
  · simp [extend, Store.bindings, size, new, Array.getElem?_push]

theorem enclosing_extend_new (store : Store) (outer : Option ScopeId) (bindings : Bindings) :
    (store.extend outer bindings).enclosing store.size = outer := by
  rw [enclosing_extend, if_pos rfl]

theorem enclosing_extend_old (inside : id < store.size) (outer : Option ScopeId)
    (bindings : Bindings) : (store.extend outer bindings).enclosing id = store.enclosing id := by
  have old : id ≠ store.size := Nat.ne_of_lt inside
  rw [enclosing_extend, if_neg old]

theorem bindings_extend_new (store : Store) (outer : Option ScopeId) (bindings : Bindings) :
    (store.extend outer bindings).bindings store.size = bindings := by
  rw [bindings_extend, if_pos rfl]

theorem bindings_extend_old (other : id ≠ store.size) (outer : Option ScopeId)
    (bindings : Bindings) : (store.extend outer bindings).bindings id = store.bindings id := by
  rw [bindings_extend, if_neg other]

theorem enclosing_of_le (outside : store.size ≤ id) : store.enclosing id = none := by
  have beyond : store.scopes.size ≤ id := outside
  simp [enclosing, beyond]

theorem bindings_of_le (outside : store.size ≤ id) : store.bindings id = [] := by
  have beyond : store.scopes.size ≤ id := outside
  simp [bindings, beyond]

theorem chain_of_none (root : store.enclosing id = none) : store.chain id = [id] := by
  rw [chain, root]

theorem chain_of_older {outer : ScopeId} (link : store.enclosing id = some outer)
    (older : outer < id) : store.chain id = id :: store.chain outer := by
  simp only [chain.eq_def store id, link, older, ↓reduceIte]

theorem chain_of_newer {outer : ScopeId} (link : store.enclosing id = some outer)
    (newer : ¬ outer < id) : store.chain id = [id] := by
  simp only [chain.eq_def store id, link, newer, ↓reduceIte]

theorem mem_chain {i : ScopeId} : i ∈ store.chain id ↔
    i = id ∨ ∃ outer, store.enclosing id = some outer ∧ outer < id ∧ i ∈ store.chain outer := by
  cases link : store.enclosing id with
  | none => simp [chain_of_none link]
  | some outer =>
    by_cases older : outer < id
    · simp [chain_of_older link older, older]
    · simp [chain_of_newer link older, older]

theorem mem_chain_self (store : Store) (id : ScopeId) : id ∈ store.chain id :=
  mem_chain.mpr (Or.inl rfl)

/-- The walk outward stays where the links do. -/
theorem chain_inside {inside : ScopeId → Prop}
    (closed : ∀ i outer, inside i → store.enclosing i = some outer → inside outer)
    (start : inside id) : ∀ i ∈ store.chain id, inside i := by
  induction id using Nat.strongRecOn with
  | _ id ih =>
    intro i member
    rcases mem_chain.mp member with rfl | ⟨outer, link, older, around⟩
    · exact start
    · exact ih outer older (closed id outer start link) i around

theorem le_of_mem_chain : ∀ i ∈ store.chain id, i ≤ id := by
  induction id using Nat.strongRecOn with
  | _ id ih =>
    intro i member
    rcases mem_chain.mp member with rfl | ⟨outer, _, older, around⟩
    · exact Nat.le_refl i
    · have further := ih outer older i around
      exact Nat.le_trans further (Nat.le_of_lt older)

theorem chain_congr (same : ∀ i ∈ store.chain id, after.enclosing i = store.enclosing i) :
    after.chain id = store.chain id := by
  induction id using Nat.strongRecOn with
  | _ id ih =>
    have here := same id (mem_chain_self store id)
    cases link : store.enclosing id with
    | none => rw [chain_of_none link, chain_of_none (here.trans link)]
    | some outer =>
      by_cases older : outer < id
      · rw [chain_of_older link older, chain_of_older (here.trans link) older]
        congr 1
        apply ih outer older
        intro i member
        exact same i (mem_chain.mpr (Or.inr ⟨outer, link, older, member⟩))
      · rw [chain_of_newer link older, chain_of_newer (here.trans link) older]

theorem resolve_eq_some {name : String} (found : store.resolve id name = some scope) :
    scope ∈ store.chain id ∧ (store.bindings scope).has name = true :=
  ⟨List.mem_of_find?_eq_some found,
    List.find?_some (p := fun scope => (store.bindings scope).has name) found⟩

theorem chain_eq_cons (store : Store) (id : ScopeId) : ∃ around, store.chain id = id :: around := by
  cases link : store.enclosing id with
  | none => exact ⟨[], chain_of_none link⟩
  | some outer =>
    by_cases older : outer < id
    · exact ⟨store.chain outer, chain_of_older link older⟩
    · exact ⟨[], chain_of_newer link older⟩

theorem resolve_of_has {name : String} (bound : (store.bindings id).has name = true) :
    store.resolve id name = some id := by
  obtain ⟨around, chain⟩ := chain_eq_cons store id
  unfold resolve
  simp only [chain, List.find?_cons, bound]

theorem resolve_outer {name : String} {outer : ScopeId}
    (unbound : ¬ (store.bindings id).has name = true) (link : store.enclosing id = some outer)
    (older : outer < id) : store.resolve id name = store.resolve outer name := by
  have absent : (store.bindings id).has name = false := Bool.not_eq_true _ ▸ unbound
  unfold resolve
  simp only [chain_of_older link older, List.find?_cons, absent]

/-- A name that a scope does not bind itself is found further out. -/
theorem resolve_of_not_has {name : String} (found : store.resolve id name = some scope)
    (unbound : ¬ (store.bindings id).has name = true) :
    ∃ outer, store.enclosing id = some outer ∧ outer < id ∧
      store.resolve outer name = some scope := by
  obtain ⟨member, bound⟩ := resolve_eq_some found
  rcases mem_chain.mp member with rfl | ⟨outer, link, older, _⟩
  · exact absurd bound unbound
  · rw [resolve_outer unbound link older] at found
    exact ⟨outer, link, older, found⟩

/-- Only what the scopes of the chain bind decides where a name is found. -/
theorem resolve_congr {name : String} (chains : after.chain id = store.chain id)
    (same : ∀ i ∈ store.chain id, (after.bindings i).has name = (store.bindings i).has name) :
    after.resolve id name = store.resolve id name := by
  unfold resolve
  rw [chains]
  exact List.find?_congr same

theorem lt_size_of_has {name : String} (bound : (store.bindings id).has name = true) :
    id < store.size := by
  apply Nat.lt_of_not_le
  intro outside
  rw [bindings_of_le outside] at bound
  cases bound

/-- All that is bound in a store is such a value. -/
def Binds (good : Value → Prop) (store : Store) : Prop :=
  ∀ id name value, (store.bindings id).get? name = some value → good value

theorem binds_of_all {good : Value → Bool} (all : store.scopes.all (fun scope =>
    scope.bindings.all fun bound => good bound.2) = true) :
    store.Binds fun value => good value = true := by
  intro id name value found
  unfold bindings at found
  cases there : store.scopes[id]? with
  | none =>
    rw [there] at found
    cases found
  | some scope =>
    rw [there] at found
    obtain ⟨inside, same⟩ := Array.getElem?_eq_some_iff.mp there
    have known := List.all_eq_true.mp (same ▸ Array.all_eq_true.mp all id inside)
    exact known (name, value) (Bindings.mem_of_get? found)

theorem Binds.get? {good : Value → Prop} (all : store.Binds good) {name : String} {value : Value}
    (found : store.get? id name = some value) : good value := by
  unfold Store.get? at found
  obtain ⟨scope, _, bound⟩ := Option.bind_eq_some_iff.mp found
  exact all scope name value bound

theorem Binds.define {good : Value → Prop} (all : store.Binds good) (scope : ScopeId)
    (name : String) {value : Value} (known : good value) :
    (store.define scope name value).Binds good := by
  intro id other stored found
  rw [get?_define] at found
  split at found
  · cases found
    exact known
  · exact all id other stored found

theorem Binds.extend {good : Value → Prop} (all : store.Binds good) (outer : Option ScopeId)
    {bindings : Bindings} (known : ∀ name value, bindings.get? name = some value → good value) :
    (store.extend outer bindings).Binds good := by
  intro id name value found
  rw [bindings_extend] at found
  split at found
  · exact known name value found
  · exact all id name value found

def mapValues (f : Value → Value) (store : Store) : Store :=
  ⟨store.scopes.map fun scope => { scope with bindings := scope.bindings.mapValues f }⟩

section MapValues

variable (f : Value → Value) (store : Store)

@[simp] theorem size_mapValues : (store.mapValues f).size = store.size := by
  simp [mapValues, size]

@[simp] theorem enclosing_mapValues (id : ScopeId) :
    (store.mapValues f).enclosing id = store.enclosing id := by
  simp only [mapValues, enclosing, Array.getElem?_map]
  cases store.scopes[id]? <;> rfl

@[simp] theorem bindings_mapValues (id : ScopeId) :
    (store.mapValues f).bindings id = (store.bindings id).mapValues f := by
  simp only [mapValues, bindings, Array.getElem?_map]
  cases store.scopes[id]? <;> rfl

@[simp] theorem chain_mapValues (id : ScopeId) : (store.mapValues f).chain id = store.chain id :=
  chain_congr fun i _ => enclosing_mapValues f store i

@[simp] theorem depth_mapValues (id : ScopeId) : (store.mapValues f).depth id = store.depth id := by
  unfold depth
  rw [chain_mapValues]

@[simp] theorem resolve_mapValues (id : ScopeId) (name : String) :
    (store.mapValues f).resolve id name = store.resolve id name := by
  apply resolve_congr (chain_mapValues f store id)
  intro i _
  rw [bindings_mapValues, Bindings.has, Bindings.has, Bindings.get?_mapValues, Option.isSome_map]

theorem get?_mapValues (id : ScopeId) (name : String) :
    (store.mapValues f).get? id name = (store.get? id name).map f := by
  unfold Store.get?
  rw [resolve_mapValues]
  cases store.resolve id name with
  | none => rfl
  | some scope =>
    simp only [Option.bind_some, bindings_mapValues]
    exact Bindings.get?_mapValues f _ name

theorem define_mapValues (scope : ScopeId) (name : String) (value : Value) :
    (store.mapValues f).define scope name (f value) =
      (store.define scope name value).mapValues f := by
  unfold define mapValues
  congr 1
  apply Array.ext_getElem?
  intro i
  simp only [Array.getElem?_modify, Array.getElem?_map]
  by_cases here : scope = i
  · simp only [here, ↓reduceIte, Option.map_map, Function.comp_def, Bindings.set_mapValues]
  · simp only [here, ↓reduceIte]

theorem extend_mapValues (outer : Option ScopeId) (bindings : Bindings) :
    (store.mapValues f).extend outer (bindings.mapValues f) =
      (store.extend outer bindings).mapValues f := by
  simp only [extend, mapValues, Array.map_push]

end MapValues

end Store

end Lox
