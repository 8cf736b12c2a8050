import Mathlib.Data.Fin.Tuple.Sort
import Lox.Proofs.Moved
import Lox.Proofs.Outcome
import Lox.Proofs.Scopes

set_option autoImplicit false

namespace Lox

namespace Bindings

theorem names_set (bindings : Bindings) (name : String) (value : Value) :
    (bindings.set name value).names =
      if bindings.has name then bindings.names else bindings.names ++ [name] := by
  split
  · exact names_set_of_has value ‹_›
  · exact names_set_of_not_has value ‹_›

theorem has_set (bindings : Bindings) (name other : String) (value : Value) :
    (bindings.set name value).has other = (other == name || bindings.has other) := by
  unfold has
  rw [get?_set]
  by_cases same : other = name
  · simp only [same, ↓reduceIte, Option.isSome_some, beq_self_eq_true, Bool.true_or]
  · simp only [same, ↓reduceIte, beq_false_of_ne same, Bool.false_or]

end Bindings

namespace Store

/-- Scopes lie inside older ones, as they do if each is made inside one that there is. Any scopes
whose links do not go round in a circle can be put at such places (`Acyclic.exists_layered`). -/
def Layered (store : Store) : Prop :=
  ∀ id outer, store.enclosing id = some outer → outer < id

def Inside (store : Store) (inner outer : ScopeId) : Prop :=
  store.enclosing inner = some outer

/-- All scopes around others are there, and no way outward comes back to where it began. -/
structure Acyclic (store : Store) : Prop where
  there : ∀ id outer, store.enclosing id = some outer → outer < store.size
  onward : ∀ id, ¬ Relation.TransGen store.Inside id id

structure Renumbered (store : Store) (place : Equiv.Perm ScopeId) (twin : Store) : Prop where
  size : twin.size = store.size
  enclosing : ∀ id, twin.enclosing (place id) = (store.enclosing id).map place
  bindings : ∀ id, twin.bindings (place id) = (store.bindings id).mapValues (Value.moved place)

def permuted (store : Store) (place : Equiv.Perm ScopeId) : Store :=
  ⟨Array.ofFn fun p : Fin store.size => ⟨(store.enclosing (place.symm p)).map place,
    (store.bindings (place.symm p)).mapValues (Value.moved place)⟩⟩

variable {store : Store}

theorem renumbered_permuted {place : Equiv.Perm ScopeId}
    (keeps : ∀ id, place id < store.size ↔ id < store.size) :
    store.Renumbered place (store.permuted place) := by
  have size : (store.permuted place).size = store.size := Array.size_ofFn
  refine ⟨size, ?_, ?_⟩
  · intro id
    by_cases known : id < store.size
    · have spot := (keeps id).mpr known
      simp [Store.enclosing, permuted, spot]
    · have beyond : store.size ≤ place id := Nat.not_lt.mp (mt (keeps id).mp known)
      rw [enclosing_of_le (size ▸ beyond), enclosing_of_le (Nat.not_lt.mp known)]
      rfl
  · intro id
    by_cases known : id < store.size
    · have spot := (keeps id).mpr known
      simp [Store.bindings, permuted, spot]
    · have beyond : store.size ≤ place id := Nat.not_lt.mp (mt (keeps id).mp known)
      rw [bindings_of_le (size ▸ beyond), bindings_of_le (Nat.not_lt.mp known)]
      rfl

open Classical in
noncomputable def around (store : Store) (id : ScopeId) : Nat :=
  ((Finset.range store.size).filter (Relation.TransGen store.Inside id)).card

theorem Acyclic.around_lt (acyclic : store.Acyclic) {inner outer : ScopeId}
    (inside : store.Inside inner outer) : store.around outer < store.around inner := by
  classical
  apply Finset.card_lt_card
  rw [Finset.ssubset_iff_of_subset]
  · refine ⟨outer, ?_, fun member => acyclic.onward outer (Finset.mem_filter.mp member).2⟩
    exact Finset.mem_filter.mpr ⟨Finset.mem_range.mpr (acyclic.there _ _ inside), .single inside⟩
  · intro scope member
    obtain ⟨known, outside⟩ := Finset.mem_filter.mp member
    exact Finset.mem_filter.mpr ⟨known, outside.head inside⟩

noncomputable def outermostFirst (store : Store) : Equiv.Perm ScopeId :=
  Equiv.Perm.extendDomain (Tuple.sort fun p : Fin store.size => store.around p).symm
    Fin.equivSubtype

theorem outermostFirst_of_lt (p : Fin store.size) :
    store.outermostFirst p = (Tuple.sort fun p : Fin store.size => store.around p).symm p :=
  Equiv.Perm.extendDomain_apply_image _ Fin.equivSubtype p

theorem outermostFirst_of_le {id : ScopeId} (beyond : store.size ≤ id) :
    store.outermostFirst id = id :=
  Equiv.Perm.extendDomain_apply_not_subtype _ Fin.equivSubtype (Nat.not_lt.mpr beyond)

theorem outermostFirst_lt_iff (id : ScopeId) :
    store.outermostFirst id < store.size ↔ id < store.size := by
  by_cases known : id < store.size
  · rw [outermostFirst_of_lt ⟨id, known⟩]
    exact iff_of_true (Fin.isLt _) known
  · rw [outermostFirst_of_le (Nat.not_lt.mp known)]

theorem Acyclic.outermostFirst_lt (acyclic : store.Acyclic) {inner outer : ScopeId}
    (inside : store.Inside inner outer) :
    store.outermostFirst outer < store.outermostFirst inner := by
  have known : inner < store.size := by
    by_contra beyond
    cases (enclosing_of_le (Nat.not_lt.mp beyond)).symm.trans inside
  have less := acyclic.around_lt inside
  rw [outermostFirst_of_lt ⟨inner, known⟩, outermostFirst_of_lt ⟨outer, acyclic.there _ _ inside⟩]
  by_contra later
  have more := Tuple.monotone_sort (fun p : Fin store.size => store.around p) (Fin.not_lt.mp later)
  simp only [Function.comp_apply, Equiv.apply_symm_apply] at more
  exact absurd less (Nat.not_lt.mpr more)

/-- Scopes whose links lead round in no circle are layered, up to the places that they have. -/
theorem Acyclic.exists_layered (acyclic : store.Acyclic) :
    ∃ place twin, store.Renumbered place twin ∧ twin.Layered := by
  have same : store.Renumbered _ (store.permuted _) := renumbered_permuted outermostFirst_lt_iff
  refine ⟨store.outermostFirst, _, same, ?_⟩
  intro spot outer link
  obtain ⟨id, rfl⟩ := store.outermostFirst.surjective spot
  rw [same.enclosing] at link
  obtain ⟨around, inside, rfl⟩ := Option.map_eq_some_iff.mp link
  exact acyclic.outermostFirst_lt inside

/-- Looking a name up from a scope, one comes to another before any that binds the name. -/
def Passes (store : Store) (id : ScopeId) (name : String) (scope : ScopeId) : Prop :=
  ∃ nearer further, store.chain id = nearer ++ scope :: further ∧
    ∀ i ∈ nearer, (store.bindings i).has name = false

def Nearest (store : Store) (id : ScopeId) (name : String) (scope : ScopeId) : Prop :=
  store.Passes id name scope ∧ (store.bindings scope).has name = true

variable {id scope : ScopeId} {name : String}

/-- The chain is the whole walk outward. -/
theorem Layered.chain (layered : store.Layered) (id : ScopeId) :
    store.chain id = id :: ((store.enclosing id).map store.chain).getD [] := by
  cases link : store.enclosing id with
  | none => exact chain_of_none link
  | some outer => exact chain_of_older link (layered id outer link)

theorem nearest_iff : store.Nearest id name scope ↔ store.resolve id name = some scope := by
  unfold Nearest Passes resolve
  rw [List.find?_eq_some_iff_append]
  simp only [Bool.not_eq_eq_eq_not, Bool.not_true]
  constructor
  · rintro ⟨⟨nearer, further, chain, unbound⟩, bound⟩
    exact ⟨bound, nearer, further, chain, unbound⟩
  · rintro ⟨bound, nearer, further, chain, unbound⟩
    exact ⟨⟨nearer, further, chain, unbound⟩, bound⟩

/-- A name is found in the nearest scope that binds it. -/
theorem get?_of_nearest (nearest : store.Nearest id name scope) :
    ∃ value, (store.bindings scope).get? name = some value ∧ store.get? id name = some value := by
  obtain ⟨value, found⟩ := Option.isSome_iff_exists.mp nearest.2
  refine ⟨value, found, ?_⟩
  unfold get?
  rw [nearest_iff.mp nearest]
  exact found

theorem contains_iff : store.contains id name = true ↔ ∃ scope, store.Nearest id name scope := by
  unfold contains
  rw [Option.isSome_iff_exists]
  simp only [nearest_iff]

/-- In the second store a scope binds a name to a value, and nothing else is new: each other binding
and each link is as it was, and the name is seen anew from where one comes to the scope. -/
structure Rebound (store after : Store) (scope : ScopeId) (name : String) (value : Value) :
    Prop where
  size : after.size = store.size
  links : ∀ id, after.enclosing id = store.enclosing id
  elsewhere : ∀ id, id ≠ scope → after.bindings id = store.bindings id
  names : (after.bindings scope).names = if (store.bindings scope).has name
    then (store.bindings scope).names else (store.bindings scope).names ++ [name]
  written : (after.bindings scope).get? name = some value
  others : ∀ other, other ≠ name →
    (after.bindings scope).get? other = (store.bindings scope).get? other
  seen : ∀ id, store.Passes id name scope → after.get? id name = some value
  unseen : ∀ id other, ¬ (other = name ∧ store.Passes id name scope) →
    after.get? id other = store.get? id other

/-- Where a name is already bound, binding it anew adds no name. -/
theorem Rebound.names_eq {after : Store} {value : Value}
    (rebound : store.Rebound after scope name value)
    (bound : (store.bindings scope).has name = true) (id : ScopeId) :
    (after.bindings id).names = (store.bindings id).names := by
  by_cases there : id = scope
  · subst there
    rw [rebound.names, if_pos bound]
  · rw [rebound.elsewhere id there]

/-- Further out all scopes are older. -/
theorem chain_pairwise (store : Store) (id : ScopeId) :
    (store.chain id).Pairwise fun inner outer => outer < inner := by
  induction id using Nat.strongRecOn with
  | _ id ih =>
    cases link : store.enclosing id with
    | none =>
      rw [chain_of_none link]
      exact List.pairwise_singleton _ _
    | some outer =>
      by_cases older : outer < id
      · rw [chain_of_older link older]
        refine List.pairwise_cons.mpr ⟨?_, ih outer older⟩
        intro i around
        exact Nat.lt_of_le_of_lt (le_of_mem_chain i around) older
      · rw [chain_of_newer link older]
        exact List.pairwise_singleton _ _

/-- A scope is on a chain only once. -/
theorem ne_of_nearer {nearer further : List ScopeId}
    (split : store.chain id = nearer ++ scope :: further) : ∀ i ∈ nearer, i ≠ scope := by
  have sorted := chain_pairwise store id
  rw [split, List.pairwise_append] at sorted
  intro i member
  exact Nat.ne_of_gt (sorted.2.2 i member scope List.mem_cons_self)

section Define

variable (inside : scope < store.size) (value : Value)

include inside

theorem has_define (id : ScopeId) (other : String) :
    ((store.define scope name value).bindings id).has other =
      (id == scope && other == name || (store.bindings id).has other) := by
  by_cases there : id = scope
  · subst there
    rw [bindings_define_self inside, Bindings.has_set, beq_self_eq_true, Bool.true_and]
  · rw [bindings_define_of_ne there, beq_false_of_ne there, Bool.false_and, Bool.false_or]

theorem resolve_define_of_passes (passes : store.Passes id name scope) :
    (store.define scope name value).resolve id name = some scope := by
  obtain ⟨nearer, further, split, unbound⟩ := passes
  apply nearest_iff.mp
  refine ⟨⟨nearer, further, ?_, ?_⟩, ?_⟩
  · rw [← split]
    exact chain_congr fun i _ => enclosing_define store scope name value i
  · intro i member
    have apart := ne_of_nearer split i member
    rw [has_define inside, unbound i member, beq_false_of_ne apart]
    rfl
  · rw [has_define inside, beq_self_eq_true, beq_self_eq_true]
    rfl

theorem resolve_define_of_not_passes {other : String}
    (apart : ¬ (other = name ∧ store.Passes id name scope)) :
    (store.define scope name value).resolve id other = store.resolve id other := by
  have chain : (store.define scope name value).chain id = store.chain id :=
    chain_congr fun i _ => enclosing_define store scope name value i
  by_cases same : other = name
  · subst same
    by_cases around : scope ∈ store.chain id
    · -- Some nearer scope binds the name, so the walk ends before it comes to the written one.
      obtain ⟨nearer, further, split⟩ := List.append_of_mem around
      have bound : ∃ i ∈ nearer, (store.bindings i).has other = true := by
        by_contra unbound
        refine apart ⟨rfl, nearer, further, split, ?_⟩
        intro i member
        exact Bool.eq_false_iff.mpr fun has => unbound ⟨i, member, has⟩
      have untouched : nearer.find? (fun i =>
          ((store.define scope other value).bindings i).has other) =
          nearer.find? fun i => (store.bindings i).has other := by
        apply List.find?_congr
        intro i member
        rw [bindings_define_of_ne (ne_of_nearer split i member)]
      obtain ⟨first, found⟩ := Option.isSome_iff_exists.mp (List.find?_isSome.mpr bound)
      unfold resolve
      rw [chain, split, List.find?_append, List.find?_append, untouched, found]
      rfl
    · apply resolve_congr chain
      intro i member
      have away : i ≠ scope := by
        rintro rfl
        exact around member
      rw [bindings_define_of_ne away]
  · apply resolve_congr chain
    intro i _
    rw [has_define inside, beq_false_of_ne same, Bool.and_false, Bool.false_or]

/-- All that a definition changes. -/
theorem rebound_define : store.Rebound (store.define scope name value) scope name value := by
  refine ⟨size_define .., enclosing_define store scope name value, ?_, ?_, ?_, ?_, ?_, ?_⟩
  · intro id away
    exact bindings_define_of_ne away name value
  · rw [bindings_define_self inside, Bindings.names_set]
  · rw [bindings_define_self inside, Bindings.get?_set, if_pos rfl]
  · intro other away
    rw [bindings_define_self inside, Bindings.get?_set, if_neg away]
  · intro id passes
    unfold get?
    rw [resolve_define_of_passes inside value passes, Option.bind_some, get?_define,
      if_pos ⟨⟨rfl, inside⟩, rfl⟩]
  · intro id other apart
    unfold get?
    rw [resolve_define_of_not_passes inside value apart]
    cases found : store.resolve id other with
    | none => rfl
    | some nearest =>
      have unwritten : ¬ ((nearest = scope ∧ scope < store.size) ∧ other = name) := by
        rintro ⟨⟨rfl, _⟩, rfl⟩
        exact apart ⟨rfl, (nearest_iff.mpr found).1⟩
      rw [Option.bind_some, Option.bind_some, get?_define, if_neg unwritten]

end Define

theorem assign?_of_nearest (nearest : store.Nearest id name scope) (value : Value) :
    store.assign? id name value = some (store.define scope name value) := by
  unfold assign?
  rw [nearest_iff.mp nearest]

/-- All that an assignment changes: the nearest binding, and what is seen of it. -/
theorem rebound_assign (nearest : store.Nearest id name scope) (value : Value) {after : Store}
    (same : after = store.define scope name value) :
    store.Rebound after scope name value ∧
      (∀ id, (after.bindings id).names = (store.bindings id).names) ∧
      (∀ id, store.Nearest id name scope → after.get? id name = some value) ∧
      (∀ id other, ¬ (other = name ∧ store.Nearest id name scope) →
        after.get? id other = store.get? id other) := by
  subst same
  have rebound : store.Rebound (store.define scope name value) scope name value :=
    rebound_define (lt_size_of_has nearest.2) value
  refine ⟨rebound, rebound.names_eq nearest.2, ?_, ?_⟩
  · intro id seen
    exact rebound.seen id seen.1
  · intro id other apart
    apply rebound.unseen id other
    rintro ⟨asked, passes⟩
    exact apart ⟨asked, passes, nearest.2⟩

end Store

namespace Run

variable {state : State} {name : Token} {scope : ScopeId}

theorem lookUp_of_unbound (unbound : state.store.contains state.current name.lexeme = false) :
    lookUp name state = .fault ⟨name, .undefinedVariable name.lexeme⟩ state := by
  unfold Store.contains at unbound
  unfold lookUp Store.get?
  rw [Option.isNone_iff_eq_none.mp (Option.isSome_eq_false_iff.mp unbound)]
  rfl

theorem assign_of_unbound (unbound : state.store.contains state.current name.lexeme = false)
    (value : Value) :
    assign name value state = .fault ⟨name, .undefinedVariable name.lexeme⟩ state := by
  unfold Store.contains at unbound
  unfold assign
  rw [Option.isNone_iff_eq_none.mp (Option.isSome_eq_false_iff.mp unbound)]

theorem lookUp_of_nearest (nearest : state.store.Nearest state.current name.lexeme scope) :
    ∃ value, (state.store.bindings scope).get? name.lexeme = some value ∧
      lookUp name state = .done value state := by
  obtain ⟨value, bound, found⟩ := Store.get?_of_nearest nearest
  refine ⟨value, bound, ?_⟩
  unfold lookUp
  rw [found]

theorem assign_of_nearest (nearest : state.store.Nearest state.current name.lexeme scope)
    (value : Value) : assign name value state =
      .done () { state with store := state.store.define scope name.lexeme value } := by
  unfold assign
  rw [Store.nearest_iff.mp nearest]

end Run

namespace State

/-- Reading a name, overwriting it and asking whether it is bound agree from every scope, whatever
scopes share. An assignment rebinds the name in the nearest scope that binds it and adds no name; a
definition rebinds it in the scope itself; and a name that is bound nowhere is refused, which
changes nothing. -/
theorem scope_laws (state : State) (layered : state.store.Layered)
    (inside : state.current < state.store.size) (name : Token) (value : Value) :
    (∀ id, state.store.chain id =
      id :: ((state.store.enclosing id).map state.store.chain).getD []) ∧
    ((∃ found, Run.lookUp name state = .done found state) ↔
      state.store.contains state.current name.lexeme = true) ∧
    ((∃ after, Run.assign name value state = .done () after) ↔
      state.store.contains state.current name.lexeme = true) ∧
    (state.store.contains state.current name.lexeme = true →
      ∃ scope found after, state.store.Nearest state.current name.lexeme scope ∧
        (state.store.bindings scope).get? name.lexeme = some found ∧
        Run.lookUp name state = .done found state ∧
        state.store.assign? state.current name.lexeme value = some after ∧
        Run.assign name value state = .done () { state with store := after } ∧
        state.store.Rebound after scope name.lexeme value ∧
        (∀ id, (after.bindings id).names = (state.store.bindings id).names) ∧
        (∀ id, state.store.Nearest id name.lexeme scope →
          after.get? id name.lexeme = some value) ∧
        (∀ id other, ¬ (other = name.lexeme ∧ state.store.Nearest id name.lexeme scope) →
          after.get? id other = state.store.get? id other) ∧
        ∀ id, state.store.get? id name.lexeme ≠ some value →
          (after.get? id name.lexeme = some value ↔
            state.store.Nearest id name.lexeme scope)) ∧
    (state.store.contains state.current name.lexeme = false →
      Run.lookUp name state = .fault ⟨name, .undefinedVariable name.lexeme⟩ state ∧
      Run.assign name value state = .fault ⟨name, .undefinedVariable name.lexeme⟩ state) ∧
    ∃ after, Run.define name value state = .done () { state with store := after } ∧
      state.store.Rebound after state.current name.lexeme value := by
  refine ⟨layered.chain, ?_, ?_, ?_, ?_, ?_⟩
  · constructor
    · rintro ⟨found, done⟩
      by_contra unbound
      rw [Run.lookUp_of_unbound (Bool.not_eq_true _ ▸ unbound)] at done
      cases done
    · intro bound
      obtain ⟨scope, nearest⟩ := Store.contains_iff.mp bound
      obtain ⟨found, _, done⟩ := Run.lookUp_of_nearest nearest
      exact ⟨found, done⟩
  · constructor
    · rintro ⟨after, done⟩
      by_contra unbound
      rw [Run.assign_of_unbound (Bool.not_eq_true _ ▸ unbound)] at done
      cases done
    · intro bound
      obtain ⟨scope, nearest⟩ := Store.contains_iff.mp bound
      exact ⟨_, Run.assign_of_nearest nearest value⟩
  · intro bound
    obtain ⟨scope, nearest⟩ := Store.contains_iff.mp bound
    obtain ⟨found, stored, done⟩ := Run.lookUp_of_nearest nearest
    obtain ⟨rebound, names, seen, unseen⟩ := Store.rebound_assign nearest value rfl
    refine ⟨scope, found, _, nearest, stored, done, Store.assign?_of_nearest nearest value,
      Run.assign_of_nearest nearest value, rebound, names, seen, unseen, ?_⟩
    intro id unlike
    refine ⟨?_, seen id⟩
    intro reads
    by_contra apart
    rw [unseen id name.lexeme fun both => apart both.2] at reads
    exact unlike reads
  · intro unbound
    exact ⟨Run.lookUp_of_unbound unbound, Run.assign_of_unbound unbound value⟩
  · exact ⟨_, rfl, Store.rebound_define inside value⟩

/-- A name bound outside and again on one branch, seen from the other one. -/
def branching : State :=
  let outer : Scope := ⟨none, [("x", .bool true), ("y", .nil)]⟩
  let shadowing : Scope := ⟨some 0, [("x", .nil)]⟩
  let beside : Scope := ⟨some 0, [("z", .nil)]⟩
  let inner : Scope := ⟨some 2, []⟩
  let below : Scope := ⟨some 1, []⟩
  ⟨⟨#[outer, shadowing, beside, inner, below]⟩, 3, 0, #[], 0⟩

theorem branching_layered : branching.store.Layered := by
  intro id outer link
  match id with
  | 0 => cases link
  | 1 | 2 | 3 | 4 =>
    cases link
    decide
  | _ + 5 => cases link

theorem scope_laws_branching :
    let name : Token := .plain .identifier "x" 1
    branching.store.Layered ∧ branching.current < branching.store.size ∧
    branching.store.contains branching.current "x" = true ∧
    ∃ after : Store, Run.assign name (.text "new") branching =
      .done () { branching with store := after } ∧
      after.get? 2 "x" = some (.text "new") ∧ after.get? 4 "x" = some .nil := by
  intro name
  have inside : branching.current < branching.store.size := by decide
  have bound : branching.store.contains branching.current "x" = true := by decide +kernel
  obtain ⟨_, _, _, assigns, _⟩ := scope_laws branching branching_layered inside name (.text "new")
  obtain ⟨scope, _, after, nearest, _, _, _, done, _, _, seen, unseen, _⟩ := assigns bound
  have outermost : scope = 0 := by
    have resolved := Store.nearest_iff.mp nearest
    have known : branching.store.resolve branching.current "x" = some 0 := by decide +kernel
    exact Option.some.inj (resolved.symm.trans known)
  subst outermost
  have fromTwo : branching.store.resolve 2 "x" = some 0 := by decide +kernel
  have fromFour : branching.store.resolve 4 "x" = some 1 := by decide +kernel
  refine ⟨branching_layered, inside, bound, after, done, seen 2 (Store.nearest_iff.mpr fromTwo), ?_⟩
  rw [unseen 4 "x"]
  · unfold Store.get?
    rw [fromFour]
    rfl
  · rintro ⟨_, shared⟩
    have outer : branching.store.resolve 4 "x" = some 0 := Store.nearest_iff.mp shared
    cases outer.symm.trans fromFour

end State

end Lox
