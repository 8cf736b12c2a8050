import Mathlib.Order.Monotone.Basic
import Lox.Proofs.Growth
import Lox.Proofs.Moved

set_option autoImplicit false

namespace Lox

/-- Two walks outward. The second goes through the same scopes, and through some that only the
second store has. -/
inductive Woven (f : ScopeId → ScopeId) : List ScopeId → List ScopeId → Prop
  | nil : Woven f [] []
  | both {id : ScopeId} {ids places : List ScopeId} (further : Woven f ids places) :
      Woven f (id :: ids) (f id :: places)
  | extra {place : ScopeId} {ids places : List ScopeId} (spare : ∀ id, f id ≠ place)
      (further : Woven f ids places) : Woven f ids (place :: places)

namespace Woven

variable {f g : ScopeId → ScopeId} {ids places : List ScopeId}

/-- Where a test fails on the spare scopes, and answers alike on the others, both walks end at the
same scope. -/
theorem find? (woven : Woven f ids places) {test check : ScopeId → Bool}
    (same : ∀ id, check (f id) = test id)
    (passed : ∀ place, (∀ id, f id ≠ place) → check place = false) :
    places.find? check = (ids.find? test).map f := by
  induction woven with
  | nil => rfl
  | @both id _ _ _ ih =>
    rw [List.find?_cons, List.find?_cons, same]
    cases test id with
    | true => rfl
    | false => exact ih
  | extra spare _ ih =>
    rw [List.find?_cons, passed _ spare]
    exact ih

theorem congr (woven : Woven f ids places) (same : ∀ id ∈ ids, g id = f id)
    (spared : ∀ place ∈ places, (∀ id, f id ≠ place) → ∀ id, g id ≠ place) :
    Woven g ids places := by
  induction woven with
  | nil => exact .nil
  | both _ ih =>
    have rest := ih (fun id member => same id (List.mem_cons_of_mem _ member))
      fun place member => spared place (List.mem_cons_of_mem _ member)
    rw [← same _ List.mem_cons_self]
    exact .both rest
  | extra spare _ ih =>
    have rest := ih same fun place member => spared place (List.mem_cons_of_mem _ member)
    exact .extra (spared _ List.mem_cons_self spare) rest

theorem refl : ∀ ids : List ScopeId, Woven id ids ids
  | [] => .nil
  | _ :: ids => .both (refl ids)

end Woven

namespace Store

/-- The second store has every scope of the first at the place that the map tells, with the same
bindings but for the places of scopes, and besides those only scopes that bind nothing. The first
`base` places are the same, and functions among the literals of what is stored are from there. -/
structure Padded (base : Nat) (f : ScopeId → ScopeId) (store padded : Store) : Prop where
  ordered : StrictMono f
  fixed : ∀ id < base, f id = id
  old : base ≤ store.size
  next : ∀ count, f (store.size + count) = padded.size + count
  bindings : ∀ id, padded.bindings (f id) = (store.bindings id).mapValues (Value.moved f)
  empty : ∀ place, (∀ id, f id ≠ place) → padded.bindings place = []
  chains : ∀ id < store.size, Woven f (store.chain id) (padded.chain (f id))
  within : ∀ id, ∀ bound ∈ store.bindings id, bound.2.Within base store.size

/-- Seen from the one place in the one store and from the other in the other, the same scopes are
around. -/
structure Stands (f : ScopeId → ScopeId) (store padded : Store) (here there : ScopeId) : Prop where
  inside : here < store.size
  insidePadded : there < padded.size
  woven : Woven f (store.chain here) (padded.chain there)

variable {base : Nat} {f : ScopeId → ScopeId} {store padded after afterPadded : Store}
  {here there id : ScopeId} {name : String} {value : Value}

/-- Time does not change what is around. -/
theorem Stands.later (stands : Stands f store padded here there) (evolves : store.Evolves after)
    (evolvesPadded : padded.Evolves afterPadded) : Stands f after afterPadded here there := by
  refine ⟨Nat.lt_of_lt_of_le stands.inside evolves.size,
    Nat.lt_of_lt_of_le stands.insidePadded evolvesPadded.size, ?_⟩
  rw [evolves.chain stands.inside, evolvesPadded.chain stands.insidePadded]
  exact stands.woven

namespace Padded

variable (padding : Padded base f store padded)

include padding

theorem size_eq : f store.size = padded.size :=
  padding.next 0

theorem lt_size_iff : f id < padded.size ↔ id < store.size := by
  rw [← padding.size_eq]
  exact padding.ordered.lt_iff_lt

/-- From the same scope the same scopes are around. -/
theorem stands (inside : id < store.size) : Stands f store padded id (f id) :=
  ⟨inside, padding.lt_size_iff.mpr inside, padding.chains id inside⟩

theorem has (id : ScopeId) (name : String) :
    (padded.bindings (f id)).has name = (store.bindings id).has name := by
  rw [padding.bindings, Bindings.has, Bindings.has, Bindings.get?_mapValues, Option.isSome_map]

theorem resolve (stands : Stands f store padded here there) (name : String) :
    padded.resolve there name = (store.resolve here name).map f := by
  apply stands.woven.find?
  · intro id
    exact padding.has id name
  · intro place spare
    rw [padding.empty place spare]
    rfl

theorem get? (stands : Stands f store padded here there) (name : String) :
    padded.get? there name = (store.get? here name).map (Value.moved f) := by
  unfold Store.get?
  rw [padding.resolve stands]
  cases store.resolve here name with
  | none => rfl
  | some scope =>
    rw [Option.map_some, Option.bind_some, Option.bind_some, padding.bindings,
      Bindings.get?_mapValues]

theorem within_of_get? (found : store.get? here name = some value) :
    value.Within base store.size := by
  unfold Store.get? at found
  obtain ⟨scope, _, bound⟩ := Option.bind_eq_some_iff.mp found
  exact padding.within scope _ (Bindings.mem_of_get? bound)

theorem define (inside : id < store.size) (name : String) (within : value.Within base store.size) :
    Padded base f (store.define id name value) (padded.define (f id) name (value.moved f)) := by
  have place := padding.lt_size_iff.mpr inside
  refine ⟨padding.ordered, padding.fixed, ?_, ?_, ?_, ?_, ?_, ?_⟩
  · rw [size_define]
    exact padding.old
  · intro count
    rw [size_define, size_define]
    exact padding.next count
  · intro other
    by_cases same : other = id
    · subst same
      rw [bindings_define_self place, bindings_define_self inside, padding.bindings,
        Bindings.set_mapValues]
    · have apart : f other ≠ f id := padding.ordered.injective.ne same
      rw [bindings_define_of_ne apart, bindings_define_of_ne same, padding.bindings]
  · intro place spare
    rw [bindings_define_of_ne (spare id).symm]
    exact padding.empty place spare
  · intro other known
    rw [size_define] at known
    have evolves := Evolves.define store id name value
    have evolvesPadded := Evolves.define padded (f id) name (value.moved f)
    exact ((padding.stands known).later evolves evolvesPadded).woven
  · intro other bound member
    rw [size_define]
    by_cases same : other = id
    · subst same
      rw [bindings_define_self inside] at member
      rcases Bindings.mem_set member with old | new
      · exact padding.within other bound old
      · rw [new]
        exact within
    · rw [bindings_define_of_ne same] at member
      exact padding.within other bound member

/-- Scopes opened on both sides are the same, if the same scopes are around them. -/
theorem extend (stands : Stands f store padded here there) {bindings : Bindings}
    (within : ∀ bound ∈ bindings, bound.2.Within base store.size) :
    Padded base f (store.extend (some here) bindings)
      (padded.extend (some there) (bindings.mapValues (Value.moved f))) := by
  have more : store.size ≤ store.size + 1 := Nat.le_succ _
  refine ⟨padding.ordered, padding.fixed, ?_, ?_, ?_, ?_, ?_, ?_⟩
  · rw [size_extend]
    exact Nat.le_trans padding.old more
  · intro count
    rw [size_extend, size_extend, Nat.add_assoc, Nat.add_assoc]
    exact padding.next (1 + count)
  · intro id
    by_cases new : id = store.size
    · rw [new, padding.size_eq, bindings_extend_new, bindings_extend_new]
    · have other : f id ≠ padded.size := by
        rw [← padding.size_eq]
        exact padding.ordered.injective.ne new
      rw [bindings_extend_old other, bindings_extend_old new, padding.bindings]
  · intro place spare
    have other : place ≠ padded.size := by
      rw [← padding.size_eq]
      exact (spare store.size).symm
    rw [bindings_extend_old other]
    exact padding.empty place spare
  · intro id inside
    have evolves := Evolves.extend store (some here) bindings
    have evolvesPadded := Evolves.extend padded (some there) (bindings.mapValues (Value.moved f))
    rw [size_extend] at inside
    rcases Nat.lt_succ_iff_lt_or_eq.mp inside with known | rfl
    · exact ((padding.stands known).later evolves evolvesPadded).woven
    · have around := (stands.later evolves evolvesPadded).woven
      rw [padding.size_eq, chain_of_older (enclosing_extend_new ..) stands.inside,
        chain_of_older (enclosing_extend_new ..) stands.insidePadded, ← padding.size_eq]
      exact .both around
  · intro id bound member
    rw [size_extend]
    by_cases new : id = store.size
    · rw [new, bindings_extend_new] at member
      exact (within bound member).mono more
    · rw [bindings_extend_old new] at member
      exact (padding.within id bound member).mono more

end Padded

end Store

/-- The map of places with one place left out from `count` on. -/
def spared (count : Nat) (f : Nat → Nat) (id : Nat) : Nat :=
  if id < count then f id else f id + 1

section Spared

variable {count : Nat} {f : Nat → Nat} {id : Nat}

theorem spared_of_lt (older : id < count) : spared count f id = f id :=
  if_pos older

theorem spared_of_le (newer : count ≤ id) : spared count f id = f id + 1 :=
  if_neg (Nat.not_lt.mpr newer)

theorem spared_strictMono (ordered : StrictMono f) : StrictMono (spared count f) := by
  intro first second before
  have images := ordered before
  unfold spared
  split <;> split <;> omega

/-- The place left out. -/
theorem spared_ne (ordered : StrictMono f) (id : Nat) : spared count f id ≠ f count := by
  by_cases older : id < count
  · have before := ordered older
    rw [spared_of_lt older]
    omega
  · have after := ordered.monotone (Nat.not_lt.mp older)
    rw [spared_of_le (Nat.not_lt.mp older)]
    omega

/-- Below the place left out, no place becomes free or taken. -/
theorem spared_ne_of_lt (ordered : StrictMono f) {place : Nat} (below : place < f count)
    (spare : ∀ id, f id ≠ place) (id : Nat) : spared count f id ≠ place := by
  by_cases older : id < count
  · rw [spared_of_lt older]
    exact spare id
  · have after := ordered.monotone (Nat.not_lt.mp older)
    rw [spared_of_le (Nat.not_lt.mp older)]
    omega

end Spared

namespace Store

variable {base : Nat} {f : ScopeId → ScopeId} {store padded : Store} {here there : ScopeId}

/-- One more scope is opened on the second side alone. -/
theorem Padded.spare (padding : Padded base f store padded) :
    Padded base (spared store.size f) store (padded.extend (some there) []) := by
  have place := padding.size_eq
  refine ⟨spared_strictMono padding.ordered, ?_, padding.old, ?_, ?_, ?_, ?_, padding.within⟩
  · intro id known
    rw [spared_of_lt (Nat.lt_of_lt_of_le known padding.old)]
    exact padding.fixed id known
  · intro count
    rw [spared_of_le (Nat.le_add_right _ _), padding.next, size_extend, Nat.add_right_comm]
  · intro id
    by_cases known : id < store.size
    · have apart : f id ≠ padded.size := Nat.ne_of_lt (padding.lt_size_iff.mpr known)
      rw [spared_of_lt known, bindings_extend_old apart, padding.bindings]
      apply Bindings.mapValues_congr
      intro bound member
      have within := padding.within id bound member
      exact (within.moved_congr fun other declared => spared_of_lt declared).symm
    · have beyond := Nat.not_lt.mp known
      have far : padded.size ≤ f id := place ▸ padding.ordered.monotone beyond
      have farther : (padded.extend (some there) []).size ≤ f id + 1 := by
        rw [size_extend]
        exact Nat.succ_le_succ far
      rw [spared_of_le beyond, bindings_of_le farther, bindings_of_le beyond]
      rfl
  · intro spot spare
    by_cases new : spot = padded.size
    · rw [new, bindings_extend_new]
    · rw [bindings_extend_old new]
      by_cases known : spot < padded.size
      · apply padding.empty
        intro id same
        have older : id < store.size := padding.lt_size_iff.mp (same ▸ known)
        exact spare id ((spared_of_lt older).trans same)
      · exact bindings_of_le (Nat.not_lt.mp known)
  · intro id known
    have spot := padding.lt_size_iff.mpr known
    rw [spared_of_lt known, (Evolves.extend padded (some there) []).chain spot]
    apply (padding.chains id known).congr
    · intro outer member
      exact spared_of_lt (Nat.lt_of_le_of_lt (le_of_mem_chain outer member) known)
    · intro spot' member
      apply spared_ne_of_lt padding.ordered
      rw [place]
      exact Nat.lt_of_le_of_lt (le_of_mem_chain spot' member) spot

/-- In the scope that only the second side has, the same scopes are around as outside it. -/
theorem Padded.stands_spare (padding : Padded base f store padded)
    (stands : Stands f store padded here there) :
    Stands (spared store.size f) store (padded.extend (some there) []) here padded.size := by
  have place := padding.size_eq
  refine ⟨stands.inside, ?_, ?_⟩
  · rw [size_extend]
    exact Nat.lt_succ_self _
  · have known := stands.insidePadded
    rw [chain_of_older (enclosing_extend_new ..) known,
      (Evolves.extend padded (some there) []).chain known]
    have around : Woven (spared store.size f) (store.chain here) (padded.chain there) := by
      apply stands.woven.congr
      · intro outer member
        exact spared_of_lt (Nat.lt_of_le_of_lt (le_of_mem_chain outer member) stands.inside)
      · intro spot member
        apply spared_ne_of_lt padding.ordered
        rw [place]
        exact Nat.lt_of_le_of_lt (le_of_mem_chain spot member) known
    refine .extra ?_ around
    rw [← place]
    exact spared_ne padding.ordered

end Store

end Lox
