import Mathlib
import Lox.Proofs.Grammar.Yield
import Lox.Proofs.Returns

set_option autoImplicit false

namespace Lox

inductive Outcome.Agree {α β : Type} (values : α → β → Prop) (states : State → State → Prop) :
    Outcome α → Outcome β → Prop
  | done {value : α} {other : β} {state twin : State} (same : values value other)
      (after : states state twin) : Agree values states (.done value state) (.done other twin)
  | fault {reason : Fault} {state twin : State} (after : states state twin) :
      Agree values states (.fault reason state) (.fault reason twin)
  | spent : Agree values states .spent .spent

namespace Outcome

variable {α β : Type} {values : α → β → Prop} {states wider : State → State → Prop}
  {first : Outcome α} {second : Outcome β}

theorem Agree.imp (agree : Agree values states first second)
    (more : ∀ state twin, states state twin → wider state twin) : Agree values wider first second := by
  cases agree with
  | done same after => exact .done same (more _ _ after)
  | fault after => exact .fault (more _ _ after)
  | spent => exact .spent

/-- The states that are left are changed on either side. -/
theorem Agree.mapState (agree : Agree values states first second) (back forth : State → State)
    (more : ∀ state twin, states state twin → wider (back state) (forth twin)) :
    Agree values wider (first.mapState back) (second.mapState forth) := by
  cases agree with
  | done same after => exact .done same (more _ _ after)
  | fault after => exact .fault (more _ _ after)
  | spent => exact .spent

theorem mapState_id (outcome : Outcome α) : outcome.mapState id = outcome := by
  cases outcome <;> rfl

theorem Padded.agree {base : Nat} {f : ScopeId → ScopeId} {here there : ScopeId} {state twin : State}
    {first second : Outcome (Option Value)} (outs : Padded base f here there state twin
      (fun m => Option.Rel (Value.Carried base f m)) first second) :
    Agree (fun value other => other = value.map (Value.moved f))
      (state.Onward base f here there twin) first second := by
  cases outs with
  | done values onward =>
    refine .done ?_ onward
    cases values with
    | none => rfl
    | some carried => exact congrArg some carried.moved
  | fault onward => exact .fault onward
  | spent => exact .spent

end Outcome

structure Verdict.Agree (f : ScopeId → ScopeId) (states : State → State → Prop)
    (verdict other : Verdict) : Prop where
  result : other.result = verdict.result.map (Value.moved f)
  aborted : other.aborted = verdict.aborted
  after : states verdict.state other.state

/-- The scopes that a state speaks of are there. Functions among the literals of what it holds are
from the first `base` of them. -/
structure State.Grounded (base : Nat) (state : State) : Prop where
  old : base ≤ state.store.size
  inside : state.current < state.store.size
  within : ∀ id, ∀ bound ∈ state.store.bindings id, bound.2.Within base state.store.size

/-- Two states in the same scope, the second with one scope more, inside that one. In the second
store the scopes opened later come one place later. -/
structure State.Besides (base place here : ScopeId) (state twin : State) : Prop where
  padded : state.Padded base (spared place id) here here twin
  known : here < place
  link : twin.store.enclosing place = some here
  opened : place < twin.store.size

namespace State

variable {base : Nat} {state twin : State}

theorem Grounded.padded (grounded : state.Grounded base) :
    state.Padded base id state.current state.current state := by
  refine ⟨⟨strictMono_id, fun _ _ => rfl, grounded.old, fun _ => rfl, ?_, ?_, ?_, grounded.within⟩,
    ⟨grounded.inside, grounded.inside, .refl _⟩, rfl, rfl, rfl, ?_, rfl⟩
  · intro scope
    exact (Bindings.mapValues_id _ fun bound _ => Value.moved_id bound.2).symm
  · intro place spare
    exact absurd rfl (spare place)
  · intro scope _
    exact .refl _
  · exact List.forall₂_same.mpr fun event _ => .same event

theorem Padded.grounded {f : ScopeId → ScopeId} {here there : ScopeId}
    (padded : state.Padded base f here there twin) : state.Grounded base :=
  ⟨padded.store.old, padded.current ▸ padded.stands.inside, padded.store.within⟩

/-- The state before any program is grounded. -/
theorem initial_grounded (config : Config) (natives : List Native) :
    (initial config natives).Grounded 0 := by
  refine ⟨Nat.zero_le _, Nat.zero_lt_one, ?_⟩
  intro scope bound member
  unfold initial at member ⊢
  rw [Store.bindings_extend] at member
  split at member
  · rcases Bindings.mem_foldl_set Native.name .native _ [] member with nothing | ⟨native, _, same⟩
    · cases nothing
    · rw [same]
      exact Value.within_of_closure?_none rfl
  · rw [Store.bindings_of_le (Nat.zero_le scope)] at member
    cases member

/-- Where the current scopes differ, the second state can be taken to another scope. -/
theorem Padded.moveTwin {f : ScopeId → ScopeId} {here there place : ScopeId}
    (padded : state.Padded base f here there twin)
    (stands : state.store.Stands f twin.store here place) :
    state.Padded base f here place { twin with current := place } :=
  ⟨padded.store, stands, padded.current, rfl, padded.calls, padded.trace, padded.asked⟩

/-- In a new scope on the second side alone, all is as it was. -/
theorem Padded.opened {f : ScopeId → ScopeId} {here there : ScopeId}
    (padded : state.Padded base f here there twin) :
    state.Padded base (spared state.store.size f) here twin.store.size (twin.opened there []) :=
  ⟨padded.store.spare, padded.store.stands_spare padded.stands, padded.current, rfl, padded.calls,
    padded.trace, padded.asked⟩

namespace Besides

variable {place here : ScopeId}

theorem output (besides : state.Besides base place here twin) : twin.output = state.output :=
  besides.padded.output

theorem diagnostics (besides : state.Besides base place here twin) :
    twin.diagnostics = state.diagnostics :=
  besides.padded.diagnostics

/-- Scopes older than the one besides bind the same, in the same order. -/
theorem bindings (besides : state.Besides base place here twin) {id : ScopeId} (older : id < place) :
    twin.store.bindings id =
      (state.store.bindings id).mapValues (Value.moved (spared place fun id => id)) := by
  have same := besides.padded.store.bindings id
  rw [spared_of_lt older] at same
  exact same

/-- The scope besides binds nothing. -/
theorem empty (besides : state.Besides base place here twin) : twin.store.bindings place = [] :=
  besides.padded.store.empty place (spared_ne strictMono_id)

theorem later {after afterTwin : State} (besides : state.Besides base place here twin)
    (onward : state.Onward base (spared place id) here here twin after afterTwin) :
    after.Besides base place here afterTwin := by
  refine ⟨onward.padded, besides.known, ?_, ?_⟩
  · rw [onward.grownTwin.enclosing place besides.opened]
    exact besides.link
  · exact Nat.lt_of_lt_of_le besides.opened onward.grownTwin.size

end Besides

end State

namespace Machine

open Run

variable {world : World} {base n : Nat} {f : ScopeId → ScopeId} {here there : ScopeId}

/-- A statement by itself is a list of one. -/
theorem executeAll_single (world : World) (fuel : Nat) (stmt : Stmt) :
    executeAll (M := Run) world (fuel + 1) [stmt] = execute world fuel stmt := by
  funext state
  change Run.andThen (execute (M := Run) world fuel stmt) _ state = _
  rw [Run.andThen]
  cases fuel with
  | zero => rfl
  | succ fuel =>
    cases execute (M := Run) world (fuel + 1) stmt state with
    | done returned after => cases returned <;> rfl
    | fault | spent => rfl

end Machine

namespace World

variable {world : World} {base : Nat} {state twin : State}

/-- Programs leave grounded states behind. -/
theorem grounded_interpret? (handsOn : world.host.HandsOn) (unscoped : world.host.Unscoped)
    (grounded : state.Grounded base) {program : Program}
    (anchored : Stmt.allAnchored base program = true) {fuel : Nat} {verdict : Verdict}
    (ends : world.interpret? fuel program state = some verdict) : verdict.state.Grounded base := by
  have runs := Machine.carries_runAll handsOn unscoped fuel state.current (f := id) anchored 0 none none .none
  have outs := runs state state (Nat.zero_le _) grounded.padded
  unfold interpret? runAll at ends
  generalize Machine.runAll (M := Run) world fuel none program state = one at outs ends
  cases outs with
  | done _ onward =>
    cases ends
    exact onward.padded.grounded
  | fault onward =>
    cases ends
    exact (onward.padded.add (.same _)).grounded
  | spent => cases ends

def keepingState : State :=
  ⟨⟨#[⟨none, [("x", .text "seen"), ("g", .nil)]⟩]⟩, State.globals, 0, #[], 0⟩

def kept (place : ScopeId) : Value :=
  let word (lexeme : String) : Token := .plain .identifier lexeme 1
  .function (word "h") [] [.ret (.plain .kwReturn "return" 1) (some (.var (word "x")))] place

theorem keepingState_grounded : keepingState.Grounded 0 := by
  refine ⟨Nat.zero_le _, Nat.zero_lt_one, ?_⟩
  intro id bound member
  have tame : bound.2.closure? = none := by
    match id with
    | 0 =>
      have cases : bound = ("x", .text "seen") ∨ bound = ("g", .nil) := by
        simpa [keepingState, Store.bindings] using member
      rcases cases with rfl | rfl <;> rfl
    | _ + 1 => cases member
  exact Value.within_of_closure?_none tame

end World

end Lox
