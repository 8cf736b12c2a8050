import Mathlib.Data.List.Chain
import Lox.Proofs.Heap

set_option autoImplicit false

namespace Lox

/-- The walk outward from a scope goes along the links to the globals, where it ends, and comes to
no scope twice. -/
structure Store.Rooted (store : Store) (id : ScopeId) : Prop where
  first : (store.chain id).head? = some id
  links : (store.chain id).IsChain fun inner outer => store.enclosing inner = some outer
  last : (store.chain id).getLast? = some State.globals
  root : store.enclosing State.globals = none
  distinct : (store.chain id).Nodup

namespace Store

variable {store : Store}

theorem Sound.rooted (sound : store.Sound) {id : ScopeId} (inside : id < store.size) :
    store.Rooted id := by
  induction id using Nat.strongRecOn with
  | _ id ih =>
    by_cases globals : id = State.globals
    · subst id
      have alone := chain_of_none sound.root
      refine ⟨?_, ?_, ?_, sound.root, ?_⟩
      · rw [alone]
        rfl
      · rw [alone]
        exact .singleton _
      · rw [alone]
        rfl
      · rw [alone]
        exact List.pairwise_singleton _ _
    · obtain ⟨outer, older, link⟩ := sound.links id inside globals
      have there : outer < store.size := Nat.lt_trans older inside
      have rooted := ih outer older there
      obtain ⟨around, further⟩ := chain_eq_cons store outer
      have walk : store.chain id = id :: store.chain outer := chain_of_older link older
      refine ⟨?_, ?_, ?_, sound.root, ?_⟩
      · rw [walk]
        rfl
      · have onward := rooted.links
        rw [further] at onward
        rw [walk, further]
        exact .cons_cons link onward
      · have ends := rooted.last
        rw [walk]
        rw [further] at ends ⊢
        exact ends
      · rw [walk, List.nodup_cons]
        refine ⟨?_, rooted.distinct⟩
        intro again
        have further := le_of_mem_chain id again
        exact Nat.lt_irrefl _ (Nat.lt_of_le_of_lt further older)

end Store

/-- All walks outward end in the globals: from every scope, from that in which the machine is, and
from those of the functions that are stored. -/
structure State.Rooted (state : State) : Prop where
  scopes : ∀ id < state.store.size, state.store.Rooted id
  current : state.store.Rooted state.current
  functions : ∀ id name value closure, (state.store.bindings id).get? name = some value →
    value.closure? = some closure → state.store.Rooted closure

theorem State.Sound.rooted {state : State} (sound : state.Sound) : state.Rooted := by
  refine ⟨?_, ?_, ?_⟩
  · intro id inside
    exact sound.store.rooted inside
  · exact sound.store.rooted sound.current
  · intro id name value closure found function
    exact sound.store.rooted ((sound.store.tame id name value found).inside_of_closure? function)

theorem State.initial_sound (config : Config) (natives : List Native) :
    (State.initial config natives).Sound := by
  have size : (State.initial config natives).store.size = 1 := rfl
  refine ⟨⟨?_, ?_, ?_⟩, Nat.zero_lt_one⟩
  · exact Store.enclosing_extend_new Store.empty none _
  · intro id inside inner
    rw [size] at inside
    exact absurd (Nat.lt_one_iff.mp inside) inner
  · intro id name value found
    apply Value.tame_of_closure?_none
    by_cases first : id = Store.empty.size
    · subst id
      unfold State.initial at found
      rw [Store.bindings_extend_new] at found
      rcases Bindings.get?_foldl_set _ _ _ _ found with nothing | ⟨native, _, rfl⟩
      · cases nothing
      · rfl
    · unfold State.initial at found
      rw [Store.bindings_extend_old first] at found
      cases found

namespace World

/-- The states through which a machine runs programs one after another, each from where the last
one ended, up to one that does not end. -/
def chronicle (world : World) (fuel : Nat) : List Program → State → List State
  | [], state => [state]
  | program :: rest, state =>
    state :: (Machine.runAll (M := Watched) world fuel none program state).states ++
      match world.interpret? fuel program state with
      | some verdict => chronicle world fuel rest verdict.state
      | none => []

variable {world : World} {fuel : Nat}

theorem chronicle_sound (handsOn : world.host.HandsOn) (programs : List Program) :
    ∀ state : State, state.Sound → (∀ program ∈ programs, Stmt.allPlain program = true) →
      ∀ later ∈ world.chronicle fuel programs state, later.Sound := by
  induction programs with
  | nil =>
    intro state sound _ later member
    rw [List.mem_singleton.mp member]
    exact sound
  | cons program rest ih =>
    intro state sound plain later member
    have discipline := sound_discipline world handsOn
    have history := discipline.runAll (discipline.upto fuel) program 0 none
      (plain program List.mem_cons_self) state sound (Nat.zero_le _)
    rcases List.mem_append.mp member with during | after
    · rcases List.mem_cons.mp during with rfl | inside
      · exact sound
      · exact (history.states later inside).1
    · split at after
      · rename_i verdict ran
        have stopped : verdict.state.Sound := by
          obtain ⟨last, final, same | ⟨fault, same⟩⟩ := Watched.of_interpret? ran
          · rw [same]
            exact (history.states last (History.mem_of_final final)).1
          · have there := (history.states last (History.mem_of_final final)).1
            rw [same]
            exact ⟨there.store, there.current⟩
        exact ih verdict.state stopped (fun p inside => plain p (List.mem_cons_of_mem _ inside))
          later after
      · cases after

theorem chronicle_head (programs : List Program) (state : State) :
    ∃ later, world.chronicle fuel programs state = state :: later := by
  cases programs with
  | nil => exact ⟨[], rfl⟩
  | cons program rest => exact ⟨_, rfl⟩

theorem chronicle_evolves (programs : List Program) :
    ∀ state, (world.chronicle fuel programs state).Pairwise State.Precedes := by
  induction programs with
  | nil =>
    intro state
    exact List.pairwise_singleton _ _
  | cons program rest ih =>
    intro state
    have parallel := Watched.evolving_parallel world
    have history := parallel.runAll (parallel.upto fuel) program none state
    unfold chronicle
    rw [List.pairwise_append]
    refine ⟨history.pairwise, ?_, ?_⟩
    · split
      · exact ih _
      · exact List.Pairwise.nil
    · intro earlier before later after
      split at after
      · rename_i verdict ran
        obtain ⟨last, final, same⟩ := Watched.of_interpret? ran
        have stopped : last.store = verdict.state.store := by
          rcases same with same | ⟨fault, same⟩
          · rw [same]
          · rw [same]
            rfl
        have toVerdict : earlier.Precedes verdict.state := by
          unfold State.Precedes
          rw [← stopped]
          exact history.toLast last final earlier before
        obtain ⟨others, whole⟩ := chronicle_head rest verdict.state
        have onward := ih verdict.state
        rw [whole] at after onward
        rcases List.mem_cons.mp after with rfl | further
        · exact toVerdict
        · exact toVerdict.trans (List.rel_of_pairwise_cons onward further)
      · cases after

/-- In a world whose natives make no functions, whatever plain programs are run one after another
from a fresh start: in every state the scopes form a tree around the globals; from one state to a
later one links and names stay, so that a name once found is found for ever, where it was or nearer.
And from any state on at all, expressions and blocks name nothing in the scopes that there were, and
a statement does so only in the scope in which it is. -/
theorem scopes_evolve (world : World) (handsOn : world.host.HandsOn) (natives : List Native)
    (fuel : Nat) (programs : List Program)
    (plain : ∀ program ∈ programs, Stmt.allPlain program = true) :
    let states := world.chronicle fuel programs (.initial world.config natives)
    (∀ state ∈ states, state.Rooted) ∧
    (states.Pairwise fun earlier later => earlier.store.Evolves later.store ∧
      ∀ id < earlier.store.size, ∀ name scope, earlier.store.resolve id name = some scope →
        ∃ nearer, later.store.resolve id name = some nearer ∧
          nearer ∈ later.store.chain id ∧ scope ∈ later.store.chain nearer) ∧
    (∀ expr state, ∀ after ∈ (Machine.evaluate (M := Watched) world fuel expr state).states,
      ∀ id < state.store.size, (after.store.bindings id).names = (state.store.bindings id).names) ∧
    (∀ stmt state, ∀ after ∈ (Machine.execute (M := Watched) world fuel stmt state).states,
      ∀ id < state.store.size, id ≠ state.current →
        (after.store.bindings id).names = (state.store.bindings id).names) ∧
    ∀ body state, ∀ after ∈ (Machine.execute (M := Watched) world fuel (.block body) state).states,
      ∀ id < state.store.size,
        (after.store.bindings id).names = (state.store.bindings id).names := by
  intro states
  refine ⟨?_, ?_, ?_, ?_, ?_⟩
  · intro state member
    have start := State.initial_sound world.config natives
    exact (chronicle_sound handsOn programs _ start plain state member).rooted
  · apply (chronicle_evolves programs (.initial world.config natives)).imp
    intro earlier later evolves
    refine ⟨evolves, ?_⟩
    intro id inside name scope found
    exact evolves.resolve inside found
  · intro expr state after member id inside
    exact (((evaluate_naming world fuel).1 expr state).spares after member).names id inside
      Store.not_nowhere
  · intro stmt state after member id inside other
    have naming := ((naming_parallel world).upto fuel).execute stmt state
    exact (naming.spares after member).names id inside other
  · intro body state after member id inside
    exact ((block_naming world fuel body state).spares after member).names id inside
      Store.not_nowhere

/-- A function that is declared in a call and kept; then a call of it from a block. -/
def keptInner : List Program :=
  let word (lexeme : String) : Token := .plain .identifier lexeme 1
  let call (name : String) : Expr := .call (.var (word name)) (.plain .rightParen ")" 1) []
  let give (name : String) : Stmt := .ret (.plain .kwReturn "return" 1) (some (.var (word name)))
  [[.function (word "outer") [] [.declare (word "said") (.literal (.text "a")),
      .function (word "inner") [] [.declare (word "own") (.var (word "said")), give "own"],
      give "inner"],
    .declare (word "kept") (call "outer")],
    [.block [.print (call "kept")]]]

theorem scopes_evolve_keptInner :
    let states := bare.chronicle 12 keptInner (.initial bare.config [])
    (∀ program ∈ keptInner, Stmt.allPlain program = true) ∧
    ∃ state ∈ states, state.Rooted ∧ state.current = 3 ∧ state.store.chain 3 = [3, 1, 0] := by
  intro states
  have plain : ∀ program ∈ keptInner, Stmt.allPlain program = true := by decide +kernel
  have evolve := scopes_evolve bare bare_handsOn [] 12 keptInner plain
  let inner := (states.find? fun state => state.current == 3).get (by decide +kernel)
  have found : states.find? (fun state => state.current == 3) = some inner :=
    (Option.some_get _).symm
  have member : inner ∈ states := List.mem_of_find?_eq_some found
  exact ⟨plain, inner, member, evolve.1 inner member, by decide +kernel, by decide +kernel⟩

end World

end Lox
