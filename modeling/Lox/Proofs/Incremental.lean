import Lox.Session
import Lox.Proofs.Blind
import Lox.Proofs.Renumbering
import Lox.Proofs.Trace

set_option autoImplicit false

namespace Lox

open Filter

structure Verdict.Like (like : Likeness) (relates : Option Value → Option Value → Prop)
    (verdict twin : Verdict) : Prop where
  result : relates verdict.result twin.result
  aborted : twin.aborted = verdict.aborted
  state : verdict.state.Like like twin.state

def Outcome.verdict? : Outcome (Option Value) → Option Verdict
  | .done result state => some ⟨result, false, state⟩
  | .fault reason state => some ⟨none, true, state.add (.reported reason)⟩
  | .spent => none

theorem Outcome.Like.verdict? {like : Likeness} {relates : Option Value → Option Value → Prop}
    {outcome twin : Outcome (Option Value)} (outs : outcome.Like like relates twin)
    (nothing : relates none none) :
    Option.Rel (Verdict.Like like relates) outcome.verdict? twin.verdict? := by
  cases outs with
  | done values states => exact .some ⟨values, rfl, states⟩
  | fault faults states => exact .some ⟨nothing, rfl, states.add (.reported faults)⟩
  | spent => exact .none

namespace World

theorem interpret?_eq (world : World) (fuel : Nat) (program : Program) (state : State) :
    world.interpret? fuel program state = (Machine.runAll (M := Run) world fuel none program state).verdict? := by
  unfold interpret? runAll Outcome.verdict?
  cases Machine.runAll (M := Run) world fuel none program state <;> rfl

/-- With enough fuel for the first program, the two go on where it left off, its result included. -/
theorem runAll_append {world : World} {first second : Program} {state : State} {middle : Verdict}
    (plain : Stmt.allStraight first = true) (whole : middle.aborted = false) {fuel : Nat}
    (ran : world.interpret? fuel first state = some middle) :
    world.interpret? fuel (first ++ second) state =
      (Machine.runAll (M := Run) world fuel middle.result second middle.state).verdict? := by
  rw [interpret?_eq] at ran ⊢
  rw [Machine.runAll_append world fuel second first none plain]
  simp only [Run.bind_eq, Run.andThen]
  generalize Machine.runAll (M := Run) world fuel none first state = outcome at ran ⊢
  cases outcome with
  | done result after =>
    cases ran
    rfl
  | fault =>
    cases ran
    cases whole
  | spent => cases ran

theorem runs_first {world : World} {first second : Program} {state : State} {fuel : Nat}
    {last : Verdict} (plain : Stmt.allStraight first = true)
    (ran : world.interpret? fuel (first ++ second) state = some last) :
    ∃ middle, world.interpret? fuel first state = some middle := by
  rw [interpret?_eq, Machine.runAll_append world fuel second first none plain] at ran
  simp only [Run.bind_eq, Run.andThen] at ran
  rw [interpret?_eq]
  generalize Machine.runAll (M := Run) world fuel none first state = outcome at ran ⊢
  cases outcome with
  | done | fault => exact ⟨_, rfl⟩
  | spent => cases ran

/-- One program after another ends as the second does where the first left off. -/
theorem ends_append {world : World} {first second : Program} {state : State} {middle last : Verdict}
    (plain : Stmt.allStraight first = true) (ends : world.Ends first state middle)
    (whole : middle.aborted = false) :
    world.Ends (first ++ second) state last ↔ ∃ fuel,
      (Machine.runAll (M := Run) world fuel middle.result second middle.state).verdict? = some last := by
  constructor
  · rintro ⟨fuel, ran⟩
    obtain ⟨other, begun⟩ := runs_first plain ran
    have same : other = middle := Ends.unique ⟨fuel, begun⟩ ends
    subst same
    exact ⟨fuel, runAll_append plain whole begun ▸ ran⟩
  · rintro ⟨fuel, ran⟩
    obtain ⟨enough, begun⟩ := ends
    have more := interpret?_mono begun (Nat.le_max_left enough fuel)
    refine ⟨max enough fuel, ?_⟩
    rw [runAll_append plain whole more]
    have prolongs := world.runAll_prolongs (Nat.le_max_right enough fuel) second middle.result
    rcases prolongs middle.state with short | same
    · rw [short] at ran
      cases ran
    · rw [same]
      exact ran

end World

namespace Session

/-- A program, run in the session, comes to an end and leaves the next session. -/
def Runs (session : Session) (program : Program) (next : Session) : Prop :=
  ∃ verdict, session.world.Ends program session.state verdict ∧ next = session.after verdict

/-- The session's record goes on as the trace of its state does. -/
def Logs (session next : Session) : Prop :=
  ∃ events, next.state.trace.toList = session.state.trace.toList ++ events ∧
    next.problems = session.problems ++ events.filterMap Event.diagnostic?

theorem Runs.logs {session next : Session} {program : Program} (runs : session.Runs program next) :
    session.Logs next := by
  obtain ⟨verdict, ⟨fuel, ran⟩, rfl⟩ := runs
  exact ⟨_, (World.interpret?_recalls ran).trace, rfl⟩

theorem Logs.trans {session middle next : Session} (first : session.Logs middle)
    (rest : middle.Logs next) : session.Logs next := by
  obtain ⟨events, trace, problems⟩ := first
  obtain ⟨others, later, more⟩ := rest
  refine ⟨events ++ others, ?_, ?_⟩
  · rw [later, trace, List.append_assoc]
  · rw [more, problems, List.filterMap_append, List.append_assoc]

/-- What is reported after states that are alike is alike. -/
theorem Logs.like {like : Likeness} {session one other : Session} (first : session.Logs one)
    (second : session.Logs other) (states : one.state.Like like other.state)
    (before : List.Forall₂ (Diagnostic.Like like) session.problems session.problems) :
    List.Forall₂ (Diagnostic.Like like) one.problems other.problems := by
  obtain ⟨events, trace, problems⟩ := first
  obtain ⟨others, twin, copies⟩ := second
  have traces := states.trace
  rw [trace, twin] at traces
  obtain ⟨start, rest, split, same, later⟩ := forall₂_append_left.mp traces
  obtain ⟨rfl, rfl⟩ := List.append_inj split same.length_eq
  rw [problems, copies]
  exact List.rel_append before (List.rel_filterMap (fun _ _ events => events.diagnostic) later)

/-- Sessions that differ in tokens alone, their last results apart. -/
structure Like (like : Likeness) (session twin : Session) : Prop where
  world : twin.world = session.world
  state : session.state.Like like twin.state
  problems : List.Forall₂ (Diagnostic.Like like) session.problems twin.problems
  aborted : twin.aborted = session.aborted

/-- Two sessions are the end of one run, shown with its lines counted anew: the run of the program put
`mark` lines down, which is below every token there before. For the one session the lines from there
on are counted from one again, for the other after the first `lines`; all others stay as they are. -/
structure Recount (middle : Session) (program : Program) (mark lines : Nat) (last joint : Session) :
    Prop where
  before : ∀ lines, middle.Like (.shown mark lines) middle
  run : ∃ marked origin, Stmt.AllLike (.lowered mark) program marked ∧ middle.Runs marked origin ∧
    origin.Like (.shown mark 0) last ∧ origin.Like (.shown mark lines) joint ∧
    (program.expressive = true → Option.Rel (Value.Like (.shown mark 0)) origin.last last.last ∧
      Option.Rel (Value.Like (.shown mark lines)) origin.last joint.last)

end Session

namespace Program

/-- Tokens further down derive the program with its tokens further down. -/
theorem lowered {program : Program} {tokens : List Token} (lines : Nat)
    (derives : Sentence.Derives false (.declarations program) tokens) :
    ∃ twin, Stmt.AllLike (.lowered lines) program twin ∧
      Sentence.Derives false (.declarations twin) (tokens.map (Token.lower lines)) :=
  derives.relabel (Likeness.lowered_faithful lines) (Likeness.lowered_literals lines) _
    (List.forall₂_map_right_iff.mpr (List.forall₂_same.mpr fun _ _ => rfl))

/-- A program with its tokens further down, shown with its lines counted anew. -/
theorem shown_lowered {marked twin : Program} {tokens : List Token} {mark lines : Nat}
    (counted : ∀ token ∈ tokens, 0 < token.line)
    (derives : Sentence.Derives false (.declarations marked) (tokens.map (Token.lower mark)))
    (derived : Sentence.Derives false (.declarations twin) (tokens.map (Token.lower lines))) :
    Stmt.AllLike (.shown mark lines) marked twin := by
  apply alike_of_derives (Likeness.shown_faithful mark lines) (Likeness.shown_literals mark lines)
    derives derived
  rw [List.forall₂_map_left_iff, List.forall₂_map_right_iff, List.forall₂_same]
  exact fun token member => (Token.shown_lower (counted token member) mark lines).symm

end Program

theorem Stmt.AllLike.expressive_eq {like : Likeness} {program twin : Program}
    (alike : Stmt.AllLike like program twin) :
    Program.expressive twin = Program.expressive program := by
  unfold Program.expressive
  induction program generalizing twin with
  | nil =>
    cases alike
    rfl
  | cons stmt rest ih =>
    cases alike with
    | cons first more =>
      rw [List.any_cons, List.any_cons, ih more]
      cases first <;> rfl

namespace World

theorem not_aborted {world : World} (patient : world.config.policy = .resume) {fuel : Nat}
    {program : Program} {state : State} {verdict : Verdict}
    (ran : world.interpret? fuel program state = some verdict) : verdict.aborted = false := by
  have settled := runAll_settled patient fuel program none state
  rw [interpret?_eq] at ran
  generalize Machine.runAll (M := Run) world fuel none program state = outcome at settled ran
  cases outcome with
  | done =>
    cases ran
    rfl
  | fault => cases settled
  | spent => cases ran

/-- Programs that are alike end alike, and with results that are, unless an expression is wanting. -/
theorem runAll_like {world : World} {like : Likeness} (faithful : like.Faithful)
    (host : world.host.Blind like) {program twin : Program} (alike : Stmt.AllLike like program twin)
    (plain : Stmt.allStraight program = true) (plainTwin : Stmt.allStraight twin = true)
    {state other : State} (states : state.Like like other) {result copy : Option Value}
    {relates : Option Value → Option Value → Prop} (results : ∀ value last,
      (Option.Rel (Value.Like like) result copy ∨ program.expressive = true →
        Option.Rel (Value.Like like) value last) → relates value last) (fuel : Nat) :
    Option.Rel (Verdict.Like like relates)
      (Machine.runAll (M := Run) world fuel result program state).verdict?
      (Machine.runAll (M := Run) world fuel copy twin other).verdict? := by
  have keeps := (Machine.keeps_runAll faithful host fuel alike plain plainTwin result copy).imp results
  exact (keeps state other states).verdict? (results none none fun _ => .none)

end World

namespace Session

/-- Nothing there after the first program is as far down as the tokens of another can be put. -/
theorem Runs.unmoved {session middle : Session} {program : Program}
    (runs : session.Runs program middle) (plain : Stmt.allStraight program = true)
    (blind : ∀ᶠ mark in atTop, ∀ lines, session.world.host.Blind (.shown mark lines)) :
    ∀ᶠ mark in atTop, ∀ lines, middle.Like (.shown mark lines) middle := by
  have reported : Unmoved (fun like => List.Forall₂ (Diagnostic.Like like)) session.problems :=
    unmoved_list fun problem _ => problem.unmoved
  have logs := runs.logs
  obtain ⟨verdict, ⟨fuel, ran⟩, rfl⟩ := runs
  rw [World.interpret?_eq] at ran
  filter_upwards [blind, session.state.unmoved, Stmt.unmoved_all program, reported] with
    mark host states programs problems lines
  have ends := World.runAll_like (Likeness.shown_faithful mark lines) (host lines) (programs lines)
    plain plain (states lines) (fun _ _ same => same (.inl .none)) fuel
  rw [ran] at ends
  cases ends with
  | some verdicts =>
    exact ⟨rfl, verdicts.state, logs.like logs verdicts.state (problems lines), rfl⟩

/-- How the program with its tokens `mark` lines down ends, beside the program itself, and beside it
on the lines after the first `lines` with the results before it. -/
structure Beside (middle : Session) (program marked twin : Program) (mark lines fuel : Nat) : Prop where
  top : Option.Rel (Verdict.Like (.shown mark 0) (Option.Rel (Value.Like (.shown mark 0))))
    (middle.world.interpret? fuel marked middle.state)
    (middle.world.interpret? fuel program middle.state)
  below : Option.Rel (Verdict.Like (.shown mark lines) fun value last =>
      program.expressive = true → Option.Rel (Value.Like (.shown mark lines)) value last)
    (middle.world.interpret? fuel marked middle.state)
    (Machine.runAll (M := Run) middle.world fuel middle.last twin middle.state).verdict?

theorem beside_of_lowered {middle : Session} {program marked twin : Program} {tokens : List Token}
    {mark lines : Nat} (counted : ∀ token ∈ tokens, 0 < token.line)
    (derives : Sentence.Derives false (.declarations program) tokens)
    (derivesTwin : Sentence.Derives false (.declarations twin) (tokens.map (Token.lower lines)))
    (derivesMarked : Sentence.Derives false (.declarations marked) (tokens.map (Token.lower mark)))
    (host : ∀ lines, middle.world.host.Blind (.shown mark lines))
    (before : ∀ lines, middle.Like (.shown mark lines) middle) (fuel : Nat) :
    middle.Beside program marked twin mark lines fuel := by
  have atTop : tokens.map (Token.lower 0) = tokens := by
    have same : Token.lower 0 = id := funext fun token => by simp [Token.lower]
    rw [same, List.map_id]
  have top := Program.shown_lowered counted derivesMarked (atTop.symm ▸ derives)
  have below := Program.shown_lowered counted derivesMarked derivesTwin
  have plainMarked := derivesMarked.straight rfl
  have expressive : marked.expressive = program.expressive := top.expressive_eq.symm
  constructor
  · rw [World.interpret?_eq, World.interpret?_eq]
    exact World.runAll_like (Likeness.shown_faithful mark 0) (host 0) top plainMarked
      (derives.straight rfl) (before 0).state (fun _ _ same => same (.inl .none)) fuel
  · rw [World.interpret?_eq]
    exact World.runAll_like (Likeness.shown_faithful mark lines) (host lines) below plainMarked
      (derivesTwin.straight rfl) (before lines).state
      (fun _ _ same expression => same (.inr (expressive ▸ expression))) fuel

/-- Where one of the three runs ends the others do. -/
theorem Beside.ends_iff {middle : Session} {program marked twin : Program} {mark lines fuel : Nat}
    (beside : middle.Beside program marked twin mark lines fuel) :
    (∃ last, middle.world.interpret? fuel program middle.state = some last) ↔ ∃ joint,
      (Machine.runAll (M := Run) middle.world fuel middle.last twin middle.state).verdict? = some joint := by
  obtain ⟨top, below⟩ := beside
  generalize middle.world.interpret? fuel marked middle.state = origin,
    middle.world.interpret? fuel program middle.state = last,
    (Machine.runAll (M := Run) middle.world fuel middle.last twin middle.state).verdict? = joint
    at top below ⊢
  cases top with
  | none =>
    cases below
    exact ⟨nofun, nofun⟩
  | some =>
    cases below
    exact ⟨fun _ => ⟨_, rfl⟩, fun _ => ⟨_, rfl⟩⟩

theorem Beside.recount {session middle : Session} {program marked twin : Program}
    {mark lines fuel : Nat} {last joint : Verdict}
    (beside : middle.Beside program marked twin mark lines fuel)
    (lowered : Stmt.AllLike (.lowered mark) program marked)
    (before : ∀ lines, middle.Like (.shown mark lines) middle) (world : middle.world = session.world)
    (logs : session.Logs middle) (jointLogs : session.Logs (session.after joint))
    (lastRuns : middle.world.Ends program middle.state last)
    (jointRuns :
      (Machine.runAll (M := Run) middle.world fuel middle.last twin middle.state).verdict? = some joint) :
    middle.Recount program mark lines (middle.after last) (session.after joint) := by
  obtain ⟨other, ran⟩ := beside.ends_iff.mpr ⟨joint, jointRuns⟩
  have same : other = last := World.Ends.unique ⟨fuel, ran⟩ lastRuns
  subst same
  obtain ⟨top, below⟩ := beside
  rw [ran] at top
  rw [jointRuns] at below
  cases origins : middle.world.interpret? fuel marked middle.state with
  | none =>
    rw [origins] at top
    cases top
  | some origin =>
    rw [origins] at top below
    cases top with
    | some tops =>
      cases below with
      | some belows =>
        have runs : middle.Runs marked (middle.after origin) := ⟨origin, ⟨fuel, origins⟩, rfl⟩
        have first : middle.Runs program (middle.after other) := ⟨other, lastRuns, rfl⟩
        have reported : List.Forall₂ (Diagnostic.Like (.shown mark lines)) session.problems
            session.problems := by
          obtain ⟨events, _, problems⟩ := logs
          have all := List.forall₂_same.mp (before lines).problems
          rw [problems] at all
          exact List.forall₂_same.mpr fun problem member => all problem (List.mem_append_left _ member)
        refine ⟨before, marked, middle.after origin, lowered, runs, ?_, ?_, ?_⟩
        · exact ⟨rfl, tops.state, runs.logs.like first.logs tops.state (before 0).problems,
            tops.aborted⟩
        · exact ⟨world.symm, belows.state, (logs.trans runs.logs).like jointLogs belows.state reported,
            belows.aborted⟩
        · exact fun expression => ⟨tops.result, belows.result expression⟩

/-- Two texts in a session, one after the other, do what they do as one text with a newline between
them. The one text is a program too: the first, and the second so many lines further down. If the
first is not aborted, as it never is where faults are gone on from, the two come to an end where the
one does. They print the same texts, report the same messages, leave the same global names, and are
aborted alike; and all they leave is the same, but for the lines of the second text's tokens. -/
theorem runs_text_by_text (session : Session) (upper lower : String) {first second : Program}
    (readsUpper : Program.ofSource upper = .ok first)
    (readsLower : Program.ofSource lower = .ok second)
    (blind : ∀ᶠ mark in atTop, ∀ lines, session.world.host.Blind (.shown mark lines)) :
    ∃ twin, Stmt.AllLike (.lowered (Scan.lines upper)) second twin ∧
      Program.ofSource (upper ++ "\n" ++ lower) = .ok (first ++ twin) ∧
      (session.world.config.policy = .resume →
        ∀ middle, session.Runs first middle → middle.aborted = false) ∧
      ∀ middle, session.Runs first middle → middle.aborted = false →
        ((∃ last, middle.Runs second last) ↔ ∃ joint, session.Runs (first ++ twin) joint) ∧
        ∀ last joint, middle.Runs second last → session.Runs (first ++ twin) joint →
          joint.state.output = last.state.output ∧
          joint.problems.map (·.message) = last.problems.map (·.message) ∧
          joint.state.globalBindings.names = last.state.globalBindings.names ∧
          joint.aborted = last.aborted ∧
          ∀ᶠ mark in atTop, middle.Recount second mark (Scan.lines upper) last joint := by
  obtain ⟨cleanUpper, derivesFirst⟩ := (Program.ofSource_eq_ok_iff upper first).mp readsUpper
  obtain ⟨cleanLower, derivesSecond⟩ := (Program.ofSource_eq_ok_iff lower second).mp readsLower
  obtain ⟨twin, lowered, derivesTwin⟩ := Program.lowered (Scan.lines upper) derivesSecond
  have plain := derivesFirst.straight rfl
  refine ⟨twin, lowered, ?_, ?_, ?_⟩
  · obtain ⟨tokens, problems⟩ :=
      Scan.ofSource_newline upper lower (Scan.closed_of_problems cleanUpper)
    rw [Program.ofSource_eq_ok_iff, tokens, problems, cleanUpper, cleanLower]
    exact ⟨rfl, derivesTwin.append derivesFirst⟩
  · rintro patient _ ⟨verdict, ⟨fuel, ran⟩, rfl⟩
    exact World.not_aborted patient ran
  · rintro _ begun whole
    have before := begun.unmoved plain blind
    have logs := begun.logs
    obtain ⟨verdict, ends, rfl⟩ := begun
    have beside : ∀ᶠ mark in atTop, ∃ marked, Stmt.AllLike (.lowered mark) second marked ∧
        (∀ lines, (session.after verdict).Like (.shown mark lines) (session.after verdict)) ∧
        ∀ fuel, (session.after verdict).Beside second marked twin mark (Scan.lines upper) fuel := by
      filter_upwards [blind, before] with mark host unmoved
      obtain ⟨marked, marks, derivesMarked⟩ := Program.lowered mark derivesSecond
      refine ⟨marked, marks, unmoved, ?_⟩
      exact beside_of_lowered (fun _ => Scan.line_pos) derivesSecond derivesTwin derivesMarked host
        unmoved
    constructor
    · obtain ⟨mark, marked, _, _, beside⟩ := beside.exists
      constructor
      · rintro ⟨_, last, ⟨fuel, ran⟩, rfl⟩
        obtain ⟨joint, jointRan⟩ := (beside fuel).ends_iff.mp ⟨last, ran⟩
        exact ⟨_, joint, (World.ends_append plain ends whole).mpr ⟨fuel, jointRan⟩, rfl⟩
      · rintro ⟨_, joint, jointEnds, rfl⟩
        obtain ⟨fuel, jointRan⟩ := (World.ends_append plain ends whole).mp jointEnds
        obtain ⟨last, ran⟩ := (beside fuel).ends_iff.mpr ⟨joint, jointRan⟩
        exact ⟨_, last, ⟨fuel, ran⟩, rfl⟩
    · rintro _ _ ⟨last, lastEnds, rfl⟩ joint
      have jointLogs := joint.logs
      obtain ⟨joint, jointEnds, rfl⟩ := joint
      obtain ⟨fuel, jointRan⟩ := (World.ends_append plain ends whole).mp jointEnds
      have recounts : ∀ᶠ mark in atTop, (session.after verdict).Recount second mark
          (Scan.lines upper) ((session.after verdict).after last) (session.after joint) := by
        filter_upwards [beside] with mark ⟨marked, marks, unmoved, beside⟩
        exact (beside fuel).recount marks unmoved rfl logs jointLogs lastEnds jointRan
      obtain ⟨mark, recount⟩ := recounts.exists
      obtain ⟨marked, origin, _, _, tops, belows, _⟩ := recount.run
      refine ⟨?_, ?_, ?_, ?_, recounts⟩
      · rw [belows.state.output, tops.state.output]
      · rw [Diagnostic.Like.messages belows.problems, Diagnostic.Like.messages tops.problems]
      · exact (belows.state.store.bindings _).names.trans (tops.state.store.bindings _).names.symm
      · rw [belows.aborted, tops.aborted]

/-- A function that faults on the second line, and a call of it from the next text, which faults on
its own second line: that is the fifth of the two texts together. -/
theorem runs_text_by_text_calledLater :
    let session := start World.bare
    let upper := "fun f() \x7b\n  -nil;\n\x7d"
    let lower := "f();\nx;"
    ∃ first second twin middle last joint, Program.ofSource upper = .ok first ∧
      Program.ofSource lower = .ok second ∧
      (∀ᶠ mark in atTop, ∀ lines, session.world.host.Blind (.shown mark lines)) ∧
      Stmt.AllLike (.lowered 3) second twin ∧ session.Runs first middle ∧ middle.aborted = false ∧
      middle.Runs second last ∧ last.problems.map (·.line) = [some 2, some 2] ∧
      session.Runs (first ++ twin) joint ∧ joint.problems.map (·.line) = [some 2, some 5] ∧
      ∀ᶠ mark in atTop, middle.Recount second mark 3 last joint := by
  intro session upper lower
  let first := (Program.ofSource upper).toOption.get (by decide +kernel)
  let second := (Program.ofSource lower).toOption.get (by decide +kernel)
  let both := (Program.ofSource (upper ++ "\n" ++ lower)).toOption.get (by decide +kernel)
  have readsUpper : Program.ofSource upper = .ok first := Program.eq_ok_get _ _
  have readsLower : Program.ofSource lower = .ok second := Program.eq_ok_get _ _
  have blind : ∀ᶠ mark in atTop, ∀ lines, session.world.host.Blind (.shown mark lines) :=
    .of_forall fun _ _ => World.bare_blind _
  obtain ⟨twin, lowered, reads, _, run⟩ :=
    runs_text_by_text session upper lower readsUpper readsLower blind
  have same : first ++ twin = both := Except.ok.inj (reads.symm.trans (Program.eq_ok_get _ _))
  have lines : Scan.lines upper = 3 := by decide +kernel
  rw [lines] at lowered run
  let begun := (session.world.interpret? 9 first session.state).get (by decide +kernel)
  let middle := session.after begun
  let ended := (middle.world.interpret? 9 second middle.state).get (by decide +kernel)
  let joined := (session.world.interpret? 9 both session.state).get (by decide +kernel)
  have runsFirst : session.Runs first middle := ⟨begun, ⟨9, (Option.some_get _).symm⟩, rfl⟩
  have runsSecond : middle.Runs second (middle.after ended) :=
    ⟨ended, ⟨9, (Option.some_get _).symm⟩, rfl⟩
  have runsBoth : session.Runs (first ++ twin) (session.after joined) :=
    ⟨joined, same ▸ ⟨9, (Option.some_get _).symm⟩, rfl⟩
  have whole : middle.aborted = false := by decide +kernel
  refine ⟨first, second, twin, middle, middle.after ended, session.after joined, readsUpper,
    readsLower, blind, lowered, runsFirst, whole, runsSecond, by decide +kernel, runsBoth,
    by decide +kernel, ?_⟩
  exact ((run middle runsFirst whole).2 _ _ runsSecond runsBoth).2.2.2.2

end Session

end Lox
