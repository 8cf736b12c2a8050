import Mathlib.Data.List.Forall2
import Lox.Proofs.Channels

set_option autoImplicit false

namespace Lox

/-- What was reported goes on with what has been reported since. -/
theorem State.Recalls.diagnostics {before after : State} (recalls : before.Recalls after) :
    after.diagnostics = before.diagnostics ++
      (after.since before.trace.size).filterMap Event.diagnostic? := by
  unfold State.diagnostics
  rw [recalls.trace, List.filterMap_append]

namespace Session

inductive Action where
  | eval (text : String)
  | reset

/-- An action taken in a session, the session after it, and what it came to. -/
structure Step where
  before : Session
  action : Action
  after : Session
  entry : Entry

/-- Takes an action, with fuel for so deep a run. A reset says nothing. -/
def take? (session : Session) (fuel : Nat) : Action → Option (Session × Entry)
  | .eval text => session.eval? fuel text
  | .reset => some (session.reset, ⟨none, [], []⟩)

def step? (session : Session) (fuel : Nat) (action : Action) : Option Step :=
  (session.take? fuel action).map fun taken => ⟨session, action, taken.1, taken.2⟩

/-- The steps of a session, each from where the one before it ended, if they all end. -/
def steps? (session : Session) (fuel : Nat) : List Action → Option (List Step)
  | [] => some []
  | action :: rest =>
    (session.step? fuel action).bind fun step =>
      (step.after.steps? fuel rest).map (step :: ·)

def left (session : Session) (steps : List Step) : Session :=
  steps.foldl (fun _ step => step.after) session

/-- What a step added to the record; a reset adds nothing to the one it starts. -/
def Step.recorded (step : Step) : Report :=
  match step.action with
  | .eval _ => step.after.problems.drop step.before.problems.length
  | .reset => []

/-- The books of a step are in order. It writes what it records; a text keeps the record that
there was, and what it adds are the problems of its reading or, once it is read, the faults that
its run reported. -/
structure Step.Accounted (step : Step) : Prop where
  written : step.entry.problems.text = asLines (step.recorded.map Diagnostic.format)
  kept : ∀ text, step.action = .eval text →
    step.after.problems = step.before.problems ++ step.recorded
  unread : ∀ text problems, step.action = .eval text → Program.ofSource text = .error problems →
    step.recorded = problems
  ran : ∀ text program, step.action = .eval text → Program.ofSource text = .ok program →
    ∃ verdict, step.before.world.Ends program step.before.state verdict ∧
      step.after = step.before.after verdict ∧
      step.after.state.diagnostics = step.before.state.diagnostics ++ step.recorded
  cleared : step.action = .reset → step.after = { start step.before.world with
    state := { (start step.before.world).state with asked := step.before.state.asked } }

theorem left_append (session : Session) (earlier later : List Step) :
    session.left (earlier ++ later) = (session.left earlier).left later :=
  List.foldl_append

theorem steps?_cons {session : Session} {fuel : Nat} {action : Action} {rest : List Action}
    {steps : List Step} : session.steps? fuel (action :: rest) = some steps ↔
      ∃ step others, session.step? fuel action = some step ∧
        step.after.steps? fuel rest = some others ∧ steps = step :: others := by
  constructor
  · intro made
    obtain ⟨step, first, later⟩ := Option.bind_eq_some_iff.mp made
    obtain ⟨others, rest_made, rfl⟩ := Option.map_eq_some_iff.mp later
    exact ⟨step, others, first, rest_made, rfl⟩
  · rintro ⟨step, others, first, rest_made, rfl⟩
    simp only [steps?, first, Option.bind_some, rest_made, Option.map_some]

/-- Rows of actions are taken one after the other. -/
theorem steps?_append {fuel : Nat} {earlier later : List Action} :
    ∀ {session : Session} {steps : List Step},
    session.steps? fuel (earlier ++ later) = some steps ↔ ∃ before rest,
      session.steps? fuel earlier = some before ∧
      (session.left before).steps? fuel later = some rest ∧ steps = before ++ rest := by
  induction earlier with
  | nil =>
    intro session steps
    constructor
    · exact fun made => ⟨[], steps, rfl, made, rfl⟩
    · rintro ⟨_, rest, ⟨⟩, made, rfl⟩
      exact made
  | cons action earlier ih =>
    intro session steps
    rw [List.cons_append, steps?_cons]
    constructor
    · rintro ⟨step, others, first, made, rfl⟩
      obtain ⟨before, rest, begun, ended, rfl⟩ := ih.mp made
      exact ⟨step :: before, rest, steps?_cons.mpr ⟨step, before, first, begun, rfl⟩, ended, rfl⟩
    · rintro ⟨_, rest, begun, ended, rfl⟩
      obtain ⟨step, before, first, made, rfl⟩ := steps?_cons.mp begun
      exact ⟨step, before ++ rest, first, ih.mpr ⟨before, rest, made, ended, rfl⟩, rfl⟩

variable {session twin after : Session} {fuel : Nat} {text : String} {entry : Entry}

/-- A text either is no program, or runs to an end. -/
theorem eval?_cases (evaluated : session.eval? fuel text = some (after, entry)) :
    (∃ problems, Program.ofSource text = .error problems ∧
      after = { session with problems := session.problems ++ problems } ∧
      entry = ⟨none, [], problems⟩) ∨
    ∃ program verdict, Program.ofSource text = .ok program ∧
      session.world.interpret? fuel program session.state = some verdict ∧
      after = session.after verdict ∧ entry = session.entry verdict := by
  cases read : Program.ofSource text with
  | error problems =>
    rw [eval?_of_error read] at evaluated
    cases evaluated
    exact Or.inl ⟨problems, rfl, rfl, rfl⟩
  | ok program =>
    rw [eval?_of_ok read] at evaluated
    obtain ⟨verdict, ran, same⟩ := Option.map_eq_some_iff.mp evaluated
    cases same
    exact Or.inr ⟨program, verdict, rfl, ran, rfl, rfl⟩

/-- A text adds to the record what its entry tells. -/
theorem eval?_problems (evaluated : session.eval? fuel text = some (after, entry)) :
    after.problems = session.problems ++ entry.problems := by
  rcases eval?_cases evaluated with ⟨_, _, rfl, rfl⟩ | ⟨_, _, _, _, rfl, rfl⟩ <;> rfl

/-- What was recorded before makes no difference to a text. -/
theorem eval?_with (session : Session) (fuel : Nat) (text : String) (record : Report) :
    { session with problems := record }.eval? fuel text =
      (session.eval? fuel text).map fun evaluated =>
        ({ evaluated.1 with problems := record ++ evaluated.2.problems }, evaluated.2) := by
  cases read : Program.ofSource text with
  | ok =>
    rw [eval?_of_ok read, eval?_of_ok read, merge?, merge?, Option.map_map]
    rfl
  | error =>
    rw [eval?_of_error read, eval?_of_error read]
    rfl

/-- A text records what its entry tells. -/
theorem recorded_eval (evaluated : session.eval? fuel text = some (after, entry)) :
    Step.recorded ⟨session, .eval text, after, entry⟩ = entry.problems := by
  change after.problems.drop session.problems.length = _
  rw [eval?_problems evaluated, List.drop_left]

theorem step?_accounted {action : Action} {step : Step}
    (made : session.step? fuel action = some step) : step.Accounted := by
  obtain ⟨taken, took, rfl⟩ := Option.map_eq_some_iff.mp made
  cases action with
  | reset =>
    cases took
    constructor
    · rfl
    · rintro _ ⟨⟩
    · rintro _ _ ⟨⟩
    · rintro _ _ ⟨⟩
    · exact fun _ => rfl
  | eval text =>
    have recorded := recorded_eval took
    constructor
    · rw [recorded]
      exact Report.text_eq _
    · intro _ _
      rw [recorded]
      exact eval?_problems took
    · rintro _ problems ⟨⟩ failed
      rw [recorded]
      cases (eval?_of_error failed fuel).symm.trans took
      rfl
    · rintro _ program ⟨⟩ reads
      rw [recorded]
      obtain ⟨verdict, ran, same⟩ := Option.map_eq_some_iff.mp ((eval?_of_ok reads fuel).symm.trans took)
      cases same
      exact ⟨verdict, ⟨fuel, ran⟩, rfl, (World.interpret?_recalls ran).diagnostics⟩
    · rintro ⟨⟩

theorem steps?_accounted {actions : List Action} : ∀ {session : Session} {steps : List Step},
    session.steps? fuel actions = some steps → ∀ step ∈ steps, step.Accounted := by
  induction actions with
  | nil =>
    rintro session _ ⟨⟩ step member
    cases member
  | cons action rest ih =>
    intro session steps made
    obtain ⟨step, others, first, later, rfl⟩ := steps?_cons.mp made
    exact List.forall_mem_cons.mpr ⟨step?_accounted first, ih later⟩

/-- What steps write in all is what they record in all. -/
theorem join_written {steps : List Step} (accounted : ∀ step ∈ steps, step.Accounted) :
    String.join (steps.map (·.entry.problems.text)) =
      asLines ((steps.flatMap Step.recorded).map Diagnostic.format) := by
  induction steps with
  | nil => rfl
  | cons step rest ih =>
    have first := (accounted step List.mem_cons_self).written
    have others := ih fun step member => accounted step (List.mem_cons_of_mem _ member)
    rw [List.map_cons, String.join_cons, first, others, List.flatMap_cons, List.map_append,
      asLines_append]

/-- The session and a twin of it with more on its record: problems noted at one place of it, unless
the record was dropped since. -/
inductive Noted (before problems : Report) : Session → Session → Prop
  | kept {session : Session} {since : Report} (record : session.problems = before ++ since) :
    Noted before problems session { session with problems := before ++ problems ++ since }
  | dropped (session : Session) : Noted before problems session session

structure Step.Unmoved (before problems : Report) (step twin : Step) : Prop where
  action : twin.action = step.action
  entry : twin.entry = step.entry
  recorded : twin.recorded = step.recorded
  start : Noted before problems step.before twin.before
  finish : Noted before problems step.after twin.after

variable {before problems : Report}

theorem Noted.state (noted : Noted before problems session twin) : twin.state = session.state := by
  cases noted <;> rfl

/-- An action takes no notice of what else is on record. -/
theorem Noted.step {action : Action} {step : Step} (noted : Noted before problems session twin)
    (made : session.step? fuel action = some step) :
    ∃ other, twin.step? fuel action = some other ∧ step.Unmoved before problems other := by
  cases noted with
  | dropped =>
    obtain ⟨taken, took, rfl⟩ := Option.map_eq_some_iff.mp made
    exact ⟨_, made, rfl, rfl, rfl, .dropped _, .dropped _⟩
  | @kept since record =>
    have noted : Noted before problems session _ := .kept record
    obtain ⟨taken, took, rfl⟩ := Option.map_eq_some_iff.mp made
    cases action with
    | reset =>
      -- Both sessions start over, and what was noted is gone from the record.
      cases took
      exact ⟨_, rfl, rfl, rfl, rfl, noted, .dropped _⟩
    | eval text =>
      have same := session.eval?_with fuel text (before ++ problems ++ since)
      rw [show session.eval? fuel text = some taken from took, Option.map_some] at same
      refine ⟨_, congrArg (Option.map _) same, rfl, rfl, ?_, noted, ?_⟩
      · exact (recorded_eval same).trans (recorded_eval took).symm
      · have later : taken.1.problems = before ++ (since ++ taken.2.problems) := by
          rw [eval?_problems took, record, List.append_assoc]
        show Noted before problems taken.1 { taken.1 with problems := _ }
        rw [List.append_assoc]
        exact .kept later

theorem Noted.steps {actions : List Action} : ∀ {session twin : Session} {steps : List Step},
    Noted before problems session twin → session.steps? fuel actions = some steps →
    ∃ others, twin.steps? fuel actions = some others ∧
      List.Forall₂ (Step.Unmoved before problems) steps others ∧
      Noted before problems (session.left steps) (twin.left others) := by
  induction actions with
  | nil =>
    rintro session twin _ noted ⟨⟩
    exact ⟨[], rfl, .nil, noted⟩
  | cons action rest ih =>
    intro session twin steps noted made
    obtain ⟨step, later, first, rest_made, rfl⟩ := steps?_cons.mp made
    obtain ⟨other, taken, unmoved⟩ := noted.step first
    obtain ⟨others, all_taken, all_unmoved, last⟩ := ih unmoved.finish rest_made
    exact ⟨other :: others, steps?_cons.mpr ⟨other, others, taken, all_taken, rfl⟩,
      .cons unmoved all_unmoved, last⟩

/-- The books of any session whose texts all come to an end. Every step writes the diagnostics that it
records, and all together write all that were recorded, in order. A text that is no program can be
put in anywhere: it comes to nothing, runs nothing, and adds its own diagnostics to the record and to
what is written; all other steps come to what they came to without it, and so does the state at the
end. -/
theorem bookkeeping {session : Session} {fuel : Nat} {actions : List Action} {steps : List Step}
    (made : session.steps? fuel actions = some steps) :
    (∀ step ∈ steps, step.Accounted) ∧
    String.join (steps.map (·.entry.problems.text)) =
      asLines ((steps.flatMap Step.recorded).map Diagnostic.format) ∧
    ∀ earlier later, actions = earlier ++ later →
      ∀ text problems, Program.ofSource text = .error problems →
        ∃ before rest twins, session.steps? fuel earlier = some before ∧ steps = before ++ rest ∧
          let middle := session.left before
          let noted := { middle with problems := middle.problems ++ problems }
          let inserted : Step := ⟨middle, .eval text, noted, ⟨none, [], problems⟩⟩
          let longer := before ++ inserted :: twins
          middle.steps? fuel later = some rest ∧
          session.steps? fuel (earlier ++ .eval text :: later) = some longer ∧
          inserted.recorded = problems ∧
          inserted.entry.problems.text = asLines (problems.map Diagnostic.format) ∧
          List.Forall₂ (Step.Unmoved middle.problems problems) rest twins ∧
          Noted middle.problems problems (session.left steps) (session.left longer) ∧
          (session.left longer).state = (session.left steps).state := by
  have accounted := steps?_accounted made
  refine ⟨accounted, join_written accounted, ?_⟩
  rintro earlier later rfl text problems failed
  obtain ⟨before, rest, begun, ended, rfl⟩ := steps?_append.mp made
  let middle := session.left before
  let noted := { middle with problems := middle.problems ++ problems }
  let inserted : Step := ⟨middle, .eval text, noted, ⟨none, [], problems⟩⟩
  have start : Noted middle.problems problems middle noted := by
    have kept : Noted middle.problems problems middle
        { middle with problems := middle.problems ++ problems ++ [] } :=
      .kept (List.append_nil middle.problems).symm
    rw [List.append_nil] at kept
    exact kept
  obtain ⟨twins, taken, unmoved, last⟩ := start.steps ended
  have broken : middle.step? fuel (.eval text) = some inserted :=
    congrArg (Option.map _) (eval?_of_error failed fuel)
  have longer : session.steps? fuel (earlier ++ .eval text :: later) =
      some (before ++ inserted :: twins) :=
    steps?_append.mpr ⟨before, _, begun, steps?_cons.mpr ⟨_, twins, broken, taken, rfl⟩, rfl⟩
  rw [← left_append, show noted.left twins = session.left (before ++ inserted :: twins) from
    (session.left_append before (inserted :: twins)).symm] at last
  exact ⟨before, rest, twins, begun, rfl, ended, longer, List.drop_left, Report.text_eq problems,
    unmoved, last, last.state⟩

/-- A text that is broken at its end, put in between a fault and a reset. -/
theorem bookkeeping_brokenAtEnd :
    let session := start World.bare
    let earlier := [Action.eval "var a = 1; print -a; print -nil;"]
    let later := [Action.eval "print a; print a - nil;", .reset, .eval "a;"]
    let broken := "a = 2; print a; print ;"
    ∃ steps longer, session.steps? 9 (earlier ++ later) = some steps ∧
      session.steps? 9 (earlier ++ .eval broken :: later) = some longer ∧
      (session.left longer).state = (session.left steps).state ∧
      longer.map (·.entry.output) = ["-1\nnil\n", "", "1\nnil\n", "", ""] ∧
      String.join (longer.map (·.entry.problems.text)) =
        "Operand must be a number.\n[line 1]\n[line 1] Error at ';': Expect expression.\n" ++
        "Operands must be numbers.\n[line 1]\nUndefined variable 'a'.\n[line 1]\n" := by
  intro session earlier later broken
  let steps := (session.steps? 9 (earlier ++ later)).get (by decide +kernel)
  let longer := (session.steps? 9 (earlier ++ .eval broken :: later)).get (by decide +kernel)
  have made : session.steps? 9 (earlier ++ later) = some steps := (Option.some_get _).symm
  have madeLonger : session.steps? 9 (earlier ++ .eval broken :: later) = some longer :=
    (Option.some_get _).symm
  obtain ⟨problems, failed⟩ : ∃ problems, Program.ofSource broken = .error problems :=
    Program.eq_error (by decide +kernel)
  obtain ⟨_, _, _, _, _, _, again, _, _, _, _, same⟩ := (bookkeeping made).2.2 earlier later rfl broken
    problems failed
  rw [Option.some.inj (again.symm.trans madeLonger)] at same
  refine ⟨steps, longer, made, madeLonger, same, ?_, ?_⟩
  · decide +kernel
  · rw [(bookkeeping madeLonger).2.1]
    decide +kernel

end Session

end Lox
