import Mathlib.Data.List.DropRight
import Lox.Session.Command
import Lox.Proofs.Channels
import Lox.Proofs.Control
import Lox.Proofs.Grammar.Continuing
import Lox.Proofs.Separation

set_option autoImplicit false

namespace Lox

namespace Text

theorem stripRight_eq_self_iff (text : List Char) :
    stripRight text = text ↔ ∀ c ∈ text.getLast?, isBlank c = false := by
  change text.rdropWhile isBlank = text ↔ _
  rw [List.rdropWhile_eq_self_iff]
  constructor
  · intro last c final
    obtain ⟨front, rfl⟩ := List.getLast?_eq_some_iff.mp final
    simpa using last (by simp)
  · intro last some
    simpa using last _ (List.getLast?_eq_some_getLast some)

theorem stripRight_of_strip {text : List Char} (bare : strip text = text) :
    stripRight text = text := by
  have suffix := List.dropWhile_suffix (l := text) isBlank
  have shorter : (strip text).length ≤ (text.dropWhile isBlank).length :=
    (List.rdropWhile_prefix isBlank (text.dropWhile isBlank)).length_le
  rw [bare] at shorter
  rwa [strip, suffix.eq_of_length_le shorter] at bare

end Text

/-- The text of a line that asks for a value is what comes after the command. -/
theorem Command.ofLine_inspect {text : String} (some : text.toList ≠ [])
    (bare : Text.strip text.toList = text.toList) :
    ofLine (":inspect " ++ text) = .inspect text := by
  have line : (":inspect " ++ text).toList = ":inspect ".toList ++ text.toList :=
    String.toList_append
  have kept : Text.strip (":inspect " ++ text).toList = (":inspect " ++ text).toList := by
    have last := (Text.stripRight_eq_self_iff _).mp (Text.stripRight_of_strip bare)
    have front : (":inspect " ++ text).toList.dropWhile Text.isBlank =
        (":inspect " ++ text).toList := by
      rw [line]
      rfl
    rw [Text.strip, front, Text.stripRight_eq_self_iff, line, List.getLast?_append_of_ne_nil _ some]
    exact last
  have other {word : String} (apart : ¬ ":inspect ".toList <+: word.toList) :
      (":inspect " ++ text == word) = false := by
    rw [beq_eq_false_iff_ne]
    rintro rfl
    rw [line] at apart
    exact apart (List.prefix_append _ _)
  have rest : after? ":inspect" (":inspect " ++ text).toList = Option.some text.toList := by
    rw [line]
    rfl
  have noted : (":inspect " ++ text).toList.isEmpty = false := by
    rw [line]
    rfl
  have quit : (":inspect " ++ text == ":q") = false := other (by decide)
  have quitToo : (":inspect " ++ text == ":quit") = false := other (by decide)
  have vars : (":inspect " ++ text == ":vars") = false := other (by decide)
  have reset : (":inspect " ++ text == ":reset") = false := other (by decide)
  simp only [ofLine, kept, String.ofList_toList, noted, rest, quit, quitToo, vars, reset,
    Bool.or_self, Bool.false_eq_true, ↓reduceIte]

namespace Sentence

/-- A program of one expression is derived from its tokens and a semicolon. -/
theorem derives_expression_iff {expr : Expr} {tokens : List Token} :
    Derives false (.declarations [.expression expr]) tokens ↔ Ended expr tokens := by
  constructor
  · intro derives
    cases derives with
    | first declaration others =>
      cases others with
      | nothing =>
        rw [List.append_nil]
        cases declaration with
        | statement statements =>
          cases statements with
          | expression values => exact values
          | forever _ _ _ rounds => cases rounds
        | binding _ declares => cases declares
  · intro ended
    rw [← List.append_nil tokens]
    exact .first (.statement (.expression ended)) .nothing

end Sentence

namespace Parse

open Reader

theorem recovering_of_failed {α : Type} {step : Parse α} {cursor middle : Cursor}
    (failed : step cursor = .failed middle) :
    recovering step cursor = .ok none middle.synchronize := by
  rw [recovering, failed]

variable {expr : Expr} {cursor : Cursor}

/-- An expression at the end of the tokens is read, but no semicolon after it. -/
theorem ended_unended (derives : (Phrase.expr .assignment expr).Derives cursor.ahead) :
    ended (M := Parse) .noSemicolonAfterExpression .expression cursor = .failed
      ((cursor.beyond cursor.ahead []).record .noSemicolonAfterExpression cursor.last) := by
  have unfollowed : Grade.assignment.Unfollowed [] := fun _ member => by cases member
  have takes : Takes false (fun _ => expression) cursor.ahead [] expr :=
    takes_expression derives unfollowed
  obtain ⟨least, reads⟩ := takes
  have value := reads least (Nat.le_refl _) cursor (List.append_nil _).symm Bool.false_ne_true.elim
  rw [ended, bind_of_ok value]
  rcases expect_cases .semicolon .noSemicolonAfterExpression (cursor.beyond cursor.ahead []) with
    missed | ⟨_, _, found, _⟩
  · exact bind_of_failed missed _
  · cases found

/-- Nothing can be read from the tokens of an expression alone. -/
theorem declarations_unended (derives : (Phrase.expr .assignment expr).Derives cursor.ahead) :
    declarations (M := Parse) cursor = .ok []
      ((cursor.beyond cursor.ahead []).record .noSemicolonAfterExpression cursor.last) := by
  obtain ⟨first, more, begins, member⟩ := derives.begins
  -- No keyword begins an expression: all that is tried before an expression statement is passed by.
  have skip (kind : Kind) (other : kind ∉ Phrase.allBeginnings) {α : Type}
      (next : Option Token → Parse α) :
      (accept (· == kind) >>= next) cursor = next none cursor := by
    rcases accept_cases (· == kind) cursor with ⟨out, _⟩ | ⟨token, _, found, wanted, _⟩
    · exact bind_of_ok out next
    · rw [begins] at found
      cases found
      rw [← beq_iff_eq.mp wanted] at other
      exact absurd (Phrase.beginnings_subset _ member) other
  have statement (depth : Nat) :
      statementWithin (M := Parse) (depth + 1) cursor =
        ended (M := Parse) .noSemicolonAfterExpression .expression cursor := by
    rw [statementWithin]
    refine (skip .kwFor (by decide) _).trans ?_
    refine (skip .kwIf (by decide) _).trans ?_
    refine (skip .kwPrint (by decide) _).trans ?_
    refine (skip .kwReturn (by decide) _).trans ?_
    refine (skip .kwWhile (by decide) _).trans ?_
    exact skip .leftBrace (by decide) _
  have declaration (depth : Nat) : declarationWithin (M := Parse) (depth + 2) cursor = .ok none
      ((cursor.beyond cursor.ahead []).record .noSemicolonAfterExpression cursor.last) := by
    rw [declarationWithin]
    refine recovering_of_failed (Eq.trans ?_ (ended_unended derives))
    refine (skip .kwFun (by decide) _).trans ?_
    refine (skip .kwVar (by decide) _).trans ?_
    exact statement depth
  have some : cursor.ahead ≠ [] := by
    rw [begins]
    exact List.cons_ne_nil _ _
  exact continues_declaration some (Nat.le_refl _) (declaration _) _ _ (declarations_of_done rfl)

end Parse

namespace Program

theorem ofTokens_unended {expr : Expr} {tokens : List Token}
    (derives : (Phrase.expr .assignment expr).Derives tokens) (last : Token) :
    ofTokens tokens last = ([], [SyntaxError.noSemicolonAfterExpression.diagnostic last]) := by
  have read : Reader.declarations (M := Parse) (.start tokens last) = _ :=
    Parse.declarations_unended derives
  rw [ofTokens, read]
  rfl

def isSingle : Program → Bool
  | [.expression _] => true
  | _ => false

theorem exists_of_single {Problem : Type} {read : Except Problem Program}
    (single : read.toOption.any isSingle = true) : ∃ expr, read = .ok [.expression expr] := by
  cases read with
  | error => cases single
  | ok program =>
    change isSingle program = true at single
    unfold isSingle at single
    split at single
    · exact ⟨_, rfl⟩
    · cases single

variable {text : String} {expr : Expr}

/-- A text that a semicolon on the next line makes a statement is an expression. -/
theorem phrase_of_single (single : ofSource (text ++ "\n;") = .ok [.expression expr]) :
    (Scan.ofSource text).problems = [] ∧
      (Phrase.expr .assignment expr).Derives (Scan.ofSource text).tokens := by
  obtain ⟨clean, derives⟩ := (ofSource_eq_ok_iff _ _).mp single
  obtain ⟨quiet, semicolon, _, tokens⟩ := Scan.semicolon_below clean
  refine ⟨quiet, ?_⟩
  rw [tokens, Sentence.derives_expression_iff] at derives
  generalize whole : (Scan.ofSource text).tokens ++ [semicolon] = all at derives
  cases derives with
  | intro values _ =>
    obtain ⟨same, _⟩ := List.append_inj' whole rfl
    rwa [same]

/-- The semicolon at the end is the same as one on the next line, unless a comment takes it in. -/
theorem ofSource_asStatement (bare : Text.strip text.toList = text.toList)
    (single : ofSource (text ++ "\n;") = .ok [.expression expr])
    (uncommented : Scan.commented text = false) :
    ofSource (asStatement text) = .ok [.expression expr] := by
  obtain ⟨clean, derives⟩ := phrase_of_single single
  have unended : ¬ (Text.stripRight text.toList).getLast? = some ';' := by
    rw [Text.stripRight_of_strip bare]
    intro last
    obtain ⟨token, member, kind⟩ := Scan.semicolon_last uncommented clean last
    exact derives.no_semicolon token member kind
  obtain ⟨quiet, semicolon, kind, tokens⟩ := Scan.semicolon_behind uncommented clean
  rw [asStatement, if_neg unended, ofSource_eq_ok_iff, tokens, Sentence.derives_expression_iff]
  exact ⟨quiet, .intro derives kind⟩

/-- In a comment at the end no semicolon is found, whether there was one or one was added. -/
theorem ofSource_asStatement_commented
    (single : ofSource (text ++ "\n;") = .ok [.expression expr])
    (noted : Scan.commented text = true) : ofSource (asStatement text) =
      .error [SyntaxError.noSemicolonAfterExpression.diagnostic
        (.plain .endOfInput "" (Scan.lines text))] := by
  obtain ⟨clean, derives⟩ := phrase_of_single single
  have same : Scan.ofSource (asStatement text) = Scan.ofSource text := by
    unfold asStatement
    split
    · rfl
    · exact Scan.semicolon_inside noted
  have quiet : (Scan.ofSource (asStatement text)).problems = [] := by rw [same, clean]
  rw [ofSource_of_clean quiet, same, ofTokens_unended derives, Scan.last_eq]
  rfl

end Program

namespace World

variable {world : World} {expr : Expr} {state after : State}

theorem runAll_expression (fuel : Nat) :
    Machine.runAll (M := Run) world fuel none [.expression expr] =
      (world.evaluate fuel expr).andThen fun value => pure (some value) := rfl

/-- A program of one expression ends as the expression does. -/
theorem interpret?_of_done {fuel : Nat} {value : Value}
    (out : world.evaluate fuel expr state = .done value after) :
    world.interpret? fuel [.expression expr] state = some ⟨some value, false, after⟩ := by
  rw [interpret?_eq, runAll_expression, Run.andThen, out]
  rfl

theorem interpret?_of_fault {fuel : Nat} {reason : Fault}
    (out : world.evaluate fuel expr state = .fault reason after) :
    world.interpret? fuel [.expression expr] state =
      some ⟨none, true, after.add (.reported reason)⟩ := by
  rw [interpret?_eq, runAll_expression, Run.andThen, out]
  rfl

end World

namespace Session

variable {session : Session} {text : String} {expr : Expr}

/-- A response to a line that asks for the value of an expression. The expression was run as a
program, once, from the state of the session, which waits in the globals. A value is described after
what was printed, and where the run was aborted there is none. Only faults were reported. -/
structure Inspected (session : Session) (expr : Expr) (response : Response) : Prop where
  place : ∀ natives, session.world.Idle natives session.state →
    session.state.current = State.globals ∧ session.state.calls = 0
  ran : let result := session.merge [.expression expr]
    response = .ofEntry result (result.2.value.map (·.describe result.1.state.store))
  valued : ∀ value after,
    session.world.evaluate World.ample expr session.state = .done value after →
    let events := after.since session.state.trace.size
    response = ⟨session.after ⟨some value, false, after⟩,
      asLines (events.filterMap Event.output?) ++ asLines [value.describe after.store],
      asLines ((events.filterMap Event.diagnostic?).map Diagnostic.format), events, .more⟩
  aborted : ∀ reason after,
    session.world.evaluate World.ample expr session.state = .fault reason after →
    let last := after.add (.reported reason)
    let events := last.since session.state.trace.size
    response = ⟨session.after ⟨none, true, last⟩, asLines (events.filterMap Event.output?),
      asLines ((events.filterMap Event.diagnostic?).map Diagnostic.format), events, .more⟩
  faults : ∃ reported, response.session.problems = session.problems ++ reported ∧
    ∀ problem ∈ reported, problem.runtime = true

theorem runtime_of_diagnostic {event : Event} {problem : Diagnostic}
    (reports : event.diagnostic? = some problem) : problem.runtime = true := by
  obtain ⟨fault, _, rfl⟩ := Option.map_eq_some_iff.mp reports
  rfl

theorem merge_of_ended {program : Program} {verdict : Verdict}
    (ended : session.world.interpret? World.ample program session.state = some verdict) :
    session.merge program = (session.after verdict, session.entry verdict) := by
  simp only [merge, merge?, ended]
  rfl

/-- What a line has to show for a program that ended so. -/
theorem ofEntry_ended (session : Session) (verdict : Verdict) (shown : Option String) :
    let events := verdict.state.since session.state.trace.size
    Response.ofEntry (session.after verdict, session.entry verdict) shown =
      ⟨session.after verdict, asLines (events.filterMap Event.output?) ++ asLines shown.toList,
        asLines ((events.filterMap Event.diagnostic?).map Diagnostic.format), events, .more⟩ := by
  intro events
  rw [← Report.text_eq]
  rfl

theorem inspected_of_reads (read : String → Except ReadError String)
    (reads : Program.ofSource (asStatement text) = .ok [.expression expr]) :
    session.Inspected expr (session.obey read (.inspect text)) := by
  have ran : session.obey read (.inspect text) =
      let result := session.merge [.expression expr]
      .ofEntry result (result.2.value.map (·.describe result.1.state.store)) := by
    rw [obey, eval_of_ok reads]
  constructor
  · exact fun _ idle => idle.back
  · exact ran
  · intro value after out events
    rw [ran, merge_of_ended (World.interpret?_of_done out)]
    exact ofEntry_ended session _ _
  · intro reason after out last events
    rw [ran, merge_of_ended (World.interpret?_of_fault out)]
    have nothing : asLines (none : Option String).toList = "" := rfl
    refine (ofEntry_ended session ⟨none, true, last⟩ none).trans ?_
    simp only [nothing, String.append_empty, events]
  · rw [ran]
    cases ended : session.world.interpret? World.ample [.expression expr] session.state with
    | none =>
      have unended : session.merge [.expression expr] = (session, ⟨none, [], []⟩) := by
        simp only [merge, merge?, ended]
        rfl
      rw [unended]
      exact ⟨[], (List.append_nil _).symm, fun _ member => absurd member List.not_mem_nil⟩
    | some verdict =>
      rw [merge_of_ended ended]
      refine ⟨_, rfl, ?_⟩
      intro problem member
      obtain ⟨event, _, reports⟩ := List.mem_filterMap.mp member
      exact runtime_of_diagnostic reports

/-- The semicolon after an inspected expression may be left out, if a semicolon on the next line
would make the text a statement: the expression is run and its value described. A comment at the end
of the text is the exception. No semicolon is found then, even where one is written in it, and that
is reported; nothing is run. -/
theorem inspect_expression (session : Session) (read : String → Except ReadError String)
    {text : String} {expr : Expr} (bare : Text.strip text.toList = text.toList)
    (single : Program.ofSource (text ++ "\n;") = .ok [.expression expr]) :
    let response := session.obey read (.ofLine (":inspect " ++ text))
    (Scan.commented text = false → session.Inspected expr response) ∧
    (Scan.commented text = true →
      let missing := SyntaxError.noSemicolonAfterExpression.diagnostic
        (.plain .endOfInput "" (Scan.lines text))
      response = ⟨{ session with problems := session.problems ++ [missing] }, "",
        missing.format ++ "\n", [], .more⟩) := by
  intro response
  have some : text.toList ≠ [] := by
    intro none
    obtain ⟨_, derives⟩ := Program.phrase_of_single single
    obtain ⟨token, more, tokens, _⟩ := derives.begins
    simp [Scan.ofSource, none, Piece.split, Scan.ofNumbered, Piece.numbered] at tokens
  have line : response = session.obey read (.inspect text) := by
    simp only [response, Command.ofLine_inspect some bare]
  rw [line]
  constructor
  · intro uncommented
    exact inspected_of_reads read (Program.ofSource_asStatement bare single uncommented)
  · intro noted missing
    rw [obey, eval_of_error (Program.ofSource_asStatement_commented single noted)]
    simp only [Response.ofEntry, Report.text_eq]
    rfl

/-- A string that ends in a semicolon, after which one is put, and a comment at the end that ends in
one already. -/
theorem inspect_expression_semicolons :
    let session := start World.bare
    let read : String → Except ReadError String := fun _ => .error .missing
    let quoted := "\"a\" + \";\""
    let noted := "1 // c;"
    Text.strip quoted.toList = quoted.toList ∧ Text.strip noted.toList = noted.toList ∧
    Scan.commented quoted = false ∧ Scan.commented noted = true ∧
    (∃ sum, Program.ofSource (quoted ++ "\n;") = .ok [.expression sum] ∧
      session.Inspected sum (session.obey read (.ofLine (":inspect " ++ quoted)))) ∧
    (session.obey read (.ofLine (":inspect " ++ quoted))).out = "\"a;\"\n" ∧
    (∃ one, Program.ofSource (noted ++ "\n;") = .ok [.expression one]) ∧
    (session.obey read (.ofLine (":inspect " ++ noted))).err =
      "[line 1] Error at end: Expect ';' after expression.\n" := by
  intro session read quoted noted
  have bare : Text.strip quoted.toList = quoted.toList := by decide +kernel
  have bareToo : Text.strip noted.toList = noted.toList := by decide +kernel
  have plain : Scan.commented quoted = false := by decide +kernel
  have ends : Scan.commented noted = true := by decide +kernel
  obtain ⟨sum, single⟩ : ∃ sum, Program.ofSource (quoted ++ "\n;") = .ok [.expression sum] :=
    Program.exists_of_single (by decide +kernel)
  obtain ⟨one, singleToo⟩ : ∃ one, Program.ofSource (noted ++ "\n;") = .ok [.expression one] :=
    Program.exists_of_single (by decide +kernel)
  have inspected := (inspect_expression session read bare single).1 plain
  have missing := (inspect_expression session read bareToo singleToo).2 ends
  refine ⟨bare, bareToo, plain, ends, ⟨sum, single, inspected⟩, by decide +kernel,
    ⟨one, singleToo⟩, ?_⟩
  rw [missing]
  decide +kernel

/-- What the comment takes in is missed, though the expression has a value. -/
theorem semicolon_not_optional :
    let session := start World.bare
    let text := "1 // c"
    let response := session.obey (fun _ => .error .missing) (.ofLine (":inspect " ++ text))
    Text.strip text.toList = text.toList ∧ '\n' ∉ text.toList ∧ '\r' ∉ text.toList ∧
    (∃ one, Program.ofSource (text ++ "\n;") = .ok [.expression one]) ∧
    ((session.eval (text ++ "\n;")).2.value.map (·.describe session.state.store)) = some "1" ∧
    response.out = "" ∧ response.session.last.isNone = true ∧
    response.session.problems.map (·.runtime) = [false] := by
  refine ⟨by decide +kernel, by decide +kernel, by decide +kernel, ?_, by decide +kernel,
    by decide +kernel, by decide +kernel, by decide +kernel⟩
  exact Program.exists_of_single (by decide +kernel)

end Session

end Lox
