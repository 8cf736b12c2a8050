import Lox.Proofs.Incremental
import Lox.Proofs.Grammar.Alike

set_option autoImplicit false

namespace Lox

def Token.Relined (token other : Token) : Prop :=
  other = { token with line := other.line }

/-- The token with its place among others for its line. -/
def Token.at (place : Nat) (token : Token) : Token :=
  { token with line := place }

theorem Token.at_of_relined (place : Nat) {token other : Token} (relined : token.Relined other) :
    other.at place = token.at place := by
  rw [relined]
  rfl

theorem mapIdx_of_forall₂ {α β : Type} {R : α → α → Prop} {first second : List α}
    (both : List.Forall₂ R first second) : ∀ {f : Nat → α → β},
      (∀ place value other, R value other → f place other = f place value) →
      second.mapIdx f = first.mapIdx f := by
  induction both with
  | nil => exact fun _ => rfl
  | cons related _ ih =>
    intro f same
    rw [List.mapIdx_cons, List.mapIdx_cons, same 0 _ _ related, ih fun place => same (place + 1)]

theorem Token.relined_of_eq {token other : Token} (kind : other.kind = token.kind)
    (lexeme : other.lexeme = token.lexeme) (literal : other.literal = token.literal) :
    token.Relined other := by
  rw [Relined, ← kind, ← lexeme, ← literal]

namespace Likeness

/-- Tokens that stand at the same place in two lists. -/
def placed (tokens others : List Token) : Likeness := fun token other =>
  ∃ place : Nat, tokens[place]? = some token ∧ others[place]? = some other

variable {tokens others : List Token}

theorem placed_self (same : others.length = tokens.length) :
    List.Forall₂ (placed tokens others) tokens others := by
  rw [List.forall₂_iff_get]
  refine ⟨same.symm, ?_⟩
  intro place here there
  exact ⟨place, List.getElem?_eq_getElem here, List.getElem?_eq_getElem there⟩

theorem relined_of_placed (relined : List.Forall₂ Token.Relined tokens others) {token other : Token}
    (stands : placed tokens others token other) : token.Relined other := by
  obtain ⟨place, here, there⟩ := stands
  obtain ⟨within, rfl⟩ := List.getElem?_eq_some_iff.mp here
  obtain ⟨inside, rfl⟩ := List.getElem?_eq_some_iff.mp there
  exact (List.forall₂_iff_get.mp relined).2 place within inside

theorem placed_faithful (relined : List.Forall₂ Token.Relined tokens others) :
    (placed tokens others).Faithful :=
  ⟨fun stands => by rw [relined_of_placed relined stands],
    fun stands => by rw [relined_of_placed relined stands]⟩

theorem placed_literals (relined : List.Forall₂ Token.Relined tokens others) :
    (placed tokens others).SameLiterals :=
  fun _ _ stands => by rw [relined_of_placed relined stands]

/-- A mark stands for the token whose place it has for its line. -/
def marking (tokens : List Token) : Likeness := fun mark token =>
  ∃ place : Nat, tokens[place]? = some token ∧ mark = token.at place

theorem marking_faithful (tokens : List Token) : (marking tokens).Faithful := by
  constructor <;>
  · rintro _ _ ⟨_, _, rfl⟩
    rfl

theorem marking_literals (tokens : List Token) : (marking tokens).SameLiterals := by
  rintro _ _ ⟨_, _, rfl⟩
  rfl

end Likeness

namespace Scan

/-- What a token writes is known from its kind and its lexeme. -/
theorem literal_of_mem {source : String} {token : Token} (member : token ∈ (ofSource source).tokens) :
    token.literal = Literal.ofLexeme? token.kind token.lexeme.toList := by
  obtain ⟨⟨piece, line⟩, _, same⟩ := List.mem_filterMap.mp member
  cases piece with
  | lexeme kind text =>
    cases same
    rw [String.toList_ofList]
  | blank | comment | stray | unterminated => cases same

theorem forall₂_of_allTokens {R : Token → Token → Prop} {scan other : Scan}
    (all : List.Forall₂ R scan.allTokens other.allTokens) :
    List.Forall₂ R scan.tokens other.tokens ∧ R scan.last other.last := by
  obtain ⟨tokens, _, split, ahead, rest⟩ := forall₂_append_left.mp all
  obtain ⟨last, ends, rfl⟩ := forall₂_singleton_left.mp rest
  obtain ⟨rfl, same⟩ := List.append_inj' split rfl
  cases same
  exact ⟨ahead, ends⟩

theorem relined {first second : String}
    (same : (ofSource second).tokens.map (fun token => (token.kind, token.lexeme)) =
      (ofSource first).tokens.map fun token => (token.kind, token.lexeme)) :
    List.Forall₂ Token.Relined (ofSource first).allTokens (ofSource second).allTokens := by
  refine List.rel_append ?_ (.cons rfl .nil)
  rw [List.forall₂_iff_get]
  have length := congrArg List.length same
  rw [List.length_map, List.length_map] at length
  refine ⟨length.symm, ?_⟩
  intro place here there
  have pairs := congrArg (·[place]?) same
  simp only [List.getElem?_map, List.getElem?_eq_getElem here, List.getElem?_eq_getElem there,
    Option.map_some, Option.some.injEq, Prod.mk.injEq] at pairs
  have one := literal_of_mem (List.getElem_mem here)
  have two := literal_of_mem (List.getElem_mem there)
  rw [pairs.1, pairs.2, ← one] at two
  exact Token.relined_of_eq pairs.1 pairs.2 two

/-- The scan with the place of each token among all for its line. -/
def marked (scan : Scan) : Scan :=
  ⟨scan.tokens.mapIdx Token.at, scan.last.at scan.tokens.length, scan.problems⟩

theorem marked_allTokens (scan : Scan) : scan.marked.allTokens = scan.allTokens.mapIdx Token.at :=
  List.mapIdx_concat.symm

theorem marking_marked (scan : Scan) :
    List.Forall₂ (Likeness.marking scan.allTokens) scan.marked.allTokens scan.allTokens := by
  rw [marked_allTokens, List.forall₂_iff_get]
  refine ⟨List.length_mapIdx, ?_⟩
  intro place _ inside
  refine ⟨place, List.getElem?_eq_getElem inside, ?_⟩
  rw [List.get_eq_getElem, List.getElem_mapIdx]
  rfl

/-- The marks do not tell on which lines the tokens are. -/
theorem marked_of_relined {scan other : Scan} (problems : other.problems = scan.problems)
    (relined : List.Forall₂ Token.Relined scan.allTokens other.allTokens) :
    other.marked = scan.marked := by
  obtain ⟨ahead, ends⟩ := forall₂_of_allTokens relined
  rw [marked, marked, problems, mapIdx_of_forall₂ ahead fun place _ _ => Token.at_of_relined place,
    ← ahead.length_eq, Token.at_of_relined _ ends]

end Scan

/-- Before anything has run only natives are bound, and those hold no tokens. -/
theorem State.initial_like (like : Likeness) (config : Config) (natives : List Native) :
    (State.initial config natives).Like like (State.initial config natives) := by
  have bound (listed : List Native) : ∀ bindings : Bindings, bindings.Like like bindings →
      (listed.foldl (fun bindings native => bindings.set native.name (.native native)) bindings).Like like
        (listed.foldl (fun bindings native => bindings.set native.name (.native native)) bindings) := by
    induction listed with
    | nil => exact fun _ alike => alike
    | cons native rest ih => exact fun bindings alike => ih _ (alike.set native.name (.native native))
  have empty : Store.empty.Like like Store.empty := ⟨rfl, fun _ => rfl, fun _ => .nil⟩
  exact ⟨empty.extend none (bound _ [] .nil), rfl, rfl, .nil, rfl⟩

theorem State.Like.diagnostics {like : Likeness} {state twin : State} (alike : state.Like like twin) :
    List.Forall₂ (Diagnostic.Like like) state.diagnostics twin.diagnostics :=
  List.rel_filterMap (fun _ _ events => events.diagnostic) alike.trace

namespace World

/-- Programs that are alike end alike from the beginning. -/
theorem interpret?_like {world : World} {like : Likeness} (faithful : like.Faithful)
    (host : world.host.Blind like) {program twin : Program} (alike : Stmt.AllLike like program twin)
    (plain : Stmt.allStraight program = true) (plainTwin : Stmt.allStraight twin = true)
    (natives : List Native) (fuel : Nat) :
    Option.Rel (Verdict.Like like (Option.Rel (Value.Like like)))
      (world.interpret? fuel program (.initial world.config natives))
      (world.interpret? fuel twin (.initial world.config natives)) := by
  rw [interpret?_eq, interpret?_eq]
  exact runAll_like faithful host alike plain plainTwin (State.initial_like like _ natives)
    (fun _ _ same => same (.inl .none)) fuel

theorem ends_iff_of_like {world : World} {like : Likeness} (faithful : like.Faithful)
    (host : world.host.Blind like) {program twin : Program} (alike : Stmt.AllLike like program twin)
    (plain : Stmt.allStraight program = true) (plainTwin : Stmt.allStraight twin = true)
    (natives : List Native) :
    let state := State.initial world.config natives
    ((∃ verdict, world.Ends program state verdict) ↔ ∃ verdict, world.Ends twin state verdict) ∧
      ∀ verdict other, world.Ends program state verdict → world.Ends twin state other →
        verdict.Like like (Option.Rel (Value.Like like)) other := by
  intro state
  have ends := interpret?_like faithful host alike plain plainTwin natives
  refine ⟨⟨?_, ?_⟩, ?_⟩
  · rintro ⟨verdict, fuel, ran⟩
    have both := ends fuel
    rw [ran] at both
    generalize other : world.interpret? fuel twin _ = copy at both
    cases both with
    | some => exact ⟨_, fuel, other⟩
  · rintro ⟨verdict, fuel, ran⟩
    have both := ends fuel
    rw [ran] at both
    generalize other : world.interpret? fuel program _ = copy at both
    cases both with
    | some => exact ⟨_, fuel, other⟩
  · rintro verdict other ⟨fuel, ran⟩ ended
    have both := ends fuel
    rw [ran] at both
    generalize copied : world.interpret? fuel twin _ = copy at both
    cases both with
    | some verdicts =>
      rwa [Ends.unique ended ⟨fuel, copied⟩]

/-- Two programs that are each like a third one report the same faults as it does. -/
theorem found_of_like {world : World} {here there : Likeness} (faithful : here.Faithful)
    (faithfulToo : there.Faithful) (hostHere : world.host.Blind here)
    (hostThere : world.host.Blind there) {marked program twin : Program}
    (alike : Stmt.AllLike here marked program) (alikeToo : Stmt.AllLike there marked twin)
    (plainMarked : Stmt.allStraight marked = true) (plain : Stmt.allStraight program = true)
    (plainTwin : Stmt.allStraight twin = true) (natives : List Native) :
    let state := State.initial world.config natives
    ((∃ verdict, world.Ends marked state verdict) ↔ ∃ verdict, world.Ends program state verdict) ∧
      ∀ found verdict other, world.Ends marked state found → world.Ends program state verdict →
        world.Ends twin state other →
        List.Forall₂ (Diagnostic.Like here) found.state.diagnostics verdict.state.diagnostics ∧
        List.Forall₂ (Diagnostic.Like there) found.state.diagnostics other.state.diagnostics := by
  intro state
  obtain ⟨both, runs⟩ := ends_iff_of_like faithful hostHere alike plainMarked plain natives
  obtain ⟨_, runsToo⟩ := ends_iff_of_like faithfulToo hostThere alikeToo plainMarked plainTwin natives
  refine ⟨both, ?_⟩
  intro found verdict other ended endedHere endedThere
  exact ⟨(runs found verdict ended endedHere).state.diagnostics,
    (runsToo found other ended endedThere).state.diagnostics⟩

end World

namespace Program

/-- What is read from the tokens of two texts that differ in their lines alone. -/
theorem ofTokens_alike {like : Likeness} (faithful : like.Faithful) (literals : like.SameLiterals)
    {tokens others : List Token} {last end' : Token} (ahead : List.Forall₂ like tokens others)
    (ends : like last end') :
    Stmt.AllLike like (ofTokens tokens last).1 (ofTokens others end').1 ∧
      List.Forall₂ (Diagnostic.Like like) (ofTokens tokens last).2 (ofTokens others end').2 := by
  have start : Cursor.Alike like [] [] (.start tokens last) (.start others end') :=
    ⟨ahead, ends, rfl, [], [], rfl, rfl, .nil⟩
  have read := Parse.declarations_alike faithful literals start
  unfold ofTokens
  generalize Reader.declarations (M := Parse) (.start tokens last) = one,
    Reader.declarations (M := Parse) (.start others end') = two at read ⊢
  cases read with
  | ok alike there => exact ⟨alike, there.found⟩
  | failed there => exact ⟨.nil, there.found⟩
  | spent => exact ⟨.nil, .nil⟩

theorem straight_of_ofTokens {tokens : List Token} {last : Token}
    (silent : (ofTokens tokens last).2 = []) :
    Stmt.allStraight (ofTokens tokens last).1 = true :=
  (derives_of_ofTokens (Prod.ext rfl silent)).straight rfl

/-- What is read from the tokens of a text, and from those with their places for lines. -/
theorem ofTokens_marked (scan : Scan) :
    let like := Likeness.marking scan.allTokens
    let marked := ofTokens scan.marked.tokens scan.marked.last
    Stmt.AllLike like marked.1 (ofTokens scan.tokens scan.last).1 ∧
      List.Forall₂ (Diagnostic.Like like) marked.2 (ofTokens scan.tokens scan.last).2 := by
  obtain ⟨ahead, ends⟩ := Scan.forall₂_of_allTokens scan.marking_marked
  exact ofTokens_alike (Likeness.marking_faithful _) (Likeness.marking_literals _) ahead ends

/-- A text whose scan found no problem is a program if reading its tokens finds none. -/
theorem ofSource_of_clean {source : String} (clean : (Scan.ofSource source).problems = []) :
    ofSource source =
      if (ofTokens (Scan.ofSource source).tokens (Scan.ofSource source).last).2 = [] then
        .ok (ofTokens (Scan.ofSource source).tokens (Scan.ofSource source).last).1
      else .error (ofTokens (Scan.ofSource source).tokens (Scan.ofSource source).last).2 := by
  simp only [ofSource, clean, List.nil_append]
  cases (ofTokens (Scan.ofSource source).tokens (Scan.ofSource source).last).2 <;> rfl

/-- Layout does not count. Two texts with the same lexemes are both programs or both refused, with
the same problems at tokens at the same places. As programs they are the same but for the lines of
their tokens; both come to an end or neither does; and they print the same texts, give the same
result, leave the same global names and values, are aborted alike, and report the same faults at
tokens at the same places.

Tokens of one text that are equal are told apart by their marks: read with their places for lines
the texts are one, each is read as that one is, and a fault of either is reported of the token whose
place the same fault of the marked program names. -/
theorem layout_independent {first second : String} (clean : (Scan.ofSource first).problems = [])
    (cleanToo : (Scan.ofSource second).problems = [])
    (same : (Scan.ofSource second).tokens.map (fun token => (token.kind, token.lexeme)) =
      (Scan.ofSource first).tokens.map fun token => (token.kind, token.lexeme)) :
    let like := Likeness.placed (Scan.ofSource first).allTokens (Scan.ofSource second).allTokens
    let here := Likeness.marking (Scan.ofSource first).allTokens
    let there := Likeness.marking (Scan.ofSource second).allTokens
    let scan := (Scan.ofSource first).marked
    let marked := ofTokens scan.tokens scan.last
    (∀ token other, like token other → other = { token with line := other.line }) ∧
    (Scan.ofSource second).marked = scan ∧
    ((∃ problems others, ofSource first = .error problems ∧ ofSource second = .error others ∧
        List.Forall₂ (Diagnostic.Like like) problems others ∧
        List.Forall₂ (Diagnostic.Like here) marked.2 problems ∧
        List.Forall₂ (Diagnostic.Like there) marked.2 others) ∨
      ∃ program twin, ofSource first = .ok program ∧ ofSource second = .ok twin ∧
        Stmt.AllLike like program twin ∧ Stmt.AllLike here marked.1 program ∧
        Stmt.AllLike there marked.1 twin ∧
        ∀ (world : World) (natives : List Native),
          let state := State.initial world.config natives
          (world.host.Blind like →
            ((∃ verdict, world.Ends program state verdict) ↔
              ∃ verdict, world.Ends twin state verdict) ∧
            ∀ verdict other, world.Ends program state verdict → world.Ends twin state other →
              other.state.output = verdict.state.output ∧
              Option.Rel (Value.Like like) verdict.result other.result ∧
              verdict.state.globalBindings.Like like other.state.globalBindings ∧
              other.aborted = verdict.aborted ∧
              List.Forall₂ (Diagnostic.Like like) verdict.state.diagnostics
                other.state.diagnostics) ∧
          (world.host.Blind here → world.host.Blind there →
            ((∃ verdict, world.Ends marked.1 state verdict) ↔
              ∃ verdict, world.Ends program state verdict) ∧
            ∀ found verdict other, world.Ends marked.1 state found →
              world.Ends program state verdict → world.Ends twin state other →
              List.Forall₂ (Diagnostic.Like here) found.state.diagnostics
                verdict.state.diagnostics ∧
              List.Forall₂ (Diagnostic.Like there) found.state.diagnostics
                other.state.diagnostics)) := by
  intro like here there scan marked
  have relined := Scan.relined same
  have faithful := Likeness.placed_faithful relined
  have literals := Likeness.placed_literals relined
  have places : List.Forall₂ like _ _ := Likeness.placed_self relined.length_eq.symm
  have marks : (Scan.ofSource second).marked = scan :=
    Scan.marked_of_relined (cleanToo.trans clean.symm) relined
  refine ⟨fun _ _ => Likeness.relined_of_placed relined, marks, ?_⟩
  obtain ⟨ahead, ends⟩ := Scan.forall₂_of_allTokens places
  obtain ⟨alike, found⟩ := ofTokens_alike faithful literals ahead ends
  obtain ⟨readHere, foundHere⟩ := ofTokens_marked (Scan.ofSource first)
  obtain ⟨readThere, foundThere⟩ := ofTokens_marked (Scan.ofSource second)
  rw [marks] at readThere foundThere
  have one := ofSource_of_clean clean
  have two := ofSource_of_clean cleanToo
  -- Problems are found in both texts or in neither, since they are found place by place.
  by_cases silent : (ofTokens (Scan.ofSource first).tokens (Scan.ofSource first).last).2 = []
  · right
    rw [silent, List.forall₂_nil_left_iff] at found
    rw [if_pos silent] at one
    rw [if_pos found] at two
    refine ⟨_, _, one, two, alike, readHere, readThere, ?_⟩
    intro world natives state
    have plain := ((ofSource_eq_ok_iff _ _).mp one).2.straight rfl
    have plainToo := ((ofSource_eq_ok_iff _ _).mp two).2.straight rfl
    refine ⟨?_, ?_⟩
    · intro host
      obtain ⟨both, verdicts⟩ := World.ends_iff_of_like faithful host alike plain plainToo natives
      refine ⟨both, ?_⟩
      intro verdict other ended endedToo
      have like := verdicts verdict other ended endedToo
      exact ⟨like.state.output, like.result, like.state.store.bindings _, like.aborted,
        like.state.diagnostics⟩
    · intro hostHere hostThere
      rw [silent] at foundHere
      have silence : marked.2 = [] := List.forall₂_nil_right_iff.mp foundHere
      exact World.found_of_like (Likeness.marking_faithful _) (Likeness.marking_faithful _) hostHere
        hostThere readHere readThere (straight_of_ofTokens silence) plain plainToo natives
  · left
    have noisy : (ofTokens (Scan.ofSource second).tokens (Scan.ofSource second).last).2 ≠ [] := by
      intro quiet
      rw [quiet, List.forall₂_nil_right_iff] at found
      exact silent found
    rw [if_neg silent] at one
    rw [if_neg noisy] at two
    exact ⟨_, _, one, two, found, foundHere, foundThere⟩

/-- A function that faults, its body on a line of its own or everything on one line. The fault is
found of the sixth token. -/
theorem layout_independent_oneLine :
    let first := "fun f() \x7b\n  -nil; // no number\n\x7d\nf();\nprint 1;"
    let second := "fun f()\x7b-nil;\x7df();print 1;"
    let like := Likeness.placed (Scan.ofSource first).allTokens (Scan.ofSource second).allTokens
    let here := Likeness.marking (Scan.ofSource first).allTokens
    let there := Likeness.marking (Scan.ofSource second).allTokens
    let scan := (Scan.ofSource first).marked
    let state := State.initial World.bare.config []
    (Scan.ofSource first).problems = [] ∧ (Scan.ofSource second).problems = [] ∧
      (Scan.ofSource second).tokens.map (fun token => (token.kind, token.lexeme)) =
        (Scan.ofSource first).tokens.map (fun token => (token.kind, token.lexeme)) ∧
      World.bare.host.Blind like ∧ World.bare.host.Blind here ∧ World.bare.host.Blind there ∧
      ∃ program twin verdict other found, ofSource first = .ok program ∧ ofSource second = .ok twin ∧
        Stmt.AllLike like program twin ∧ World.bare.Ends program state verdict ∧
        World.bare.Ends twin state other ∧ other.state.output = verdict.state.output ∧
        verdict.state.diagnostics.map (·.line) = [some 2] ∧
        other.state.diagnostics.map (·.line) = [some 1] ∧
        List.Forall₂ (Diagnostic.Like like) verdict.state.diagnostics other.state.diagnostics ∧
        World.bare.Ends (ofTokens scan.tokens scan.last).1 state found ∧
        found.state.diagnostics.map (·.line) = [some 5] ∧
        List.Forall₂ (Diagnostic.Like here) found.state.diagnostics verdict.state.diagnostics ∧
        List.Forall₂ (Diagnostic.Like there) found.state.diagnostics other.state.diagnostics := by
  intro first second like here there scan state
  have clean : (Scan.ofSource first).problems = [] := by decide +kernel
  have cleanToo : (Scan.ofSource second).problems = [] := by decide +kernel
  have same : (Scan.ofSource second).tokens.map (fun token => (token.kind, token.lexeme)) =
      (Scan.ofSource first).tokens.map fun token => (token.kind, token.lexeme) := by decide +kernel
  have host (like : Likeness) : World.bare.host.Blind like := World.bare_blind like
  let program := (ofSource first).toOption.get (by decide +kernel)
  let twin := (ofSource second).toOption.get (by decide +kernel)
  have reads : ofSource first = .ok program := Program.eq_ok_get _ _
  have readsToo : ofSource second = .ok twin := Program.eq_ok_get _ _
  obtain ⟨_, _, ⟨_, _, refused, _⟩ | ⟨one, two, readsOne, readsTwo, alike, _, _, runs⟩⟩ :=
    layout_independent clean cleanToo same
  · rw [reads] at refused
    cases refused
  · obtain rfl : program = one := Except.ok.inj (reads.symm.trans readsOne)
    obtain rfl : twin = two := Except.ok.inj (readsToo.symm.trans readsTwo)
    let marked := (ofTokens scan.tokens scan.last).1
    let verdict := (World.bare.interpret? 9 program state).get (by decide +kernel)
    let other := (World.bare.interpret? 9 twin state).get (by decide +kernel)
    let found := (World.bare.interpret? 9 marked state).get (by decide +kernel)
    have ends : World.bare.Ends program state verdict := ⟨9, (Option.some_get _).symm⟩
    have endsToo : World.bare.Ends twin state other := ⟨9, (Option.some_get _).symm⟩
    have endsMarked : World.bare.Ends marked state found := ⟨9, (Option.some_get _).symm⟩
    obtain ⟨plainly, byMarks⟩ := runs World.bare []
    obtain ⟨output, _, _, _, diagnostics⟩ := (plainly (host like)).2 verdict other ends endsToo
    obtain ⟨onHere, onThere⟩ :=
      (byMarks (host here) (host there)).2 found verdict other endsMarked ends endsToo
    exact ⟨clean, cleanToo, same, host like, host here, host there, program, twin, verdict, other,
      found, reads, readsToo, alike, ends, endsToo, output, by decide +kernel, by decide +kernel,
      diagnostics, endsMarked, by decide +kernel, onHere, onThere⟩

end Program

end Lox
