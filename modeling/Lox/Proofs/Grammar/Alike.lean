import Lox.Proofs.Grammar.SideBySide

set_option autoImplicit false

namespace Lox

open SideBySide

/-- The plain reader at places so related. -/
def SideBySide.fromPlaces (places : Cursor → Cursor → Prop) : SideBySide Parse Parse where
  keeps R first second := ∀ cursor twin, places cursor twin →
    (first cursor).Rel places places R (second twin)
  takes R first second := ∀ cursor twin, places cursor twin →
    (first cursor).Rel places places R (second twin)

/-- Places between which the tokens of some kinds can be gone past side by side. -/
structure Cursor.Steady (places : Cursor → Cursor → Prop) (like : Likeness) (passes : Kind → Prop) :
    Prop where
  next {cursor twin : Cursor} (there : places cursor twin) :
    Option.Rel like cursor.ahead.head? twin.ahead.head?
  past {cursor twin : Cursor} {token other : Token} {ahead rest : List Token}
    (there : places cursor twin) (tokens : cursor.ahead = token :: ahead)
    (others : twin.ahead = other :: rest) (passing : passes token.kind) :
    places (cursor.past token ahead) (twin.past other rest)
  record {cursor twin : Cursor} {token other : Token} (there : places cursor twin)
    (stands : like token other) (error : SyntaxError) :
    places (cursor.record error token) (twin.record error other)
  here {cursor twin : Cursor} (there : places cursor twin) : like cursor.here twin.here

/-- Either the end is reached on both sides or a token lies ahead on both. -/
theorem Cursor.Steady.cases {places : Cursor → Cursor → Prop} {like : Likeness} {passes : Kind → Prop}
    (steady : Steady places like passes) {cursor twin : Cursor} (there : places cursor twin) :
    (cursor.ahead = [] ∧ twin.ahead = []) ∨ ∃ token other ahead rest,
      cursor.ahead = token :: ahead ∧ twin.ahead = other :: rest ∧ like token other := by
  have heads := steady.next there
  cases one : cursor.ahead with
  | nil =>
    rw [one] at heads
    cases two : twin.ahead with
    | nil => exact .inl ⟨rfl, rfl⟩
    | cons other rest =>
      rw [two] at heads
      cases heads
  | cons token ahead =>
    rw [one] at heads
    cases two : twin.ahead with
    | nil =>
      rw [two] at heads
      cases heads
    | cons other rest =>
      rw [two] at heads
      cases heads with
      | some stands => exact .inr ⟨token, other, ahead, rest, rfl, rfl, stands⟩

theorem Cursor.Steady.sees_eq {places : Cursor → Cursor → Prop} {like : Likeness}
    {passes : Kind → Prop} (steady : Steady places like passes) (faithful : like.Faithful)
    {cursor twin : Cursor} (there : places cursor twin) (kind : Kind) :
    twin.sees kind = cursor.sees kind := by
  unfold sees
  rcases steady.cases there with ⟨one, two⟩ | ⟨token, other, ahead, rest, one, two, stands⟩
  · rw [one, two]
  · rw [one, two, List.head?_cons, List.head?_cons, Option.any_some, Option.any_some,
      faithful.kind stands]

namespace Parse

variable {places : Cursor → Cursor → Prop} {like : Likeness} {passes : Kind → Prop}
variable {α β γ δ : Type} {R : α → β → Prop} {S : γ → δ → Prop}

/-- One reading after another, on both sides. -/
theorem rel_bind {ends fails done : Cursor → Cursor → Prop} {first : Parse α} {second : Parse β}
    {next : α → Parse γ} {after : β → Parse δ} {cursor twin : Cursor}
    (begun : (first cursor).Rel ends fails R (second twin))
    (goes : ∀ value other middle further, R value other → ends middle further →
      (next value middle).Rel done fails S (after other further)) :
    ((first >>= next) cursor).Rel done fails S ((second >>= after) twin) := by
  cases one : first cursor with
  | ok value middle =>
    rw [one] at begun
    generalize two : second twin = parsed at begun
    cases begun with
    | ok values onward =>
      rw [bind_of_ok one, bind_of_ok two]
      exact goes _ _ _ _ values onward
  | failed middle =>
    rw [one] at begun
    generalize two : second twin = parsed at begun
    cases begun with
    | failed onward =>
      rw [bind_of_failed one, bind_of_failed two]
      exact .failed onward
  | spent =>
    rw [one] at begun
    generalize two : second twin = parsed at begun
    cases begun with
    | spent =>
      rw [bind_of_spent one, bind_of_spent two]
      exact .spent

theorem rel_andThen {first : Parse α} {second : Parse β} {next : α → Parse γ} {after : β → Parse δ}
    (firsts : (fromPlaces places).keeps R first second)
    (nexts : ∀ value other, R value other → (fromPlaces places).keeps S (next value) (after other)) :
    (fromPlaces places).keeps S (first >>= next) (second >>= after) :=
  fun cursor twin there => rel_bind (firsts cursor twin there) fun value other middle further values =>
    nexts value other values middle further

theorem rel_accept (steady : Cursor.Steady places like passes) (faithful : like.Faithful)
    {among : Kind → Bool} (passing : ∀ kind, among kind = true → passes kind) :
    (fromPlaces places).keeps (Option.Rel like) (accept among) (accept among) := by
  intro cursor twin there
  unfold accept
  rcases steady.cases there with ⟨one, two⟩ | ⟨token, other, ahead, rest, one, two, stands⟩
  · simp only [one, two]
    exact .ok .none there
  · simp only [one, two, faithful.kind stands]
    split
    · rename_i wanted
      exact .ok (.some stands) (steady.past there one two (passing _ wanted))
    · exact .ok .none there

theorem rel_acceptAtom (steady : Cursor.Steady places like passes) (faithful : like.Faithful)
    (literals : like.SameLiterals) (passing : ∀ kind, kind ≠ .semicolon → passes kind) :
    (fromPlaces places).keeps (Option.Rel (Expr.Like like)) acceptAtom acceptAtom := by
  intro cursor twin there
  unfold acceptAtom
  rcases steady.cases there with ⟨one, two⟩ | ⟨token, other, ahead, rest, one, two, stands⟩
  · simp only [one, two]
    exact .ok .none there
  · have atoms := Expr.like_ofToken? faithful literals stands
    simp only [one, two]
    cases atom : Expr.ofToken? token with
    | none =>
      rw [atom] at atoms
      generalize Expr.ofToken? other = copy at atoms ⊢
      cases atoms
      exact .ok .none there
    | some expr =>
      have inside : token.kind ≠ .semicolon := by
        intro ends
        rw [Expr.ofToken?, ends] at atom
        cases atom
      rw [atom] at atoms
      generalize Expr.ofToken? other = copy at atoms ⊢
      cases atoms with
      | some alike => exact .ok (.some alike) (steady.past there one two (passing _ inside))

theorem rel_branch {first third : Parse (Option α)} {next : Option α → Parse γ}
    {after : Option α → Parse δ} {R : α → α → Prop}
    (firsts : (fromPlaces places).keeps (Option.Rel R) first third)
    (without : (fromPlaces places).keeps S (next none) (after none))
    (taken : ∀ value other, R value other →
      (fromPlaces places).keeps S (next (some value)) (after (some other))) :
    (fromPlaces places).keeps S (first >>= next) (third >>= after) := by
  apply rel_andThen firsts
  intro value other values
  cases values with
  | none => exact without
  | some values => exact taken _ _ values

/-- Expressions are read side by side as long as no semicolon is gone past. -/
theorem rel_expressions (steady : Cursor.Steady places like passes) (faithful : like.Faithful)
    (literals : like.SameLiterals) (passing : ∀ kind, kind ≠ .semicolon → passes kind) :
    (fromPlaces places).Expressions like := by
  have accepts {among : Kind → Bool} (inside : among .semicolon = false) :
      (fromPlaces places).keeps (Option.Rel like) (accept among) (accept among) := by
    refine rel_accept steady faithful fun kind wanted => passing kind ?_
    rintro rfl
    rw [inside] at wanted
    cases wanted
  exact {
    pure := fun related _ _ there => .ok related there
    lax := id
    andThen := rel_andThen
    takesThen := rel_andThen
    thenTakes := rel_andThen
    spent := fun _ _ _ => .spent
    fail := fun _ _ _ there => .failed (steady.record there (steady.here there) _)
    note := fun _ _ _ stands _ _ there => .ok rfl (steady.record there stands _)
    noteHere := fun _ _ _ there => .ok rfl (steady.record there (steady.here there) _)
    sees := fun kind _ _ there => .ok (steady.sees_eq faithful there kind).symm there
    accept := fun inside => rel_branch (accepts inside)
    acceptTakes := fun inside => rel_branch (accepts inside)
    acceptAtom := rel_branch (rel_acceptAtom steady faithful literals passing) }

end Parse

namespace Cursor

/-- Places with tokens ahead that may stand for each other, and the problems found since they were so
many. What lies behind does not count. -/
structure Alike (like : Likeness) (given others : List Diagnostic) (cursor twin : Cursor) : Prop where
  ahead : List.Forall₂ like cursor.ahead twin.ahead
  last : like cursor.last twin.last
  functions : twin.functions = cursor.functions
  problems : ∃ found more, cursor.problems.toList = given ++ found ∧
    twin.problems.toList = others ++ more ∧ List.Forall₂ (Diagnostic.Like like) found more

variable {like : Likeness} {given others : List Diagnostic} {cursor twin : Cursor}

theorem Alike.heads (alike : Alike like given others cursor twin) :
    Option.Rel like cursor.ahead.head? twin.ahead.head? := by
  have tokens := alike.ahead
  generalize cursor.ahead = ahead, twin.ahead = rest at tokens ⊢
  cases tokens with
  | nil => exact .none
  | cons first _ => exact .some first

theorem alike_steady : Steady (Alike like given others) like fun _ => True where
  next there := there.heads
  past := by
    intro cursor twin token other ahead rest there one two _
    have tokens := there.ahead
    rw [one, two, List.forall₂_cons] at tokens
    exact ⟨tokens.2, there.last, there.functions, there.problems⟩
  record := by
    intro cursor twin token other there stands error
    obtain ⟨found, more, one, two, problems⟩ := there.problems
    refine ⟨there.ahead, there.last, there.functions, found ++ [error.diagnostic token],
      more ++ [error.diagnostic other], ?_, ?_, ?_⟩
    · rw [record, Array.toList_push, one, List.append_assoc]
    · rw [record, Array.toList_push, two, List.append_assoc]
    · exact List.rel_append problems (.cons ⟨.some stands, rfl, rfl⟩ .nil)
  here := by
    intro cursor twin there
    have heads := there.heads
    unfold here
    generalize cursor.ahead.head? = token, twin.ahead.head? = other at heads ⊢
    cases heads with
    | none => exact there.last
    | some stands => exact stands

/-- What is left out goes up to the same place on both sides: only tokens that were left out already
decide it. -/
theorem skipTo_alike (faithful : like.Faithful) {ahead rest : List Token}
    (tokens : List.Forall₂ like ahead rest) : ∀ behind past : List Token,
    past.head?.map Token.kind = behind.head?.map Token.kind →
      List.Forall₂ like (skipTo behind ahead).2 (skipTo past rest).2 := by
  induction tokens with
  | nil => exact fun _ _ _ => .nil
  | @cons next other ahead rest stands more ih =>
    intro behind past same
    have ends : past.head?.any (·.kind == .semicolon) = behind.head?.any (·.kind == .semicolon) := by
      have kinds (token : Option Token) :
          token.any (·.kind == .semicolon) = (token.map Token.kind).any (· == .semicolon) := by
        cases token <;> rfl
      rw [kinds, kinds, same]
    rw [skipTo, skipTo, ends, faithful.kind stands]
    split
    · exact .cons stands more
    · exact ih _ _ (congrArg some (faithful.kind stands))

theorem synchronize_of_ahead {cursor : Cursor} {token : Token} {tokens : List Token}
    (ahead : cursor.ahead = token :: tokens) :
    cursor.synchronize = { cursor with
      behind := (skipTo (token :: cursor.behind) tokens).1
      ahead := (skipTo (token :: cursor.behind) tokens).2 } := by
  simp only [synchronize, ahead]

/-- From the beginning on all problems count. -/
theorem Alike.found (alike : Alike like [] [] cursor twin) :
    List.Forall₂ (Diagnostic.Like like) cursor.problems.toList twin.problems.toList := by
  obtain ⟨found, more, one, two, problems⟩ := alike.problems
  rw [one, two]
  exact problems

theorem Alike.enter (alike : Alike like given others cursor twin) :
    Alike like given others { cursor with functions := cursor.functions + 1 }
      { twin with functions := twin.functions + 1 } :=
  ⟨alike.ahead, alike.last, congrArg (· + 1) alike.functions, alike.problems⟩

theorem Alike.leave (alike : Alike like given others cursor twin) :
    Alike like given others { cursor with functions := cursor.functions - 1 }
      { twin with functions := twin.functions - 1 } :=
  ⟨alike.ahead, alike.last, congrArg (· - 1) alike.functions, alike.problems⟩

theorem Alike.synchronize (faithful : like.Faithful) (alike : Alike like given others cursor twin) :
    Alike like given others cursor.synchronize twin.synchronize := by
  rcases alike_steady.cases alike with ⟨one, two⟩ | ⟨token, other, ahead, rest, one, two, stands⟩
  · rw [Cursor.synchronize, Cursor.synchronize, one, two]
    exact alike
  · have tokens := alike.ahead
    rw [one, two, List.forall₂_cons] at tokens
    rw [synchronize_of_ahead one, synchronize_of_ahead two]
    exact ⟨skipTo_alike faithful tokens.2 _ _ (congrArg some (faithful.kind stands)), alike.last,
      alike.functions, alike.problems⟩

end Cursor

namespace Parse

section Alike

variable {like : Likeness} {given others : List Diagnostic} {α β : Type} {R : α → β → Prop}

theorem rel_returning {keyword other : Token} (key : like keyword other) :
    (fromPlaces (Cursor.Alike like given others)).keeps Eq (returning keyword) (returning other) := by
  intro cursor twin there
  show Parsed.Rel _ _ _
    ((if decide (0 < cursor.functions) then pure () else note _ keyword : Parse Unit) cursor)
    ((if decide (0 < twin.functions) then pure () else note _ other : Parse Unit) twin)
  rw [there.functions]
  split
  · exact .ok rfl there
  · exact .ok rfl (Cursor.alike_steady.record there key _)

theorem rel_inFunction {first : Parse α} {second : Parse β}
    (bodies : (fromPlaces (Cursor.Alike like given others)).keeps R first second) :
    (fromPlaces (Cursor.Alike like given others)).keeps R (inFunction first) (inFunction second) := by
  intro cursor twin there
  have body := bodies _ _ there.enter
  unfold inFunction
  generalize first { cursor with functions := cursor.functions + 1 } = one,
    second { twin with functions := twin.functions + 1 } = two at body ⊢
  cases body with
  | ok values ends => exact .ok values ends.leave
  | failed ends => exact .failed ends.leave
  | spent => exact .spent

theorem rel_recovering (faithful : like.Faithful) {first : Parse α} {second : Parse β}
    (readings : (fromPlaces (Cursor.Alike like given others)).keeps R first second) :
    (fromPlaces (Cursor.Alike like given others)).keeps (Option.Rel R) (recovering first)
      (recovering second) := by
  intro cursor twin there
  have reading := readings cursor twin there
  unfold recovering
  generalize first cursor = one, second twin = two at reading ⊢
  cases reading with
  | ok values ends => exact .ok (.some values) ends
  | failed ends => exact .ok .none (ends.synchronize faithful)
  | spent => exact .spent

theorem rel_finished (faithful : like.Faithful) (inBlock : Bool) :
    (fromPlaces (Cursor.Alike like given others)).keeps Eq (finished inBlock) (finished inBlock) := by
  intro cursor twin there
  refine .ok ?_ there
  rw [Cursor.alike_steady.sees_eq faithful there]
  rcases Cursor.alike_steady.cases there with ⟨one, two⟩ | ⟨_, _, _, _, one, two, _⟩
  · rw [one, two]
  · rw [one, two, List.isEmpty_cons, List.isEmpty_cons]

/-- Programs are read side by side. -/
theorem alike_statements (faithful : like.Faithful) (literals : like.SameLiterals) :
    (fromPlaces (Cursor.Alike like given others)).Statements like where
  toExpressions := rel_expressions Cursor.alike_steady faithful literals fun _ _ => trivial
  acceptAny among := rel_branch (rel_accept Cursor.alike_steady faithful fun _ _ => trivial)
  acceptAnyTakes among := rel_branch (rel_accept Cursor.alike_steady faithful fun _ _ => trivial)
  depth cursor twin there := by
    refine .ok ?_ there
    rw [ample, ample, there.ahead.length_eq]
  finished := rel_finished faithful
  returning := rel_returning
  inFunction := rel_inFunction
  recovering := rel_recovering faithful

/-- What is read from tokens that may stand for each other is alike, with problems at tokens that may. -/
theorem declarations_alike (faithful : like.Faithful) (literals : like.SameLiterals)
    {cursor twin : Cursor} (there : Cursor.Alike like given others cursor twin) :
    (Reader.declarations (M := Parse) cursor).Rel (Cursor.Alike like given others)
      (Cursor.Alike like given others) (Stmt.AllLike like) (Reader.declarations (M := Parse) twin) :=
  (alike_statements faithful literals).declarations cursor twin there

end Alike

end Parse

end Lox
