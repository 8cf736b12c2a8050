import Lox.Proofs.Grammar.Account
import Lox.Proofs.Grammar.Progress
import Lox.Proofs.Grammar.SideBySide

set_option autoImplicit false

namespace Lox

/-- What can be under way while tokens are read. -/
inductive Construct where
  | declaration
  | functionBody
deriving DecidableEq

/-- An entry of a journal, with the constructs around it, innermost first. -/
inductive Remark where
  /-- Reading is at a place. -/
  | at (around : List Construct) (cursor : Cursor)
  /-- A return statement begins. -/
  | returns (around : List Construct) (keyword : Token)
  /-- A declaration was read, or given up and what follows it left out. -/
  | declared (around : List Construct) (before after : Cursor)

/-- A step of reading, among the constructs around it, that keeps a journal. -/
def Journaled (α : Type) : Type := List Construct → Cursor → List Remark × Parsed α

namespace Journaled

def andThen {α β : Type} (first : Journaled α) (next : α → Journaled β) : Journaled β :=
  fun around cursor =>
    match (first around cursor).2 with
    | .ok value middle =>
      ((first around cursor).1 ++ (next value around middle).1, (next value around middle).2)
    | .failed after => ((first around cursor).1, .failed after)
    | .spent => ((first around cursor).1, .spent)

def step {α : Type} (reading : Parse α) : Journaled α := fun around cursor =>
  ([.at around cursor], reading cursor)

def returning (keyword : Token) : Journaled Unit := fun around cursor =>
  ([.at around cursor, .returns around keyword], Parse.returning keyword cursor)

/-- What is remarked where a reading ends, if it ends. -/
def closing {α : Type} (remark : Cursor → Remark) : Parsed α → List Remark
  | .ok _ after | .failed after => [remark after]
  | .spent => []

/-- A function body, from where it begins to where it is done or given up. -/
def inFunction {α : Type} (body : Journaled α) : Journaled α := fun around cursor =>
  let start := { cursor with functions := cursor.functions + 1 }
  let during := body (.functionBody :: around) start
  let ended := Parse.inFunction (fun _ => during.2) cursor
  (.at (.functionBody :: around) start :: during.1 ++ closing (.at around) ended, ended)

/-- A declaration, from where it begins to where the next one does. -/
def recovering {α : Type} (statement : Journaled α) : Journaled (Option α) := fun around cursor =>
  let during := statement (.declaration :: around) cursor
  let ended := Parse.recovering (fun _ => during.2) cursor
  (.at (.declaration :: around) cursor :: during.1 ++ closing (.declared around cursor) ended, ended)

end Journaled

instance : Reader Journaled where
  pure value := fun _ cursor => ([], .ok value cursor)
  bind := Journaled.andThen
  step := Journaled.step
  returning := Journaled.returning
  inFunction := Journaled.inFunction
  recovering := Journaled.recovering

namespace Cursor

/-- The tokens between two places were left behind, and nothing else happened to the tokens. -/
def Reaches (before after : Cursor) : Prop :=
  ∃ read, after.behind = read.reverse ++ before.behind ∧ before.ahead = read ++ after.ahead ∧
    after.last = before.last

theorem Reaches.refl (cursor : Cursor) : cursor.Reaches cursor :=
  ⟨[], rfl, rfl, rfl⟩

theorem Reaches.trans {before middle after : Cursor} (first : before.Reaches middle)
    (rest : middle.Reaches after) : before.Reaches after := by
  obtain ⟨read, behind, ahead, last⟩ := first
  obtain ⟨more, further, left, same⟩ := rest
  refine ⟨read ++ more, ?_, ?_, same.trans last⟩
  · rw [further, behind, List.reverse_append, List.append_assoc]
  · rw [ahead, left, List.append_assoc]

theorem Reaches.length_le {before after : Cursor} (reaches : before.Reaches after) :
    after.ahead.length ≤ before.ahead.length := by
  obtain ⟨read, _, ahead, _⟩ := reaches
  rw [ahead, List.length_append]
  exact Nat.le_add_left _ _

theorem Went.reaches {before after : Cursor} {read : List Token} {found : List Diagnostic}
    (went : before.Went read found after) : before.Reaches after :=
  ⟨read, went.behind, went.ahead, went.last⟩

end Cursor

namespace Remark

def cursor? : Remark → Option Cursor
  | .at _ cursor => some cursor
  | .returns _ _ => none
  | .declared _ _ after => some after

/-- The problem of a return statement with no function body around it. -/
def stray? : Remark → Option Diagnostic
  | .returns around keyword =>
    if .functionBody ∈ around then none
    else some (SyntaxError.returnOutsideFunction.diagnostic keyword)
  | _ => none

/-- The counter of function bodies counts those that are under way, and a declaration that began
before the end went past a token. -/
def Right : Remark → Prop
  | .at around cursor => cursor.functions = around.count .functionBody
  | .returns _ _ => True
  | .declared around before after =>
    before.functions = around.count .functionBody ∧ after.functions = around.count .functionBody ∧
      (before.ahead ≠ [] → after.ahead.length < before.ahead.length)

end Remark

def Diagnostic.isStray (diagnostic : Diagnostic) : Bool :=
  diagnostic.message == SyntaxError.returnOutsideFunction.message

def Cursor.strays (cursor : Cursor) : List Diagnostic :=
  cursor.problems.toList.filter Diagnostic.isStray

/-- A journal tells of all that happened between two places. -/
structure Journey (before : Cursor) (remarks : List Remark) (after : Cursor) : Prop where
  reaches : before.Reaches after
  strays : after.strays = before.strays ++ remarks.filterMap Remark.stray?
  places : ∀ cursor ∈ remarks.filterMap Remark.cursor?, before.Reaches cursor ∧ cursor.Reaches after
  order : (remarks.filterMap Remark.cursor?).Pairwise Cursor.Reaches
  right : ∀ remark ∈ remarks, remark.Right

namespace Journey

variable {before middle after : Cursor}

theorem refl (cursor : Cursor) : Journey cursor [] cursor :=
  ⟨.refl cursor, (List.append_nil _).symm, by simp, .nil, by simp⟩

theorem trans {remarks more : List Remark} (first : Journey before remarks middle)
    (rest : Journey middle more after) : Journey before (remarks ++ more) after := by
  refine ⟨first.reaches.trans rest.reaches, ?_, ?_, ?_, ?_⟩
  · rw [rest.strays, first.strays, List.filterMap_append, List.append_assoc]
  · intro cursor member
    rw [List.filterMap_append, List.mem_append] at member
    rcases member with early | late
    · obtain ⟨reached, onward⟩ := first.places cursor early
      exact ⟨reached, onward.trans rest.reaches⟩
    · obtain ⟨reached, onward⟩ := rest.places cursor late
      exact ⟨first.reaches.trans reached, onward⟩
  · rw [List.filterMap_append, List.pairwise_append]
    refine ⟨first.order, rest.order, ?_⟩
    intro early one late two
    exact (first.places early one).2.trans (rest.places late two).1
  · intro remark member
    rcases List.mem_append.mp member with early | late
    · exact first.right remark early
    · exact rest.right remark late

/-- One remark on the way, at a place that lies between. -/
theorem single {remark : Remark} {there : Cursor} (right : remark.Right)
    (place : remark.cursor? = some there) (quiet : remark.stray? = none)
    (first : before.Reaches there) (rest : there.Reaches after) (same : after.strays = before.strays) :
    Journey before [remark] after := by
  refine ⟨first.trans rest, ?_, ?_, ?_, ?_⟩
  · rw [List.filterMap_cons_none quiet, List.filterMap_nil, List.append_nil, same]
  · intro cursor member
    rw [List.filterMap_cons_some place, List.filterMap_nil, List.mem_singleton] at member
    subst member
    exact ⟨first, rest⟩
  · rw [List.filterMap_cons_some place, List.filterMap_nil]
    exact List.pairwise_singleton _ _
  · intro other member
    rw [List.mem_singleton] at member
    subst member
    exact right

end Journey

/-- A journal tells of all that happened up to the end of a reading, which leaves the counter of
function bodies as it was. -/
def Parsed.Told {α : Type} (before : Cursor) (remarks : List Remark) : Parsed α → Prop
  | .ok _ after | .failed after =>
    Journey before remarks after ∧ after.functions = before.functions
  | .spent => True

/-- What goes past tokens or finds problems, but none of a return statement. -/
def Parsed.Plainly {α : Type} (before : Cursor) : Parsed α → Prop
  | .ok _ after | .failed after => ∃ read found, before.Went read found after ∧
      found.filter Diagnostic.isStray = []
  | .spent => True

namespace Journaled

variable {α β γ δ : Type} {R : α → β → Prop} {S : γ → δ → Prop}

/-- A reading with a journal comes to what the reading without one does, and its journal tells of all
that happened. -/
structure Faithful (R : α → β → Prop) (before : Cursor) (journal : List Remark × Parsed α)
    (parsed : Parsed β) : Prop where
  told : journal.2.Told before journal.1
  same : Parsed.Rel Eq Eq R journal.2 parsed

def beside : SideBySide Journaled Parse where
  keeps R first second := ∀ around cursor, cursor.functions = around.count .functionBody →
    Faithful R cursor (first around cursor) (second cursor)
  takes R first second := ∀ around cursor, cursor.functions = around.count .functionBody →
    Faithful R cursor (first around cursor) (second cursor) ∧
      ∀ value after, (first around cursor).2 = .ok value after →
        after.ahead.length < cursor.ahead.length

theorem Faithful.length_le {before after : Cursor} {journal : List Remark × Parsed α}
    {parsed : Parsed β} (faithful : Faithful R before journal parsed) {value : α}
    (success : journal.2 = .ok value after) : after.ahead.length ≤ before.ahead.length := by
  have told := faithful.told
  rw [success] at told
  exact told.1.reaches.length_le

theorem andThen_ok {first : Journaled α} {around : List Construct} {cursor middle : Cursor} {value : α}
    (success : (first around cursor).2 = .ok value middle) (next : α → Journaled γ) :
    (first >>= next) around cursor =
      ((first around cursor).1 ++ (next value around middle).1, (next value around middle).2) := by
  show first.andThen next around cursor = _
  simp only [andThen, success]

theorem faithful_andThen {first : Journaled α} {second : Parse β} {next : α → Journaled γ}
    {after : β → Parse δ} {around : List Construct} {cursor : Cursor}
    (firsts : Faithful R cursor (first around cursor) (second cursor))
    (nexts : ∀ value other middle, middle.functions = cursor.functions → R value other →
      (first around cursor).2 = .ok value middle →
      Faithful S middle (next value around middle) (after other middle)) :
    Faithful S cursor ((first >>= next) around cursor) ((second >>= after) cursor) := by
  obtain ⟨told, same⟩ := firsts
  cases out : (first around cursor).2 with
  | ok value middle =>
    rw [out] at told same
    generalize plain : second cursor = parsed at same
    cases same with
    | ok values there =>
      subst there
      obtain ⟨rest, ends⟩ := nexts value _ middle told.2 values out
      rw [andThen_ok out, Parse.bind_of_ok plain]
      refine ⟨?_, ends⟩
      generalize (next value around middle).2 = parsed at rest
      cases parsed with
      | ok | failed => exact ⟨told.1.trans rest.1, rest.2.trans told.2⟩
      | spent => trivial
  | failed middle =>
    rw [out] at told same
    generalize plain : second cursor = parsed at same
    cases same with
    | failed there =>
      subst there
      have ends : (first >>= next) around cursor = ((first around cursor).1, .failed middle) := by
        show first.andThen next around cursor = _
        simp only [andThen, out]
      rw [ends, Parse.bind_of_failed plain]
      exact ⟨told, .failed rfl⟩
  | spent =>
    rw [out] at same
    generalize plain : second cursor = parsed at same
    cases same with
    | spent =>
      have ends : (first >>= next) around cursor = ((first around cursor).1, .spent) := by
        show first.andThen next around cursor = _
        simp only [andThen, out]
      rw [ends, Parse.bind_of_spent plain]
      exact ⟨trivial, .spent⟩

theorem ok_of_andThen {first : Journaled α} {next : α → Journaled γ} {around : List Construct}
    {cursor after : Cursor} {value : γ} (success : ((first >>= next) around cursor).2 = .ok value after) :
    ∃ given middle, (first around cursor).2 = .ok given middle ∧
      (next given around middle).2 = .ok value after := by
  change (first.andThen next around cursor).2 = _ at success
  unfold andThen at success
  cases out : (first around cursor).2 with
  | ok given middle =>
    rw [out] at success
    exact ⟨given, middle, rfl, success⟩
  | failed | spent =>
    rw [out] at success
    cases success

/-- One of the two steps takes a token, if the whole succeeds. -/
theorem takes_andThen {first : Journaled α} {second : Parse β} {next : α → Journaled γ}
    {after : β → Parse δ} (firsts : beside.keeps R first second)
    (nexts : ∀ value other, R value other → beside.keeps S (next value) (after other))
    (fewer : ∀ around cursor value other middle, cursor.functions = around.count .functionBody →
      (first around cursor).2 = .ok value middle → R value other →
      middle.functions = around.count .functionBody →
      middle.ahead.length < cursor.ahead.length ∨
        ∀ result last, (next value around middle).2 = .ok result last →
          last.ahead.length < middle.ahead.length) :
    beside.takes S (first >>= next) (second >>= after) := by
  intro around cursor counted
  have begun := firsts around cursor counted
  have rest (value : α) (other : β) (middle : Cursor) (kept : middle.functions = cursor.functions)
      (values : R value other) : Faithful S middle (next value around middle) (after other middle) :=
    nexts value other values around middle (kept.trans counted)
  refine ⟨faithful_andThen begun fun value other middle kept values _ =>
    rest value other middle kept values, ?_⟩
  intro result last success
  obtain ⟨value, middle, out, ended⟩ := ok_of_andThen success
  have early := begun.length_le out
  obtain ⟨told, same⟩ := begun
  rw [out] at told same
  generalize second cursor = parsed at same
  cases same with
  | ok values there =>
    have late := (rest value _ middle told.2 values).length_le ended
    rcases fewer around cursor value _ middle counted out values (told.2.trans counted) with less | less
    · omega
    · have shorter := less result last ended
      omega

theorem told_step {around : List Construct} {before after : Cursor} {read : List Token}
    {found : List Diagnostic} (counted : before.functions = around.count .functionBody)
    (went : before.Went read found after) (others : found.filter Diagnostic.isStray = []) :
    Journey before [.at around before] after ∧ after.functions = before.functions := by
  refine ⟨.single counted rfl rfl (.refl before) went.reaches ?_, went.functions⟩
  rw [Cursor.strays, went.problems, List.filter_append, others, List.append_nil]
  rfl

theorem faithful_step {around : List Construct} {cursor : Cursor} {reading : Parse α}
    (counted : cursor.functions = around.count .functionBody)
    (plainly : Parsed.Plainly cursor (reading cursor)) :
    Faithful Eq cursor (Reader.step (M := Journaled) reading around cursor) (reading cursor) := by
  show Faithful Eq cursor ([.at around cursor], reading cursor) (reading cursor)
  generalize reading cursor = parsed at plainly
  cases parsed with
  | ok value after =>
    obtain ⟨read, found, went, others⟩ := plainly
    exact ⟨told_step counted went others, .ok rfl rfl⟩
  | failed after =>
    obtain ⟨read, found, went, others⟩ := plainly
    exact ⟨told_step counted went others, .failed rfl⟩
  | spent => exact ⟨trivial, .spent⟩

theorem keeps_step {reading : Parse α} (plainly : ∀ cursor, Parsed.Plainly cursor (reading cursor)) :
    beside.keeps Eq (Reader.step reading) (Reader.step reading) :=
  fun _ cursor counted => faithful_step counted (plainly cursor)

theorem plainly_stay {value : α} (cursor : Cursor) : Parsed.Plainly cursor (.ok value cursor) :=
  ⟨[], [], .refl cursor, rfl⟩

theorem plainly_accept (among : Kind → Bool) (cursor : Cursor) :
    Parsed.Plainly cursor (Parse.accept among cursor) := by
  rcases Parse.accept_cases among cursor with ⟨out, _⟩ | ⟨token, ahead, tokens, _, out⟩
  · rw [out]
    exact plainly_stay cursor
  · rw [out]
    exact ⟨_, _, Cursor.went_past tokens, rfl⟩

theorem plainly_acceptAtom (cursor : Cursor) :
    Parsed.Plainly cursor (Parse.acceptAtom cursor) := by
  rcases Parse.acceptAtom_cases cursor with ⟨out, _⟩ | ⟨token, ahead, expr, tokens, _, out⟩
  · rw [out]
    exact plainly_stay cursor
  · rw [out]
    exact ⟨_, _, Cursor.went_past tokens, rfl⟩

/-- What comes after a token that may be taken. -/
theorem takes_accept {among : Kind → Bool} {next : Option Token → Journaled γ}
    {after : Option Token → Parse δ} (without : beside.takes S (next none) (after none))
    (taken : ∀ token other, token = other → beside.keeps S (next (some token)) (after (some other))) :
    beside.takes S (Reader.step (Parse.accept among) >>= next)
      (Reader.step (Parse.accept among) >>= after) := by
  apply takes_andThen (keeps_step (plainly_accept among))
  · rintro value _ rfl
    cases value with
    | none => exact fun around cursor counted => (without around cursor counted).1
    | some token => exact taken token token rfl
  · intro around cursor value other middle counted out _ _
    change Parse.accept among cursor = _ at out
    rcases Parse.accept_cases among cursor with ⟨stays, _⟩ | ⟨token, ahead, tokens, _, goes⟩
    · rw [stays] at out
      cases out
      exact .inr (without around cursor counted).2
    · rw [goes] at out
      cases out
      rw [tokens]
      exact .inl (Nat.lt_succ_self _)

theorem keeps_acceptAtom : beside.keeps (Option.Rel (Expr.Like Eq)) (Reader.step Parse.acceptAtom)
    (Reader.step Parse.acceptAtom) := by
  intro around cursor counted
  obtain ⟨told, _⟩ := faithful_step counted (plainly_acceptAtom cursor)
  refine ⟨told, ?_⟩
  show Parsed.Rel Eq Eq _ (Parse.acceptAtom cursor) (Parse.acceptAtom cursor)
  rcases Parse.acceptAtom_cases cursor with ⟨out, _⟩ | ⟨token, ahead, expr, _, atom, out⟩
  · rw [out]
    exact .ok .none rfl
  · have alike := Expr.like_ofToken? Likeness.faithful_eq Likeness.sameLiterals_eq (Eq.refl token)
    rw [atom] at alike
    rw [out]
    exact .ok alike rfl

theorem takes_acceptAtom {next : Option Expr → Journaled γ} {after : Option Expr → Parse δ}
    (without : beside.takes S (next none) (after none))
    (taken : ∀ expr twin : Expr, expr.Like Eq twin →
      beside.keeps S (next (some expr)) (after (some twin))) :
    beside.takes S (Reader.step Parse.acceptAtom >>= next)
      (Reader.step Parse.acceptAtom >>= after) := by
  apply takes_andThen keeps_acceptAtom
  · intro value other values
    cases values with
    | none => exact fun around cursor counted => (without around cursor counted).1
    | some alike => exact taken _ _ alike
  · intro around cursor value other middle counted out _ _
    change Parse.acceptAtom cursor = _ at out
    rcases Parse.acceptAtom_cases cursor with ⟨stays, _⟩ | ⟨token, ahead, expr, tokens, _, goes⟩
    · rw [stays] at out
      cases out
      exact .inr (without around cursor counted).2
    · rw [goes] at out
      cases out
      rw [tokens]
      exact .inl (Nat.lt_succ_self _)

end Journaled

namespace Parse

open Reader

theorem recovering_ne_failed {α : Type} (statement : Parse α) (cursor after : Cursor) :
    recovering statement cursor ≠ .failed after := by
  unfold recovering
  cases statement cursor <;> simp

theorem declarationWithin_ne_failed (depth : Nat) (cursor after : Cursor) :
    declarationWithin (M := Parse) depth cursor ≠ .failed after := by
  cases depth with
  | zero => simp [declarationWithin, spent]
  | succ depth => exact recovering_ne_failed _ cursor after

/-- Outside blocks declarations are only left off at the end. -/
theorem declarationsWithin_ends (depth : Nat) : ∀ cursor : Cursor,
    declarationsWithin (M := Parse) depth false cursor = .spent ∨ ∃ program final,
      declarationsWithin (M := Parse) depth false cursor = .ok program final ∧ final.ahead = [] := by
  induction depth with
  | zero => exact fun _ => .inl rfl
  | succ depth ih =>
    intro cursor
    rw [declarationsWithin_succ]
    split
    · rename_i finished
      refine .inr ⟨[], cursor, rfl, ?_⟩
      simpa using finished
    · cases out : declarationWithin (M := Parse) depth cursor with
      | ok first middle =>
        rw [bind_of_ok out]
        rcases ih middle with short | ⟨others, final, rest, ended⟩
        · exact .inl (bind_of_spent short _)
        · exact .inr ⟨_, final, bind_of_ok rest _, ended⟩
      | failed middle => exact absurd out (declarationWithin_ne_failed depth cursor middle)
      | spent => exact .inl (bind_of_spent out _)

theorem declarations_ok (cursor : Cursor) :
    ∃ program final, declarations (M := Parse) cursor = .ok program final ∧ final.ahead = [] :=
  (declarationsWithin_ends (ample cursor) cursor).resolve_left (declarations_ne_spent cursor)

end Parse

end Lox
