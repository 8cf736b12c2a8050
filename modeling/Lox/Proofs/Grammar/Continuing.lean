import Lox.Proofs.Grammar.Alike
import Lox.Proofs.Grammar.Journal

set_option autoImplicit false

namespace Lox

namespace Parse

open Reader

/-- What is read from the one place is what stands between and then what is read from the other. -/
def Continues (cursor : Cursor) (between : Program) (later : Cursor) : Prop :=
  ∀ program final, declarations (M := Parse) later = .ok program final →
    declarations (M := Parse) cursor = .ok (between ++ program) final

theorem Continues.refl (cursor : Cursor) : Continues cursor [] cursor :=
  fun _ _ => id

theorem Continues.trans {first middle last : Cursor} {between more : Program}
    (begins : Continues first between middle) (goes : Continues middle more last) :
    Continues first (between ++ more) last := by
  intro program final read
  rw [List.append_assoc]
  exact begins _ final (goes program final read)

/-- More depth than the tokens ahead call for changes nothing of a declaration. -/
theorem declarationWithin_eq {depth more : Nat} {cursor : Cursor}
    (deep : 16 * cursor.ahead.length + 5 ≤ depth) (deeper : 16 * cursor.ahead.length + 5 ≤ more) :
    declarationWithin (M := Parse) more cursor = declarationWithin (M := Parse) depth cursor :=
  ((statementsAgree depth more).declaration cursor.ahead.length deep deeper cursor (Nat.le_refl _)).1

theorem declarationWithin_leaves {depth : Nat} {cursor : Cursor}
    (deep : 16 * cursor.ahead.length + 5 ≤ depth) :
    (declarationWithin (M := Parse) depth cursor).Leaves 1 cursor.ahead.length :=
  ((statementsAgree depth depth).declaration cursor.ahead.length deep deep cursor (Nat.le_refl _)).2

theorem declarationWithin_shrinks {depth : Nat} {cursor middle : Cursor} {first : Option Stmt}
    (deep : 16 * cursor.ahead.length + 5 ≤ depth)
    (read : declarationWithin (M := Parse) depth cursor = .ok first middle) :
    middle.ahead.length ≤ cursor.ahead.length - 1 := by
  have leaves := declarationWithin_leaves deep
  rwa [read] at leaves

theorem declarations_eq (cursor : Cursor) :
    declarations (M := Parse) cursor =
      declarationsWithin (M := Parse) (16 * cursor.ahead.length + 15 + 1) false cursor := rfl

theorem declarations_of_done {cursor : Cursor} (done : cursor.ahead = []) :
    declarations (M := Parse) cursor = .ok [] cursor := by
  rw [declarations_eq, declarationsWithin_succ, done, List.isEmpty_nil, Bool.true_or, if_pos rfl]

/-- One declaration, and then the others. -/
theorem continues_declaration {depth : Nat} {cursor middle : Cursor} {first : Option Stmt}
    (some : cursor.ahead ≠ []) (deep : 16 * cursor.ahead.length + 5 ≤ depth)
    (read : declarationWithin (M := Parse) depth cursor = .ok first middle) :
    Continues cursor first.toList middle := by
  intro program final rest
  have less := declarationWithin_shrinks deep read
  have unfinished : ¬ (cursor.ahead.isEmpty || (false && cursor.sees .rightBrace)) = true := by
    simp [some]
  have reads : declarationWithin (M := Parse) (16 * cursor.ahead.length + 15) cursor =
      .ok first middle :=
    (declarationWithin_eq deep (by omega)).trans read
  have others : declarationsWithin (M := Parse) (16 * cursor.ahead.length + 15) false middle =
      .ok program final :=
    (declarationsWithin_eq (by omega)).trans rest
  rw [declarations_eq, declarationsWithin_succ, if_neg unfinished, bind_of_ok reads,
    bind_of_ok others]
  rfl

/-- Neither declarations nor what may follow them begin with an `else`. -/
theorem unfollowed_of_derives {inside : Bool} {trees : List Stmt} {tokens rest : List Token}
    (derives : Sentence.Derives inside (.declarations trees) tokens)
    (unfollowed : ∀ token ∈ rest.head?, token.kind ≠ .kwElse) :
    ∀ token ∈ (tokens ++ rest).head?, token.kind ≠ .kwElse := by
  cases derives with
  | nothing => exact unfollowed
  | first next _ =>
    obtain ⟨token, more, rfl, _, noElse⟩ := next.declaration_begins
    rintro _ ⟨⟩
    exact noElse

theorem continues_tree {tree : Stmt} {tokens rest : List Token}
    (derives : Sentence.Derives false (.declaration tree) tokens)
    (unfollowed : ∀ token ∈ rest.head?, token.kind ≠ .kwElse) {cursor : Cursor}
    (whole : cursor.ahead = tokens ++ rest) :
    Continues cursor [tree] (cursor.beyond tokens rest) := by
  obtain ⟨least, reads⟩ := derives.taken rest fun token member =>
    beq_eq_false_iff_ne.mpr (unfollowed token member)
  obtain ⟨token, more, begins, _⟩ := derives.declaration_begins
  have some : cursor.ahead ≠ [] := by
    rw [whole, begins]
    exact List.cons_ne_nil _ _
  exact continues_declaration some (Nat.le_max_right least _)
    (reads _ (Nat.le_max_left _ _) cursor whole Bool.false_ne_true.elim)

/-- What the tokens derive is read, and then what follows them. -/
theorem continues_of_derives {rest : List Token}
    (unfollowed : ∀ token ∈ rest.head?, token.kind ≠ .kwElse) :
    ∀ {trees : List Stmt} {tokens : List Token}, Sentence.Derives false (.declarations trees) tokens →
      ∀ cursor : Cursor, cursor.ahead = tokens ++ rest →
        Continues cursor trees (cursor.beyond tokens rest)
  | _, _, .nothing, cursor, whole => by
    have same : cursor.beyond [] rest = cursor := by
      rw [Cursor.beyond, ← List.nil_append rest, ← whole]
      rfl
    rw [same]
    exact .refl cursor
  | _, _, .first tree others, cursor, whole => by
    rw [List.append_assoc] at whole
    have onward := (continues_tree tree (unfollowed_of_derives others unfollowed) whole).trans
      (continues_of_derives unfollowed others _ rfl)
    rw [Cursor.beyond_beyond] at onward
    exact onward

end Parse

namespace Program

/-- Reading on from a place is as reading the tokens ahead of it on their own, after what was read and
found before. -/
theorem ofTokens_of_continues {tokens rest : List Token} {last : Token} {trees : Program}
    {later : Cursor} (continues : Parse.Continues (.start tokens last) trees later)
    (ahead : later.ahead = rest) (ends : later.last = last) (outside : later.functions = 0) :
    ofTokens tokens last = (trees ++ (ofTokens rest last).1,
      later.problems.toList ++ (ofTokens rest last).2) := by
  obtain ⟨program, final, read, _⟩ := Parse.declarations_ok (.start rest last)
  have there : Cursor.Alike Eq [] later.problems.toList (.start rest last) later :=
    ⟨by rw [ahead]; exact List.forall₂_refl _, ends.symm, outside, [], [], rfl,
      (List.append_nil _).symm, .nil⟩
  have alike := Parse.declarations_alike Likeness.faithful_eq Likeness.sameLiterals_eq there
  rw [read] at alike
  cases onward : Reader.declarations (M := Parse) later with
  | ok others ends =>
    rw [onward] at alike
    cases alike with
    | ok trees there =>
      obtain ⟨found, more, one, two, problems⟩ := there.problems
      have whole := continues others ends onward
      rw [ofTokens, ofTokens, whole, read, trees.eq]
      show (_, ends.problems.toList) = (_, later.problems.toList ++ final.problems.toList)
      rw [two, one, Diagnostic.Like.eq_all problems]
      rfl
  | failed ends =>
    rw [onward] at alike
    cases alike
  | spent =>
    rw [onward] at alike
    cases alike

end Program

end Lox
