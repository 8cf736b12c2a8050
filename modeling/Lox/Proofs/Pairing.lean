import Mathlib.Data.List.Forall2

set_option autoImplicit false

namespace Lox

variable {α β : Type} {R : α → β → Prop}

theorem forall₂_append_left {first second : List α} {others : List β} :
    List.Forall₂ R (first ++ second) others ↔
      ∃ before after, others = before ++ after ∧ List.Forall₂ R first before ∧
        List.Forall₂ R second after := by
  constructor
  · intro related
    have one := List.forall₂_take_append others first second related.flip
    have two := List.forall₂_drop_append others first second related.flip
    exact ⟨_, _, (List.take_append_drop first.length others).symm, one.flip, two.flip⟩
  · rintro ⟨before, after, rfl, one, two⟩
    exact List.rel_append one two

theorem forall₂_cons_left {a : α} {rest : List α} {others : List β} :
    List.Forall₂ R (a :: rest) others ↔
      ∃ b more, R a b ∧ List.Forall₂ R rest more ∧ others = b :: more :=
  List.forall₂_cons_left_iff

theorem forall₂_singleton_left {a : α} {others : List β} :
    List.Forall₂ R [a] others ↔ ∃ b, R a b ∧ others = [b] := by
  rw [forall₂_cons_left]
  constructor
  · rintro ⟨b, more, related, ended, rfl⟩
    rw [List.forall₂_nil_left_iff.mp ended]
    exact ⟨b, related, rfl⟩
  · rintro ⟨b, related, rfl⟩
    exact ⟨b, [], related, .nil, rfl⟩

end Lox
