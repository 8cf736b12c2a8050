import Mathlib
import Lox.Proofs.Policy

set_option autoImplicit false

namespace Lox

namespace Double

def IsZero (v : Float) : Prop :=
  v = 0 ∨ v = -0

/-- Doubles that stand for one number: the same double, or zeros that may differ in their sign. -/
def Alike (v w : Float) : Prop :=
  v = w ∨ IsZero v ∧ IsZero w

theorem Alike.symm {v w : Float} (alike : Alike v w) : Alike w v :=
  alike.imp Eq.symm And.symm

theorem Alike.trans {v w x : Float} (start : Alike v w) (onward : Alike w x) : Alike v x := by
  rcases start with rfl | ⟨zero, middle⟩
  · exact onward
  · rcases onward with rfl | ⟨_, last⟩
    · exact .inr ⟨zero, middle⟩
    · exact .inr ⟨zero, last⟩

theorem isNaN_eq_false_iff {v : Float} : v.isNaN = false ↔ v ≠ Float.nan := by
  rw [Float.isNaN_eq_decide_eq_nan, decide_eq_false_iff_not]

theorem isNaN_of_isZero {v : Float} (zero : IsZero v) : v.isNaN = false := by
  rcases zero with rfl | rfl <;> decide

theorem Alike.isNaN {v w : Float} (alike : Alike v w) (number : v.isNaN = false) :
    w.isNaN = false := by
  rcases alike with rfl | ⟨_, zero⟩
  · exact number
  · exact isNaN_of_isZero zero

/-- Doubles are equal when they are numbers and stand for one. -/
theorem beq_iff {v w : Float} : (v == w) = true ↔ v.isNaN = false ∧ Alike v w := by
  rw [Float.beq_iff_ne_nan_and_eq, isNaN_eq_false_iff]
  constructor
  · rintro ⟨number, _, same | ⟨plus, minus⟩ | ⟨minus, plus⟩⟩
    · exact ⟨number, .inl same⟩
    · exact ⟨number, .inr ⟨.inl plus, .inr minus⟩⟩
    · exact ⟨number, .inr ⟨.inr minus, .inl plus⟩⟩
  · rintro ⟨number, alike⟩
    refine ⟨number, isNaN_eq_false_iff.mp (alike.isNaN (isNaN_eq_false_iff.mpr number)), ?_⟩
    rcases alike with same | ⟨plus | minus, plus' | minus'⟩
    · exact .inl same
    · exact .inl (plus.trans plus'.symm)
    · exact .inr (.inl ⟨plus, minus'⟩)
    · exact .inr (.inr ⟨minus, plus'⟩)
    · exact .inl (minus.trans minus'.symm)

end Double

namespace Value

inductive Variant where
  | text | number | bool | nil | uninitialized | returned | function | native
deriving DecidableEq

def variant : Value → Variant
  | text _ => .text
  | number _ => .number
  | bool _ => .bool
  | nil => .nil
  | uninitialized => .uninitialized
  | returned _ => .returned
  | function .. => .function
  | native _ => .native

/-- Values that are the same to a program. There is no rule for what can be called, nor for a value
on its way out. -/
inductive Same : Value → Value → Prop where
  | text (s : String) : Same (.text s) (.text s)
  | number {v w : Float} (number : v.isNaN = false) (alike : Double.Alike v w) :
      Same (.number v) (.number w)
  | bool (b : Bool) : Same (.bool b) (.bool b)
  | nil : Same .nil .nil
  | uninitialized : Same .uninitialized .uninitialized

variable {left middle right : Value}

theorem Same.symm (same : Same left right) : Same right left := by
  cases same with
  | text s => exact .text s
  | number number alike => exact .number (alike.isNaN number) alike.symm
  | bool b => exact .bool b
  | nil => exact .nil
  | uninitialized => exact .uninitialized

theorem Same.trans (start : Same left middle) (onward : Same middle right) : Same left right := by
  cases start with
  | number number alike =>
    cases onward with
    | number _ alike' => exact .number number (alike.trans alike')
  | text | bool | nil | uninitialized => exact onward

theorem Same.variant (same : Same left right) : left.variant = right.variant := by
  cases same <;> rfl

/-- The values that are the same as themselves. -/
theorem same_self_iff {value : Value} : Same value value ↔
    (∃ s, value = .text s) ∨ (∃ b, value = .bool b) ∨ value = .nil ∨ value = .uninitialized ∨
      ∃ v, value = .number v ∧ v.isNaN = false := by
  constructor
  · intro same
    cases same with
    | text s => exact .inl ⟨s, rfl⟩
    | bool b => exact .inr (.inl ⟨b, rfl⟩)
    | nil => exact .inr (.inr (.inl rfl))
    | uninitialized => exact .inr (.inr (.inr (.inl rfl)))
    | number number _ => exact .inr (.inr (.inr (.inr ⟨_, rfl, number⟩)))
  · rintro (⟨s, rfl⟩ | ⟨b, rfl⟩ | rfl | rfl | ⟨v, rfl, number⟩)
    · exact .text s
    · exact .bool b
    · exact .nil
    · exact .uninitialized
    · exact .number number (.inl rfl)

/-- Equality finds out whether two values are the same. -/
theorem equals_iff : left.equals right = true ↔ Same left right := by
  constructor
  · intro equal
    unfold equals at equal
    split at equal
    · cases beq_iff_eq.mp equal
      exact .text _
    · obtain ⟨number, alike⟩ := Double.beq_iff.mp equal
      exact .number number alike
    · cases beq_iff_eq.mp equal
      exact .bool _
    · exact .nil
    · exact .uninitialized
    · cases equal
  · intro same
    cases same with
    | text | bool => exact beq_self_eq_true _
    | number number alike => exact Double.beq_iff.mpr ⟨number, alike⟩
    | nil | uninitialized => rfl

end Value

namespace Answer

/-- Whichever way an operator of equality takes, it asks whether the values are equal. -/
theorem ofBinary_equalEqual (left right : Value) :
    ofBinary .equalEqual left right = .value (.bool (left.equals right)) := by
  unfold ofBinary
  -- Two texts, two numbers, and all other pairs.
  split <;> rfl

theorem ofBinary_bangEqual (left right : Value) :
    ofBinary .bangEqual left right = .value (.bool (!left.equals right)) := by
  unfold ofBinary
  split <;> rfl

end Answer

namespace Run

/-- Nothing is left to settle where no fault comes out, and an aborting program settles nothing. -/
theorem settled_eq_self {policy : Policy} {run : Run Value}
    (settled : policy = .resume → run.Settled) : run.settled policy = run := by
  funext state
  unfold Run.settled Run.recover
  cases out : run state with
  | done | spent => rfl
  | fault reason after =>
    cases policy with
    | abort => rfl
    | resume =>
      have faultless := settled rfl state
      rw [out] at faultless
      cases faultless

end Run

namespace World

/-- An operator that answers every pair of values adds no fault to those of its operands. -/
theorem evaluate_binary (world : World) (fuel : Nat) (left right : Expr) {operator : Token}
    {answer : Value → Value → Value}
    (answers : ∀ first second,
      Answer.ofBinary operator.kind first second = .value (answer first second)) :
    world.evaluate (fuel + 1) (.binary left operator right) = (do
      let first ← world.evaluate fuel left
      let second ← world.evaluate fuel right
      pure (answer first second)) := by
  have opened : world.evaluate (fuel + 1) (.binary left operator right) =
      Run.settled world.config.policy ((world.evaluate fuel left).andThen fun first =>
        (world.evaluate fuel right).andThen fun second =>
          (Answer.ofBinary operator.kind first second).run operator) := rfl
  rw [opened]
  simp only [answers]
  -- A patient program has settled the faults of the operands already, an aborting one lets them by.
  refine Run.settled_eq_self fun patient => ?_
  refine (evaluate_settled patient fuel left).andThen fun first => ?_
  exact (evaluate_settled patient fuel right).andThen fun second => Run.settled_pure _

end World

namespace Value

theorem equals_comm (left right : Value) : left.equals right = right.equals left :=
  Bool.eq_iff_iff.mpr (equals_iff.trans (Iff.trans ⟨Same.symm, Same.symm⟩ equals_iff.symm))

theorem equals_of_variant_ne {left right : Value} (apart : left.variant ≠ right.variant) :
    left.equals right = false :=
  Bool.eq_false_iff.mpr fun equal => apart (equals_iff.mp equal).variant

/-- Equality is one relation, whether an operator asks for it or not. No operator of equality faults
or leaves a trace, and neither does an expression with one, apart from its operands. -/
theorem equality_laws (equal differ : Token) (equality : equal.kind = .equalEqual)
    (inequality : differ.kind = .bangEqual) :
    (∀ left right : Value,
      (Answer.ofBinary equal.kind left right).run equal = pure (.bool (left.equals right)) ∧
      (Answer.ofBinary differ.kind left right).run differ = pure (.bool (!left.equals right))) ∧
    (∀ (world : World) (fuel : Nat) (left right : Expr),
      world.evaluate (fuel + 1) (.binary left equal right) = (do
        let first ← world.evaluate fuel left
        let second ← world.evaluate fuel right
        pure (.bool (first.equals second))) ∧
      world.evaluate (fuel + 1) (.binary left differ right) = (do
        let first ← world.evaluate fuel left
        let second ← world.evaluate fuel right
        pure (.bool (!first.equals second)))) ∧
    (∀ left right : Value, left.equals right = true ↔ Same left right) ∧
    (∀ left right : Value, left.equals right = right.equals left) ∧
    (∀ left middle right : Value, left.equals middle = true → middle.equals right = true →
      left.equals right = true) ∧
    (∀ left right : Value, left.variant ≠ right.variant → left.equals right = false) ∧
    ∀ value : Value, value.equals value = true ↔
      (∃ s, value = .text s) ∨ (∃ b, value = .bool b) ∨ value = .nil ∨ value = .uninitialized ∨
        ∃ v, value = .number v ∧ v.isNaN = false := by
  rw [equality, inequality]
  refine ⟨?_, ?_, fun _ _ => equals_iff, equals_comm, ?_, fun _ _ => equals_of_variant_ne, ?_⟩
  · intro left right
    rw [Answer.ofBinary_equalEqual, Answer.ofBinary_bangEqual]
    exact ⟨rfl, rfl⟩
  · intro world fuel left right
    constructor
    · exact world.evaluate_binary fuel left right (equality ▸ Answer.ofBinary_equalEqual)
    · exact world.evaluate_binary fuel left right (inequality ▸ Answer.ofBinary_bangEqual)
  · intro left middle right start onward
    exact equals_iff.mpr ((equals_iff.mp start).trans (equals_iff.mp onward))
  · intro value
    rw [equals_iff, same_self_iff]

/-- The two zeros are the same. A callable is not the same as itself, nor is what is no number. -/
theorem equality_laws_zeros :
    let equal : Token := .plain .equalEqual "==" 1
    let differ : Token := .plain .bangEqual "!=" 1
    let minus : Value := .number (-0)
    let clock : Value := .native .clock
    equal.kind = .equalEqual ∧ differ.kind = .bangEqual ∧
    World.bare.evaluate 2 (.binary (.literal (.number 0)) equal (.literal minus)) =
      pure (.bool true) ∧
    (Answer.ofBinary differ.kind clock clock).run differ = pure (.bool true) ∧
    ((number 0).equals minus = true ∧ minus.equals (.number 0) = true ∧
      (number 0).equals (.number 0) = true) ∧
    ((number 0).variant ≠ (text "0").variant ∧ (number 0).equals (.text "0") = false) ∧
    (number Float.nan).equals (.number Float.nan) = false := by
  intro equal differ minus clock
  obtain ⟨operators, expressions, _, swaps, chains, apart, itself⟩ :=
    equality_laws equal differ rfl rfl
  have zeros : (number 0).equals minus = true := by decide
  have swapped : minus.equals (.number 0) = true := (swaps minus (.number 0)).trans zeros
  have kinds : (number 0).variant ≠ (text "0").variant := by decide
  refine ⟨rfl, rfl, ?_, (operators clock clock).2, ⟨zeros, swapped, chains _ minus _ zeros swapped⟩,
    ⟨kinds, apart _ _ kinds⟩, ?_⟩
  · rw [(expressions World.bare 1 (.literal (.number 0)) (.literal minus)).1]
    show (pure (.bool ((number 0).equals minus)) : Run Value) = _
    rw [zeros]
  · simp [Bool.eq_false_iff, itself]

end Value

end Lox
