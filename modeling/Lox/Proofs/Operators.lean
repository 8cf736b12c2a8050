import Lox.Machine.Operator
import Lox.Grammar.Expression

set_option autoImplicit false

namespace Lox

def isBinary (kind : Kind) : Bool :=
  (arithmetic? kind).isSome || (comparison? kind).isSome

/-- Whether a value is one that a token, or its absence, can stand for. -/
def Value.written : Value → Bool
  | text _ | number _ | bool _ | nil | uninitialized => true
  | returned _ | function .. | native _ => false

namespace Answer

theorem written_ofUnary {kind : Kind} {right value : Value}
    (same : ofUnary kind right = .value value) : value.written = true := by
  unfold ofUnary at same
  split at same
  · cases same
    rfl
  · split at same <;> cases same
    rfl
  · cases same
    rfl

theorem written_ofTexts {kind : Kind} {left right : String} {value : Value}
    (same : ofTexts kind left right = .value value) : value.written = true := by
  unfold ofTexts at same
  split at same
  · cases same
    rfl
  · cases same
    rfl
  · cases same
    rfl
  · split at same <;> cases same
    rfl

theorem written_ofNumbers {kind : Kind} {left right : Float} {value : Value}
    (same : ofNumbers kind left right = .value value) : value.written = true := by
  unfold ofNumbers at same
  split at same
  · cases same
    rfl
  · split at same <;> cases same
    rfl

theorem written_ofOthers {kind : Kind} {left right value : Value}
    (same : ofOthers kind left right = .value value) : value.written = true := by
  unfold ofOthers at same
  split at same
  · cases same
  · split at same <;> cases same <;> rfl

/-- What an operator gives could have been written down. -/
theorem written_ofBinary {kind : Kind} {left right value : Value}
    (same : ofBinary kind left right = .value value) : value.written = true := by
  unfold ofBinary at same
  split at same
  · exact written_ofTexts same
  · exact written_ofNumbers same
  · exact written_ofOthers same

/-- An operator that stands before its operand gives no nil. -/
theorem ofUnary_ne_nil {kind : Kind} (unary : isUnary kind = true) (right : Value) :
    ofUnary kind right ≠ .value .nil := by
  rcases Bool.or_eq_true_iff.mp unary with bang | minus
  · rw [beq_iff_eq.mp bang]
    exact nofun
  · rw [beq_iff_eq.mp minus]
    cases right <;> exact nofun

theorem ofUnary_ne_unknown (kind : Kind) (right : Value) : ofUnary kind right ≠ .unknown := by
  unfold ofUnary
  split
  · exact nofun
  · split <;> exact nofun
  · exact nofun

/-- The order of texts is not defined. -/
theorem ofTexts_eq_nil {kind : Kind} (binary : isBinary kind = true) {left right : String} :
    ofTexts kind left right = .value .nil ↔
      kind ∈ [Kind.greater, .greaterEqual, .less, .lessEqual] := by
  cases kind <;>
    first | exact absurd binary Bool.false_ne_true | simp [ofTexts, isArithmeticOnly]

/-- Numbers know every binary operator, and none of them gives nil. -/
theorem ofNumbers_known {kind : Kind} (binary : isBinary kind = true) (left right : Float) :
    ofNumbers kind left right ≠ .unknown ∧ ofNumbers kind left right ≠ .value .nil := by
  cases kind <;> first | exact absurd binary Bool.false_ne_true | exact ⟨nofun, nofun⟩

theorem ofOthers_known {kind : Kind} (binary : isBinary kind = true) (left right : Value) :
    ofOthers kind left right ≠ .unknown ∧ ofOthers kind left right ≠ .value .nil := by
  cases kind <;> first | exact absurd binary Bool.false_ne_true | exact ⟨nofun, nofun⟩

theorem ofBinary_ne_unknown {kind : Kind} (binary : isBinary kind = true) (left right : Value) :
    ofBinary kind left right ≠ .unknown := by
  unfold ofBinary
  split
  · unfold ofTexts
    split
    · exact nofun
    · exact nofun
    · exact nofun
    · split <;> exact nofun
  · exact (ofNumbers_known binary _ _).1
  · exact (ofOthers_known binary _ _).1

/-- An operator between two operands gives nil only where it orders two texts. -/
theorem texts_of_ofBinary {kind : Kind} (binary : isBinary kind = true) {left right : Value}
    (nil : ofBinary kind left right = .value .nil) :
    (∃ s t, left = .text s ∧ right = .text t) ∧
      kind ∈ [Kind.greater, .greaterEqual, .less, .lessEqual] := by
  unfold ofBinary at nil
  split at nil
  · exact ⟨⟨_, _, rfl, rfl⟩, (ofTexts_eq_nil binary).mp nil⟩
  · exact absurd nil (ofNumbers_known binary _ _).2
  · exact absurd nil (ofOthers_known binary _ _).2

end Answer

end Lox
