import Mathlib
import Lox.Machine.Interpret
import Lox.Proofs.Grammar.Recognition
import Lox.Proofs.Grammar.Writing
import Lox.Proofs.Lexicon
import Lox.Proofs.Seventeen

set_option autoImplicit false

namespace Lox

namespace Decimal

def magnitude (v : Float) : Float :=
  if isNegative v then -v else v

theorem toBits_magnitude {v : Float} (finite : v.isFinite = true) :
    (magnitude v).toBits.toNat = v.toBits.toNat % 2 ^ 63 := by
  have bound : v.toBits.toNat < 2 ^ 64 := v.toBits.toBitVec.isLt
  rw [magnitude, isNegative]
  by_cases negative : 2 ^ 63 ≤ v.toBits.toNat
  · rw [if_pos (by simpa using negative), Double.toBits_neg (Double.field_of_finite finite)]
    omega
  · rw [if_neg (by simpa using negative)]
    omega

/-- The shortest decimal is read as the magnitude. -/
theorem toFloat_of_shortest {v : Float} {d : Decimal} (finite : v.isFinite = true)
    (known : shortest? v = some d) : d.toFloat = magnitude v := by
  have reads := (shortest?_reads known).2
  rw [readsBack, decide_eq_true_eq] at reads
  rw [← Float.toBits_inj, ← UInt64.toNat_inj, reads, toBits_magnitude finite]
  rfl

theorem neg_magnitude {v : Float} (finite : v.isFinite = true) (negative : isNegative v = true) :
    -magnitude v = v := by
  rw [magnitude, if_pos negative, Double.neg_neg (Double.field_of_finite finite)]

theorem floatText_of_finite {v : Float} (finite : v.isFinite = true) {d : Decimal}
    (known : shortest? v = some d) :
    floatText v = (if isNegative v then "-" else "") ++ String.ofList d.positional := by
  have bounded : v.toModel.unpack.isFinite = true := finite
  have number : v.isNaN = false := by
    show v.toModel.unpack.isNaN = false
    cases shape : v.toModel.unpack <;> rw [shape] at bounded <;> first | rfl | cases bounded
  have noInf : v.isInf = false := by
    show v.toModel.unpack.isInf = false
    cases shape : v.toModel.unpack <;> rw [shape] at bounded <;> first | rfl | cases bounded
  simp only [floatText, number, noInf, known, Bool.false_eq_true, if_false, Option.getD_some]

end Decimal

namespace Piece

/-- A plain numeral is one lexeme before anything that goes on neither its digits nor as its
fraction. -/
theorem stands_plain {row rest : List Char} (plain : Decimal.Plain row)
    (apart : ∀ c ∈ rest.head?, isDigit c = false ∧ c ≠ '.') : Stands (.lexeme .number row) rest := by
  obtain ⟨n, fraction, rfl, digits, _⟩ := plain
  obtain ⟨c, cs, first⟩ := List.exists_cons_of_ne_nil (Nat.toDigits_ne_nil (n := n) (b := 10))
  change Decimal.digits n = c :: cs at first
  have whole : ∀ d ∈ c :: cs, isDigit d = true := fun d member =>
    Decimal.isDigit_of_mem_digits (first ▸ member)
  have digit := whole c List.mem_cons_self
  have stops : ∀ d ∈ rest.head?, isDigit d = false := fun d member => (apart d member).1
  rw [first]
  cases fraction with
  | nil =>
    obtain ⟨taken, left⟩ := takeWhile_of_stop whole stops
    rw [Decimal.fractional, List.append_nil]
    have stands := @whole_stands c digit (cs ++ rest) ?_
    · rw [← List.cons_append, taken, left] at stands
      exact stands
    · intro d more same
      rw [← List.cons_append, left] at same
      exact absurd rfl (apart '.' (by rw [same]; rfl)).2
  | cons d more =>
    have points : ∀ e ∈ ('.' :: (d :: more ++ rest)).head?, isDigit e = false := by
      rintro _ ⟨⟩
      rfl
    obtain ⟨taken, left⟩ := takeWhile_of_stop whole points
    obtain ⟨others, after⟩ := takeWhile_of_stop digits stops
    have stands := @fraction_stands c d digit (digits d List.mem_cons_self)
      (cs ++ '.' :: (d :: more ++ rest)) (more ++ rest) ?_
    · rw [← List.cons_append, taken, ← List.cons_append, others, after] at stands
      exact stands
    · rw [← List.cons_append, left]
      rfl

theorem split_of_stands {piece : Piece} {rest : List Char} (stands : piece.Stands rest) :
    split (piece.text ++ rest) = piece :: split rest :=
  (Cut.piece stands (cut_split rest)).eq_split.symm

theorem numbered_of_flat {pieces : List Piece} (flat : ∀ piece ∈ pieces, piece.lineBreaks = 0)
    (line : Nat) : numbered line pieces = pieces.map (·, line) ∧ lastLine line pieces = line := by
  induction pieces with
  | nil => exact ⟨rfl, rfl⟩
  | cons piece rest ih =>
    obtain ⟨first, others⟩ := List.forall_mem_cons.mp flat
    obtain ⟨pairs, last⟩ := ih others
    rw [numbered, lastLine, first, Nat.add_zero, pairs, last]
    exact ⟨rfl, rfl⟩

theorem lineBreaks_plain {row : List Char} (plain : Decimal.Plain row) :
    (lexeme .number row).lineBreaks = 0 := by
  obtain ⟨n, fraction, rfl, digits, _⟩ := plain
  apply List.count_eq_zero_of_not_mem
  intro member
  have newline : isDigit '\n' = false := by decide
  rcases List.mem_append.mp member with whole | point
  · have digit := Decimal.isDigit_of_mem_digits whole
    rw [newline] at digit
    cases digit
  · cases fraction with
    | nil => cases point
    | cons d more =>
      have digit := digits '\n' (by simpa [Decimal.fractional] using point)
      rw [newline] at digit
      cases digit

end Piece

namespace Scan

theorem ofSource_of_flat {source : String} {pieces : List Piece}
    (cut : Piece.split source.toList = pieces) (flat : ∀ piece ∈ pieces, piece.lineBreaks = 0) :
    ofSource source = ofNumbered (pieces.map (·, 1)) 1 := by
  obtain ⟨pairs, last⟩ := Piece.numbered_of_flat flat 1
  rw [ofSource, cut, pairs, last]

end Scan

namespace Decimal

def sign (v : Float) : List Char :=
  if isNegative v then ['-'] else []

/-- The tokens of a printed number, whose digits are `row`. -/
def signedTokens (v : Float) (row : List Char) : List Token :=
  (if isNegative v then [.plain .minus "-" 1] else []) ++
    [⟨.number, String.ofList row, some (.number (magnitude v)), 1⟩]

def signedTree (v : Float) : Expr :=
  if isNegative v then .unary (.plain .minus "-" 1) (.literal (.number (magnitude v)))
  else .literal (.number (magnitude v))

/-- A sign and a plain numeral are cut off as they are, and leave the rest alone. -/
theorem split_sign {row rest : List Char} (v : Float) (plain : Plain row)
    (apart : ∀ c ∈ rest.head?, isDigit c = false ∧ c ≠ '.') :
    Piece.split (sign v ++ (row ++ rest)) =
      (if isNegative v then [.lexeme .minus ['-']] else []) ++
        .lexeme .number row :: Piece.split rest := by
  have numeral := Piece.split_of_stands (Piece.stands_plain plain apart)
  rw [sign]
  split
  · have minus := Piece.split_of_stands (Piece.symbol_stands (c := '-') rfl (row ++ rest))
    simp only [Piece.text] at minus numeral
    rw [minus, numeral]
    rfl
  · exact numeral

/-- The scan of a printed number, whatever pieces of its own line come after. -/
theorem ofSource_sign {v : Float} {row : List Char} (rest : List Char) (plain : Plain row)
    (reads : (ofText row).toFloat = magnitude v)
    (apart : ∀ c ∈ rest.head?, isDigit c = false ∧ c ≠ '.')
    (flat : ∀ piece ∈ Piece.split rest, piece.lineBreaks = 0) :
    Scan.ofSource (String.ofList (sign v ++ (row ++ rest))) =
      ⟨signedTokens v row ++ ((Piece.split rest).map (·, 1)).filterMap Piece.token?, .plain .endOfInput "" 1,
        ((Piece.split rest).map (·, 1)).filterMap Piece.problem?⟩ := by
  have cut := split_sign v plain apart
  rw [← String.toList_ofList (l := sign v ++ (row ++ rest))] at cut
  rw [Scan.ofSource_of_flat cut]
  · rw [signedTokens, ← reads]
    cases isNegative v <;> rfl
  · intro piece member
    rcases List.mem_append.mp member with minus | number
    · split at minus
      · rw [List.mem_singleton.mp minus]
        rfl
      · cases minus
    · rcases List.mem_cons.mp number with rfl | later
      · exact Piece.lineBreaks_plain plain
      · exact flat piece later

/-- The grammar derives the tree of a printed number from its tokens. -/
theorem derives_signedTree (v : Float) (row : List Char) :
    (Phrase.expr .assignment (signedTree v)).Derives (signedTokens v row) := by
  have number : (Phrase.expr .primary (.literal (.number (magnitude v)))).Derives
      [⟨.number, String.ofList row, some (.number (magnitude v)), 1⟩] := .number rfl rfl
  rw [signedTree, signedTokens]
  split
  · exact (Phrase.Derives.unary (.inr rfl) (number.loosen (by decide))).loosen (by decide)
  · exact number.loosen (by decide)

/-- Evaluating the tree of a printed number gives the number and nothing else. -/
theorem interpret?_signedTree {v : Float} (finite : v.isFinite = true) (world : World) (fuel : Nat)
    (state : State) : world.interpret? (fuel + 2) [.expression (signedTree v)] state =
      some ⟨some (.number v), false, state⟩ := by
  have literal (w : Float) :
      world.interpret? (fuel + 2) [.expression (.literal (.number w))] state =
        some ⟨some (.number w), false, state⟩ := rfl
  have negated (w : Float) : world.interpret? (fuel + 2)
      [.expression (.unary (.plain .minus "-" 1) (.literal (.number w)))] state =
        some ⟨some (.number (-w)), false, state⟩ := rfl
  rw [signedTree]
  split
  · rename_i negative
    rw [negated, neg_magnitude finite negative]
  · rename_i positive
    rw [literal, magnitude, if_neg positive]

end Decimal

/-- What it takes that the text of a number is read back as the number, `d` being its shortest
decimal and `row` its digits. -/
structure Value.ReadsBack (v : Float) (d : Decimal) (row : List Char) : Prop where
  /-- The text is the digits, after a minus sign where the sign bit is set. -/
  text : (number v).print = String.ofList (Decimal.sign v ++ row)
  plain : Decimal.Plain row
  reads : d.toFloat = Decimal.magnitude v
  denotes : (Decimal.ofText row).value = d.value
  /-- However the decimal is held, writing it out and taking needless zeros off gives the digits. -/
  trims : ∀ r : Decimal, r.value = d.value → r.coefficient ≠ 0 ∨ r.exponent ≤ 0 →
    Decimal.trimmed r.positional = row
  scans : Scan.ofSource (number v).print = ⟨Decimal.signedTokens v row, .plain .endOfInput "" 1, []⟩
  parses : Program.ofSource ((number v).print ++ ";") = .ok [.expression (Decimal.signedTree v)]
  evaluates : ∀ (world : World) (fuel : Nat) (state : State),
    world.interpret? (fuel + 2) [.expression (Decimal.signedTree v)] state =
      some ⟨some (.number v), false, state⟩

namespace Value

/-- Printed numbers are read back. -/
theorem number_readsBack (v : Float) (finite : v.isFinite = true) :
    ∃ d row, Decimal.shortest? v = some d ∧ ReadsBack v d row := by
  obtain ⟨d, known⟩ := Decimal.exists_shortest finite
  have normal := (Decimal.shortest?_reads known).1
  have plain := Decimal.plain_positional normal
  have denotes := Decimal.value_ofText_positional d
  have reads : (Decimal.ofText d.positional).toFloat = Decimal.magnitude v :=
    (Decimal.toFloat_congr denotes).trans (Decimal.toFloat_of_shortest finite known)
  have text : (number v).print = String.ofList (Decimal.sign v ++ d.positional) := by
    rw [print, Decimal.floatText_of_finite finite known, String.ofList_append, Decimal.sign]
    split <;> rfl
  refine ⟨d, d.positional, known, text, plain, Decimal.toFloat_of_shortest finite known, denotes,
    ?_, ?_, ?_, Decimal.interpret?_signedTree finite⟩
  · intro r same proper
    rw [Decimal.trimmed_positional proper, Decimal.normal_eq_of_value_eq same]
    exact congrArg _ ((Decimal.isNormal_normal d).eq_of_value_eq normal (Decimal.value_normal d))
  · have scan := Decimal.ofSource_sign [] plain reads (by simp) (by simp [Piece.split])
    rw [List.append_nil] at scan
    rw [text, scan]
    simp [Piece.split]
  · have ended : (number v).print ++ ";" =
        String.ofList (Decimal.sign v ++ (d.positional ++ [';'])) := by
      rw [text, ← List.append_assoc, @String.ofList_append (Decimal.sign v ++ d.positional)]
    have cut : Piece.split [';'] = [.lexeme .semicolon [';']] := by
      have stands := Piece.split_of_stands (Piece.symbol_stands (c := ';') rfl [])
      rwa [Piece.split] at stands
    have scan := Decimal.ofSource_sign [';'] plain reads (by simp; decide) (by
      rw [cut]
      simp [Piece.lineBreaks, Piece.text])
    rw [ended, Program.ofSource_eq_ok_iff, scan, cut]
    refine ⟨rfl, ?_⟩
    have sentence : Sentence.Derives false (.declarations [.expression (Decimal.signedTree v)])
        (Decimal.signedTokens v d.positional ++ [.plain .semicolon ";" 1] ++ []) :=
      .first (.statement (.expression (.intro (Decimal.derives_signedTree v d.positional) rfl))) .nothing
    rwa [List.append_nil] at sentence

/-- A number far below one, with a sign. -/
theorem number_readsBack_tiny : (-1.5e-10 : Float).isFinite = true ∧
    ∃ d row, Decimal.shortest? (-1.5e-10) = some d ∧ ReadsBack (-1.5e-10) d row :=
  ⟨by decide +kernel, number_readsBack (-1.5e-10) (by decide +kernel)⟩

example : (number (-0.0)).print = "-0" := by
  decide +kernel

example : (number (-1.5e-10)).print = "-0.00000000015" := by
  decide +kernel

end Value

end Lox
