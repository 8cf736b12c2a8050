import Mathlib.Data.List.Forall2
import Mathlib.Data.List.TakeWhile
import Lox.Proofs.Scanning

set_option autoImplicit false

namespace Lox

namespace Kind

/-- The lexemes that are neither words nor numbers nor strings. -/
def marks : List (List Char × Kind) :=
  [(['('], leftParen), ([')'], rightParen), (['{'], leftBrace), (['}'], rightBrace),
    ([','], comma), (['.'], dot), (['-'], minus), (['+'], plus), ([';'], semicolon),
    (['/'], slash), (['*'], star), (['!'], bang), (['!', '='], bangEqual), (['='], equal),
    (['=', '='], equalEqual), (['>'], greater), (['>', '='], greaterEqual), (['<'], less),
    (['<', '='], lessEqual)]

end Kind

inductive Lexeme : Kind → List Char → Prop
  | mark {kind : Kind} {text : List Char} (listed : (text, kind) ∈ Kind.marks) : Lexeme kind text
  | keyword {kind : Kind} {word : String} (listed : (word, kind) ∈ Kind.keywords) :
      Lexeme kind word.toList
  | identifier {c : Char} {rest : List Char} (letter : Piece.isLetter c = true)
      (parts : ∀ d ∈ rest, Piece.isWordPart d = true)
      (free : ∀ kind, (String.ofList (c :: rest), kind) ∉ Kind.keywords) :
      Lexeme .identifier (c :: rest)
  | whole {digits : List Char} (some : digits ≠ []) (all : ∀ d ∈ digits, isDigit d = true) :
      Lexeme .number digits
  | fraction {whole digits : List Char} (some : whole ≠ []) (all : ∀ d ∈ whole, isDigit d = true)
      (more : digits ≠ []) (others : ∀ d ∈ digits, isDigit d = true) :
      Lexeme .number (whole ++ '.' :: digits)
  | string {body : List Char} (inside : '"' ∉ body) : Lexeme .string ('"' :: (body ++ ['"']))

namespace Piece

/-- How a piece may stand before the rest of a text. No lexeme is longer than the one that is cut
off, two slashes always begin a comment, and a string is only left open by the end. -/
inductive Stands : Piece → List Char → Prop
  | blank {c : Char} {rest : List Char} (separates : c ∈ [' ', '\r', '\t', '\n']) :
      Stands (.blank c) rest
  | comment {body rest : List Char} (inside : '\n' ∉ body) (ends : ∀ c ∈ rest.head?, c = '\n') :
      Stands (.comment ('/' :: '/' :: body)) rest
  | lexeme {kind : Kind} {text rest : List Char} (lexeme : Lexeme kind text)
      (silent : ¬ ['/', '/'] <+: text ++ rest)
      (longest : ∀ other longer, Lexeme other longer → longer <+: text ++ rest →
        longer.length ≤ text.length) : Stands (.lexeme kind text) rest
  | stray {c : Char} {rest : List Char} (visible : c ∉ [' ', '\r', '\t', '\n'])
      (foreign : ∀ kind more, ¬ Lexeme kind (c :: more)) : Stands (.stray c) rest
  | unterminated {body : List Char} (inside : '"' ∉ body) : Stands (.unterminated ('"' :: body)) []

inductive Cut : List Char → List Piece → Prop
  | done : Cut [] []
  | piece {first : Piece} {rest : List Char} {pieces : List Piece} (stands : first.Stands rest)
      (more : Cut rest pieces) : Cut (first.text ++ rest) (first :: pieces)

end Piece

namespace Kind

theorem ofWord_of_mem {word : String} {kind : Kind} (listed : (word, kind) ∈ keywords) :
    ofWord word = kind := by
  have all : ∀ entry ∈ keywords, ofWord entry.1 = entry.2 := by decide
  exact all _ listed

theorem ofWord_of_not_mem {word : String} (free : ∀ kind, (word, kind) ∉ keywords) :
    ofWord word = identifier := by
  have unknown : keywords.lookup word = none := by
    rw [List.lookup_eq_none_iff]
    intro entry listed
    rw [bne_iff_ne]
    rintro rfl
    exact free entry.2 listed
  rw [ofWord, unknown]
  rfl

end Kind

namespace Piece

theorem isBlank_iff (c : Char) : isBlank c = true ↔ c ∈ [' ', '\r', '\t', '\n'] := by
  simp [isBlank, or_assoc]

theorem le_iff_toNat (c d : Char) : c ≤ d ↔ c.toNat ≤ d.toNat := by
  rw [Char.le_def, UInt32.le_iff_toNat_le]
  rfl

theorem isDigit_of_isLetter {c : Char} (letter : isLetter c = true) : isDigit c = false := by
  rw [Bool.eq_false_iff]
  intro digit
  simp only [isLetter, isDigit, Bool.or_eq_true, Bool.and_eq_true, beq_iff_eq, decide_eq_true_eq,
    le_iff_toNat] at letter digit
  have apart : '9'.toNat < 'A'.toNat ∧ '9'.toNat < '_'.toNat ∧ '9'.toNat < 'a'.toNat := by decide
  rcases letter with (rfl | lower) | upper <;> omega

/-- The characters of words and numbers are no others. -/
theorem isWordPart_apart {c : Char} (part : isWordPart c = true) :
    isBlank c = false ∧ c ≠ '"' ∧ c ≠ '.' := by
  refine ⟨?_, ?_, ?_⟩
  · rw [Bool.eq_false_iff]
    intro blank
    rw [isBlank_iff] at blank
    simp only [List.mem_cons, List.not_mem_nil, or_false] at blank
    rcases blank with rfl | rfl | rfl | rfl <;> exact absurd part (by decide)
  · rintro rfl
    exact absurd part (by decide)
  · rintro rfl
    exact absurd part (by decide)

theorem isWordPart_of_isLetter {c : Char} (letter : isLetter c = true) : isWordPart c = true := by
  rw [isWordPart, letter, Bool.true_or]

theorem isWordPart_of_isDigit {c : Char} (digit : isDigit c = true) : isWordPart c = true := by
  rw [isWordPart, digit, Bool.or_true]

/-- The characters with which marks begin, apart from all others. -/
theorem marks_begin {c : Char} {more : List Char} {kind : Kind}
    (listed : (c :: more, kind) ∈ Kind.marks) :
    isLetter c = false ∧ isDigit c = false ∧ isBlank c = false ∧ c ≠ '"' := by
  have all : ∀ entry ∈ Kind.marks, isLetter (entry.1.headD ' ') = false ∧
      isDigit (entry.1.headD ' ') = false ∧ isBlank (entry.1.headD ' ') = false ∧
      entry.1.headD ' ' ≠ '"' := by decide
  exact all _ listed

theorem marks_known {c : Char} {more : List Char} {kind : Kind}
    (listed : (c :: more, kind) ∈ Kind.marks) :
    (symbol? c).isSome ∨ (paired? c).isSome ∨ c = '/' := by
  have all : ∀ entry ∈ Kind.marks, (symbol? (entry.1.headD ' ')).isSome ∨
      (paired? (entry.1.headD ' ')).isSome ∨ entry.1.headD ' ' = '/' := by decide
  exact all _ listed

/-- A mark is one character, or one that joins with an equals sign after it. -/
theorem marks_end {c : Char} {more : List Char} {kind : Kind}
    (listed : (c :: more, kind) ∈ Kind.marks) :
    more = [] ∨ more = ['='] ∧ symbol? c = none ∧ c ≠ '/' := by
  have all : ∀ entry ∈ Kind.marks, entry.1.tail = [] ∨ entry.1.tail = ['='] ∧
      symbol? (entry.1.headD ' ') = none ∧ entry.1.headD ' ' ≠ '/' := by decide
  exact all _ listed

theorem marks_kind {text : List Char} {kind other : Kind} (listed : (text, kind) ∈ Kind.marks)
    (again : (text, other) ∈ Kind.marks) : kind = other := by
  have all : ∀ one ∈ Kind.marks, ∀ two ∈ Kind.marks, one.1 = two.1 → one.2 = two.2 := by
    decide +kernel
  exact all _ listed _ again rfl

theorem marks_of_symbol {c : Char} {kind : Kind} (symbol : symbol? c = some kind) :
    ([c], kind) ∈ Kind.marks := by
  unfold symbol? at symbol
  split at symbol <;> cases symbol <;> decide

theorem marks_of_paired {c : Char} {joined alone : Kind} (paired : paired? c = some (joined, alone)) :
    ([c, '='], joined) ∈ Kind.marks ∧ ([c], alone) ∈ Kind.marks := by
  unfold paired? at paired
  split at paired <;> cases paired <;> decide

end Piece

namespace Lexeme

open Piece

variable {kind : Kind} {c : Char} {more : List Char}

def Numeral (text : List Char) : Prop :=
  (∀ d ∈ text, isDigit d = true) ∨ ∃ whole digits, text = whole ++ '.' :: digits ∧
    (∀ d ∈ whole, isDigit d = true) ∧ digits ≠ [] ∧ ∀ d ∈ digits, isDigit d = true

theorem ne_nil {text : List Char} (lexeme : Lexeme kind text) : text ≠ [] := by
  cases lexeme with
  | mark listed =>
    have all : ∀ entry ∈ Kind.marks, entry.1 ≠ [] := by decide
    exact all _ listed
  | keyword listed =>
    have all : ∀ entry ∈ Kind.keywords, entry.1.toList ≠ [] := by decide
    exact all _ listed
  | whole some _ => exact some
  | identifier | fraction | string => simp

/-- The four sorts of lexemes, told apart by the first character. -/
theorem sort (lexeme : Lexeme kind (c :: more)) :
    (c :: more, kind) ∈ Kind.marks ∨
    (isLetter c = true ∧ (∀ d ∈ more, isWordPart d = true) ∧
      kind = .ofWord (String.ofList (c :: more))) ∨
    (isDigit c = true ∧ kind = .number ∧ Numeral (c :: more)) ∨
    (c = '"' ∧ kind = .string ∧ ∃ body, '"' ∉ body ∧ more = body ++ ['"']) := by
  generalize whole : c :: more = text at lexeme
  cases lexeme with
  | mark listed => exact .inl listed
  | @keyword kind word listed =>
    have all : ∀ entry ∈ Kind.keywords, entry.1.toList.head?.all isLetter = true ∧
        entry.1.toList.tail.all isWordPart = true := by decide
    obtain ⟨letter, parts⟩ := all _ listed
    simp only [← whole, List.head?_cons, Option.all_some, List.tail_cons, List.all_eq_true]
      at letter parts
    refine .inr (.inl ⟨letter, parts, ?_⟩)
    rw [String.ofList_toList, Kind.ofWord_of_mem listed]
  | identifier letter parts free =>
    cases whole
    exact .inr (.inl ⟨letter, parts, (Kind.ofWord_of_not_mem free).symm⟩)
  | whole some all =>
    subst whole
    exact .inr (.inr (.inl ⟨all c List.mem_cons_self, rfl, .inl all⟩))
  | @fraction digits others some all more' rest =>
    have digit : isDigit c = true := by
      cases digits with
      | nil => exact absurd rfl some
      | cons d digits =>
        cases whole
        exact all _ List.mem_cons_self
    exact .inr (.inr (.inl ⟨digit, rfl, .inr ⟨digits, others, rfl, all, more', rest⟩⟩))
  | @string body inside =>
    cases whole
    exact .inr (.inr (.inr ⟨rfl, rfl, body, inside, rfl⟩))

theorem of_letter (lexeme : Lexeme kind (c :: more)) (letter : isLetter c = true) :
    (∀ d ∈ more, isWordPart d = true) ∧ kind = .ofWord (String.ofList (c :: more)) := by
  rcases lexeme.sort with mark | ⟨_, word⟩ | ⟨digit, _⟩ | ⟨rfl, _⟩
  · rw [(marks_begin mark).1] at letter
    cases letter
  · exact word
  · rw [isDigit_of_isLetter letter] at digit
    cases digit
  · exact absurd letter (by decide)

theorem of_digit (lexeme : Lexeme kind (c :: more)) (digit : isDigit c = true) :
    kind = .number ∧ Numeral (c :: more) := by
  rcases lexeme.sort with mark | ⟨letter, _⟩ | ⟨_, number⟩ | ⟨rfl, _⟩
  · rw [(marks_begin mark).2.1] at digit
    cases digit
  · rw [isDigit_of_isLetter letter] at digit
    cases digit
  · exact number
  · exact absurd digit (by decide)

theorem of_quote (lexeme : Lexeme kind ('"' :: more)) :
    kind = .string ∧ ∃ body, '"' ∉ body ∧ more = body ++ ['"'] := by
  rcases lexeme.sort with mark | ⟨letter, _⟩ | ⟨digit, _⟩ | ⟨_, string⟩
  · exact absurd rfl (marks_begin mark).2.2.2
  · exact absurd letter (by decide)
  · exact absurd digit (by decide)
  · exact string

theorem of_other (lexeme : Lexeme kind (c :: more)) (word : isWordPart c = false) (quote : c ≠ '"') :
    (c :: more, kind) ∈ Kind.marks := by
  rcases lexeme.sort with mark | ⟨letter, _⟩ | ⟨digit, _⟩ | ⟨rfl, _⟩
  · exact mark
  · rw [isWordPart_of_isLetter letter] at word
    cases word
  · rw [isWordPart_of_isDigit digit] at word
    cases word
  · exact absurd rfl quote

theorem not_blank (lexeme : Lexeme kind (c :: more)) : isBlank c = false := by
  rcases lexeme.sort with mark | ⟨letter, _⟩ | ⟨digit, _⟩ | ⟨rfl, _⟩
  · exact (marks_begin mark).2.2.1
  · exact (isWordPart_apart (isWordPart_of_isLetter letter)).1
  · exact (isWordPart_apart (isWordPart_of_isDigit digit)).1
  · rfl

theorem kind_eq {text : List Char} {other : Kind} (lexeme : Lexeme kind text)
    (again : Lexeme other text) : kind = other := by
  obtain ⟨c, more, rfl⟩ := List.exists_cons_of_ne_nil lexeme.ne_nil
  by_cases quote : c = '"'
  · subst quote
    rw [lexeme.of_quote.1, again.of_quote.1]
  cases letter : isLetter c with
  | true => rw [(lexeme.of_letter letter).2, (again.of_letter letter).2]
  | false =>
    cases digit : isDigit c with
    | true => rw [(lexeme.of_digit digit).1, (again.of_digit digit).1]
    | false =>
      have word : isWordPart c = false := by rw [isWordPart, letter, digit, Bool.or_false]
      exact marks_kind (lexeme.of_other word quote) (again.of_other word quote)

/-- A word is a keyword or else an identifier. -/
theorem word (letter : isLetter c = true) (parts : ∀ d ∈ more, isWordPart d = true) :
    Lexeme (.ofWord (String.ofList (c :: more))) (c :: more) := by
  by_cases known : ∃ kind, (String.ofList (c :: more), kind) ∈ Kind.keywords
  · obtain ⟨kind, listed⟩ := known
    rw [Kind.ofWord_of_mem listed]
    have keyword := Lexeme.keyword listed
    rwa [String.toList_ofList] at keyword
  · have free := not_exists.mp known
    rw [Kind.ofWord_of_not_mem free]
    exact .identifier letter parts free

end Lexeme

namespace Piece

theorem length_le_takeWhile {p : Char → Bool} {longer text : List Char} (begins : longer <+: text)
    (all : ∀ d ∈ longer, p d = true) : longer.length ≤ (text.takeWhile p).length := by
  obtain ⟨rest, rfl⟩ := begins
  rw [List.takeWhile_append_of_pos all, List.length_append]
  omega

/-- Up to the first character that does not belong, a text is taken whole. -/
theorem takeWhile_of_stop {p : Char → Bool} {body rest : List Char}
    (all : ∀ d ∈ body, p d = true) (stops : ∀ d ∈ rest.head?, p d = false) :
    (body ++ rest).takeWhile p = body ∧ (body ++ rest).dropWhile p = rest := by
  rw [List.takeWhile_append_of_pos all, List.dropWhile_append_of_pos all]
  cases rest with
  | nil => simp
  | cons d rest =>
    have stop := stops d rfl
    simp [stop]

theorem silent_of_ne {c : Char} (other : c ≠ '/') (rest : List Char) : ¬ ['/', '/'] <+: c :: rest := by
  rintro ⟨more, same⟩
  cases same
  exact other rfl

/-- Where no slash begins a lexeme it only has to be the longest. -/
theorem stands_lexeme {kind : Kind} {c : Char} {text rest cs : List Char} (lexeme : Lexeme kind text)
    (whole : text ++ rest = c :: cs) (other : c ≠ '/')
    (longest : ∀ kind more, Lexeme kind (c :: more) → c :: more <+: c :: cs →
      (c :: more).length ≤ text.length) : Stands (.lexeme kind text) rest := by
  refine .lexeme lexeme ?_ ?_
  · rw [whole]
    exact silent_of_ne other cs
  · intro kind longer lexeme begins
    rw [whole] at begins
    obtain ⟨d, more, rfl⟩ := List.exists_cons_of_ne_nil lexeme.ne_nil
    obtain ⟨rfl, _⟩ := List.cons_prefix_cons.mp begins
    exact longest kind more lexeme begins

theorem word_stands {c : Char} (letter : isLetter c = true) (rest : List Char) :
    (word (c :: rest)).1.Stands (word (c :: rest)).2 := by
  have part := isWordPart_of_isLetter letter
  have text : (c :: rest).takeWhile isWordPart = c :: rest.takeWhile isWordPart := by
    rw [List.takeWhile_cons, if_pos part]
  have other : c ≠ '/' := by
    rintro rfl
    exact absurd letter (by decide)
  refine stands_lexeme ?_ List.takeWhile_append_dropWhile other ?_
  · rw [text]
    exact .word letter fun d member => List.mem_takeWhile_imp member
  · intro kind more lexeme begins
    exact length_le_takeWhile begins (List.forall_mem_cons.mpr ⟨part, (lexeme.of_letter letter).1⟩)

/-- A number is no longer than its digits, or it has its point where they end. -/
theorem longer_number {kind : Kind} {c : Char} {more cs : List Char} (digit : isDigit c = true)
    (lexeme : Lexeme kind (c :: more)) (begins : c :: more <+: c :: cs) :
    (c :: more).length ≤ ((c :: cs).takeWhile isDigit).length ∨
    ∃ digits rest, c :: more = (c :: cs).takeWhile isDigit ++ '.' :: digits ∧ digits ≠ [] ∧
      (∀ d ∈ digits, isDigit d = true) ∧ (c :: cs).dropWhile isDigit = '.' :: (digits ++ rest) := by
  rcases (lexeme.of_digit digit).2 with digits | ⟨before, digits, same, first, noted, others⟩
  · exact .inl (length_le_takeWhile begins digits)
  · obtain ⟨rest, joined⟩ := begins
    rw [same, List.append_assoc, List.cons_append] at joined
    have points : ∀ d ∈ ('.' :: (digits ++ rest)).head?, isDigit d = false := by
      rintro _ ⟨⟩
      rfl
    obtain ⟨taken, left⟩ := takeWhile_of_stop first points
    rw [joined] at taken left
    rw [same, taken, left]
    exact .inr ⟨digits, rest, rfl, noted, others, rfl⟩

theorem digits_of_digit {c : Char} (digit : isDigit c = true) (cs : List Char) :
    (c :: cs).takeWhile isDigit ≠ [] ∧ ∀ d ∈ (c :: cs).takeWhile isDigit, isDigit d = true := by
  refine ⟨?_, fun d member => List.mem_takeWhile_imp member⟩
  rw [List.takeWhile_cons, if_pos digit]
  exact List.cons_ne_nil _ _

theorem ne_slash_of_digit {c : Char} (digit : isDigit c = true) : c ≠ '/' := by
  rintro rfl
  exact absurd digit (by decide)

/-- Digits alone are the number where no point with a digit after it follows. -/
theorem whole_stands {c : Char} (digit : isDigit c = true) {cs : List Char}
    (pointless : ∀ d more, (c :: cs).dropWhile isDigit = '.' :: d :: more → isDigit d = false) :
    Stands (.lexeme .number ((c :: cs).takeWhile isDigit)) ((c :: cs).dropWhile isDigit) := by
  obtain ⟨some, all⟩ := digits_of_digit digit cs
  refine stands_lexeme (.whole some all) List.takeWhile_append_dropWhile (ne_slash_of_digit digit) ?_
  intro kind more lexeme begins
  rcases longer_number digit lexeme begins with short | ⟨digits, rest, _, noted, others, left⟩
  · exact short
  · obtain ⟨d, digits, rfl⟩ := List.exists_cons_of_ne_nil noted
    rw [List.cons_append] at left
    have stop := pointless d _ left
    rw [others d List.mem_cons_self] at stop
    cases stop

theorem fraction_stands {c d : Char} (digit : isDigit c = true) (next : isDigit d = true)
    {cs more : List Char} (left : (c :: cs).dropWhile isDigit = '.' :: d :: more) :
    Stands (.lexeme .number ((c :: cs).takeWhile isDigit ++ '.' :: (d :: more).takeWhile isDigit))
      ((d :: more).dropWhile isDigit) := by
  obtain ⟨some, all⟩ := digits_of_digit digit cs
  obtain ⟨noted, others⟩ := digits_of_digit next more
  have whole : (c :: cs).takeWhile isDigit ++ '.' :: (d :: more).takeWhile isDigit ++
      (d :: more).dropWhile isDigit = c :: cs := by
    rw [List.append_assoc, List.cons_append, List.takeWhile_append_dropWhile, ← left,
      List.takeWhile_append_dropWhile]
  refine stands_lexeme (.fraction some all noted others) whole (ne_slash_of_digit digit) ?_
  intro kind longer lexeme begins
  rcases longer_number digit lexeme begins with short | ⟨digits, rest, same, _, others, after⟩
  · rw [List.length_append]
    omega
  · rw [left, List.cons.injEq] at after
    have fits := length_le_takeWhile ⟨rest, after.2.symm⟩ others
    rw [same, List.length_append, List.length_append, List.length_cons, List.length_cons]
    omega

theorem number_stands {c : Char} (digit : isDigit c = true) (cs : List Char) :
    (number (c :: cs)).1.Stands (number (c :: cs)).2 := by
  simp only [number]
  split
  · rename_i d more left
    split
    · rename_i next
      exact fraction_stands digit next left
    · rename_i next
      apply whole_stands digit
      intro e others same
      rw [left] at same
      cases same
      simpa using next
  · rename_i pointless
    apply whole_stands digit
    intro d more same
    exact absurd same (pointless d more)

theorem afterQuote_stands (cs : List Char) : (afterQuote cs).1.Stands (afterQuote cs).2 := by
  have inside : '"' ∉ cs.takeWhile (· != '"') := by
    intro member
    exact absurd (List.mem_takeWhile_imp member) (by decide)
  have join : cs.takeWhile (· != '"') ++ cs.dropWhile (· != '"') = cs :=
    List.takeWhile_append_dropWhile
  simp only [afterQuote]
  split
  · exact .unterminated inside
  · rename_i close rest left
    have closes : close = '"' := by
      have stop := List.head?_dropWhile_not (p := (· != '"')) cs
      rw [left] at stop
      simpa using stop
    subst closes
    rw [left] at join
    have whole : '"' :: (cs.takeWhile (· != '"') ++ ['"']) ++ rest = '"' :: cs := by
      rw [List.cons_append, List.append_assoc]
      exact congrArg _ join
    refine stands_lexeme (.string inside) whole (by decide) ?_
    intro kind more lexeme begins
    obtain ⟨_, body, free, rfl⟩ := lexeme.of_quote
    obtain ⟨after, joined⟩ := (List.cons_prefix_cons.mp begins).2
    have fits : body.length ≤ (cs.takeWhile (· != '"')).length := by
      refine length_le_takeWhile ⟨'"' :: after, by simpa using joined⟩ ?_
      intro d member
      rw [bne_iff_ne]
      rintro rfl
      exact free member
    simp only [List.length_cons, List.length_append, List.length_nil]
    omega

theorem afterSlash_stands (cs : List Char) : (afterSlash cs).1.Stands (afterSlash cs).2 := by
  unfold afterSlash
  split
  · rename_i rest
    refine .comment ?_ ?_
    · intro member
      exact absurd (List.mem_takeWhile_imp member) (by decide)
    · intro c member
      have stop := List.head?_dropWhile_not (p := (· != '\n')) rest
      rw [Option.mem_def.mp member] at stop
      simpa using stop
  · rename_i single
    refine .lexeme (.mark (by decide)) ?_ ?_
    · rintro ⟨more, same⟩
      cases same
      exact single _ rfl
    · intro kind longer lexeme begins
      obtain ⟨d, more, rfl⟩ := List.exists_cons_of_ne_nil lexeme.ne_nil
      obtain ⟨rfl, _⟩ := List.cons_prefix_cons.mp begins
      rcases marks_end (lexeme.of_other (by decide) (by decide)) with rfl | ⟨_, _, other⟩
      · exact Nat.le_refl _
      · exact absurd rfl other

theorem symbol_stands {c : Char} {kind : Kind} (symbol : symbol? c = some kind) (cs : List Char) :
    Stands (.lexeme kind [c]) cs := by
  have listed := marks_of_symbol symbol
  obtain ⟨letter, digit, _, quote⟩ := marks_begin listed
  have other : c ≠ '/' := by
    rintro rfl
    cases symbol
  refine stands_lexeme (.mark listed) rfl other ?_
  intro kind more lexeme begins
  have mark := lexeme.of_other (by rw [isWordPart, letter, digit, Bool.or_false]) quote
  rcases marks_end mark with rfl | ⟨_, none, _⟩
  · exact Nat.le_refl _
  · rw [symbol] at none
    cases none

theorem paired_stands {c : Char} {joined alone : Kind} (paired : paired? c = some (joined, alone))
    (cs : List Char) : Stands (.lexeme joined [c, '=']) cs ∧
      (cs.head? ≠ some '=' → Stands (.lexeme alone [c]) cs) := by
  obtain ⟨both, one⟩ := marks_of_paired paired
  obtain ⟨letter, digit, _, quote⟩ := marks_begin one
  have word : isWordPart c = false := by rw [isWordPart, letter, digit, Bool.or_false]
  have other : c ≠ '/' := by
    rintro rfl
    cases paired
  constructor
  · refine stands_lexeme (.mark both) rfl other ?_
    intro kind more lexeme _
    rcases marks_end (lexeme.of_other word quote) with rfl | ⟨rfl, _⟩ <;> simp
  · intro free
    refine stands_lexeme (.mark one) rfl other ?_
    intro kind more lexeme begins
    rcases marks_end (lexeme.of_other word quote) with rfl | ⟨rfl, _⟩
    · exact Nat.le_refl _
    · obtain ⟨rest, rfl⟩ := (List.cons_prefix_cons.mp begins).2
      exact absurd rfl free

/-- The piece that is cut off stands rightly before the rest. -/
theorem first_stands (c : Char) (cs : List Char) : (first c cs).1.Stands (first c cs).2 := by
  unfold first
  split
  · exact symbol_stands (by assumption) cs
  · rename_i noSymbol
    split
    · rename_i joined alone paired
      split
      · exact (paired_stands paired _).1
      · rename_i free
        refine (paired_stands paired cs).2 ?_
        intro same
        obtain ⟨rest, rfl⟩ := List.head?_eq_some_iff.mp same
        exact free rest rfl
    · rename_i noPair
      split
      · exact afterSlash_stands cs
      · rename_i slash
        split
        · rename_i blank
          exact .blank ((isBlank_iff c).mp blank)
        · rename_i visible
          split
          · exact afterQuote_stands cs
          · rename_i quote
            split
            · exact number_stands (by assumption) cs
            · rename_i digit
              split
              · exact word_stands (by assumption) cs
              · rename_i letter
                refine .stray (fun member => visible ((isBlank_iff c).mpr member)) ?_
                intro kind more lexeme
                have word : isWordPart c = false := by simp [isWordPart, letter, digit]
                have mark := lexeme.of_other word (by simpa using quote)
                rcases marks_known mark with symbol | pair | rfl
                · simp [noSymbol] at symbol
                · simp [noPair] at pair
                · exact slash rfl

theorem cut_split (text : List Char) : Cut text (split text) := by
  induction text using split.induct with
  | case1 =>
    rw [split]
    exact .done
  | case2 c cs ih =>
    have cut := Cut.piece (first_stands c cs) ih
    rwa [first_text, ← split_cons] at cut

/-- A piece is known by its text, since that is where the rest begins. -/
theorem first_eq {piece : Piece} {rest cs : List Char} {c : Char}
    (text : piece.text ++ rest = c :: cs) (same : (first c cs).1 = piece) :
    first c cs = (piece, rest) := by
  have whole := first_text c cs
  rw [same, ← text] at whole
  exact Prod.ext same (List.append_cancel_left whole)

theorem first_of_comment {body rest : List Char} (inside : '\n' ∉ body)
    (ends : ∀ c ∈ rest.head?, c = '\n') :
    first '/' ('/' :: (body ++ rest)) = (comment ('/' :: '/' :: body), rest) := by
  have all : ∀ d ∈ body, (d != '\n') = true := by
    intro d member
    rw [bne_iff_ne]
    rintro rfl
    exact inside member
  have stops : ∀ d ∈ rest.head?, (d != '\n') = false := by
    intro d member
    rw [ends d member]
    rfl
  obtain ⟨taken, left⟩ := takeWhile_of_stop all stops
  show afterSlash ('/' :: (body ++ rest)) = _
  simp only [afterSlash, taken, left]

theorem first_of_unterminated {body : List Char} (inside : '"' ∉ body) :
    first '"' body = (unterminated ('"' :: body), []) := by
  have all : ∀ d ∈ body, (d != '"') = true := by
    intro d member
    rw [bne_iff_ne]
    rintro rfl
    exact inside member
  have none : ∀ d ∈ ([] : List Char).head?, (d != '"') = false := by
    rintro _ ⟨⟩
  obtain ⟨taken, left⟩ := takeWhile_of_stop all none
  rw [List.append_nil] at taken left
  show afterQuote body = _
  simp only [afterQuote, taken, left]

/-- With a character that begins no lexeme no other piece begins either. -/
theorem first_of_stray {c : Char} (visible : c ∉ [' ', '\r', '\t', '\n'])
    (foreign : ∀ kind more, ¬ Lexeme kind (c :: more)) (cs : List Char) :
    first c cs = (stray c, cs) := by
  refine first_eq rfl ?_
  have found := first_stands c cs
  have whole := first_text c cs
  generalize (first c cs).2 = left at found whole
  cases shape : (first c cs).1 <;> rw [shape] at found whole
  case blank d =>
    cases whole
    cases found with
    | blank separates => exact absurd separates visible
  case comment text =>
    cases found with
    | comment =>
      cases whole
      exact absurd (.mark (by decide)) (foreign .slash [])
  case lexeme kind text =>
    cases found with
    | lexeme lexeme =>
      obtain ⟨d, more, rfl⟩ := List.exists_cons_of_ne_nil lexeme.ne_nil
      cases whole
      exact absurd lexeme (foreign kind more)
  case stray d =>
    cases whole
    rfl
  case unterminated text =>
    cases found with
    | unterminated =>
      cases whole
      exact absurd (.string List.not_mem_nil) (foreign .string ['"'])

/-- No other piece begins with a lexeme, and of two lexemes the longest is one and the same. -/
theorem first_of_lexeme {kind : Kind} {text rest cs : List Char} {c : Char}
    (lexeme : Lexeme kind text) (silent : ¬ ['/', '/'] <+: text ++ rest)
    (longest : ∀ other longer, Lexeme other longer → longer <+: text ++ rest →
      longer.length ≤ text.length) (begins : text ++ rest = c :: cs) :
    first c cs = (.lexeme kind text, rest) := by
  refine first_eq begins ?_
  have found := first_stands c cs
  have whole := first_text c cs
  generalize (first c cs).2 = left at found whole
  obtain ⟨more, rfl⟩ : ∃ more, text = c :: more := by
    obtain ⟨d, more, rfl⟩ := List.exists_cons_of_ne_nil lexeme.ne_nil
    exact ⟨more, congrArg (· :: more) (List.cons.inj begins).1⟩
  rw [begins] at silent longest
  cases shape : (first c cs).1 <;> rw [shape] at found whole
  case blank d =>
    have same : d = c := (List.cons.inj whole).1
    cases found with
    | blank separates =>
      have visible := lexeme.not_blank
      rw [(isBlank_iff c).mpr (same ▸ separates)] at visible
      cases visible
  case comment taken =>
    cases found with
    | @comment body _ _ _ => exact absurd ⟨body ++ left, whole⟩ silent
  case lexeme other taken =>
    cases found with
    | lexeme again _ others =>
      have shorter := longest other taken again ⟨left, whole⟩
      have longer := others kind (c :: more) lexeme ⟨rest, begins.trans whole.symm⟩
      have same : taken = c :: more :=
        List.append_inj_left (whole.trans begins.symm) (Nat.le_antisymm shorter longer)
      subst same
      rw [lexeme.kind_eq again]
  case stray d =>
    have same : d = c := (List.cons.inj whole).1
    cases found with
    | stray _ foreign => exact absurd lexeme (same ▸ foreign kind more)
  case unterminated taken =>
    cases found with
    | @unterminated body inside =>
      obtain ⟨rfl, after⟩ := List.cons.inj whole
      obtain ⟨_, inner, _, rfl⟩ := lexeme.of_quote
      have same : body ++ [] = inner ++ ['"'] ++ rest := after.trans (List.cons.inj begins).2.symm
      have quote : '"' ∈ body := by
        rw [List.append_nil] at same
        simp [same]
      exact absurd quote inside

/-- Whatever stands rightly before the rest of a text is what is cut off. -/
theorem first_of_stands {piece : Piece} {rest cs : List Char} {c : Char} (stands : piece.Stands rest)
    (text : piece.text ++ rest = c :: cs) : first c cs = (piece, rest) := by
  cases stands with
  | blank separates =>
    cases text
    simp only [List.mem_cons, List.not_mem_nil, or_false] at separates
    rcases separates with rfl | rfl | rfl | rfl <;> rfl
  | comment inside ends =>
    cases text
    exact first_of_comment inside ends
  | lexeme lexeme silent longest => exact first_of_lexeme lexeme silent longest text
  | stray visible foreign =>
    cases text
    exact first_of_stray visible foreign rest
  | unterminated inside =>
    rw [Piece.text, List.append_nil] at text
    cases text
    exact first_of_unterminated inside

theorem Stands.text_ne_nil {piece : Piece} {rest : List Char} (stands : piece.Stands rest) :
    piece.text ≠ [] := by
  cases stands with
  | lexeme lexeme => exact lexeme.ne_nil
  | blank | comment | stray | unterminated => exact List.cons_ne_nil _ _

/-- There is only one way to cut a text. -/
theorem Cut.eq_split {text : List Char} {pieces : List Piece} (cut : Cut text pieces) :
    pieces = split text := by
  induction cut with
  | done => rw [split]
  | @piece piece rest pieces stands more ih =>
    obtain ⟨c, cs, same⟩ := List.exists_cons_of_ne_nil stands.text_ne_nil
    have text : piece.text ++ rest = c :: (cs ++ rest) := by rw [same, List.cons_append]
    rw [text, split_cons, first_of_stands stands text, ih]

/-- The pieces, each with the line on which it ends: one more than the newlines so far. -/
def located (pieces : List Piece) : List (Piece × Nat) :=
  pieces.mapIdx fun place piece => (piece, 1 + ((pieces.take (place + 1)).flatMap text).count '\n')

theorem numbered_eq (line : Nat) (pieces : List Piece) :
    numbered line pieces = pieces.mapIdx fun place piece =>
      (piece, line + ((pieces.take (place + 1)).flatMap text).count '\n') := by
  induction pieces generalizing line with
  | nil => rfl
  | cons piece rest ih =>
    rw [numbered, ih, List.mapIdx_cons]
    simp [lineBreaks, Nat.add_assoc]

def isLexeme : Piece → Bool
  | lexeme _ _ => true
  | _ => false

def isFaulty : Piece → Bool
  | stray _ | unterminated _ => true
  | _ => false

/-- The token of a lexeme that ends on a line. Numbers and strings also carry what they write. -/
inductive Makes : Piece × Nat → Token → Prop
  | number {text : List Char} {line : Nat} :
      Makes (.lexeme .number text, line)
        ⟨.number, String.ofList text, some (.number (Decimal.ofText text).toFloat), line⟩
  | string {body : List Char} {line : Nat} (inside : '"' ∉ body) :
      Makes (.lexeme .string ('"' :: (body ++ ['"'])), line)
        ⟨.string, String.ofList ('"' :: (body ++ ['"'])), some (.text (String.ofList body)), line⟩
  | plain {kind : Kind} {text : List Char} {line : Nat} (number : kind ≠ .number)
      (string : kind ≠ .string) :
      Makes (.lexeme kind text, line) (.plain kind (String.ofList text) line)

inductive Reports : Piece × Nat → Diagnostic → Prop
  | stray {c : Char} {line : Nat} :
      Reports (.stray c, line) ⟨some (.plain .identifier "" line), "Unexpected character.", false⟩
  | unterminated {text : List Char} {line : Nat} :
      Reports (.unterminated text, line)
        ⟨some (.plain .identifier "" line), "Unterminated string.", false⟩

theorem Cut.stands_of_mem {text : List Char} {pieces : List Piece} {piece : Piece}
    (cut : Cut text pieces) (member : piece ∈ pieces) : ∃ rest, piece.Stands rest := by
  induction cut with
  | done => cases member
  | @piece _ rest _ stands _ ih =>
    rcases List.mem_cons.mp member with rfl | later
    · exact ⟨rest, stands⟩
    · exact ih later

theorem makes_plain {kind : Kind} (apart : kind ≠ .number ∧ kind ≠ .string) (text : List Char)
    (line : Nat) :
    Makes (.lexeme kind text, line) ⟨kind, String.ofList text, Literal.ofLexeme? kind text, line⟩ := by
  have none : Literal.ofLexeme? kind text = none := by
    cases kind <;> first | rfl | exact absurd rfl apart.1 | exact absurd rfl apart.2
  rw [none]
  exact .plain apart.1 apart.2

theorem makes_of_lexeme {kind : Kind} {text : List Char} (lexeme : Lexeme kind text) (line : Nat) :
    Makes (.lexeme kind text, line)
      ⟨kind, String.ofList text, Literal.ofLexeme? kind text, line⟩ := by
  cases lexeme with
  | mark listed =>
    have all : ∀ entry ∈ Kind.marks, entry.2 ≠ .number ∧ entry.2 ≠ .string := by decide
    exact makes_plain (all _ listed) text line
  | @keyword _ word listed =>
    have all : ∀ entry ∈ Kind.keywords, entry.2 ≠ .number ∧ entry.2 ≠ .string := by decide
    exact makes_plain (all _ listed) word.toList line
  | identifier => exact makes_plain (by decide) _ line
  | whole | fraction => exact .number
  | @string body inside =>
    have between : (('"' :: (body ++ ['"'])).drop 1).dropLast = body := by
      rw [List.drop_one, List.tail_cons, List.dropLast_concat]
    rw [Literal.ofLexeme?, between]
    exact .string inside

/-- Filtering a list while mapping it keeps the order and relates what is kept to what it becomes. -/
theorem forall₂_filterMap {α β : Type} {R : α → β → Prop} {keeps : α → Bool} {becomes : α → Option β}
    {list : List α} (kept : ∀ a ∈ list, keeps a = true → ∃ b, becomes a = some b ∧ R a b)
    (dropped : ∀ a ∈ list, keeps a = false → becomes a = none) :
    List.Forall₂ R (list.filter keeps) (list.filterMap becomes) := by
  induction list with
  | nil => exact .nil
  | cons a rest ih =>
    rw [List.forall_mem_cons] at kept dropped
    have later := ih kept.2 dropped.2
    cases keep : keeps a with
    | true =>
      obtain ⟨b, same, related⟩ := kept.1 keep
      rw [List.filter_cons_of_pos keep, List.filterMap_cons_some same]
      exact .cons related later
    | false =>
      rw [List.filter_cons_of_neg (by simp [keep]), List.filterMap_cons_none (dropped.1 keep)]
      exact later

theorem mem_of_mem_located {entry : Piece × Nat} {pieces : List Piece}
    (member : entry ∈ located pieces) : entry.1 ∈ pieces := by
  rw [located, ← numbered_eq] at member
  rw [← map_fst_numbered 1 pieces]
  exact List.mem_map_of_mem member

end Piece

namespace Scan

open Piece

/-- Every text is cut in exactly one way into blanks, comments, lexemes and stray characters, perhaps
with an unterminated string at the end. The tokens are the lexemes and the problems the faulty
pieces, in their order, each on the line on which it ends. -/
theorem ofSource_lexical (source : String) :
    ∃ pieces, Cut source.toList pieces ∧ (∀ others, Cut source.toList others → others = pieces) ∧
      pieces.flatMap Piece.text = source.toList ∧
      List.Forall₂ Makes ((located pieces).filter fun entry => entry.1.isLexeme)
        (ofSource source).tokens ∧
      (ofSource source).last = .plain .endOfInput "" (1 + source.toList.count '\n' : Nat) ∧
      List.Forall₂ Reports ((located pieces).filter fun entry => entry.1.isFaulty)
        (ofSource source).problems := by
  have cut := cut_split source.toList
  have lines := numbered_eq 1 (split source.toList)
  refine ⟨split source.toList, cut, fun others again => again.eq_split, split_text _, ?_, ?_, ?_⟩
  · rw [ofSource, ofNumbered, lines]
    refine forall₂_filterMap ?_ ?_
    · rintro ⟨piece, line⟩ member token
      obtain ⟨rest, stands⟩ := cut.stands_of_mem (mem_of_mem_located member)
      cases stands with
      | lexeme lexeme => exact ⟨_, rfl, makes_of_lexeme lexeme line⟩
      | blank | comment | stray | unterminated => cases token
    · rintro ⟨piece, line⟩ _ other
      cases piece with
      | lexeme => cases other
      | blank | comment | stray | unterminated => rfl
  · rw [ofSource, ofNumbered, lastLine_eq, split_text]
  · rw [ofSource, ofNumbered, lines]
    refine forall₂_filterMap ?_ ?_
    · rintro ⟨piece, line⟩ _ faulty
      cases piece with
      | stray => exact ⟨_, rfl, .stray⟩
      | unterminated => exact ⟨_, rfl, .unterminated⟩
      | blank | comment | lexeme => cases faulty
    · rintro ⟨piece, line⟩ _ other
      cases piece with
      | stray | unterminated => cases other
      | blank | comment | lexeme => rfl

end Scan

end Lox
