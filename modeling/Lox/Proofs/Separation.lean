import Lox.Proofs.Layout
import Lox.Proofs.Lexicon

set_option autoImplicit false

namespace Lox

namespace Piece

/-- Whether a character goes on with no lexeme, unless it is inside a string. -/
def separates (c : Char) : Bool :=
  !(isWordPart c || c == '.' || c == '=' || c == '/')

theorem separates_apart {c : Char} (separates : separates c = true) :
    isWordPart c = false ∧ c ≠ '.' ∧ c ≠ '=' ∧ c ≠ '/' := by
  simpa [Piece.separates, and_assoc] using separates

def isComment : Piece → Bool
  | comment _ => true
  | _ => false

/-- Whether a piece takes in what is added to it at the end of a text. -/
def runsOn (piece : Piece) : Bool :=
  piece.isComment || piece.isOpen

end Piece

namespace Lexeme

open Piece

variable {kind other : Kind} {text between more : List Char} {stop : Char}

/-- No lexeme begins with another one and goes on beyond a separator. -/
theorem not_beyond (lexeme : Lexeme kind text) (separates : separates stop = true) :
    ¬ Lexeme other (text ++ (between ++ stop :: more)) := by
  intro longer
  obtain ⟨word, point, equals, _⟩ := separates_apart separates
  obtain ⟨c, rest, rfl⟩ := List.exists_cons_of_ne_nil lexeme.ne_nil
  rw [List.cons_append] at longer
  have inside : stop ∈ rest ++ (between ++ stop :: more) := by simp
  rcases longer.sort with mark | ⟨_, parts, _⟩ | ⟨_, _, numeral⟩ | ⟨rfl, _, body, free, same⟩
  · rcases marks_end mark with none | ⟨sign, _⟩
    · rw [none] at inside
      cases inside
    · rw [sign, List.mem_singleton] at inside
      exact equals inside
  · rw [parts stop inside] at word
    cases word
  · have among : stop ∈ c :: (rest ++ (between ++ stop :: more)) := List.mem_cons_of_mem c inside
    have noDigit : ¬ isDigit stop = true := by
      intro digit
      rw [isWordPart_of_isDigit digit] at word
      cases word
    rcases numeral with digits | ⟨whole, digits, same, first, _, others⟩
    · exact noDigit (digits stop among)
    · rw [same, List.mem_append, List.mem_cons] at among
      rcases among with early | rfl | late
      · exact noDigit (first stop early)
      · exact point rfl
      · exact noDigit (others stop late)
  · -- The quote that closes the first string would be inside the second.
    obtain ⟨_, inner, _, rfl⟩ := lexeme.of_quote
    have bodies := congrArg List.dropLast same
    rw [List.dropLast_concat, List.dropLast_append_of_ne_nil (by simp)] at bodies
    apply free
    rw [← bodies]
    simp

/-- No other lexeme ends in a semicolon. -/
theorem semicolon_of_last (lexeme : Lexeme kind text) (last : text.getLast? = some ';') :
    kind = .semicolon := by
  cases lexeme with
  | mark listed =>
    have all : ∀ entry ∈ Kind.marks, entry.1.getLast? = some ';' → entry.2 = .semicolon := by
      decide
    exact all _ listed last
  | keyword listed =>
    have none : ∀ entry ∈ Kind.keywords, entry.1.toList.getLast? ≠ some ';' := by decide
    exact absurd last (none _ listed)
  | @identifier c rest letter parts =>
    have part : ∀ d ∈ c :: rest, Piece.isWordPart d = true :=
      List.forall_mem_cons.mpr ⟨Piece.isWordPart_of_isLetter letter, parts⟩
    exact absurd (part _ (List.mem_of_getLast? last)) (by decide)
  | whole _ all => exact absurd (all _ (List.mem_of_getLast? last)) (by decide)
  | fraction _ _ more others =>
    rw [List.getLast?_append_of_ne_nil _ (List.cons_ne_nil _ _), List.getLast?_cons_of_ne_nil more]
      at last
    exact absurd (others _ (List.mem_of_getLast? last)) (by decide)
  | string =>
    rw [← List.cons_append, List.getLast?_concat] at last
    cases last

end Lexeme

namespace Piece

variable {stop : Char}

/-- A lexeme that is the whole rest of a text is cut off. -/
theorem stands_alone {kind : Kind} {text : List Char} (lexeme : Lexeme kind text) :
    Stands (.lexeme kind text) [] := by
  refine .lexeme lexeme ?_ ?_
  · rintro ⟨more, same⟩
    rw [List.append_nil, List.cons_append] at same
    subst same
    rcases marks_end (lexeme.of_other (by decide) (by decide)) with none | ⟨_, _, other⟩
    · cases none
    · exact other rfl
  · intro other longer _ begins
    rw [List.append_nil] at begins
    exact begins.length_le

/-- With a separator after it, the rest of a text goes on with none of the pieces before it, but for
one that runs on to its end. -/
theorem Stands.before {piece : Piece} {rest : List Char} (stands : piece.Stands rest)
    (separates : separates stop = true) (ended : rest = [] → piece.runsOn = false)
    (more : List Char) : piece.Stands (rest ++ stop :: more) := by
  cases stands with
  | blank separates => exact .blank separates
  | comment inside ends =>
    refine .comment inside ?_
    cases rest with
    | nil => cases ended rfl
    | cons c rest => exact ends
  | @lexeme kind text rest lexeme silent longest =>
    refine .lexeme lexeme ?_ ?_
    · intro begins
      have slash := (separates_apart separates).2.2.2
      obtain ⟨c, others, rfl⟩ := List.exists_cons_of_ne_nil lexeme.ne_nil
      rw [List.cons_append] at begins silent
      obtain ⟨rfl, second⟩ := List.cons_prefix_cons.mp begins
      rw [List.cons_prefix_cons] at silent
      apply silent
      refine ⟨rfl, ?_⟩
      rw [← List.append_assoc] at second
      cases after : others ++ rest with
      | nil =>
        rw [after, List.nil_append] at second
        exact absurd (List.cons_prefix_cons.mp second).1.symm slash
      | cons d others =>
        rw [after, List.cons_append] at second
        obtain ⟨rfl, _⟩ := List.cons_prefix_cons.mp second
        exact List.cons_prefix_cons.mpr ⟨rfl, List.nil_prefix⟩
    · intro other longer again begins
      rw [← List.append_assoc] at begins
      rcases List.prefix_or_prefix_of_prefix begins (List.prefix_append _ _) with within | ⟨extra, rfl⟩
      · exact longest other longer again within
      -- A lexeme that is longer than before goes on beyond the separator.
      rw [List.prefix_append_right_inj] at begins
      cases extra with
      | nil =>
        rw [List.append_nil] at again ⊢
        exact longest other _ again List.prefix_rfl
      | cons c extra =>
        obtain ⟨rfl, _⟩ := List.cons_prefix_cons.mp begins
        rw [List.append_assoc] at again
        exact absurd again (lexeme.not_beyond separates)
  | stray visible foreign => exact .stray visible foreign
  | unterminated => cases ended rfl

theorem Cut.nil {pieces : List Piece} (cut : Cut [] pieces) : pieces = [] := by
  rw [cut.eq_split, split]

/-- A text that nothing runs on from is cut before a separator as it is by itself. -/
theorem Cut.before {text more : List Char} {pieces others : List Piece} (cut : Cut text pieces)
    (separates : separates stop = true)
    (ended : ∀ last ∈ pieces.getLast?, last.runsOn = false) (rest : Cut (stop :: more) others) :
    Cut (text ++ stop :: more) (pieces ++ others) := by
  induction cut with
  | done => exact rest
  | @piece first after pieces stands cut ih =>
    rw [List.append_assoc]
    refine .piece (stands.before separates ?_ more) (ih ?_)
    · rintro rfl
      rw [cut.nil] at ended
      exact ended first rfl
    · intro last member
      cases pieces with
      | nil => cases member
      | cons second pieces => exact ended last member

/-- A comment at the end of a text takes in what is added to its line. -/
theorem Cut.commented {note : List Char} {pieces : List Piece} : ∀ {text : List Char},
    Cut text (pieces ++ [comment note]) → separates stop = true → stop ≠ '\n' →
    Cut (text ++ [stop]) (pieces ++ [comment (note ++ [stop])]) := by
  induction pieces with
  | nil =>
    intro text cut separates other
    cases cut with
    | @piece _ rest _ stands more =>
      cases more with
      | done =>
        cases stands with
        | @comment body _ inside _ =>
          have free : '\n' ∉ body ++ [stop] := by simpa [inside] using other.symm
          have longer : Stands (comment ('/' :: '/' :: (body ++ [stop]))) [] :=
            .comment free fun _ member => by cases member
          have cut := Cut.piece longer .done
          simpa [Piece.text] using cut
  | cons first pieces ih =>
    intro text cut separates other
    cases cut with
    | @piece _ rest _ stands more =>
      rw [List.append_assoc]
      refine .piece (stands.before separates ?_ []) (ih more separates other)
      rintro rfl
      exact absurd more.nil (by simp)

/-- An open string stays open as long as no quote follows. -/
theorem closed_of_newline {text more : List Char} (quoteless : '"' ∉ more)
    (closed : ∀ piece ∈ split (text ++ '\n' :: more), piece.isOpen = false) :
    ∀ piece ∈ split text, piece.isOpen = false := by
  induction text using split.induct with
  | case1 =>
    rw [split]
    intro _ member
    cases member
  | case2 c rest ih =>
    have whole := first_text c rest
    have stands := first_stands c rest
    cases shape : (first c rest).1.isOpen with
    | true =>
      generalize (first c rest).1 = piece, (first c rest).2 = left at whole stands shape
      cases stands with
      | unterminated inside =>
        rw [Piece.text, List.append_nil] at whole
        cases whole
        -- With no quote behind it the string takes in the newline and all after it.
        have longer : '"' ∉ rest ++ '\n' :: more := by simp [inside, quoteless]
        rw [List.cons_append, split_cons, first_of_unterminated longer] at closed
        have first := closed _ List.mem_cons_self
        cases first
      | blank | comment | lexeme | stray => cases shape
    | false =>
      rw [List.cons_append, split_cons, first_newline c rest more shape] at closed
      rw [split_cons]
      obtain ⟨_, others⟩ := List.forall_mem_cons.mp closed
      exact List.forall_mem_cons.mpr ⟨shape, ih others⟩

def lexeme? : Piece → Option (Kind × String)
  | lexeme kind text => some (kind, String.ofList text)
  | _ => none

def ofLexeme (entry : Kind × String) : Piece :=
  lexeme entry.1 entry.2.toList

theorem lexeme?_ofLexeme (entry : Kind × String) : lexeme? (ofLexeme entry) = some entry := by
  rw [ofLexeme, lexeme?, String.ofList_toList]

theorem filterMap_intersperse {α β : Type} {f : α → Option β} {between : α}
    (dropped : f between = none) (list : List α) :
    (list.intersperse between).filterMap f = list.filterMap f := by
  induction list with
  | nil => rfl
  | cons first rest ih =>
    cases rest with
    | nil => rfl
    | cons second rest =>
      rw [List.intersperse_cons_cons, List.filterMap_cons, List.filterMap_cons_none dropped, ih,
        ← List.filterMap_cons]

theorem mem_of_mem_intersperse {α : Type} {between item : α} {list : List α}
    (member : item ∈ list.intersperse between) : item = between ∨ item ∈ list := by
  induction list with
  | nil => cases member
  | cons first rest ih =>
    cases rest with
    | nil => exact .inr member
    | cons second rest =>
      rw [List.intersperse_cons_cons, List.mem_cons, List.mem_cons] at member
      rcases member with rfl | rfl | later
      · exact .inr List.mem_cons_self
      · exact .inl rfl
      · exact (ih later).imp_right (List.mem_cons_of_mem first)

/-- Lexemes with blanks between them are cut at the blanks. -/
theorem cut_spaced {entries : List (Kind × String)}
    (lexemes : ∀ entry ∈ entries, Lexeme entry.1 entry.2.toList) :
    Cut (" ".intercalate (entries.map Prod.snd)).toList
      ((entries.map ofLexeme).intersperse (.blank ' ')) := by
  have alone {entry : Kind × String} (lexeme : Lexeme entry.1 entry.2.toList) :
      Cut entry.2.toList [ofLexeme entry] := by
    have cut := Cut.piece (stands_alone lexeme) .done
    rwa [List.append_nil] at cut
  induction entries with
  | nil => exact .done
  | cons entry rest ih =>
    obtain ⟨lexeme, others⟩ := List.forall_mem_cons.mp lexemes
    cases rest with
    | nil =>
      simp only [List.map_cons, List.map_nil, String.intercalate_singleton]
      exact alone lexeme
    | cons next rest =>
      have spaced := Cut.piece (Stands.blank (c := ' ') (by decide)) (ih others)
      have blank : separates ' ' = true := rfl
      have whole := (alone lexeme).before blank (by rintro _ ⟨⟩; rfl) spaced
      simpa using whole

end Piece

namespace Scan

open Piece

/-- The tokens of a text are its lexemes. -/
theorem tokens_lexemes (source : String) :
    (ofSource source).tokens.map (fun token => (token.kind, token.lexeme)) =
      (split source.toList).filterMap lexeme? := by
  have same : (fun numbered => (token? numbered).map fun token => (token.kind, token.lexeme)) =
      lexeme? ∘ Prod.fst := by
    funext ⟨piece, line⟩
    cases piece <;> rfl
  rw [ofSource, ofNumbered, List.map_filterMap, same, ← List.filterMap_map, map_fst_numbered]

theorem problems_of_faultless {source : String}
    (faultless : ∀ piece ∈ split source.toList, piece.isFaulty = false) :
    (ofSource source).problems = [] := by
  refine List.filterMap_eq_nil_iff.mpr ?_
  rintro ⟨piece, line⟩ member
  have listed : piece ∈ split source.toList := by
    rw [← map_fst_numbered 1 (split source.toList)]
    exact List.mem_map_of_mem member
  have sound := faultless piece listed
  cases piece with
  | stray | unterminated => cases sound
  | blank | comment | lexeme => rfl

def commented (text : String) : Bool :=
  (split text.toList).getLast?.any isComment

theorem not_comment_of_last {text : String} (uncommented : commented text = false) {piece : Piece}
    (last : (split text.toList).getLast? = some piece) : piece.isComment = false := by
  rwa [commented, last] at uncommented

theorem cut_semicolon : Cut [';'] [.lexeme .semicolon [';']] :=
  have mark : Lexeme .semicolon [';'] := .mark (by decide)
  .piece (stands_alone mark) .done

/-- A semicolon on the next line is a token after those of the text. -/
theorem semicolon_below {text : String} (clean : (ofSource (text ++ "\n;")).problems = []) :
    (ofSource text).problems = [] ∧ ∃ semicolon : Token, semicolon.kind = .semicolon ∧
      (ofSource (text ++ "\n;")).tokens = (ofSource text).tokens ++ [semicolon] := by
  have lines : text ++ "\n;" = text ++ "\n" ++ ";" := by
    rw [String.append_assoc]
    rfl
  have closed : ∀ piece ∈ split text.toList, piece.isOpen = false := by
    have whole := closed_of_problems clean
    rw [String.toList_append] at whole
    exact closed_of_newline (by decide) whole
  obtain ⟨tokens, problems⟩ := ofSource_newline text ";" closed
  rw [← lines] at tokens problems
  rw [problems] at clean
  have alone : (ofSource ";").tokens = [.plain .semicolon ";" 1] := by
    have piece : split ";".toList = _ := cut_semicolon.eq_split.symm
    simp only [ofSource, ofNumbered, piece]
    rfl
  rw [alone] at tokens
  refine ⟨(List.append_eq_nil_iff.mp clean).1, _, ?_, tokens⟩
  rfl

/-- So it is at the end of the text, unless that is a comment. -/
theorem semicolon_behind {text : String} (uncommented : commented text = false)
    (clean : (ofSource text).problems = []) :
    (ofSource (text ++ ";")).problems = [] ∧ ∃ semicolon : Token, semicolon.kind = .semicolon ∧
      (ofSource (text ++ ";")).tokens = (ofSource text).tokens ++ [semicolon] := by
  have closed := closed_of_problems clean
  have ended : ∀ last ∈ (split text.toList).getLast?, last.runsOn = false := by
    intro last final
    rw [runsOn, not_comment_of_last uncommented final, closed last (List.mem_of_getLast? final)]
    rfl
  have cut := (cut_split text.toList).before rfl ended cut_semicolon
  have pieces : split (text ++ ";").toList = split text.toList ++ [.lexeme .semicolon [';']] := by
    rw [String.toList_append]
    exact cut.eq_split.symm
  simp only [ofSource, ofNumbered, pieces, numbered_append, List.filterMap_append] at clean ⊢
  rw [clean]
  refine ⟨rfl, _, ?_, rfl⟩
  rfl

/-- A comment at the end takes in a semicolon, and nothing is changed. -/
theorem semicolon_inside {text : String} (noted : commented text = true) :
    ofSource (text ++ ";") = ofSource text := by
  obtain ⟨piece, last, comments⟩ := Option.any_eq_true _ _ |>.mp noted
  obtain ⟨note, rfl⟩ : ∃ note, piece = comment note := by
    cases piece with
    | comment note => exact ⟨note, rfl⟩
    | blank | lexeme | stray | unterminated => cases comments
  obtain ⟨before, pieces⟩ := List.getLast?_eq_some_iff.mp last
  have cut := cut_split text.toList
  rw [pieces] at cut
  have longer : split (text ++ ";").toList = before ++ [comment (note ++ [';'])] := by
    rw [String.toList_append]
    exact (cut.commented rfl (by decide)).eq_split.symm
  have ending : (ofSource (text ++ ";")).last = (ofSource text).last := by
    rw [last_eq, last_eq, Scan.lines, Scan.lines, String.toList_append, List.count_append]
    rfl
  have same : (ofSource (text ++ ";")).tokens = (ofSource text).tokens ∧
      (ofSource (text ++ ";")).problems = (ofSource text).problems := by
    simp only [ofSource, ofNumbered, longer, pieces, numbered_append, List.filterMap_append]
    exact ⟨rfl, rfl⟩
  have whole : ofSource (text ++ ";") = ⟨(ofSource (text ++ ";")).tokens,
      (ofSource (text ++ ";")).last, (ofSource (text ++ ";")).problems⟩ := rfl
  rw [whole, same.1, same.2, ending]

/-- What ends in a semicolon ends in a comment, or in the token of the semicolon. -/
theorem semicolon_last {text : String} (uncommented : commented text = false)
    (clean : (ofSource text).problems = []) (last : text.toList.getLast? = some ';') :
    ∃ token ∈ (ofSource text).tokens, token.kind = .semicolon := by
  have whole := split_text text.toList
  obtain ⟨piece, behind⟩ : ∃ piece, (split text.toList).getLast? = some piece := by
    apply Option.ne_none_iff_exists'.mp
    intro none
    rw [List.getLast?_eq_none_iff.mp none] at whole
    rw [← whole] at last
    cases last
  obtain ⟨front, pieces⟩ := List.getLast?_eq_some_iff.mp behind
  have member := List.mem_of_getLast? behind
  obtain ⟨rest, stands⟩ := (cut_split text.toList).stands_of_mem member
  have final : piece.text.getLast? = some ';' := by
    rwa [← whole, pieces, List.flatMap_append, List.flatMap_singleton,
      List.getLast?_append_of_ne_nil _ stands.text_ne_nil] at last
  cases stands with
  | blank blank =>
    cases final
    exact absurd blank (by decide)
  | comment => cases not_comment_of_last uncommented behind
  | @lexeme kind written _ lexeme =>
    have entry : (kind, String.ofList written) ∈ (split text.toList).filterMap lexeme? :=
      List.mem_filterMap.mpr ⟨_, member, rfl⟩
    rw [← tokens_lexemes] at entry
    obtain ⟨token, listed, same⟩ := List.mem_map.mp entry
    exact ⟨token, listed, (congrArg Prod.fst same).trans (lexeme.semicolon_of_last final)⟩
  | stray _ foreign =>
    cases final
    exact absurd (.mark (by decide)) (foreign .semicolon [])
  | unterminated =>
    have shut := closed_of_problems clean _ member
    cases shut

/-- The lexemes of the tokens, written out with a blank between any two. -/
def spaced (scan : Scan) : String :=
  " ".intercalate (scan.tokens.map (·.lexeme))

/-- The lexemes of a text, written out with a blank between any two, are scanned without a problem,
and to tokens of the same kinds, with the same lexemes and the same values, in the same order. -/
theorem rescanned (source : String) :
    (ofSource (ofSource source).spaced).problems = [] ∧
      List.Forall₂ Token.Relined (ofSource source).tokens
        (ofSource (ofSource source).spaced).tokens := by
  let entries := (ofSource source).tokens.map fun token => (token.kind, token.lexeme)
  have listed : entries = (split source.toList).filterMap lexeme? := tokens_lexemes source
  have lexemes : ∀ entry ∈ entries, Lexeme entry.1 entry.2.toList := by
    intro entry member
    rw [listed] at member
    obtain ⟨piece, cut, same⟩ := List.mem_filterMap.mp member
    obtain ⟨rest, stands⟩ := (cut_split source.toList).stands_of_mem cut
    cases stands with
    | lexeme lexeme =>
      cases same
      rwa [String.toList_ofList]
    | blank | comment | stray | unterminated => cases same
  have texts : " ".intercalate (entries.map Prod.snd) = (ofSource source).spaced :=
    congrArg " ".intercalate List.map_map
  have pieces := (cut_spaced lexemes).eq_split
  rw [texts] at pieces
  constructor
  · apply problems_of_faultless
    intro piece member
    rw [← pieces] at member
    rcases mem_of_mem_intersperse member with rfl | lexeme
    · rfl
    · obtain ⟨entry, _, rfl⟩ := List.mem_map.mp lexeme
      rfl
  · have known : lexeme? ∘ ofLexeme = some := funext lexeme?_ofLexeme
    refine (forall₂_of_allTokens (relined ?_)).1
    rw [tokens_lexemes, ← pieces, filterMap_intersperse rfl, List.filterMap_map, known,
      List.filterMap_some]

end Scan

end Lox
