import Lox.Proofs.Grammar.Account
import Lox.Proofs.Grammar.Depth

set_option autoImplicit false

namespace Lox

def Cursor.beyond (cursor : Cursor) (tokens rest : List Token) : Cursor :=
  { cursor with behind := tokens.reverse ++ cursor.behind, ahead := rest }

@[simp] theorem Cursor.beyond_beyond (cursor : Cursor) (tokens more rest last : List Token) :
    (cursor.beyond tokens rest).beyond more last = cursor.beyond (tokens ++ more) last := by
  simp [beyond]

namespace Parse

open Reader

variable {α β : Type} {inside : Bool} {rest : List Token}

/-- With depth enough the steps take these tokens, where such a rest follows, for the value. The
place is inside a function, if that is asked for. -/
def Takes (inside : Bool) (steps : Nat → Parse α) (tokens rest : List Token) (value : α) : Prop :=
  ∃ least, ∀ depth, least ≤ depth → ∀ cursor : Cursor, cursor.ahead = tokens ++ rest →
    (inside = true → 0 < cursor.functions) →
      steps depth cursor = .ok value (cursor.beyond tokens rest)

theorem Takes.succ {steps inner : Nat → Parse α} {tokens : List Token} {value : α}
    (takes : Takes inside inner tokens rest value)
    (unfolds : ∀ depth, steps (depth + 1) = inner depth) :
    Takes inside steps tokens rest value := by
  obtain ⟨least, reads⟩ := takes
  refine ⟨least + 1, ?_⟩
  intro depth enough
  obtain ⟨less, rfl⟩ : ∃ less, depth = less + 1 := ⟨depth - 1, by omega⟩
  rw [unfolds less]
  exact reads less (by omega)

theorem Takes.andThen {first : Nat → Parse α} {next : Nat → α → Parse β} {tokens more : List Token}
    {value : α} {result : β} (takes : Takes inside first tokens (more ++ rest) value)
    (goes : Takes inside (fun depth => next depth value) more rest result) :
    Takes inside (fun depth => first depth >>= next depth) (tokens ++ more) rest result := by
  obtain ⟨least, reads⟩ := takes
  obtain ⟨other, continues⟩ := goes
  refine ⟨max least other, ?_⟩
  intro depth enough cursor whole place
  rw [List.append_assoc] at whole
  show (first depth >>= next depth) cursor = _
  rw [bind_of_ok (reads depth (by omega) cursor whole place)]
  have onward := continues depth (by omega) (cursor.beyond tokens (more ++ rest)) rfl place
  rwa [Cursor.beyond_beyond] at onward

/-- A step that takes no token, before others. -/
theorem Takes.nil_andThen {first : Nat → Parse α} {next : Nat → α → Parse β} {tokens : List Token}
    {value : α} {result : β} (takes : Takes inside first [] (tokens ++ rest) value)
    (goes : Takes inside (fun depth => next depth value) tokens rest result) :
    Takes inside (fun depth => first depth >>= next depth) tokens rest result :=
  takes.andThen goes

/-- A step that takes no token, after others. -/
theorem Takes.andThen_nil {first : Nat → Parse α} {next : Nat → α → Parse β} {tokens : List Token}
    {value : α} {result : β} (takes : Takes inside first tokens rest value)
    (goes : Takes inside (fun depth => next depth value) [] rest result) :
    Takes inside (fun depth => first depth >>= next depth) tokens rest result := by
  rw [← List.append_nil tokens]
  exact takes.andThen goes

theorem takes_pure (value : α) : Takes inside (fun _ => pure value) [] rest value :=
  ⟨0, fun _ _ cursor whole _ => congrArg (Parsed.ok value) (by
    rw [Cursor.beyond, ← List.nil_append rest, ← whole]; rfl)⟩

theorem takes_accept {among : Kind → Bool} {next : Nat → Option Token → Parse β} {token : Token}
    {tokens : List Token} {result : β} (wanted : among token.kind = true)
    (goes : Takes inside (fun depth => next depth (some token)) tokens rest result) :
    Takes inside (fun depth => accept among >>= next depth) (token :: tokens) rest result := by
  obtain ⟨least, reads⟩ := goes
  refine ⟨least, ?_⟩
  intro depth enough cursor whole place
  have taken : accept among cursor = .ok (some token) (cursor.beyond [token] (tokens ++ rest)) := by
    unfold accept
    rw [whole]
    simp only [List.cons_append, wanted, ↓reduceIte]
    rfl
  show (accept among >>= next depth) cursor = _
  rw [bind_of_ok taken]
  have onward := reads depth enough (cursor.beyond [token] (tokens ++ rest)) rfl place
  rwa [Cursor.beyond_beyond] at onward

theorem takes_accept_none {among : Kind → Bool} {next : Nat → Option Token → Parse β}
    {tokens : List Token} {result : β}
    (others : ∀ token ∈ (tokens ++ rest).head?, among token.kind = false)
    (goes : Takes inside (fun depth => next depth none) tokens rest result) :
    Takes inside (fun depth => accept among >>= next depth) tokens rest result := by
  obtain ⟨least, reads⟩ := goes
  refine ⟨least, ?_⟩
  intro depth enough cursor whole place
  rcases accept_cases among cursor with ⟨out, _⟩ | ⟨token, ahead, found, wanted, _⟩
  · show (accept among >>= next depth) cursor = _
    rw [bind_of_ok out]
    exact reads depth enough cursor whole place
  · rw [← whole, found] at others
    rw [others token rfl] at wanted
    cases wanted

/-- At the end of the tokens to take, none of those asked for may follow. -/
theorem takes_accept_nil {among : Kind → Bool} {next : Nat → Option Token → Parse β} {result : β}
    (others : ∀ token ∈ rest.head?, among token.kind = false)
    (goes : Takes inside (fun depth => next depth none) [] rest result) :
    Takes inside (fun depth => accept among >>= next depth) [] rest result :=
  takes_accept_none others goes

theorem takes_expect {kind : Kind} {error : SyntaxError} {next : Nat → Token → Parse β}
    {token : Token} {tokens : List Token} {result : β} (right : token.kind = kind)
    (goes : Takes inside (fun depth => next depth token) tokens rest result) :
    Takes inside (fun depth => expect kind error >>= next depth) (token :: tokens) rest result := by
  have expected : Takes inside (fun _ => expect kind error) [token] (tokens ++ rest) token :=
    takes_accept (by simp only [right, beq_self_eq_true]) (takes_pure token)
  exact expected.andThen goes

theorem takes_sees {kind : Kind} {next : Nat → Bool → Parse β} {tokens : List Token} {result : β}
    (seen : Bool) (ahead : (tokens ++ rest).head?.any (·.kind == kind) = seen)
    (goes : Takes inside (fun depth => next depth seen) tokens rest result) :
    Takes inside (fun depth => sees kind >>= next depth) tokens rest result := by
  obtain ⟨least, reads⟩ := goes
  refine ⟨least, ?_⟩
  intro depth enough cursor whole place
  show next depth (cursor.sees kind) cursor = _
  have same : cursor.sees kind = seen := by
    unfold Cursor.sees
    rw [whole]
    exact ahead
  rw [same]
  exact reads depth enough cursor whole place

theorem takes_acceptAtom {next : Nat → Option Expr → Parse β} {token : Token} {expr : Expr}
    {tokens : List Token} {result : β} (atom : Expr.ofToken? token = some expr)
    (goes : Takes inside (fun depth => next depth (some expr)) tokens rest result) :
    Takes inside (fun depth => acceptAtom >>= next depth) (token :: tokens) rest result := by
  obtain ⟨least, reads⟩ := goes
  refine ⟨least, ?_⟩
  intro depth enough cursor whole place
  have taken : acceptAtom cursor = .ok (some expr) (cursor.beyond [token] (tokens ++ rest)) := by
    unfold acceptAtom
    rw [whole]
    simp only [List.cons_append, atom]
    rfl
  show (acceptAtom >>= next depth) cursor = _
  rw [bind_of_ok taken]
  have onward := reads depth enough (cursor.beyond [token] (tokens ++ rest)) rfl place
  rwa [Cursor.beyond_beyond] at onward

theorem takes_acceptAtom_none {next : Nat → Option Expr → Parse β} {tokens : List Token}
    {result : β} (others : ∀ token ∈ (tokens ++ rest).head?, Expr.ofToken? token = none)
    (goes : Takes inside (fun depth => next depth none) tokens rest result) :
    Takes inside (fun depth => acceptAtom >>= next depth) tokens rest result := by
  obtain ⟨least, reads⟩ := goes
  refine ⟨least, ?_⟩
  intro depth enough cursor whole place
  rcases acceptAtom_cases cursor with ⟨out, _⟩ | ⟨token, ahead, expr, found, atom, _⟩
  · show (acceptAtom >>= next depth) cursor = _
    rw [bind_of_ok out]
    exact reads depth enough cursor whole place
  · rw [← whole, found] at others
    rw [others token rfl] at atom
    cases atom

/-- Where there is room for one more, no problem is noted. -/
theorem takes_count {count : Nat} {error : SyntaxError} {next : Nat → Unit → Parse β}
    {tokens : List Token} {result : β} (room : count < 255)
    (goes : Takes inside (fun depth => next depth ()) tokens rest result) :
    Takes inside (fun depth =>
      (if maxArguments ≤ count then noteHere error else pure () : Parse Unit) >>= next depth)
      tokens rest result := by
  have few : ¬ maxArguments ≤ count := by
    unfold maxArguments
    omega
  rw [if_neg few]
  exact goes

theorem Takes.map {steps : Nat → Parse α} {tokens : List Token} {value : α} (f : α → β)
    (takes : Takes inside steps tokens rest value) :
    Takes inside (fun depth => f <$> steps depth) tokens rest (f value) :=
  takes.andThen_nil (takes_pure (f value))

end Parse

/-- How tightly a token of the kind joins to an expression before it: not at all, or as loosely as
an equals sign, or more tightly up to the parenthesis of a call. -/
def Kind.strength : Kind → Nat
  | .equal => 1
  | .kwOr => 2
  | .kwAnd => 3
  | .bangEqual | .equalEqual => 4
  | .greater | .greaterEqual | .less | .lessEqual => 5
  | .minus | .plus => 6
  | .slash | .star => 7
  | .leftParen => 8
  | _ => 0

namespace Grade

/-- The least strength of a token that makes an expression of the grade longer. -/
def strength : Grade → Nat
  | assignment => 1
  | chain .disjunction => 2
  | chain .conjunction => 3
  | chain .equality => 4
  | chain .comparison => 5
  | chain .term => 6
  | chain .factor => 7
  | unary | call => 8
  | primary => 9

/-- The first of these tokens does not make an expression of the grade longer. -/
def Unfollowed (grade : Grade) (rest : List Token) : Prop :=
  ∀ token ∈ rest.head?, token.kind.strength < grade.strength

theorem strength_tighter {grade below : Grade} (step : grade.tighter = some below) :
    grade.strength ≤ below.strength := by
  rcases grade with _ | level | _ | _ | _
  case chain => cases level <;> cases step <;> decide
  all_goals cases step <;> decide

theorem Unfollowed.tighter {grade below : Grade} {rest : List Token}
    (unfollowed : grade.Unfollowed rest) (step : grade.tighter = some below) :
    below.Unfollowed rest :=
  fun token member => Nat.lt_of_lt_of_le (unfollowed token member) (strength_tighter step)

/-- A token that joins to no expression ends each one. -/
theorem unfollowed_of_strength {grade : Grade} {token : Token} {rest : List Token}
    (loose : token.kind.strength < grade.strength) : grade.Unfollowed (token :: rest) := by
  intro next member
  cases member
  exact loose

theorem Unfollowed.other {grade : Grade} {rest : List Token} (unfollowed : grade.Unfollowed rest)
    {kind : Kind} (strong : grade.strength ≤ kind.strength) :
    ∀ token ∈ rest.head?, (token.kind == kind) = false := by
  intro token member
  have weak := unfollowed token member
  rw [beq_eq_false_iff_ne]
  rintro rfl
  omega

end Grade

theorem Level.strength_of_joins {level : Level} {kind : Kind} (joins : level.joins kind = true) :
    kind.strength = (Grade.chain level).strength := by
  cases level <;> revert joins <;> cases kind <;> decide

theorem Level.strength_lt_tighter (level : Level) :
    (Grade.chain level).strength < (Parse.grade level.tighter).strength := by
  cases level <;> decide

namespace Phrase

/-- The kinds of token that a call or a tighter expression begins with. -/
def callBeginnings : List Kind :=
  [.kwFalse, .kwTrue, .kwNil, .number, .string, .identifier, .leftParen]

def allBeginnings : List Kind :=
  .bang :: .minus :: callBeginnings

def beginnings : Phrase → List Kind
  | .expr .call _ | .expr .primary _ => callBeginnings
  | _ => allBeginnings

theorem beginnings_tighter {grade below : Grade} (step : grade.tighter = some below) (tree : Expr) :
    (expr below tree).beginnings ⊆ (expr grade tree).beginnings := by
  rcases grade with _ | level | _ | _ | _
  case chain => cases level <;> cases step <;> simp [beginnings, allBeginnings]
  all_goals cases step <;> simp [beginnings, allBeginnings]

theorem Derives.begins {phrase : Phrase} {tokens : List Token} (derives : phrase.Derives tokens) :
    ∃ token more, tokens = token :: more ∧ token.kind ∈ phrase.beginnings := by
  induction derives with
  | tighter step _ inner =>
    obtain ⟨token, more, same, member⟩ := inner
    exact ⟨token, more, same, beginnings_tighter step _ member⟩
  | logical _ _ _ _ _ first _ | binary _ _ _ _ _ first _ | callEmpty _ _ _ first
  | call _ _ _ _ _ first _ | several _ _ _ first _ =>
    obtain ⟨token, more, rfl, member⟩ := first
    exact ⟨token, _, rfl, member⟩
  | single _ first => exact first
  | unary sign _ _ =>
    refine ⟨_, _, rfl, ?_⟩
    rcases sign with sign | sign <;> simp [sign, beginnings, allBeginnings]
  | assign kind _ _ _ | grouping kind _ _ _ | number kind _ | text kind _ | yes kind | no kind
  | nil kind | var kind =>
    exact ⟨_, _, rfl, by simp [kind, beginnings, allBeginnings, callBeginnings]⟩

theorem beginnings_subset (phrase : Phrase) : phrase.beginnings ⊆ allBeginnings := by
  unfold beginnings
  split <;> simp [allBeginnings]

/-- No semicolon is part of an expression. -/
theorem Derives.no_semicolon {phrase : Phrase} {tokens : List Token}
    (derives : phrase.Derives tokens) : ∀ token ∈ tokens, token.kind ≠ .semicolon := by
  have operator {level : Level} {kind : Kind} (sign : kind ∈ level.operators) :
      kind ≠ .semicolon := by
    rintro rfl
    cases level <;> revert sign <;> decide
  induction derives with
  | tighter _ _ ih | single _ ih => exact ih
  | assign named sign _ ih =>
    simp only [List.forall_mem_cons]
    exact ⟨by simp [named], by simp [sign], ih⟩
  | logical _ _ sign _ _ first second | binary _ _ sign _ _ first second =>
    simp only [List.forall_mem_append, List.forall_mem_cons]
    exact ⟨first, operator sign, second⟩
  | unary sign _ ih =>
    simp only [List.forall_mem_cons]
    refine ⟨?_, ih⟩
    rcases sign with sign | sign <;> simp [sign]
  | callEmpty _ opens closes ih =>
    simp only [List.forall_mem_append, List.forall_mem_cons]
    exact ⟨ih, by simp [opens], by simp [closes], by simp⟩
  | call _ opens _ _ closes first second =>
    simp only [List.forall_mem_append, List.forall_mem_cons]
    exact ⟨first, by simp [opens], second, by simp [closes], by simp⟩
  | grouping opens _ closes ih =>
    simp only [List.forall_mem_append, List.forall_mem_cons]
    exact ⟨by simp [opens], ih, by simp [closes], by simp⟩
  | number kind | text kind | yes kind | no kind | nil kind | var kind => simp [kind]
  | several _ sign _ first second =>
    simp only [List.forall_mem_append, List.forall_mem_cons]
    exact ⟨first, by simp [sign], second⟩

/-- No token of another kind is the first of a phrase. -/
theorem Derives.unseen {phrase : Phrase} {tokens : List Token} (derives : phrase.Derives tokens)
    {kind : Kind} (other : kind ∉ allBeginnings) (rest : List Token) :
    (tokens ++ rest).head?.any (·.kind == kind) = false := by
  obtain ⟨token, more, rfl, member⟩ := derives.begins
  have different : token.kind ≠ kind := by
    rintro rfl
    exact other (beginnings_subset phrase member)
  simpa using different

end Phrase

namespace Parse

open Reader

variable {inside : Bool} {rest : List Token}

theorem takes_chain_nil {level : Level} (left : Expr)
    (unfollowed : (Grade.chain level).Unfollowed rest) :
    Takes inside (fun depth => chainWithin depth level left) [] rest left := by
  have ends : ∀ token ∈ rest.head?, level.joins token.kind = false := by
    intro token member
    have weak := unfollowed token member
    rw [Bool.eq_false_iff]
    intro joins
    rw [Level.strength_of_joins joins] at weak
    omega
  exact (takes_accept_nil ends (takes_pure left)).succ fun depth => by rw [chainWithin, step_eq]

theorem takes_calls_nil (callee : Expr) (unfollowed : Grade.call.Unfollowed rest) :
    Takes inside (fun depth => callsWithin depth callee) [] rest callee := by
  have ends : ∀ token ∈ rest.head?, (token.kind == .leftParen) = false :=
    unfollowed.other (by decide)
  exact (takes_accept_nil ends (takes_pure callee)).succ fun depth => by rw [callsWithin, step_eq]

end Parse

namespace Phrase

open Parse Reader

/-- What reading does where the tokens of a phrase lie ahead. A chain of operators, or of calls, is
read with an expression so far at hand: whatever takes the tokens behind it for the rest of the
chain makes the whole be taken. -/
def Taken (inside : Bool) : Phrase → List Token → Prop
  | .expr .assignment tree, tokens => ∀ rest, Grade.assignment.Unfollowed rest →
      Takes inside expressionWithin tokens rest tree
  | .expr (.chain level) tree, tokens => ∀ more rest whole,
      (grade level.tighter).Unfollowed (more ++ rest) →
      Takes inside (fun depth => chainWithin depth level tree) more rest whole →
      Takes inside (fun depth => operandWithin depth (some level)) (tokens ++ more) rest whole
  | .expr .unary tree, tokens => ∀ rest, Grade.unary.Unfollowed rest →
      Takes inside unaryWithin tokens rest tree
  | .expr .call tree, tokens => ∀ more rest whole,
      Takes inside (fun depth => callsWithin depth tree) more rest whole →
      Takes inside (fun depth => primaryWithin depth >>= callsWithin depth) (tokens ++ more) rest
        whole
  | .expr .primary tree, tokens => ∀ rest, Takes inside primaryWithin tokens rest tree
  | .list trees, tokens => ∀ count rest, count + trees.length ≤ 255 →
      Grade.assignment.Unfollowed rest → (∀ token ∈ rest.head?, token.kind ≠ .comma) →
      Takes inside (fun depth => argumentsWithin depth count) tokens rest trees

variable {inside : Bool} {tree : Expr} {tokens rest : List Token}

/-- An operand is taken whole where no operator of its level follows. -/
theorem Taken.operand (level : Option Level) (taken : Taken inside (.expr (grade level) tree) tokens)
    (unfollowed : (grade level).Unfollowed rest) :
    Takes inside (fun depth => operandWithin depth level) tokens rest tree := by
  cases level with
  | none => exact (taken rest unfollowed).succ fun depth => by rw [operandWithin]
  | some level =>
    have whole := taken [] rest tree (unfollowed.tighter (tighter_chain level))
      (takes_chain_nil tree unfollowed)
    rwa [List.append_nil] at whole

theorem Taken.tighter {grade below : Grade} (step : grade.tighter = some below)
    (derives : (Phrase.expr below tree).Derives tokens) (taken : Taken inside (.expr below tree) tokens) :
    Taken inside (.expr grade tree) tokens := by
  cases grade with
  | assignment =>
    cases step
    intro rest unfollowed
    have left := taken.operand (some .disjunction) (unfollowed.tighter rfl)
    have loose : ∀ token ∈ rest.head?, (token.kind == .equal) = false :=
      unfollowed.other (by decide)
    refine Takes.succ ?_ fun depth => by rw [expressionWithin]
    apply Takes.andThen_nil left
    apply takes_accept_nil loose
    exact takes_pure tree
  | chain level =>
    rw [tighter_chain, Option.some.injEq] at step
    subst step
    intro more rest whole unfollowed goes
    refine Takes.succ ?_ fun depth => by rw [operandWithin]
    exact (taken.operand level.tighter unfollowed).andThen goes
  | unary =>
    cases step
    intro rest unfollowed
    have first : ∀ token ∈ (tokens ++ rest).head?, isUnary token.kind = false := by
      obtain ⟨token, more, rfl, member⟩ := derives.begins
      intro next same
      cases same
      revert member
      simp only [beginnings, callBeginnings]
      cases token.kind <;> decide
    refine Takes.succ ?_ fun depth => by rw [unaryWithin]
    apply takes_accept_none first
    have whole := taken [] rest tree (takes_calls_nil tree unfollowed)
    rwa [List.append_nil] at whole
  | call =>
    cases step
    intro more rest whole goes
    exact (taken (more ++ rest)).andThen goes
  | primary => cases step

theorem taken_atom {token : Token} (atom : Expr.ofToken? token = some tree) : Taken inside (.expr .primary tree) [token] := by
  intro rest
  refine Takes.succ ?_ fun depth => by rw [primaryWithin]
  apply takes_acceptAtom atom
  exact takes_pure tree

theorem taken_grouping {opening closing : Token} (opens : opening.kind = .leftParen)
    (closes : closing.kind = .rightParen) (inner : Taken inside (.expr .assignment tree) tokens) :
    Taken inside (.expr .primary (.grouping tree)) (opening :: (tokens ++ [closing])) := by
  intro rest
  have noAtom : Expr.ofToken? opening = none := by
    unfold Expr.ofToken?
    rw [opens]
  have ended : Grade.assignment.Unfollowed ([closing] ++ rest) :=
    Grade.unfollowed_of_strength (by rw [closes]; decide)
  refine Takes.succ ?_ fun depth => by rw [primaryWithin]
  apply takes_acceptAtom_none (by rintro token member; cases member; exact noAtom)
  apply takes_accept (by rw [opens]; rfl)
  apply (inner ([closing] ++ rest) ended).andThen
  apply takes_expect closes
  exact takes_pure _

theorem taken_unary {operator : Token} (sign : operator.kind = .bang ∨ operator.kind = .minus)
    (right : Taken inside (.expr .unary tree) tokens) :
    Taken inside (.expr .unary (.unary operator tree)) (operator :: tokens) := by
  intro rest unfollowed
  refine Takes.succ ?_ fun depth => by rw [unaryWithin]
  apply takes_accept (by rcases sign with sign | sign <;> rw [sign] <;> rfl)
  apply (right rest unfollowed).andThen_nil
  exact takes_pure _

theorem taken_join {level : Level} {left right : Expr} {operator : Token}
    {before after : List Token} (sign : operator.kind ∈ level.operators)
    (lefts : Taken inside (.expr (.chain level) left) before)
    (rights : Taken inside (.expr (grade level.tighter) right) after) :
    Taken inside (.expr (.chain level) (level.join left operator right))
      (before ++ operator :: after) := by
  intro more rest whole unfollowed goes
  have joins := (joins_iff level operator.kind).mpr sign
  rw [List.append_assoc, List.cons_append]
  apply lefts
  · apply Grade.unfollowed_of_strength
    rw [Level.strength_of_joins joins]
    exact level.strength_lt_tighter
  · refine Takes.succ ?_ fun depth => by rw [chainWithin]
    apply takes_accept joins
    exact (rights.operand level.tighter unfollowed).andThen goes

theorem taken_callEmpty {callee : Expr} {opening paren : Token} {before : List Token}
    (opens : opening.kind = .leftParen) (closes : paren.kind = .rightParen)
    (callees : Taken inside (.expr .call callee) before) :
    Taken inside (.expr .call (.call callee paren [])) (before ++ [opening, paren]) := by
  intro more rest whole goes
  rw [List.append_assoc, List.cons_append, List.cons_append, List.nil_append]
  apply callees
  refine Takes.succ ?_ fun depth => by rw [callsWithin]
  apply takes_accept (by rw [opens]; rfl)
  apply Takes.nil_andThen
  · apply takes_sees true (by simp [closes])
    exact takes_pure []
  · apply takes_expect closes
    exact goes

theorem taken_call {callee : Expr} {opening paren : Token} {arguments : List Expr}
    {before within : List Token} (opens : opening.kind = .leftParen)
    (closes : paren.kind = .rightParen) (few : arguments.length ≤ 255)
    (derives : (Phrase.list arguments).Derives within)
    (callees : Taken inside (.expr .call callee) before)
    (lists : Taken inside (.list arguments) within) :
    Taken inside (.expr .call (.call callee paren arguments))
      (before ++ opening :: (within ++ [paren])) := by
  intro more rest whole goes
  rw [List.append_assoc, List.cons_append, List.append_assoc, List.cons_append, List.nil_append]
  apply callees
  refine Takes.succ ?_ fun depth => by rw [callsWithin]
  apply takes_accept (by rw [opens]; rfl)
  apply Takes.andThen
  · apply takes_sees false
    · exact derives.unseen (by decide) _
    · exact lists 0 _ (by omega) (Grade.unfollowed_of_strength (by rw [closes]; decide))
        (by intro token member; cases member; rw [closes]; decide)
  · apply takes_expect closes
    exact goes

theorem taken_single (one : Taken inside (.expr .assignment tree) tokens) :
    Taken inside (.list [tree]) tokens := by
  intro count rest few unfollowed noComma
  rw [List.length_singleton] at few
  refine Takes.succ ?_ fun depth => by rw [argumentsWithin]
  apply takes_count (by omega)
  apply (one rest unfollowed).andThen_nil
  apply takes_accept_nil (by simpa using noComma)
  exact takes_pure _

theorem taken_several {trees : List Expr} {comma : Token} {before after : List Token}
    (sign : comma.kind = .comma) (one : Taken inside (.expr .assignment tree) before)
    (others : Taken inside (.list trees) after) :
    Taken inside (.list (tree :: trees)) (before ++ comma :: after) := by
  intro count rest few unfollowed noComma
  rw [List.length_cons] at few
  refine Takes.succ ?_ fun depth => by rw [argumentsWithin]
  apply takes_count (by omega)
  apply (one _ (Grade.unfollowed_of_strength (by rw [sign]; decide))).andThen
  apply takes_accept (by rw [sign]; rfl)
  apply (others (count + 1) rest (by omega) unfollowed noComma).andThen_nil
  exact takes_pure _

/-- A name is taken as an operand of any level. -/
theorem taken_var {name : Token} (named : name.kind = .identifier) (level : Option Level) :
    Taken inside (.expr (grade level) (.var name)) [name] := by
  have up : ∀ {grade below : Grade}, grade.tighter = some below →
      (Phrase.expr below (.var name)).Derives [name] ∧ Taken inside (.expr below (.var name)) [name] →
      (Phrase.expr grade (.var name)).Derives [name] ∧
        Taken inside (.expr grade (.var name)) [name] :=
    fun step both => ⟨.tighter step both.1, both.2.tighter step both.1⟩
  have primary : Taken inside (.expr .primary (.var name)) [name] :=
    taken_atom (by simp [Expr.ofToken?, named])
  have call := up (show Grade.call.tighter = some .primary from rfl) ⟨.var named, primary⟩
  have unary := up (show Grade.unary.tighter = some .call from rfl) call
  have factor := up (tighter_chain .factor) unary
  have term := up (tighter_chain .term) factor
  have comparison := up (tighter_chain .comparison) term
  have equality := up (tighter_chain .equality) comparison
  have conjunction := up (tighter_chain .conjunction) equality
  have disjunction := up (tighter_chain .disjunction) conjunction
  rcases level with _ | _ | _ | _ | _ | _ | _
  · exact unary.2
  · exact disjunction.2
  · exact conjunction.2
  · exact equality.2
  · exact comparison.2
  · exact term.2
  · exact factor.2

theorem taken_assign {name equals : Token} {value : Expr} (named : name.kind = .identifier)
    (sign : equals.kind = .equal) (right : Taken inside (.expr .assignment value) tokens) :
    Taken inside (.expr .assignment (.assign name value)) (name :: equals :: tokens) := by
  intro rest unfollowed
  have ended : (grade (some .disjunction)).Unfollowed (equals :: tokens ++ rest) :=
    Grade.unfollowed_of_strength (by rw [sign]; decide)
  have target : Taken inside (.expr (grade (some .disjunction)) (.var name)) [name] :=
    taken_var named (some .disjunction)
  have left := target.operand _ ended
  refine Takes.succ ?_ fun depth => by rw [expressionWithin]
  apply left.andThen
  apply takes_accept (by rw [sign]; rfl)
  apply (right rest unfollowed).andThen_nil
  exact takes_pure _

theorem Derives.taken {phrase : Phrase} {tokens : List Token} (derives : phrase.Derives tokens) :
    Taken inside phrase tokens := by
  induction derives with
  | tighter step derives taken => exact taken.tighter step derives
  | assign named sign _ right => exact taken_assign named sign right
  | @logical level _ _ _ _ _ _ logical step sign _ _ lefts rights =>
    rw [tighter_chain, Option.some.injEq] at step
    subst step
    cases level with
    | disjunction | conjunction => exact taken_join sign lefts rights
    | equality | comparison | term | factor => cases logical
  | @binary level _ _ _ _ _ _ binary step sign _ _ lefts rights =>
    rw [tighter_chain, Option.some.injEq] at step
    subst step
    cases level with
    | disjunction | conjunction => cases binary
    | equality | comparison | term | factor => exact taken_join sign lefts rights
  | unary sign _ right => exact taken_unary sign right
  | callEmpty _ opens closes callees => exact taken_callEmpty opens closes callees
  | call _ opens derives few closes callees lists =>
    exact taken_call opens closes few derives callees lists
  | grouping opens _ closes inner => exact taken_grouping opens closes inner
  | number kind written => exact taken_atom (by simp [Expr.ofToken?, kind, written])
  | text kind written => exact taken_atom (by simp [Expr.ofToken?, kind, written])
  | yes kind | no kind | nil kind | var kind => exact taken_atom (by simp [Expr.ofToken?, kind])
  | single _ one => exact taken_single one
  | several _ sign _ one others => exact taken_several sign one others

end Phrase

open Reader in
/-- An expression is taken whole where nothing makes it longer. -/
theorem Parse.takes_expression {inside : Bool} {tree : Expr} {tokens rest : List Token}
    (derives : (Phrase.expr .assignment tree).Derives tokens)
    (unfollowed : Grade.assignment.Unfollowed rest) :
    Takes inside (fun _ => expression) tokens rest tree := by
  have taken : Phrase.Taken inside (.expr .assignment tree) tokens := derives.taken
  obtain ⟨least, reads⟩ := taken rest unfollowed
  refine ⟨0, ?_⟩
  intro _ _ cursor whole place
  have deep : 16 * cursor.ahead.length + 11 ≤ max least (16 * cursor.ahead.length + 11) :=
    Nat.le_max_right _ _
  show expression (M := Parse) cursor = _
  rw [← expressionWithin_eq deep]
  exact reads _ (Nat.le_max_left _ _) cursor whole place

end Lox
