import Lox.Session
import Lox.File

set_option autoImplicit false

namespace Lox

inductive Command where
  | nothing
  | quit
  | vars
  | reset
  | inspect (text : String)
  | load (path : String)
  | run (text : String)
deriving DecidableEq, Repr

namespace Command

/-- The part of a line after its first word, if that is the one given with a blank after it. -/
def after? (word : String) (line : List Char) : Option (List Char) :=
  if (word.toList ++ [' ']).isPrefixOf line then some (line.drop (word.length + 1)) else none

def ofLine (line : String) : Command :=
  let bare := Text.strip line.toList
  let text := String.ofList bare
  if bare.isEmpty then nothing
  else if text == ":q" || text == ":quit" then quit
  else if text == ":vars" then vars
  else if text == ":reset" then reset
  else
    match after? ":inspect" bare, after? ":load" bare with
    | some rest, _ => inspect (String.ofList rest)
    | none, some rest => load (String.ofList (Text.strip rest))
    | none, none => run text

end Command

/-- The text as a statement: with a semicolon at its end, unless it has one. -/
def asStatement (text : String) : String :=
  if (Text.stripRight text.toList).getLast? = some ';' then text else text ++ ";"

inductive Next where
  | more
  | quit
  /-- A file that was to be loaded broke the session off. -/
  | broken (cause : Breakdown)
deriving DecidableEq, Repr

/-- What a line did: the session after it, what it wrote, and what it logged before its
errors. -/
structure Response where
  session : Session
  out : String
  err : String
  log : List Event
  next : Next

namespace Response

def ofEntry (result : Session × Entry) (shown : Option String) : Response :=
  let (session, entry) := result
  ⟨session, entry.output ++ asLines shown.toList, entry.problems.text, entry.events, .more⟩

end Response

namespace Session

/-- The text that shows the value of a line: nil and no value are not shown. -/
def shown : Option Value → Option String
  | none | some .nil => none
  | some value => some value.inline

/-- Obeys a command. Files are read through `read`. -/
def obey (session : Session) (read : String → Except ReadError String) : Command → Response
  | .nothing => ⟨session, "", "", [], .more⟩
  | .quit => ⟨session, "", "", [], .quit⟩
  | .vars => ⟨session, session.state.globalBindings.table, "", [], .more⟩
  | .reset => ⟨session.reset, "", "", [], .more⟩
  | .inspect text =>
    let result := session.eval (asStatement text)
    .ofEntry result (result.2.value.map (·.describe result.1.state.store))
  | .load path =>
    match read path with
    | .ok source => .ofEntry (session.eval source) none
    | .error (.breakdown cause) => ⟨session, "", "", [], .broken cause⟩
    | .error error => ⟨session, "", error.message path ++ "\n", [], .more⟩
  | .run text =>
    let result := session.eval text
    .ofEntry result (shown result.2.value)

end Session

end Lox
