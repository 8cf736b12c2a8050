import Lox.Text.Digit
import Lox.Text.Quoted

set_option autoImplicit false

namespace Lox.CommandLine

inductive Flag where
  | help
  | verbose
  | abort
deriving DecidableEq, Repr

namespace Flag

def all : List Flag := [help, verbose, abort]

def long : Flag → String
  | help => "help"
  | verbose => "verbose"
  | abort => "abort-on-error"

def letter? : Flag → Option Char
  | help => some 'h'
  | verbose => some 'v'
  | abort => none

def ofLetter? (c : Char) : Option Flag :=
  all.find? (·.letter? == some c)

/-- The option's names, as errors list them. -/
def names (flag : Flag) : String :=
  let long := "--" ++ flag.long
  match flag.letter? with
  | some c => "-" ++ c.toString ++ "/" ++ long
  | none => long

end Flag

inductive UsageError where
  | needlessValue (flag : Flag) (value : String)
  | ambiguous (argument : String) (fits : List Flag)
  | unrecognized (arguments : List String)
deriving DecidableEq, Repr

def UsageError.message : UsageError → String
  | needlessValue flag value =>
    "argument " ++ flag.names ++ ": ignored explicit argument " ++ Text.quoted value
  | ambiguous argument fits =>
    "ambiguous option: " ++ argument ++ " could match " ++
      ", ".intercalate (fits.map ("--" ++ ·.long))
  | unrecognized arguments => "unrecognized arguments: " ++ " ".intercalate arguments

inductive Argument where
  /-- The name of a script. -/
  | word (text : String)
  /-- An option, perhaps with a value after an equals sign. -/
  | option (flag : Flag) (value : Option String)
  /-- An option by its letter, and the letters that share its dash. -/
  | letters (flag : Flag) (rest : List Char)
  /-- What looks like an option and is none. -/
  | unknown (text : String)
  /-- The double dash, after which there are words only. -/
  | separator
deriving DecidableEq, Repr

namespace Argument

/-- A text without the newline at its end, if there is one. -/
def dropNewline (text : List Char) : List Char :=
  if text.getLast? = some '\n' then text.dropLast else text

/-- Whether a text is a dash and a number, with or without a fraction. The digits may be of any
script, and a newline may follow. -/
def isNegativeNumber (text : List Char) : Bool :=
  match dropNewline text with
  | '-' :: number =>
    let whole := number.takeWhile Text.isDecimalDigit
    match number.dropWhile Text.isDecimalDigit with
    | [] => !whole.isEmpty
    | '.' :: fraction => !fraction.isEmpty && fraction.all Text.isDecimalDigit
    | _ => false
  | _ => false

def splitValue (text : List Char) : List Char × Option String :=
  let name := text.takeWhile (· != '=')
  match text.dropWhile (· != '=') with
  | [] => (name, none)
  | _ :: value => (name, some (String.ofList value))

/-- A text that looks like an option and fits none: a word if it is a number or has a space in
it. -/
def unfit (text : List Char) : Argument :=
  if isNegativeNumber text || text.contains ' ' then word (String.ofList text)
  else unknown (String.ofList text)

/-- An option by its letter, with the text after it. An equals sign there is passed over, unless it
is all there is. -/
def ofLetter (flag : Flag) : List Char → Argument
  | ['='] => option flag (some "")
  | '=' :: rest => letters flag rest
  | rest => letters flag rest

def ofText (text : String) : Except UsageError Argument :=
  match text.toList with
  | '-' :: '-' :: rest =>
    let (name, value) := splitValue rest
    match Flag.all.filter fun flag => name.isPrefixOf flag.long.toList with
    | [] => .ok (unfit text.toList)
    | [flag] => .ok (option flag value)
    | flags => .error (.ambiguous text flags)
  | '-' :: c :: rest =>
    match Flag.ofLetter? c with
    | some flag => .ok (ofLetter flag rest)
    | none => .ok (unfit text.toList)
  | _ => .ok (word text)

/-- All arguments, the first doubtful one being an error. -/
def ofTexts : List String → Except UsageError (List Argument)
  | [] => .ok []
  | text :: rest =>
    if text == "--" then .ok (separator :: rest.map word)
    else do
      let first ← ofText text
      let others ← ofTexts rest
      .ok (first :: others)

end Argument

structure Options where
  verbose : Bool
  abort : Bool
  script : Option String
deriving DecidableEq, Repr

/-- The place of the script among the arguments. -/
inductive Place where
  | free
  /-- The double dash stands before it. -/
  | awaited
  /-- It was filled just now, and a double dash may still stand after it. -/
  | filled
  | closed
deriving DecidableEq, Repr

/-- The arguments read so far: the options, the place of the script, and what found no place. -/
structure Progress where
  options : Options
  place : Place
  surplus : List String
deriving DecidableEq, Repr

inductive Request where
  | help
  | refuse (error : UsageError)
  | proceed (options : Options)
deriving DecidableEq, Repr

namespace Progress

def start : Progress := ⟨⟨false, false, none⟩, .free, []⟩

def spare (p : Progress) (text : String) : Progress :=
  { p with place := .closed, surplus := p.surplus ++ [text] }

/-- Takes the script's name into its place. -/
def fill (p : Progress) (place : Place) (text : String) : Progress :=
  { p with place, options := { p.options with script := some text } }

/-- Sets an option; asking for help ends the reading. -/
def set (p : Progress) : Flag → Except Request Progress
  | .help => .error .help
  | .verbose => .ok { p with options := { p.options with verbose := true } }
  | .abort => .ok { p with options := { p.options with abort := true } }

/-- After an option the place of the script, once filled, is closed. -/
def pastOption (p : Progress) : Progress :=
  if p.place = .filled then { p with place := .closed } else p

/-- The options in letters that share a dash. What follows the last of them is a value that it does
not take. -/
def cluster (flag : Flag) : List Char → Except UsageError (List Flag)
  | [] => .ok [flag]
  | c :: rest =>
    match Flag.ofLetter? c with
    | some next => (cluster next rest).map (flag :: ·)
    | none => .error (.needlessValue flag (String.ofList (c :: rest)))

def read (p : Progress) : Argument → Except Request Progress
  | .word text =>
    match p.place with
    | .free => .ok (p.fill .filled text)
    | .awaited => .ok (p.fill .closed text)
    | .filled | .closed => .ok (p.spare text)
  | .separator =>
    match p.place with
    | .free => .ok { p with place := .awaited }
    | .awaited | .filled => .ok { p with place := .closed }
    | .closed => .ok (p.spare "--")
  | .unknown text =>
    let p := p.pastOption
    .ok { p with surplus := p.surplus ++ [text] }
  | .option flag (some value) => .error (.refuse (.needlessValue flag value))
  | .option flag none => p.pastOption.set flag
  | .letters flag rest =>
    match cluster flag rest with
    | .error error => .error (.refuse error)
    | .ok flags => flags.foldlM set p.pastOption

def finish (p : Progress) : Request :=
  if p.surplus.isEmpty then .proceed p.options else .refuse (.unrecognized p.surplus)

end Progress

def Request.ofArguments (arguments : List String) : Request :=
  match Argument.ofTexts arguments with
  | .error error => .refuse error
  | .ok parsed =>
    match parsed.foldlM Progress.read Progress.start with
    | .error request => request
    | .ok p => p.finish

end Lox.CommandLine
