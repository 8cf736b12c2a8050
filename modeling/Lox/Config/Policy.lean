import Lox.Config
import Lox.Text.Blank
import Lox.Text.LowerCase
import Lox.Text.Quoted

set_option autoImplicit false

namespace Lox

def Policy.variableName : String := "LOX_ERROR_POLICY"

def Policy.all : List Policy := [.resume, .abort]

structure UnknownPolicy where
  word : String

def UnknownPolicy.message (error : UnknownPolicy) : String :=
  Policy.variableName ++ "=" ++ Text.quoted error.word ++ ": expected one of " ++
    ", ".intercalate (Policy.all.map Policy.name)

/-- The standard settings with the policy that a word names. Case and outer blanks do not count,
and a blank word names none. -/
def Config.ofPolicyWord (word : String) : Except UnknownPolicy Config :=
  let bare := String.ofList (Text.lower (Text.strip word.toList))
  if bare.isEmpty then .ok .standard
  else
    match Policy.all.find? (·.name == bare) with
    | some policy => .ok { Config.standard with policy }
    | none => .error ⟨bare⟩

end Lox
