import Excerpt.Text.Extent

/-! Faults: what a device or a file system answers when it cannot do what it is
asked to do. -/
namespace Excerpt

/-- A bare value given as the reason of a fault. -/
inductive Scalar where
  | text (value : String)
  | number (value : Number)
  /-- An integer of any size, which is never rounded. -/
  | integer (value : Int)
  | truth (value : Bool)
  | symbol (description : Option String)
  | null
  | undefined
  deriving DecidableEq, Repr

def Scalar.toText : Scalar → String
  | text value => value
  | number value => value.toText
  | integer value => (if value < 0 then "-" else "") ++ Decimal.digits value.natAbs
  | truth value => if value then "true" else "false"
  | symbol description => "Symbol(" ++ description.getD "" ++ ")"
  | null => "null"
  | undefined => "undefined"

inductive Fault where
  /-- An error with a message; errors of the system also carry a code. -/
  | error (message : String) (code : Option String)
  /-- A failure of the emitter itself, which passes through it unchanged. -/
  | emission (message : String)
  | value (reason : Scalar)
  deriving DecidableEq, Repr

namespace Fault

/-- A text that cannot be built is an error like any other. -/
def ofText (fault : TextFault) : Fault := .error fault.message none

def message : Fault → String
  | error message _ => message
  | emission message => message
  | value reason => reason.toText

/-- Errors with a code come from the system. -/
def isSystem : Fault → Bool
  | error _ code => code.isSome
  | _ => false

def code? : Fault → Option String
  | error _ code => code
  | _ => none

end Fault
end Excerpt
