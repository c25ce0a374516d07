import Excerpt.Number

/-! JSON values. -/
namespace Excerpt

inductive Json where
  | null
  | truth (value : Bool)
  | number (value : Number)
  | text (value : String)
  | list (items : List Json)
  /-- Members in the order they were written. -/
  | object (members : List (String × Json))
  deriving Repr

/-- The value of a member; of several with one name the last one counts. -/
def Json.member? (members : List (String × Json)) (name : String) : Option Json :=
  members.reverse.lookup name

end Excerpt
