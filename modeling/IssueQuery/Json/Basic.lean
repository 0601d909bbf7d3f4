/-!
# JSON values

A number of a JSON text is whole or floating: the two are told apart by how the number is written.
An object keeps its members in the order of the text; of two members with one key the later counts.
-/

namespace IssueQuery

/-- The values of a JSON text. -/
inductive Json where
  | null
  | bool (b : Bool)
  | int (n : Int)
  | float (x : Float)
  | string (s : String)
  | array (items : List Json)
  | object (members : List (String × Json))

namespace Json

/-- The value of a key.  What is not an object has no keys. -/
def get? (body : Json) (key : String) : Option Json :=
  match body with
  | object members => (members.reverse.find? fun (name, _) => name == key).map Prod.snd
  | _ => none

end Json

end IssueQuery
