namespace PredicateSearch

/-- A JSON document. Integers and doubles are apart, and members keep their order. -/
inductive Json where
  | null
  | bool (b : Bool)
  | int (n : Int)
  | float (x : Float)
  | string (s : String)
  | array (items : List Json)
  | object (members : List (String × Json))
  deriving Repr

def Json.member? (name : String) : Json → Option Json
  | object members => members.lookup name
  | _ => none

end PredicateSearch
