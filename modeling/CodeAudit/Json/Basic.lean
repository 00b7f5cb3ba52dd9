import CodeAudit.Decimal.Fixed
import CodeAudit.Decimal.Shortest
import CodeAudit.NameMap
/-!
# JSON values

JSON values as they are read, passed on and written: a number is an integer or a floating-point
number, and the fields of an object stand in the order of their names, each name once.
-/
namespace CodeAudit

/-- A JSON value. -/
inductive Json where
  | null
  | bool (b : Bool)
  | int (n : Int)
  | float (x : Float)
  | text (s : String)
  | list (items : List Json)
  /-- Fields in the order of their names. -/
  | object (fields : List (String × Json))
deriving Inhabited

namespace Json

/-- The object with the given fields; of two fields of one name the later one counts. -/
def ofFields (fields : List (String × Json)) : Json :=
  .object (NameMap.ofList fields)

/-- The value of a field of an object, null if it is missing or the value is no object. -/
def get (value : Json) (name : String) : Json :=
  match value with
  | object fields => (NameMap.get? name fields).getD null
  | _ => null

/-- An optional value, null for none. -/
def ofOption (value : Option Json) : Json :=
  value.getD null

/-- A floating-point number; one that is not finite becomes null. -/
def ofFloat (x : Float) : Json :=
  if x.isFinite then float x else null

/-- A count. -/
def count (n : Nat) : Json :=
  int n

/-- The least integer; what is less is a floating-point number. -/
def leastInt : Int := -Int.pow 2 63

/-- The greatest integer; what is more is a floating-point number. -/
def greatestInt : Int := Int.pow 2 64 - 1

end Json

end CodeAudit
