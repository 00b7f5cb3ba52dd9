/-!
# Maps from names

A map from names to values is a list of pairs in the order of the names, each name once. Names are
ordered by their code points.
-/
namespace CodeAudit

/-- Names with their values, in the order of the names. -/
abbrev NameMap (α : Type) := List (String × α)

namespace NameMap

variable {α : Type}

/-- Sets the value of a name. -/
def insert (name : String) (value : α) : NameMap α → NameMap α
  | [] => [(name, value)]
  | (other, old) :: rest =>
    if name < other then (name, value) :: (other, old) :: rest
    else if name = other then (name, value) :: rest
    else (other, old) :: insert name value rest

/-- The value of a name. -/
def get? (name : String) (map : NameMap α) : Option α :=
  (map.find? (·.1 == name)).map Prod.snd

/-- The map of some pairs; of two pairs with one name the later one counts. -/
def ofList (pairs : List (String × α)) : NameMap α :=
  pairs.foldl (fun map (name, value) => insert name value map) []

end NameMap

end CodeAudit
