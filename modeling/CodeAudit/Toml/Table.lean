import CodeAudit.Json.Basic
/-!
# Tables that are being filled

The tables of a document are filled line by line. A name may be given once. A table that a longer
name has brought about may still be opened by its own header, once, unless the longer name was that
of a value; a value that is complete cannot be added to.
-/
namespace CodeAudit.Toml

/-- How a table has come about. -/
inductive Origin where
  /-- By a header of its own, or as the document. -/
  | header
  /-- By the header of a table inside of it. -/
  | inner
  /-- By the name of a value inside of it. -/
  | dotted
deriving DecidableEq, Repr

/-- What a name stands for. -/
inductive Item where
  | value (v : Json)
  | table (origin : Origin) (entries : List (String × Item))
  /-- Tables in a list, the last one first. -/
  | tables (items : List (List (String × Item)))

/-- The names of a table and what they stand for. -/
abbrev Entries := List (String × Item)

/-- Changes what a name stands for; `change` gets what it has stood for. -/
def Entries.update (name : String) (change : Option Item → Option Item) :
    Entries → Option Entries
  | [] => (change none).map fun item => [(name, item)]
  | (other, old) :: rest =>
    if other = name then (change (some old)).map fun item => (name, item) :: rest
    else (Entries.update name change rest).map ((other, old) :: ·)

/-- Goes down along names from headers and changes the table that they lead to. -/
def Entries.descend (path : List String) (change : Entries → Option Entries) (entries : Entries) :
    Option Entries :=
  match path with
  | [] => change entries
  | name :: rest =>
    entries.update name fun old =>
      match old with
      | none => (Entries.descend rest change []).map (.table .inner)
      | some (.table origin inside) => (Entries.descend rest change inside).map (.table origin)
      | some (.tables (last :: before)) =>
        (Entries.descend rest change last).map fun last => .tables (last :: before)
      | some (.tables []) | some (.value _) => none

/-- Sets a value by a name that may have several parts. -/
def Entries.assign (path : List String) (name : String) (value : Json) (entries : Entries) :
    Option Entries :=
  match path with
  | [] =>
    entries.update name fun old =>
      match old with
      | none => some (.value value)
      | some _ => none
  | first :: rest =>
    entries.update first fun old =>
      match old with
      | none => (Entries.assign rest name value []).map (.table .dotted)
      | some (.table .dotted inside) =>
        (Entries.assign rest name value inside).map (.table .dotted)
      -- a table brought about by a header may be passed through but not added to
      | some (.table .inner inside) =>
        if rest.isEmpty then none
        else (Entries.assign rest name value inside).map (.table .inner)
      | some (.tables (last :: before)) =>
        if rest.isEmpty then none
        else (Entries.assign rest name value last).map fun last => .tables (last :: before)
      | some _ => none

/-- Opens the table of a header. -/
def Entries.openTable (path : List String) (name : String) : Entries → Option Entries :=
  Entries.descend path fun entries =>
    entries.update name fun old =>
      match old with
      | none => some (.table .header [])
      | some (.table .inner inside) => some (.table .header inside)
      | some _ => none

/-- Opens one more table of a list. -/
def Entries.appendTable (path : List String) (name : String) : Entries → Option Entries :=
  Entries.descend path fun entries =>
    entries.update name fun old =>
      match old with
      | none => some (.tables [[]])
      | some (.tables items) => some (.tables ([] :: items))
      | some _ => none

mutual

/-- The value that an item stands for. -/
def Item.toJson : Item → Json
  | .value v => v
  | .table _ entries => .ofFields (entriesToFields entries)
  | .tables items => .list (tablesToJson items).reverse

/-- The fields that the entries of a table stand for. -/
def entriesToFields : List (String × Item) → List (String × Json)
  | [] => []
  | (name, item) :: rest => (name, item.toJson) :: entriesToFields rest

/-- The values that the tables of a list stand for. -/
def tablesToJson : List (List (String × Item)) → List Json
  | [] => []
  | entries :: rest => .ofFields (entriesToFields entries) :: tablesToJson rest

end

end CodeAudit.Toml
