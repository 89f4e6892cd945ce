/-! Finite maps from names, kept as lists in the order of their names. Equal maps are equal lists. -/

namespace Koy

/-- A finite map from names. The operations keep the names in increasing order, each once. -/
abbrev NameMap (α : Type) := List (String × α)

namespace NameMap

variable {α β : Type}

def get? (map : NameMap α) (name : String) : Option α :=
  map.lookup name

def contains (map : NameMap α) (name : String) : Bool :=
  (map.get? name).isSome

def insert (name : String) (value : α) : NameMap α → NameMap α
  | [] => [(name, value)]
  | (key, old) :: rest =>
    if name = key then (name, value) :: rest
    else if name < key then (name, value) :: (key, old) :: rest
    else (key, old) :: insert name value rest

def erase (name : String) (map : NameMap α) : NameMap α :=
  map.filter fun entry => entry.1 ≠ name

/-- The map of a list of entries, of which the later ones win. -/
def ofList (entries : List (String × α)) : NameMap α :=
  entries.foldl (fun map entry => insert entry.1 entry.2 map) []

def names (map : NameMap α) : List String :=
  map.map Prod.fst

end NameMap

end Koy
