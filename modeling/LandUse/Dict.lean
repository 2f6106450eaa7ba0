/-! Tables with names as keys, kept in the order of the names. -/

namespace LandUse

abbrev Dict (α : Type) := List (String × α)

namespace Dict

variable {α : Type}

def get? (d : Dict α) (name : String) : Option α := d.lookup name

def contains (d : Dict α) (name : String) : Bool := (d.get? name).isSome

def set (d : Dict α) (name : String) (a : α) : Dict α :=
  match d with
  | [] => [(name, a)]
  | (n, b) :: rest =>
    if name == n then (name, a) :: rest
    else if name < n then (name, a) :: (n, b) :: rest
    else (n, b) :: Dict.set rest name a

def names (d : Dict α) : List String := d.map (·.1)

def ofList (entries : List (String × α)) : Dict α := entries.foldl (fun d (n, a) => d.set n a) []

end Dict

end LandUse
