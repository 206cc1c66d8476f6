/-! Lists of keyed values in which every key stands once. -/

namespace OriginFacts.Keyed

variable {κ α : Type} [BEq κ]

/-- Gives a key a value: in place if the key is there, else behind all others. -/
def set (entries : List (κ × α)) (key : κ) (value : α) : List (κ × α) :=
  if entries.any (·.1 == key) then
    entries.map fun entry => if entry.1 == key then (key, value) else entry
  else entries ++ [(key, value)]

/-- Entries from left to right. A repeated key keeps its first place and takes its last value. -/
def ofList (entries : List (κ × α)) : List (κ × α) :=
  entries.foldl (fun acc (key, value) => set acc key value) []

end OriginFacts.Keyed
