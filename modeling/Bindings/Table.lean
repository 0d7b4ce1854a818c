/-!
# Tables

Maps that keep their keys in the order in which they were first written.
-/

namespace Bindings

/-- A map as a list of entries, in the order in which the keys came. -/
structure Table (κ ν : Type) where
  entries : List (κ × ν) := []
  deriving Repr, Inhabited

namespace Table
variable {κ ν : Type} [DecidableEq κ]

/-! ## Entries -/

/-- The value that the first entry of a key holds. -/
def lookupIn (k : κ) : List (κ × ν) → Option ν
  | [] => none
  | (key, value) :: rest => if key = k then some value else lookupIn k rest

/-- Writes a value at a key: in place if the key is there, at the end otherwise. -/
def putIn (k : κ) (v : ν) : List (κ × ν) → List (κ × ν)
  | [] => [(k, v)]
  | (key, value) :: rest => if key = k then (k, v) :: rest else (key, value) :: putIn k v rest

/-! ## Tables -/

/-- The table without entries. -/
def empty : Table κ ν := ⟨[]⟩

/-- The value at a key. -/
def get? (t : Table κ ν) (k : κ) : Option ν := lookupIn k t.entries

/-- Whether a key is there. -/
def has (t : Table κ ν) (k : κ) : Bool := (t.get? k).isSome

/-- Writes a value at a key, over the one it had. -/
def put (t : Table κ ν) (k : κ) (v : ν) : Table κ ν := ⟨putIn k v t.entries⟩

/-- Writes a value at a key that has none; a key keeps the first value it gets. -/
def putNew (t : Table κ ν) (k : κ) (v : ν) : Table κ ν := if t.has k then t else t.put k v

/-- Takes a key out. -/
def erase (t : Table κ ν) (k : κ) : Table κ ν := ⟨t.entries.filter fun e => decide (e.1 ≠ k)⟩

/-- Writes the entries of another table over the ones here. -/
def update (t u : Table κ ν) : Table κ ν := u.entries.foldl (fun t e => t.put e.1 e.2) t

/-- Adds a value to the list at a key. -/
def push (t : Table κ (List ν)) (k : κ) (v : ν) : Table κ (List ν) :=
  t.put k ((t.get? k).getD [] ++ [v])

/-- The table of a list of entries; the last value of a key counts. -/
def ofList (entries : List (κ × ν)) : Table κ ν := (⟨entries⟩ : Table κ ν) |> update empty

/-- The keys in their order. -/
def keys (t : Table κ ν) : List κ := t.entries.map (·.1)

/-- The values in the order of their keys. -/
def values (t : Table κ ν) : List ν := t.entries.map (·.2)

/-- The number of keys. -/
def size (t : Table κ ν) : Nat := t.entries.length

end Table
end Bindings
