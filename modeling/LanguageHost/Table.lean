/-!
Tables: association lists in increasing order of their text keys, so that equal tables are equal lists.
-/
namespace LanguageHost

abbrev Table (α : Type) := List (String × α)

namespace Table

/-- Enters a value, in place of one under the same key. -/
def insert (key : String) (value : α) : Table α → Table α
  | [] => [(key, value)]
  | (k, v) :: rest =>
    if key = k then (key, value) :: rest
    else if key < k then (key, value) :: (k, v) :: rest
    else (k, v) :: insert key value rest

def get? (key : String) (t : Table α) : Option α := t.lookup key

def contains (key : String) (t : Table α) : Bool := (t.lookup key).isSome

def erase (key : String) (t : Table α) : Table α := t.filter fun (k, _) => k ≠ key

/-- Enters all entries in order; of a repeated key the last one stays. -/
def insertAll (t : Table α) (entries : List (String × α)) : Table α :=
  entries.foldl (fun t (k, v) => insert k v t) t

def ofList (entries : List (String × α)) : Table α := insertAll [] entries

def keys (t : Table α) : List String := t.map Prod.fst

end Table

/-- Strings in increasing order. -/
def sortStrings (ss : List String) : List String := ss.mergeSort (fun a b => a ≤ b)

end LanguageHost
