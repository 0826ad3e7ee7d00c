import LanguageHost.Protocol.Types

/-!
Answers kept for documents. Entries stand in order of their last use; when there is no room for a new one
the last of them goes. An entry is found only by readers of the type it was entered with.
-/
namespace LanguageHost

inductive QueryKind where
  | symbols
  | colors
  | links
  | hints
deriving DecidableEq, Repr

structure CacheKey where
  /-- a normal URL -/
  document : String
  kind : QueryKind
  /-- tells queries of one kind apart -/
  detail : Option String
deriving DecidableEq, Repr

/-- A type of values, known by its name. -/
structure ValueType where
  name : String
  shape : Shape

namespace ValueType

def symbols : ValueType := ⟨"symbols", .nullable (.choice [.list .symbolInformation, .list .documentSymbol])⟩

def colors : ValueType := ⟨"colors", .list .colorInformation⟩

def links : ValueType := ⟨"links", .nullable (.list .documentLink)⟩

def hints : ValueType := ⟨"hints", .nullable (.list .inlayHint)⟩

end ValueType

structure CacheEntry where
  type : String
  value : Json

structure ResponseCache where
  capacity : Nat
  /-- the last used first -/
  entries : List (CacheKey × CacheEntry)

namespace ResponseCache

/-- An empty cache; it has room for one entry at least. -/
def ofCapacity (capacity : Nat) : ResponseCache := ⟨max capacity 1, []⟩

def empty : ResponseCache := ofCapacity 256

def size (c : ResponseCache) : Nat := c.entries.length

def find? (c : ResponseCache) (key : CacheKey) : Option CacheEntry := c.entries.lookup key

def others (c : ResponseCache) (key : CacheKey) : List (CacheKey × CacheEntry) :=
  c.entries.filter fun (k, _) => k ≠ key

/-- Enters a value, in place of one under the same key. -/
def set (c : ResponseCache) (key : CacheKey) (type : ValueType) (value : Json) : ResponseCache :=
  { c with entries := (key, ⟨type.name, value.canonical⟩) :: (c.others key).take (c.capacity - 1) }

/-- Enters the JSON of a value. A value that no JSON stands for is not entered. -/
def store (c : ResponseCache) (key : CacheKey) (type : ValueType) : Option Json → ResponseCache
  | some value => c.set key type value
  | none => c

/-- The value of a type under a key. The entry there counts as used, of whatever type it is. -/
def get (c : ResponseCache) (key : CacheKey) (type : ValueType) : Option Json × ResponseCache :=
  match c.find? key with
  | none => (none, c)
  | some e =>
    (if e.type = type.name then type.shape.read? e.value else none,
      { c with entries := (key, e) :: c.others key })

/-- Takes an entry away; the answer says whether it was there. -/
def invalidate (c : ResponseCache) (key : CacheKey) : Bool × ResponseCache :=
  ((c.find? key).isSome, { c with entries := c.others key })

/-- Takes away the entries of a document; the answer is their number. -/
def invalidateDocument (c : ResponseCache) (document : String) : Nat × ResponseCache :=
  let kept := c.entries.filter fun (k, _) => k.document ≠ document
  (c.size - kept.length, { c with entries := kept })

end ResponseCache

end LanguageHost
