import SchemaAudit.Number.Binary64

/-! # Values of a document

A document is a finite graph: its lists and mappings live in a `Store` under addresses, and a
value names a container by its address. Two places that hold one container hold one address,
and a container may be reached from itself. A tree is the special case in which no address
occurs twice.
-/

namespace SchemaAudit

/-- A value at some place of a document. -/
inductive Value where
  | null
  | bool (b : Bool)
  | int (n : Int)
  | float (x : Binary64)
  /-- Not a number. It differs from every number and is the same only as itself, which the tag
      tells. -/
  | nan (tag : Nat)
  | text (s : String)
  /-- Octets, which no schema has a kind for. -/
  | octets (os : List UInt8)
  | list (addr : Nat)
  /-- A list that cannot change and is shown in round brackets. -/
  | tuple (addr : Nat)
  | mapping (addr : Nat)
  deriving DecidableEq, Repr

/-- The content of a mapping, in document order. -/
abbrev Entries := List (String × Value)

/-- The containers of a document by address. -/
structure Store where
  lists : Array (List Value)
  maps : Array Entries
  deriving Repr

namespace Store

def empty : Store := ⟨#[], #[]⟩

def elements (s : Store) (addr : Nat) : List Value := s.lists.getD addr []

def entries (s : Store) (addr : Nat) : Entries := s.maps.getD addr []

/-- The number of containers. No chain of containers, each inside the one before, is longer
    without repeating an address. -/
def size (s : Store) : Nat := s.lists.size + s.maps.size

/-- A new list or tuple; its address is the number of lists before. -/
def addList (s : Store) (elements : List Value) : Store :=
  { s with lists := s.lists.push elements }

/-- A new mapping; its address is the number of mappings before. -/
def addMapping (s : Store) (entries : Entries) : Store :=
  { s with maps := s.maps.push entries }

def setElements (s : Store) (addr : Nat) (elements : List Value) : Store :=
  { s with lists := s.lists.setIfInBounds addr elements }

def setEntries (s : Store) (addr : Nat) (entries : Entries) : Store :=
  { s with maps := s.maps.setIfInBounds addr entries }

end Store

/-- A store with the value that it is looked at from. -/
structure Document where
  store : Store
  root : Value
  deriving Repr

namespace Value

def elements? (s : Store) : Value → Option (List Value)
  | .list a | .tuple a => some (s.elements a)
  | _ => none

def entries? (s : Store) : Value → Option Entries
  | .mapping a => some (s.entries a)
  | _ => none

/-- Whether a value counts as true where a yes or no is asked for. Null, zero and whatever is
    empty count as false. -/
def truthy (s : Store) : Value → Bool
  | .null => false
  | .bool b => b
  | .int n => n != 0
  | .float x => !x.isZero
  | .nan _ => true
  | .text t => t != ""
  | .octets os => !os.isEmpty
  | .list a | .tuple a => !(s.elements a).isEmpty
  | .mapping a => !(s.entries a).isEmpty

/-! ### Going through values

Some keywords go through whatever they are given: the elements of a list, the keys of a mapping,
the characters of a text.
-/

/-- What a value gives when it is gone through: elements, keys, octets or characters. -/
def iterate? (s : Store) : Value → Option (List Value)
  | .list a | .tuple a => some (s.elements a)
  | .mapping a => some ((s.entries a).map fun (k, _) => .text k)
  | .octets os => some (os.map fun o => .int o.toNat)
  | .text t => some (t.toList.map fun c => .text c.toString)
  | _ => none

/-! ### Unfolding a value

A value with all that is inside it, each occurrence apart. What two places share is counted at
both, as if either had a copy of its own.
-/

/-- The values that a container holds. -/
def children (s : Store) : Value → List Value
  | .list a | .tuple a => s.elements a
  | .mapping a => (s.entries a).map Prod.snd
  | _ => []

/-- The occurrences inside a value that is inside the containers of `around`, its own first. -/
def unfoldWithin (s : Store) : Nat → List Value → Value → List Value
  | 0, _, v => [v]
  | fuel + 1, around, v =>
    v :: if v ∈ around then [] else (v.children s).flatMap (unfoldWithin s fuel (v :: around))

/-- All occurrences inside a value; a container inside itself is not unfolded again. -/
def unfold (s : Store) (v : Value) : List Value := unfoldWithin s (s.size + 2) [] v

end Value

end SchemaAudit
