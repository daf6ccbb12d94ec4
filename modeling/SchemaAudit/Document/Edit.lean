import SchemaAudit.Document.Resolve

/-! # Editing a document

Edits change containers in place, so that every place that holds a container sees them.
-/

namespace SchemaAudit

namespace Entries

/-- Set a key: in its place if it is there, otherwise behind all others. -/
def put (key : String) (v : Value) : Entries → Entries
  | [] => [(key, v)]
  | (k, w) :: rest => if k = key then (key, v) :: rest else (k, w) :: put key v rest

def remove (key : String) (es : Entries) : Entries := es.filter fun (k, _) => k != key

end Entries

namespace Document

/-- The container that a row of tokens leads into, with the last token. -/
def parent? (d : Document) (p : Pointer) : Option (Value × String) := do
  let tokens ← Pointer.tokens? p
  let last ← tokens.getLast?
  let v ← d.root.descendant? d.store tokens.dropLast
  return (v, last)

/-- Set what a pointer leads to. A dash in place of a position appends to a list, and the empty
    pointer replaces the root. -/
def set? (d : Document) (p : Pointer) (v : Value) : Option Document :=
  if p = "" then some { d with root := v }
  else do
    match ← d.parent? p with
    | (.mapping a, key) =>
      return { d with store := d.store.setEntries a (Entries.put key v (d.store.entries a)) }
    | (.list a, "-") =>
      return { d with store := d.store.setElements a (d.store.elements a ++ [v]) }
    | (.list a, token) =>
      let i ← Text.decimal? token.toList
      let vs := d.store.elements a
      if i < vs.length then
        return { d with store := d.store.setElements a (vs.set i v) }
      else none
    | _ => none

def delete? (d : Document) (p : Pointer) : Option Document := do
  match ← d.parent? p with
  | (.mapping a, key) =>
    let _ ← (d.store.entries a).lookup key
    return { d with store := d.store.setEntries a (Entries.remove key (d.store.entries a)) }
  | (.list a, token) =>
    let i ← Text.decimal? token.toList
    let vs := d.store.elements a
    if i < vs.length then
      return { d with store := d.store.setElements a (vs.eraseIdx i) }
    else none
  | _ => none

/-- Store at one pointer what another one leads to, the same container and not a copy. -/
def link? (d : Document) (p target : Pointer) : Option Document := do
  d.set? p (← d.resolve? target)

end Document

end SchemaAudit
