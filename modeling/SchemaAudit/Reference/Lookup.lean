import SchemaAudit.Document.Display
import SchemaAudit.Reference.Percent
import SchemaAudit.Reference.Survey
import SchemaAudit.Text.Numeral

/-! # Resolving references

A reference names a document and a part of it: by a pointer from the document's root, or by the
name of a schema inside. What it leads to brings its own base for the references inside it.

The documents that can be named are the root and the schemas with identifiers inside it. The
schemas of the schema languages themselves, which a library could have at hand, are not among
them, and nothing is fetched from elsewhere: a reference to either leads nowhere.
-/

namespace SchemaAudit

/-- Where references are resolved from. -/
structure Scope where
  base : String
  /-- Whether the root has been looked through. -/
  surveyed : Bool
  deriving DecidableEq, Repr

namespace Reference

/-! ## Following a pointer -/

/-- A position counted from the end if it is negative. -/
def position? (length : Nat) (i : Int) : Option Nat :=
  let p := if i < 0 then i + length else i
  if 0 ≤ p ∧ p < length then some p.toNat else none

/-- One token followed into a value; `none` inside if there is nothing. The key is told if the
    token was one. -/
def step (s : Store) (v : Value) (token : List Char) :
    Except Stop (Option String × Option Value) :=
  let inSequence (vs : List Value) : Except Stop (Option String × Option Value) :=
    match Text.integer? (String.ofList token) with
    | none => Evaluation.faulted .invalidValue
    | some i => .ok (none, (position? vs.length i).bind (vs[·]?))
  match v with
  | .mapping a =>
    let key := Pointer.unescape token
    .ok (some key, (s.entries a).lookup key)
  | .list _ | .tuple _ | .text _ | .octets _ => inSequence ((v.iterate? s).getD [])
  | _ => Evaluation.faulted .kindMismatch

/-- Whether tokens lead from a schema to a schema inside it, the last of them to a mapping or
    not. -/
def leadToSchema (toMapping : Bool) : List (Option String) → Bool
  | [] => true
  | token :: rest =>
    let isOneOf (keys : List String) : Bool := token.any keys.contains
    if isOneOf ["items", "dependencies"] && toMapping then true
    else if isOneOf schemaKeys then leadToSchema toMapping rest
    else if isOneOf ("extends" :: schemaMapKeys) then
      match rest with
      | [] => false
      | _ :: rest => leadToSchema toMapping rest
    else false

/-- Follow tokens into a document. On the way the base changes at schemas with identifiers;
    `since` are the tokens since the last of them. Answers `none` if there is nothing. -/
def follow (s : Store) : List (List Char) → List (Option String) → String → Value →
    Except Stop (Option (Value × String))
  | [], _, base, v => .ok (some (v, base))
  | token :: rest, since, base, v => do
    match ← step s v token with
    | (_, none) => return none
    | (key, some w) =>
      let since := since ++ [key]
      let inside? ←
        if leadToSchema (w.kind == .object) since then baseInside base (← schemaEntries s w)
        else pure none
      match inside? with
      | some inside => follow s rest [] inside w
      | none => follow s rest since base w

/-! ## Looking up a reference -/

/-- What references are looked up in. -/
structure Library where
  store : Store
  root : Value
  rootUri : String

/-- A library that knows the root by its identifier, if it has one. -/
def Library.ofRoot (store : Store) (addr : Nat) : Except Stop Library := do
  return ⟨store, .mapping addr, ((← identifier? (store.entries addr)).getD "")⟩

/-- All that looking through the root brings to light. -/
def Library.survey (l : Library) : Except Stop Survey :=
  Reference.survey l.store (l.store.size + 2) l.rootUri l.root
    ⟨[(l.rootUri, l.root)], []⟩

/-- The schema of a name in a document. A document may be known by an identifier of its own
    besides the one it was looked up by. -/
def Library.named (l : Library) (uri : String) (document : Value) (name : String) :
    Except Stop Value := do
  let found ← l.survey
  match found.names.lookup (uri, name) with
  | some v => return v
  | none =>
    let own? ← identifier? (← schemaEntries l.store document)
    match own?.bind fun own => found.names.lookup (own, name) with
    | some v => return v
    | none =>
      if name.toList.contains '/' then Evaluation.flawed (.reference (.invalidAnchor name))
      else
        Evaluation.flawed (.reference (.noSuchAnchor name (document.display l.store)))

/-- The document that a reference names, and the fragment within it. A fragment alone is one of
    the present document. -/
def address (scope : Scope) (ref : String) : Except Stop (String × List Char) :=
  match ref.toList with
  | '#' :: fragment => .ok (scope.base, fragment)
  | _ => do
    match Uri.splitFragment? (← joined scope.base ref).toList with
    | some (uri, fragment) => return (String.ofList uri, fragment)
    | none => Evaluation.faulted .invalidValue

/-- The document that a reference names, and whether the root has been looked through for it. There
    are no documents besides the root and what is inside it. -/
def Library.document (l : Library) (scope : Scope) (ref uri : String) :
    Except Stop (Value × Bool) :=
  if !scope.surveyed && uri = l.rootUri then .ok (l.root, false)
  else do
    match (← l.survey).documents.lookup uri with
    | some document => return (document, true)
    | none => Evaluation.flawed (.reference (.unknownDocument ref))

/-- The schema that a reference leads to, with the scope inside it. -/
def Library.lookup (l : Library) (scope : Scope) (ref : String) : Except Stop (Value × Scope) := do
  let (uri, fragment) ← address scope ref
  let (document, surveyed) ← l.document scope ref uri
  match fragment with
  | [] => return (document, ⟨uri, surveyed⟩)
  | '/' :: path =>
    match ← follow l.store (Text.splitAt '/' (Percent.decode path)) [] uri document with
    | some (v, base) => return (v, ⟨base, surveyed⟩)
    | none =>
      Evaluation.flawed
        (.reference (.nowhere (String.ofList fragment) (document.display l.store)))
  | name => return (← l.named uri document (String.ofList name), ⟨uri, true⟩)

end Reference

end SchemaAudit
