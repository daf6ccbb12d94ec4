import SchemaAudit.Document.Value
import SchemaAudit.Pointer
import SchemaAudit.Text.Numeral

/-! # Following pointers

A token leads from a mapping to the value of a key, and from a list to an element by its
position.
-/

namespace SchemaAudit

namespace Value

def child? (s : Store) (v : Value) (token : String) : Option Value :=
  match v with
  | .mapping a => (s.entries a).lookup token
  | .list a | .tuple a => (Text.decimal? token.toList).bind ((s.elements a)[·]?)
  | _ => none

def descendant? (s : Store) : Value → List String → Option Value
  | v, [] => some v
  | v, token :: rest => (v.child? s token).bind (descendant? s · rest)

theorem descendant?_append (s : Store) (v : Value) (ts us : List String) :
    v.descendant? s (ts ++ us) = (v.descendant? s ts).bind (descendant? s · us) := by
  induction ts generalizing v with
  | nil => simp [descendant?]
  | cons t ts ih =>
    simp only [List.cons_append, descendant?]
    cases v.child? s t with
    | none => rfl
    | some w => simpa using ih w

end Value

namespace Document

def resolve? (d : Document) (p : Pointer) : Option Value :=
  (Pointer.tokens? p).bind (d.root.descendant? d.store)

end Document

end SchemaAudit
