import SchemaAudit.Text.Split

/-! # Pointers into a document

A pointer is the text of a path of reference tokens, each behind a slash. A tilde in a token is
written `~0` and a slash `~1`, so that the tokens can be read back.
-/

namespace SchemaAudit

/-- A pointer in its written form. The empty one points to the whole document. -/
abbrev Pointer := String

namespace Pointer

/-- A token as it is written: the tildes are replaced first. -/
def escape (token : String) : String :=
  String.ofList
    (Text.replace ['/'] ['~', '1'] (Text.replace ['~'] ['~', '0'] token.toList))

/-- A pointer with further tokens. -/
def extend (base : Pointer) (tokens : List String) : Pointer :=
  tokens.foldl (fun path t => path ++ "/" ++ escape t) base

@[simp] theorem extend_nil (base : Pointer) : extend base [] = base := rfl

@[simp] theorem extend_cons (base : Pointer) (t : String) (ts : List String) :
    extend base (t :: ts) = extend (base ++ "/" ++ escape t) ts := rfl

theorem extend_append (base : Pointer) (ts us : List String) :
    extend base (ts ++ us) = extend (extend base ts) us := by
  simp [extend, List.foldl_append]

/-- A written token read back: first the slashes, then the tildes. -/
def unescape (written : List Char) : String :=
  String.ofList (Text.replace ['~', '0'] ['~'] (Text.replace ['~', '1'] ['/'] written))

/-- The tokens of a pointer; a nonempty pointer has to start with a slash. -/
def tokens? (p : Pointer) : Option (List String) :=
  match p.toList with
  | [] => some []
  | '/' :: rest => some ((Text.splitAt '/' rest).map unescape)
  | _ :: _ => none

end Pointer

end SchemaAudit
