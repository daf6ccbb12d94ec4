import SchemaAudit.Text.Split

/-! # Uniform resource identifiers

References are resolved against a base the way web pages resolve links: what a reference lacks
is taken from the base, as far as the scheme is one whose identifiers are read that way. Hosts are
taken as they are written, whether they are well-formed or not.
-/

namespace SchemaAudit

/-- The parts of an identifier. A part that is not there is empty. -/
structure Uri where
  scheme : List Char
  authority : List Char
  path : List Char
  params : List Char
  query : List Char
  fragment : List Char
  deriving DecidableEq, Repr

namespace Uri

/-- The parts with a character between them. -/
def joinWith (c : Char) (parts : List (List Char)) : List Char := [c].intercalate parts

/-- The schemes under which relative references are resolved. -/
def relativeSchemes : List String :=
  ["", "ftp", "http", "gopher", "nntp", "imap", "wais", "file", "https", "shttp", "mms",
   "prospero", "rtsp", "rtsps", "rtspu", "sftp", "svn", "svn+ssh", "ws", "wss"]

/-- The schemes whose identifiers name an authority. -/
def authoritySchemes : List String :=
  ["", "ftp", "http", "gopher", "nntp", "telnet", "imap", "wais", "file", "mms", "https", "shttp",
   "snews", "prospero", "rtsp", "rtsps", "rtspu", "rsync", "svn", "svn+ssh", "sftp", "nfs", "git",
   "git+ssh", "ws", "wss"]

/-- The schemes whose identifiers have parameters behind the last part of the path. -/
def paramSchemes : List String :=
  ["", "ftp", "hdl", "prospero", "http", "imap", "https", "shttp", "rtsp", "rtsps", "rtspu", "sip",
   "sips", "mms", "sftp", "tel"]

def isOneOf (schemes : List String) (scheme : List Char) : Bool :=
  schemes.contains (String.ofList scheme)

def isSchemeChar (c : Char) : Bool := c.isAlphanum || c == '+' || c == '-' || c == '.'

/-- A text without leading blanks and controls, and without tabs and line breaks anywhere. -/
def cleaned (text : List Char) : List Char :=
  (text.dropWhile fun c => c.toNat ≤ 0x20).filter fun c => c != '\t' && c != '\r' && c != '\n'

/-- The scheme of a text in lower case with what is behind it; without a scheme of its own the
    text has the one given. -/
def takeScheme (inherited text : List Char) : List Char × List Char :=
  match Text.cutAt ':' text with
  | (c :: front, some rest) =>
    if c.isAlpha && front.all isSchemeChar then ((c :: front).map Char.toLower, rest)
    else (inherited, text)
  | _ => (inherited, text)

/-- The authority of a text with what is behind it. -/
def takeAuthority : List Char → List Char × List Char
  | '/' :: '/' :: rest =>
    let inside (c : Char) : Bool := c != '/' && c != '?' && c != '#'
    (rest.takeWhile inside, rest.dropWhile inside)
  | text => ([], text)

/-- The parameters of a path: what is behind the first semicolon of its last part. -/
def takeParams (path : List Char) : List Char × List Char :=
  match (Text.splitAt '/' path).reverse with
  | [] => (path, [])
  | last :: before =>
    match Text.cutAt ';' last with
    | (_, none) => (path, [])
    | (front, some params) => (joinWith '/' (before.reverse ++ [front]), params)

/-- The identifier that a text denotes; `none` if a bracket in its authority has no partner. -/
def read? (inheritedScheme text : List Char) : Option Uri :=
  let (scheme, rest) := takeScheme inheritedScheme (cleaned text)
  let (authority, rest) := takeAuthority rest
  if authority.contains '[' != authority.contains ']' then none
  else
    let (rest, fragment) := Text.cutAt '#' rest
    let (path, query) := Text.cutAt '?' rest
    let (path, params) :=
      if isOneOf paramSchemes scheme && path.contains ';' then takeParams path else (path, [])
    some ⟨scheme, authority, path, params, query.getD [], fragment.getD []⟩

/-- A part with a mark before it, unless it is empty. -/
def marked (mark : Char) (part : List Char) : List Char :=
  if part.isEmpty then [] else mark :: part

/-- The text of an identifier. -/
def written (u : Uri) : List Char :=
  let path := u.path ++ marked ';' u.params
  let path :=
    if !u.authority.isEmpty || (!u.scheme.isEmpty && isOneOf authoritySchemes u.scheme)
        || path.take 2 == ['/', '/'] then
      let path := if !path.isEmpty && path.head? != some '/' then '/' :: path else path
      '/' :: '/' :: u.authority ++ path
    else path
  let text := if u.scheme.isEmpty then path else u.scheme ++ ':' :: path
  text ++ marked '?' u.query ++ marked '#' u.fragment

/-- Follow a path: one dot stays, two dots go up, all else goes down. -/
def follow (segments : List (List Char)) : List (List Char) :=
  (segments.foldl (fun (trail : List (List Char)) s =>
    if s = ['.', '.'] then trail.drop 1 else if s = ['.'] then trail else s :: trail) []).reverse

/-- The segments of a base without the last one, unless that is empty. -/
def directory (segments : List (List Char)) : List (List Char) :=
  match segments.reverse with
  | last :: before => if last.isEmpty then segments else before.reverse
  | [] => []

/-- Segments without empty ones, the first and the last apart. -/
def dropEmptyInside (segments : List (List Char)) : List (List Char) :=
  match segments with
  | first :: rest@(_ :: _) =>
    first :: rest.dropLast.filter (!·.isEmpty) ++ rest.drop (rest.length - 1)
  | segments => segments

/-- A path resolved against the path of a base. -/
def resolvePath (base path : List Char) : List Char :=
  let segments :=
    if path.head? = some '/' then Text.splitAt '/' path
    else dropEmptyInside (directory (Text.splitAt '/' base) ++ Text.splitAt '/' path)
  let last := (segments.getLast?).getD []
  let resolved := follow segments ++ (if last = ['.'] || last = ['.', '.'] then [[]] else [])
  let text := joinWith '/' resolved
  if text.isEmpty then ['/'] else text

/-- A reference resolved against a base; `none` if one of them cannot be read. -/
def join? (base ref : List Char) : Option (List Char) :=
  if base.isEmpty then some ref
  else if ref.isEmpty then some base
  else
    match read? [] base with
    | none => none
    | some b =>
      match read? b.scheme ref with
      | none => none
      | some u =>
        if u.scheme ≠ b.scheme || !isOneOf relativeSchemes u.scheme then some ref
        else if isOneOf authoritySchemes u.scheme && !u.authority.isEmpty then some u.written
        else
          let u :=
            if isOneOf authoritySchemes u.scheme then { u with authority := b.authority } else u
          if u.path.isEmpty && u.params.isEmpty then
            some { u with
              path := b.path
              params := b.params
              query := if u.query.isEmpty then b.query else u.query }.written
          else some { u with path := resolvePath b.path u.path }.written

/-- A reference without its fragment, and the fragment; `none` if the reference cannot be read. -/
def splitFragment? (ref : List Char) : Option (List Char × List Char) :=
  if ref.contains '#' then
    (read? [] ref).map fun u => ({ u with fragment := [] }.written, u.fragment)
  else some (ref, [])

end Uri

end SchemaAudit
