import SchemaAudit.Pattern.Escape
import SchemaAudit.Pattern.Flags
import SchemaAudit.Text.Numeral

/-! # Groups in patterns

A parenthesis opens a group, or, with a question mark behind it, one of many other things.
Groups are numbered in the order of their opening parentheses.
-/

namespace SchemaAudit

namespace Pattern

/-- Groups are numbered below this. -/
def groupLimit : Nat := 1073741823

/-- Open a group; its number is one more than that of the group before. -/
def openGroup (name? : Option String) : Reading Nat := do
  let r ← get
  let index := r.groups.length + 1
  match name? with
  | none => set { r with groups := r.groups ++ [none] }
  | some name =>
    match r.names.lookup name with
    | some before => Reading.refuse (.redefinedGroupName name index before) (name.length + 1)
    | none =>
      set { r with groups := r.groups ++ [none], names := r.names ++ [(name, index)] }
  return index

def closeGroup (index : Nat) (width : Width) : Reading Unit :=
  modify fun r => { r with groups := r.groups.set (index - 1) (some width) }

def groupName (terminator : Char) : Reading String := do
  let name ← Reading.takeName terminator "group name"
  if Text.isName name.toList then return name
  else Reading.refuse (.badGroupName name) (name.length + 1)

def groupNamed (name : String) : Reading Nat := do
  match (← get).names.lookup name with
  | some index => return index
  | none => Reading.refuse (.unknownGroupName name) (name.length + 1)

/-- The number of a group that a condition asks for by name or number. -/
def conditionGroup : Reading Nat := do
  let name ← Reading.takeName ')' "group name"
  let back := name.length + 1
  if Text.isName name.toList then groupNamed name
  else
    match Text.integer? name with
    | none => Reading.refuse (.badGroupName name) back
    | some n =>
      if n < 0 then Reading.refuse (.badGroupName name) back
      else if n = 0 then Reading.refuse .badGroupNumber back
      else
        let index := n.toNat
        if groupLimit ≤ index then Reading.refuse (.invalidGroupReference index) back
        else
          modify fun r =>
            if (r.conditions.lookup index).isSome then r
            else { r with conditions := r.conditions ++ [(index, r.position - back)] }
          return index

/-- Skip a comment up to the parenthesis that closes the group. -/
def skipComment (start : Nat) : Nat → Reading Unit
  | 0 => return ()
  | fuel + 1 => do
    match ← Reading.take with
    | none => Reading.refuse .unterminatedComment ((← Reading.position) - start)
    | some t => if t = .plain ')' then return () else skipComment start fuel

def skipLine : Nat → Reading Unit
  | 0 => return ()
  | fuel + 1 => do
    match ← Reading.take with
    | none => return ()
    | some t => if t = .plain '\n' then return () else skipLine fuel

/-- The parenthesis that closes the group which starts at `start`. -/
def closeParenthesis (start : Nat) : Reading Unit := do
  if ← Reading.skip ')' then return ()
  else Reading.refuse .unterminatedGroup ((← Reading.position) - start)

inductive Opening where
  | capture (name? : Option String)
  | group (mode : Mode)
  | atomic
  | look (behind negated : Bool)
  | conditional (index : Nat)
  /-- Complete as it is. -/
  | done (e : Expr)
  /-- Nothing that matches: a comment. -/
  | nothing
  /-- Flags for the whole pattern. -/
  | flags (on : List Char)

/-- What the parenthesis at `start` opens, by the signs behind it. -/
def opening (mode : Mode) (start : Nat) : Reading Opening := do
  if !(← Reading.skip '?') then return .capture none
  else
    match ← Reading.take with
    | none => Reading.refuse .unexpectedEnd 0
    | some (.plain 'P') =>
      if ← Reading.skip '<' then return .capture (some (← groupName '>'))
      else if ← Reading.skip '=' then
        let name ← groupName ')'
        let index ← groupNamed name
        return .done (← backreference mode index (name.length + 1))
      else
        match ← Reading.take with
        | none => Reading.refuse .unexpectedEnd 0
        | some t => Reading.refuse (.unknownExtension ("P" ++ t.text)) (t.size + 2)
    | some (.plain ':') => return .group mode
    | some (.plain '#') =>
      skipComment start ((← get).rest.length + 1)
      return .nothing
    | some (.plain '=') => return .look false false
    | some (.plain '!') => return .look false true
    | some (.plain '<') =>
      match ← Reading.take with
      | none => Reading.refuse .unexpectedEnd 0
      | some (.plain '=') => return .look true false
      | some (.plain '!') => return .look true true
      | some t => Reading.refuse (.unknownExtension ("<" ++ t.text)) (t.size + 2)
    | some (.plain '(') =>
      let index ← conditionGroup
      checkLookBehind index
      return .conditional index
    | some (.plain '>') => return .atomic
    | some t =>
      match t with
      | .plain c =>
        if c = '-' || flagLetters.contains c then
          match ← takeFlagGroup c with
          | .whole on => return .flags on
          | .part on off =>
            return .group (off.foldl Mode.turnOff (on.foldl Mode.turnOn mode))
        else Reading.refuse (.unknownExtension t.text) (t.size + 1)
      | _ => Reading.refuse (.unknownExtension t.text) (t.size + 1)

def turnOnFlags (on : List Char) : Reading Unit :=
  modify fun r => { r with
    mode := on.foldl Mode.turnOn r.mode
    flags := r.flags ++ on }

end Pattern

end SchemaAudit
