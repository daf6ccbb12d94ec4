import SchemaAudit.Pattern.Syntax
import SchemaAudit.Text.Characters
import SchemaAudit.Text.LetterCase
import SchemaAudit.Text.Word

/-! # Searching a text for a pattern

An expression is matched from a place on, and what comes behind it is given as a continuation:
the first way to match the expression for which the continuation succeeds is taken. A
repetition that matched nothing is not tried again at the same place, so that it ends.
-/

namespace SchemaAudit

namespace Pattern

def Category.has (mode : Mode) (c : Char) : Category → Bool
  | .digit => if mode.ascii then c.isDigit else Text.isDigit c
  | .space => if mode.ascii then Text.isAsciiBlank c else Text.isBlank c
  | .word => if mode.ascii then Text.isAsciiWord c else Text.isWord c

/-- The code points that count as a character. -/
def variants (mode : Mode) (c : Char) : List Nat :=
  if !mode.ignoreCase then [c.toNat]
  else if mode.ascii then Text.asciiCaseVariants c.toNat
  else Text.caseVariants c.toNat

def SetItem.has (mode : Mode) (c : Char) : SetItem → Bool
  | .code x => (variants mode c).contains x
  | .range low high => (variants mode c).any fun x => low ≤ x && x ≤ high
  | .category k negated => k.has mode c != negated

def CharTest.accepts (mode : Mode) (c : Char) : CharTest → Bool
  | .dot => mode.dotAll || c != '\n'
  | .oneOf negated items => items.any (SetItem.has mode c) != negated

/-- Whether a place lies between a word character and something else. The empty text has no
    such place, and none of the opposite kind either. -/
def atWordBoundary (mode : Mode) (text : Array Char) (position : Nat) : Bool :=
  let isWordAt (i : Nat) : Bool := (text[i]?).any fun c => Category.has mode c .word
  let before := position != 0 && isWordAt (position - 1)
  before != isWordAt position

def Anchor.holds (mode : Mode) (text : Array Char) (position : Nat) : Anchor → Bool
  | .textStart => position == 0
  | .textEnd => position == text.size
  | .lineStart =>
    position == 0 || (mode.multiline && text[position - 1]? == some '\n')
  | .lineEnd =>
    position == text.size
      || ((mode.multiline || position + 1 == text.size) && text[position]? == some '\n')
  | .wordBoundary => !text.isEmpty && atWordBoundary mode text position
  | .noWordBoundary => !text.isEmpty && !atWordBoundary mode text position

/-- How far a match has come, and where groups have started and ended: group `i` starts at mark
    `2 * i` and ends at mark `2 * i + 1`. The latest marks come first. -/
structure Progress where
  position : Nat
  marks : List (Nat × Nat)
  deriving Repr

namespace Progress

def mark (p : Progress) (index : Nat) : Progress :=
  { p with marks := (index, p.position) :: p.marks }

/-- Where a group has started and ended, if it has matched. -/
def span? (p : Progress) (index : Nat) : Option (Nat × Nat) :=
  match p.marks.lookup (2 * index), p.marks.lookup (2 * index + 1) with
  | some start, some stop => if stop < start then none else some (start, stop)
  | _, _ => none

end Progress

/-- What has to match behind an expression. -/
abbrev Continuation := Progress → Option Progress

/-- A way to match, given what comes behind. -/
abbrev Matcher := Continuation → Continuation

/-- Whether one more repetition may be tried: there have not been too many, and the last one
    that was not owed did not start here. -/
def mayRepeat (most : Option Nat) (count : Nat) (last : Option Nat) (p : Progress) : Bool :=
  most.all (count < ·) && last != some p.position

/-- Repeat as often as possible, then give back. -/
def greedily (body : Matcher) (least : Nat) (most : Option Nat) (k : Continuation) :
    Nat → Nat → Option Nat → Continuation
  | 0, _, _, _ => none
  | fuel + 1, count, last, p =>
    if count < least then body (greedily body least most k fuel (count + 1) last) p
    else
      let further :=
        if mayRepeat most count last p then
          body (greedily body least most k fuel (count + 1) (some p.position)) p
        else none
      match further with
      | some q => some q
      | none => k p

/-- Repeat as seldom as possible. -/
def lazily (body : Matcher) (least : Nat) (most : Option Nat) (k : Continuation) :
    Nat → Nat → Option Nat → Continuation
  | 0, _, _, _ => none
  | fuel + 1, count, last, p =>
    if count < least then body (lazily body least most k fuel (count + 1) last) p
    else
      match k p with
      | some q => some q
      | none =>
        if mayRepeat most count last p then
          body (lazily body least most k fuel (count + 1) (some p.position)) p
        else none

/-- Repeat as often as possible, each time the first way to match, and give nothing back. -/
def possessively (body : Matcher) (least : Nat) (most : Option Nat) :
    Nat → Nat → Option Nat → Continuation
  | 0, _, _, _ => none
  | fuel + 1, count, last, p =>
    if count < least then
      (body some p).bind (possessively body least most fuel (count + 1) last)
    else if mayRepeat most count last p then
      match body some p with
      | some q => possessively body least most fuel (count + 1) (some p.position) q
      | none => some p
    else some p

def sameChar (mode : Mode) (c d : Char) : Bool :=
  let lower := if mode.ascii then Text.asciiLowerCode else Text.lowerCode
  if mode.ignoreCase then lower c.toNat == lower d.toNat else c == d

/-- Match an expression at a place of a text, and then what comes behind it. -/
def Expr.matchThen (text : Array Char) : Expr → Matcher
  | .empty, k, p => k p
  | .char mode test, k, p =>
    match text[p.position]? with
    | some c => if test.accepts mode c then k { p with position := p.position + 1 } else none
    | none => none
  | .anchor mode a, k, p => if a.holds mode text p.position then k p else none
  | .seq a b, k, p => a.matchThen text (b.matchThen text k) p
  | .choice a b, k, p =>
    match a.matchThen text k p with
    | some q => some q
    | none => b.matchThen text k p
  | .group b, k, p => b.matchThen text k p
  | .capture i b, k, p =>
    b.matchThen text (fun q => k (q.mark (2 * i + 1))) (p.mark (2 * i))
  | .repeated least most greed _ b, k, p =>
    let fuel := least + (text.size - p.position) + 2
    match greed with
    | .greedy => greedily (b.matchThen text) least most k fuel 0 none p
    | .lazy => lazily (b.matchThen text) least most k fuel 0 none p
    | .possessive => (possessively (b.matchThen text) least most fuel 0 none p).bind k
  | .backreference mode i _, k, p =>
    match p.span? i with
    | none => none
    | some (start, stop) =>
      let length := stop - start
      let agrees := (List.range length).all fun j =>
        match text[start + j]?, text[p.position + j]? with
        | some c, some d => sameChar mode c d
        | _, _ => false
      if agrees then k { p with position := p.position + length } else none
  | .conditional i a b, k, p =>
    if (p.span? i).isSome then a.matchThen text k p else b.matchThen text k p
  | .look behind negated b, k, p =>
    let back := if behind then b.width.least else 0
    let seen :=
      if p.position < back then none
      else b.matchThen text some { p with position := p.position - back }
    match seen, negated with
    | some q, false => k { q with position := p.position }
    | none, true => k p
    | _, _ => none
  | .atomic b, k, p => (b.matchThen text some p).bind k

def Expr.occursIn (e : Expr) (text : String) : Bool :=
  let chars := text.toList.toArray
  (List.range (chars.size + 1)).any fun i => (e.matchThen chars some ⟨i, []⟩).isSome

end Pattern

end SchemaAudit
