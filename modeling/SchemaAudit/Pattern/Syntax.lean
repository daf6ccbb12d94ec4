/-! # Patterns

A pattern describes texts. It is built from tests of single characters and of places in the
text by sequence, choice and repetition; groups remember what they matched, and may be looked
at again.
-/

namespace SchemaAudit

namespace Pattern

/-- How the parts of a pattern are to be read. -/
structure Mode where
  ignoreCase : Bool
  /-- Line ends and starts count as ends and starts of the text. -/
  multiline : Bool
  /-- A dot matches line breaks too. -/
  dotAll : Bool
  /-- Blanks and comments in the pattern are skipped. -/
  verbose : Bool
  /-- The classes of characters hold ASCII characters only. -/
  ascii : Bool
  /-- Repetition is refused. -/
  template : Bool
  deriving DecidableEq, Repr

def Mode.initial : Mode := ⟨false, false, false, false, false, false⟩

inductive Category where
  | digit
  | space
  | word
  deriving DecidableEq, Repr

/-- An item of a set of characters, by code points. -/
inductive SetItem where
  | code (c : Nat)
  | range (low high : Nat)
  | category (c : Category) (negated : Bool)
  deriving DecidableEq, Repr

inductive CharTest where
  /-- Any character, line breaks apart. -/
  | dot
  | oneOf (negated : Bool) (items : List SetItem)
  deriving DecidableEq, Repr

inductive Anchor where
  | lineStart
  | lineEnd
  | textStart
  | textEnd
  | wordBoundary
  | noWordBoundary
  deriving DecidableEq, Repr

inductive Greed where
  | greedy
  | lazy
  /-- As many as possible, and never fewer afterwards. -/
  | possessive
  deriving DecidableEq, Repr

/-- The least and the greatest length of what an expression matches. -/
structure Width where
  least : Nat
  most : Nat
  deriving DecidableEq, Repr

namespace Width

/-- Lengths are counted up to here. -/
def cap : Nat := Nat.pow 2 64

def zero : Width := ⟨0, 0⟩

def capped (w : Width) : Width := ⟨min w.least cap, min w.most cap⟩

def add (v w : Width) : Width := capped ⟨v.least + w.least, v.most + w.most⟩

def either (v w : Width) : Width := ⟨min v.least w.least, max v.most w.most⟩

/-- The width of a repetition; `none` stands for as often as one likes. -/
def repeated (w : Width) (least : Nat) (most : Option Nat) : Width :=
  capped ⟨w.least * least,
    match most with
    | some n => w.most * n
    | none => if w.most = 0 then 0 else cap⟩

end Width

/-- A pattern. -/
inductive Expr where
  | empty
  | char (mode : Mode) (test : CharTest)
  | anchor (mode : Mode) (a : Anchor)
  | seq (first second : Expr)
  | choice (first second : Expr)
  | group (body : Expr)
  | capture (index : Nat) (body : Expr)
  | repeated (least : Nat) (most : Option Nat) (greed : Greed) (template : Bool) (body : Expr)
  /-- What a group matched, once more. -/
  | backreference (mode : Mode) (index : Nat) (width : Width)
  /-- One of two ways, by whether a group has matched. -/
  | conditional (index : Nat) (yes no : Expr)
  /-- A condition on the text ahead or behind. -/
  | look (behind negated : Bool) (body : Expr)
  /-- Only the first way to match counts. -/
  | atomic (body : Expr)
  deriving Repr

def Expr.width : Expr → Width
  | .empty | .anchor .. | .look .. => .zero
  | .char .. => ⟨1, 1⟩
  | .seq a b => a.width.add b.width
  | .choice a b => a.width.either b.width
  | .group b | .capture _ b | .atomic b => b.width
  | .repeated least most _ _ b => b.width.repeated least most
  | .backreference _ _ w => w
  | .conditional _ a b => a.width.either b.width

end Pattern

end SchemaAudit
