import SchemaAudit.Pattern.CharacterSet
import SchemaAudit.Pattern.Opening
import SchemaAudit.Pattern.Repetition

/-! # Reading patterns

A pattern is a choice of sequences. Reading answers with an expression, or with the first
reason for which the pattern is refused.
-/

namespace SchemaAudit

namespace Pattern

/-! ## Sequences and choices -/

/-- Items, the last one first, one after the other. -/
def sequence (items : List Expr) : Expr :=
  items.foldl (fun rest item => match rest with
    | .empty => item
    | rest => .seq item rest) .empty

mutual

/-- A choice of sequences. At the outermost level, flags for the whole pattern may open the
    first of them. -/
def readChoice : Nat → Mode → Bool → Bool → Reading Expr
  | 0, _, _, _ => return .empty
  | fuel + 1, mode, outermost, first => do
    let e ← readSequence fuel mode (outermost && first) []
    if ← Reading.skip '|' then
      let r ← get
      let mode := if outermost then r.mode else mode
      return .choice e (← readChoice fuel mode outermost false)
    else return e

/-- A sequence of items up to a bar, a closing parenthesis or the end. The items read so far
    come last first. -/
def readSequence : Nat → Mode → Bool → List Expr → Reading Expr
  | 0, _, _, items => return sequence items
  | fuel + 1, mode, first, items => do
    let next ← Reading.peek
    if next = none || next = some (.plain '|') || next = some (.plain ')') then
      return sequence items
    else
      match ← Reading.take with
      | none | some .dangling => return sequence items
      | some (.escape c) => readSequence fuel mode first ((← escape mode c) :: items)
      | some (.plain c) =>
        let literal : Expr := .char mode (.oneOf false [.code c.toNat])
        if mode.verbose && Text.isAsciiBlank c then readSequence fuel mode first items
        else if mode.verbose && c = '#' then
          skipLine ((← get).rest.length + 1)
          readSequence fuel mode first items
        else if c = '[' then readSequence fuel mode first ((← characterSet mode) :: items)
        else if c = '.' then readSequence fuel mode first (.char mode .dot :: items)
        else if c = '^' then readSequence fuel mode first (.anchor mode .lineStart :: items)
        else if c = '$' then readSequence fuel mode first (.anchor mode .lineEnd :: items)
        else if c = '*' || c = '+' || c = '?' || c = '\x7b' then
          let here ← Reading.position
          match ← boundsOf c with
          | none => readSequence fuel mode first (literal :: items)
          | some b => readSequence fuel mode first (← repeatLast mode here b items)
        else if c = '(' then
          let start := (← Reading.position) - 1
          match ← opening mode start with
          | .done e => readSequence fuel mode first (e :: items)
          | .nothing => readSequence fuel mode first items
          | .flags on =>
            if !first || !items.isEmpty then
              Reading.refuse .lateFlags ((← Reading.position) - start)
            else
              turnOnFlags on
              readSequence fuel (← get).mode first items
          | .capture name? =>
            let index ← openGroup name?
            let body ← readChoice fuel mode false false
            closeParenthesis start
            closeGroup index body.width
            readSequence fuel mode first (.capture index body :: items)
          | .group inner =>
            let body ← readChoice fuel inner false false
            closeParenthesis start
            readSequence fuel mode first (.group body :: items)
          | .atomic =>
            let body ← readChoice fuel mode false false
            closeParenthesis start
            readSequence fuel mode first (.atomic body :: items)
          | .look behind negated =>
            let outer := (← get).lookBehindFrom
            if behind && outer.isNone then
              modify fun r => { r with lookBehindFrom := some r.groups.length }
            let body ← readChoice fuel mode false false
            if behind && outer.isNone then
              modify fun r => { r with lookBehindFrom := none }
            closeParenthesis start
            readSequence fuel mode first (.look behind negated body :: items)
          | .conditional index =>
            let yes ← readSequence fuel mode false []
            let no ←
              if ← Reading.skip '|' then
                let no ← readSequence fuel mode false []
                if (← Reading.peek) = some (.plain '|') then Reading.refuse .tooManyBranches 0
                pure no
              else pure .empty
            closeParenthesis start
            readSequence fuel mode first (.conditional index yes no :: items)
        else readSequence fuel mode first (literal :: items)

end

/-! ## Whole patterns -/

def lookBehindLimit : Nat := Nat.pow 2 32 - 1

/-- What a repetition is called where it is refused. -/
def Greed.operator : Greed → String
  | .greedy => "MAX_REPEAT"
  | .lazy => "MIN_REPEAT"
  | .possessive => "POSSESSIVE_REPEAT"

/-- What makes an expression unusable although it can be read: a look-behind has to know how far
    to look back. -/
def Expr.flaw? : Expr → Option Cause
  | .empty | .char .. | .anchor .. | .backreference .. => none
  | .seq a b | .choice a b | .conditional _ a b => a.flaw?.or b.flaw?
  | .group b | .capture _ b | .atomic b => b.flaw?
  | .repeated _ _ greed template b =>
    if template then some (.templateRepeat greed.operator) else b.flaw?
  | .look behind _ b =>
    if behind && lookBehindLimit < b.width.least then some .farLookBehind
    else if behind && b.width.least != b.width.most then some .variableLookBehind
    else b.flaw?

def readWhole : Reading Expr := do
  if (← Reading.peek) = some .dangling then Reading.refuse .danglingEscape 0
  let e ← readChoice (2 * (← get).rest.length + 4) Mode.initial true true
  let r ← get
  if r.flags.contains 'a' && r.flags.contains 'u' then throw .contradictoryFlags
  if r.rest.length ≠ 0 then Reading.refuse .unbalanced 0
  match r.conditions.find? fun (index, _) => r.groups.length < index with
  | some (index, position) => throw (.malformed (.invalidGroupReference index) (some position))
  | none =>
    match e.flaw? with
    | some cause => throw (.malformed cause none)
    | none => return e

def read (text : String) : Except Refusal Expr :=
  let start : Reader :=
    { rest := Token.ofChars text.toList, position := 0, mode := .initial, flags := [],
      groups := [], names := [], lookBehindFrom := none, conditions := [] }
  (readWhole.run start).map Prod.fst

end Pattern

end SchemaAudit
