import SchemaAudit.Pattern.Source
import SchemaAudit.Text.Identifier

/-! # Flags in patterns

A group of flags at the start of a pattern sets the mode of the whole; flags before a colon
turn parts of the mode on or off for one group.
-/

namespace SchemaAudit

namespace Pattern

def flagLetters : List Char := ['i', 'L', 'm', 's', 'x', 'a', 't', 'u']

/-- The flags that choose between classes of characters; at most one of them can hold. -/
def typeFlags : List Char := ['a', 'L', 'u']

namespace Mode

def turnOn (m : Mode) : Char → Mode
  | 'i' => { m with ignoreCase := true }
  | 'm' => { m with multiline := true }
  | 's' => { m with dotAll := true }
  | 'x' => { m with verbose := true }
  | 'a' => { m with ascii := true }
  | 'u' => { m with ascii := false }
  | 't' => { m with template := true }
  | _ => m

def turnOff (m : Mode) : Char → Mode
  | 'i' => { m with ignoreCase := false }
  | 'm' => { m with multiline := false }
  | 's' => { m with dotAll := false }
  | 'x' => { m with verbose := false }
  | _ => m

end Mode

/-- A flag that has been read, or the character that ends the flags. -/
inductive FlagToken where
  | flag (c : Char)
  | stop (c : Char)

/-- The next flag. Flags end at one of the characters of `stops`; where there is neither a flag
    nor such a character, the cause for refusing is `missing`, unless a letter stands there. -/
def takeFlag (stops : List Char) (missing : Cause) : Reading FlagToken := do
  match ← Reading.take with
  | none => Reading.refuse missing 0
  | some (.plain c) =>
    if stops.contains c then return .stop c
    else if flagLetters.contains c then return .flag c
    else Reading.refuse (if Text.isLetter c then .unknownFlag else missing) 1
  | some t => Reading.refuse missing t.size

/-- Flags to turn on, from the flag `c` on; the answer ends with the character behind them. -/
def takeFlagsOn : Nat → List Char → Char → Reading (List Char × Char)
  | 0, on, c => return (on, c)
  | fuel + 1, on, c => do
    if c = 'L' then Reading.refuse .localeFlag 0
    else
      let on := on ++ [c]
      if typeFlags.contains c && on.any (fun d => typeFlags.contains d && d != c) then
        Reading.refuse .incompatibleFlags 0
      else
        match ← takeFlag [')', '-', ':'] .missingFlagsEnd with
        | .stop d => return (on, d)
        | .flag d => takeFlagsOn fuel on d

/-- Flags to turn off, from the flag `c` up to the colon. -/
def takeFlagsOff : Nat → List Char → Char → Reading (List Char)
  | 0, off, _ => return off
  | fuel + 1, off, c => do
    if typeFlags.contains c then Reading.refuse .typeFlagOff 0
    else
      match ← takeFlag [':'] .missingColon with
      | .stop _ => return off ++ [c]
      | .flag d => takeFlagsOff fuel (off ++ [c]) d

/-- What a group of flags asks for. -/
inductive FlagGroup where
  | whole (on : List Char)
  | part (on off : List Char)

/-- Read flags, the first character of which has been read. -/
def takeFlagGroup (c : Char) : Reading FlagGroup := do
  let fuel := (← get).rest.length + 1
  let (on, stop) ← if c = '-' then pure ([], '-') else takeFlagsOn fuel [] c
  if stop = ')' then return .whole on
  else if on.contains 't' then Reading.refuse .globalFlagOn 1
  else
    let off ←
      if stop = '-' then
        match ← takeFlag [] .missingFlag with
        | .stop _ => pure []
        | .flag d => takeFlagsOff fuel [] d
      else pure []
    if off.contains 't' then Reading.refuse .globalFlagOff 1
    else if on.any off.contains then Reading.refuse .flagOnAndOff 1
    else return .part on off

end Pattern

end SchemaAudit
