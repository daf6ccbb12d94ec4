import SchemaAudit.Text.Quoted

/-! # Why a pattern is refused -/

namespace SchemaAudit

namespace Pattern

inductive Cause where
  | danglingEscape
  | badEscape (escape : String)
  | incompleteEscape (escape : String)
  | octalTooLarge (escape : String)
  | missingBrace
  | missingName (what : String)
  | unterminatedName (terminator : Char)
  | undefinedCharacterName (name : String)
  | badGroupName (name : String)
  | unknownGroupName (name : String)
  | redefinedGroupName (name : String) (index before : Nat)
  | openGroup
  | groupOfSameLookBehind
  | invalidGroupReference (index : Nat)
  | badGroupNumber
  | unterminatedSet
  | badRange (low high : String)
  | nothingToRepeat
  | multipleRepeat
  | repeatBounds
  | unexpectedEnd
  | unknownExtension (text : String)
  | unterminatedComment
  | unterminatedGroup
  | tooManyBranches
  | lateFlags
  | localeFlag
  | incompatibleFlags
  | unknownFlag
  | missingFlagsEnd
  | missingFlag
  | missingColon
  | globalFlagOn
  | globalFlagOff
  | typeFlagOff
  | flagOnAndOff
  | unbalanced
  | variableLookBehind
  | farLookBehind
  | templateRepeat (operator : String)
  deriving DecidableEq, Repr

namespace Cause

def message : Cause → String
  | danglingEscape => "bad escape (end of pattern)"
  | badEscape e => "bad escape " ++ e
  | incompleteEscape e => "incomplete escape " ++ e
  | octalTooLarge e => "octal escape value " ++ e ++ " outside of range 0-0o377"
  | missingBrace => "missing \x7b"
  | missingName what => "missing " ++ what
  | unterminatedName t => "missing " ++ t.toString ++ ", unterminated name"
  | undefinedCharacterName n => "undefined character name " ++ Text.quoted n
  | badGroupName n => "bad character in group name " ++ Text.quoted n
  | unknownGroupName n => "unknown group name " ++ Text.quoted n
  | redefinedGroupName n i before =>
    "redefinition of group name " ++ Text.quoted n ++ " as group " ++ toString i ++ "; was group "
      ++ toString before
  | openGroup => "cannot refer to an open group"
  | groupOfSameLookBehind => "cannot refer to group defined in the same lookbehind subpattern"
  | invalidGroupReference i => "invalid group reference " ++ toString i
  | badGroupNumber => "bad group number"
  | unterminatedSet => "unterminated character set"
  | badRange low high => "bad character range " ++ low ++ "-" ++ high
  | nothingToRepeat => "nothing to repeat"
  | multipleRepeat => "multiple repeat"
  | repeatBounds => "min repeat greater than max repeat"
  | unexpectedEnd => "unexpected end of pattern"
  | unknownExtension t => "unknown extension ?" ++ t
  | unterminatedComment => "missing ), unterminated comment"
  | unterminatedGroup => "missing ), unterminated subpattern"
  | tooManyBranches => "conditional backref with more than two branches"
  | lateFlags => "global flags not at the start of the expression"
  | localeFlag => "bad inline flags: cannot use 'L' flag with a str pattern"
  | incompatibleFlags => "bad inline flags: flags 'a', 'u' and 'L' are incompatible"
  | unknownFlag => "unknown flag"
  | missingFlagsEnd => "missing -, : or )"
  | missingFlag => "missing flag"
  | missingColon => "missing :"
  | globalFlagOn => "bad inline flags: cannot turn on global flag"
  | globalFlagOff => "bad inline flags: cannot turn off global flag"
  | typeFlagOff => "bad inline flags: cannot turn off flags 'a', 'u' and 'L'"
  | flagOnAndOff => "bad inline flags: flag turned on and off"
  | unbalanced => "unbalanced parenthesis"
  | variableLookBehind => "look-behind requires fixed-width pattern"
  | farLookBehind => "looks too much behind"
  | templateRepeat operator => "internal: unsupported template operator " ++ operator

end Cause

inductive Refusal where
  /-- The pattern is malformed, where a position says so in its text. -/
  | malformed (cause : Cause) (position : Option Nat)
  /-- A number of repetitions is beyond all counting. -/
  | countTooLarge
  | contradictoryFlags
  deriving DecidableEq, Repr

/-- The line and the column of a position, both counted from one. -/
def lineAndColumn (pattern : List Char) (position : Nat) : Nat × Nat :=
  let before := pattern.take position
  (before.count '\n' + 1, (before.reverse.takeWhile (· != '\n')).length + 1)

/-- A cause with the position it is about; line and column are told when there are lines. -/
def located (pattern : String) (cause : Cause) : Option Nat → String
  | none => cause.message
  | some position =>
    let chars := pattern.toList
    let (line, column) := lineAndColumn chars position
    cause.message ++ " at position " ++ toString position
      ++ (if chars.contains '\n' then
            " (line " ++ toString line ++ ", column " ++ toString column ++ ")"
          else "")

end Pattern

end SchemaAudit
