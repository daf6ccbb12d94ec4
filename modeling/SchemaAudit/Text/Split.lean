/-! # Splitting texts, and replacing in them

A text is split at every occurrence of a character, or cut at the first. Replacing goes from left
to right, and what was put in is not looked at again.
-/

namespace SchemaAudit

namespace Text

/-- The parts of a text between occurrences of a character; there is always one. -/
def splitAt (mark : Char) : List Char → List (List Char)
  | [] => [[]]
  | c :: rest =>
    if c = mark then [] :: splitAt mark rest
    else
      match splitAt mark rest with
      | [] => [[c]]
      | part :: parts => (c :: part) :: parts

/-- The text before the first occurrence of a character, and that behind it if it occurs. -/
def cutAt (mark : Char) (text : List Char) : List Char × Option (List Char) :=
  match text.dropWhile (· != mark) with
  | [] => (text, none)
  | _ :: rest => (text.takeWhile (· != mark), some rest)

/-- What is left of a text with the occurrences of another one replaced, when so many characters
    of an occurrence are still to be passed. -/
def replaceFrom (old new : List Char) : Nat → List Char → List Char
  | _, [] => []
  | passing + 1, _ :: rest => replaceFrom old new passing rest
  | 0, c :: rest =>
    if old <+: c :: rest then new ++ replaceFrom old new (old.length - 1) rest
    else c :: replaceFrom old new 0 rest

/-- A text with every occurrence of another, nonempty one replaced, from left to right and
    without overlap. -/
def replace (old new text : List Char) : List Char := replaceFrom old new 0 text

theorem replace_cons_other {old : List Char} {c : Char} {rest : List Char}
    (other : ¬ old <+: c :: rest) (new : List Char) :
    replace old new (c :: rest) = c :: replace old new rest := by
  simp [replace, replaceFrom, other]

/-- A single character is replaced wherever it stands. -/
theorem replace_char (old : Char) (new text : List Char) :
    replace [old] new text = text.flatMap fun c => if c = old then new else [c] := by
  induction text with
  | nil => rfl
  | cons c rest ih =>
      by_cases same : c = old
      · subst same
        simpa [replace, replaceFrom] using ih
      · have other : ¬ [old] <+: c :: rest := by
          simpa [List.cons_prefix_cons] using Ne.symm same
        simp [replace_cons_other other, ih, same]

theorem replace_pair (first second : Char) (new rest : List Char) :
    replace [first, second] new (first :: second :: rest) =
      new ++ replace [first, second] new rest := by
  simp [replace, replaceFrom]

/-- A pair of characters starts with the first of them only. -/
theorem replace_pair_cons {first second c : Char} (other : c ≠ first) (new rest : List Char) :
    replace [first, second] new (c :: rest) = c :: replace [first, second] new rest := by
  apply replace_cons_other
  intro start
  exact other (List.cons_prefix_cons.mp start).1.symm

end Text

end SchemaAudit
