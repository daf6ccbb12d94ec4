import SchemaAudit.Document.Resolve

/-! # Reading pointers back

What is written into a pointer can be read out of it: a token is escaped so that it holds no
slash and so that every tilde in it tells which character it stands for, and a position is
written in digits that denote it.
-/

namespace SchemaAudit

namespace Text

theorem splitAt_of_not_mem {mark : Char} {part : List Char} (free : mark ∉ part) :
    splitAt mark part = [part] := by
  induction part with
  | nil => rfl
  | cons c rest ih =>
      obtain ⟨head, tail⟩ := List.ne_and_not_mem_of_not_mem_cons free
      rw [splitAt, if_neg (Ne.symm head), ih tail]

/-- What stands before a mark, and holds none itself, is the first part. -/
theorem splitAt_append {mark : Char} {part : List Char} (free : mark ∉ part)
    (rest : List Char) : splitAt mark (part ++ mark :: rest) = part :: splitAt mark rest := by
  induction part with
  | nil => simp [splitAt]
  | cons c part ih =>
      obtain ⟨head, tail⟩ := List.ne_and_not_mem_of_not_mem_cons free
      rw [List.cons_append, splitAt, if_neg (Ne.symm head), ih tail]

theorem decimal?_toString (n : Nat) : decimal? (toString n).toList = some n := by
  have digits : ∀ c ∈ Nat.toDigits 10 n, c.isDigit = true :=
    fun c member => Nat.isDigit_of_mem_toDigits (by decide) (by decide) member
  have value : ∀ (cs : List Char) (start : Nat), (∀ c ∈ cs, c.isDigit = true) →
      cs.foldl (fun m c => 10 * m + (hexValue? c).getD 0) start = Nat.ofDigitChars 10 cs start := by
    intro cs
    induction cs with
    | nil => intro start _; rfl
    | cons c rest ih =>
        intro start all
        have digit := all c List.mem_cons_self
        rw [List.foldl_cons, Nat.ofDigitChars_cons,
          ih _ fun d member => all d (List.mem_cons_of_mem _ member)]
        simp [hexValue?, digit]
  have written : (toString n).toList = Nat.toDigits 10 n := by
    rw [Nat.toString_eq_repr, Nat.toList_repr]
  have present : (Nat.toDigits 10 n).isEmpty = false := by
    rw [List.isEmpty_eq_false_iff]
    exact Nat.toDigits_ne_nil
  have allDigits : (Nat.toDigits 10 n).all Char.isDigit = true := List.all_eq_true.mpr digits
  rw [written, decimal?, present, allDigits, radixValue, value _ _ digits,
    Nat.ofDigitChars_ten_toDigits]
  rfl

end Text

namespace Pointer

/-- One character of a token as it is written. -/
def escapeChar (c : Char) : List Char :=
  if c = '~' then ['~', '0'] else if c = '/' then ['~', '1'] else [c]

/-- Of the two replacements the second finds nothing in what the first put in. -/
theorem toList_escape (token : String) :
    (escape token).toList = token.toList.flatMap escapeChar := by
  rw [escape, String.toList_ofList, Text.replace_char, Text.replace_char, List.flatMap_assoc]
  congr 1
  funext c
  by_cases tilde : c = '~'
  · simp [escapeChar, tilde]
  · by_cases slash : c = '/' <;> simp [escapeChar, tilde, slash]

theorem slash_not_mem_escape (token : String) : '/' ∉ (escape token).toList := by
  rw [toList_escape, List.mem_flatMap]
  rintro ⟨c, _, member⟩
  unfold escapeChar at member
  split at member
  · simp at member
  · split at member
    · simp at member
    · next other =>
        rw [List.mem_singleton] at member
        exact other member.symm

/-- Reading the slashes leaves the tildes as they were written. -/
theorem replace_slash_escape (cs : List Char) :
    Text.replace ['~', '1'] ['/'] (cs.flatMap escapeChar) =
      cs.flatMap fun c => if c = '~' then ['~', '0'] else [c] := by
  induction cs with
  | nil => rfl
  | cons c rest ih =>
      rw [List.flatMap_cons, List.flatMap_cons]
      by_cases tilde : c = '~'
      · have notSlash : ¬ ['~', '1'] <+: '~' :: '0' :: rest.flatMap escapeChar := by
          simp [List.cons_prefix_cons]
        subst tilde
        simp only [escapeChar, if_true, List.cons_append, List.nil_append]
        rw [Text.replace_cons_other notSlash, Text.replace_pair_cons (by decide), ih]
      · rw [if_neg tilde, escapeChar, if_neg tilde]
        by_cases slash : c = '/'
        · subst slash
          simp only [if_true, List.cons_append, List.nil_append]
          rw [Text.replace_pair, ih, List.singleton_append]
        · rw [if_neg slash, List.singleton_append, List.singleton_append,
            Text.replace_pair_cons tilde, ih]

theorem replace_tilde_written (cs : List Char) :
    Text.replace ['~', '0'] ['~'] (cs.flatMap fun c => if c = '~' then ['~', '0'] else [c]) =
      cs := by
  induction cs with
  | nil => rfl
  | cons c rest ih =>
      rw [List.flatMap_cons]
      by_cases tilde : c = '~'
      · subst tilde
        simp only [if_true, List.cons_append, List.nil_append]
        rw [Text.replace_pair, ih, List.singleton_append]
      · rw [if_neg tilde, List.singleton_append, Text.replace_pair_cons tilde, ih]

theorem unescape_escape (token : String) : unescape (escape token).toList = token := by
  rw [unescape, toList_escape, replace_slash_escape, replace_tilde_written, String.ofList_toList]

theorem toList_extend (base : Pointer) (tokens : List String) :
    (extend base tokens).toList =
      base.toList ++ tokens.flatMap fun t => '/' :: (escape t).toList := by
  induction tokens generalizing base with
  | nil => simp
  | cons t rest ih => simp [ih, String.toList_append]

/-- The written tokens between the slashes are the parts of the text. -/
theorem splitAt_written (token : String) (tokens : List String) :
    Text.splitAt '/' ((escape token).toList ++ tokens.flatMap fun t => '/' :: (escape t).toList) =
      (token :: tokens).map fun t => (escape t).toList := by
  induction tokens generalizing token with
  | nil => simpa using Text.splitAt_of_not_mem (slash_not_mem_escape token)
  | cons t rest ih =>
      rw [List.flatMap_cons, List.cons_append,
        Text.splitAt_append (slash_not_mem_escape token), ih]
      rfl

/-- The tokens that a pointer was made of are read back from it. -/
theorem tokens?_extend_empty (tokens : List String) :
    tokens? (extend "" tokens) = some tokens := by
  have text : (extend "" tokens).toList = tokens.flatMap fun t => '/' :: (escape t).toList := by
    rw [toList_extend]
    rfl
  rw [tokens?, text]
  cases tokens with
  | nil => rfl
  | cons t rest =>
      rw [List.flatMap_cons, List.cons_append]
      simp only [splitAt_written, List.map_map, Option.some.injEq]
      rw [show (unescape ∘ fun t => (escape t).toList) = id from funext unescape_escape,
        List.map_id]

end Pointer

/-- A pointer that was made of tokens leads where the tokens lead. -/
theorem Document.resolve?_extend (d : Document) (tokens : List String) :
    d.resolve? (Pointer.extend "" tokens) = d.root.descendant? d.store tokens := by
  rw [resolve?, Pointer.tokens?_extend_empty, Option.bind_some]

end SchemaAudit
