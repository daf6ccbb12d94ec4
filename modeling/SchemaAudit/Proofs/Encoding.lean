import SchemaAudit.Document.Display
import SchemaAudit.Proofs.Tokens

/-! # Writing pointers loses nothing

Writing a token takes two replacements, and reading it undoes them in turn. The order matters on
both sides: a `~1` that a token holds itself must not be taken for a slash. Tokens added to a
pointer in parts are the tokens added at once, and rows of texts that differ make pointers that
differ.
-/

namespace SchemaAudit

namespace Pointer

/-- What tokens add to a pointer does not depend on the pointer. -/
theorem extend_eq_append (base : Pointer) (tokens : List String) :
    extend base tokens = base ++ extend "" tokens := by
  apply String.toList_inj.mp
  simp [toList_extend]

variable {s : Store}

theorem join_append (base : Option Pointer) (xs ys : List Value) :
    join s (some (join s base xs)) ys = join s base (xs ++ ys) := by
  simp [join, extend_append]

/-- Texts are tokens as they are. -/
theorem join_texts (base : Option Pointer) (ts : List String) :
    join s base (ts.map .text) = extend (base.getD "") ts := by
  have plain : Value.plain s ∘ Value.text = id := rfl
  rw [join, List.map_map, plain, List.map_id]

theorem join_texts_injective : Function.Injective fun ts : List String =>
    join s (some "") (ts.map .text) := by
  intro ts us same
  have extended : extend "" ts = extend "" us := by simpa [join_texts] using same
  have read : tokens? (extend "" us) = some ts := extended ▸ tokens?_extend_empty ts
  rw [tokens?_extend_empty] at read
  exact (Option.some.inj read).symm

/-- A pointer that tokens make begins with a slash, and between the slashes behind it stand the
    written tokens. -/
theorem splitAt_extend_empty (t : String) (ts : List String) :
    ∃ written, (extend "" (t :: ts)).toList = '/' :: written ∧
      Text.splitAt '/' written = (t :: ts).map fun u => (escape u).toList := by
  refine ⟨_, ?_, splitAt_written t ts⟩
  rw [toList_extend, List.flatMap_cons]
  rfl

/-- Writing a pointer is compositional and loses nothing.

    Tokens that are added in two parts are added one part behind the other, and what they add is
    the pointer that they make from the root. A pointer that texts make from the root begins with a
    slash; what is behind it, split at the slashes, with `~1` replaced by a slash and then `~0` by
    a tilde in each part, is the texts. So no two rows of texts make one pointer. -/
theorem join_lossless (s : Store) :
    (∀ base xs ys, join s (some (join s base xs)) ys = join s base (xs ++ ys) ∧
      join s base (xs ++ ys) = base.getD "" ++ join s (some "") (xs ++ ys)) ∧
    (∀ ts : List String, ts ≠ [] →
      ∃ written, (join s (some "") (ts.map .text)).toList = '/' :: written ∧
        ((Text.splitAt '/' written).map fun part => String.ofList
          (Text.replace ['~', '0'] ['~'] (Text.replace ['~', '1'] ['/'] part))) = ts) ∧
    Function.Injective fun ts : List String => join s (some "") (ts.map .text) := by
  refine ⟨fun base xs ys => ⟨join_append base xs ys, extend_eq_append _ _⟩, ?_,
    join_texts_injective⟩
  intro ts present
  cases ts with
  | nil => exact absurd rfl present
  | cons t ts =>
      obtain ⟨written, text, parts⟩ := splitAt_extend_empty t ts
      refine ⟨written, by rw [join_texts]; exact text, ?_⟩
      rw [parts, List.map_map]
      have read : (unescape ∘ fun u => (escape u).toList) = id := funext unescape_escape
      exact (congrArg (List.map · (t :: ts)) read).trans (List.map_id _)

/-- Texts that hold what a tilde or a slash is written as, and an empty one. -/
theorem join_lossless_lookalikes :
    let ts := ["~1", "", "/", "~01", "a/b~c"]
    join .empty (some "") (ts.map .text) = "/~01//~1/~001/a~1b~0c" ∧ ts ≠ [] ∧
    ∃ written, (join .empty (some "") (ts.map .text)).toList = '/' :: written ∧
      ((Text.splitAt '/' written).map fun part => String.ofList
        (Text.replace ['~', '0'] ['~'] (Text.replace ['~', '1'] ['/'] part))) = ts := by
  intro ts
  have present : ts ≠ [] := List.cons_ne_nil _ _
  exact ⟨by decide +kernel, present, (join_lossless .empty).2.1 ts present⟩

end Pointer

end SchemaAudit
