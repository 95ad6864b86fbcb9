import Roster.Text.Ranges

/-!
# Blank characters and trimming

The blank characters are the white space of Unicode together with the four information
separators U+001C to U+001F.  Trimming takes them off both ends of a text.
-/

namespace Roster
namespace Text

/-- Code points of the blank characters, as inclusive ranges in increasing order. -/
def blankRanges : List (Nat × Nat) :=
  [(0x09, 0x0D), (0x1C, 0x20), (0x85, 0x85), (0xA0, 0xA0), (0x1680, 0x1680),
    (0x2000, 0x200A), (0x2028, 0x2029), (0x202F, 0x202F), (0x205F, 0x205F), (0x3000, 0x3000)]

/-- White space of any script, and the information separators. -/
def isBlank (c : Char) : Bool :=
  inRanges blankRanges c

/-- Every white-space character of the core library is blank. -/
theorem isBlank_of_isWhitespace {c : Char} (h : c.isWhitespace = true) : isBlank c = true := by
  simp only [Char.isWhitespace, Bool.or_eq_true, decide_eq_true_eq] at h
  rcases h with ((rfl | rfl) | rfl) | rfl <;> decide

/-- The text without the blanks in front. -/
def trimLeft (cs : List Char) : List Char :=
  cs.dropWhile isBlank

/-- The text without the blanks at its end. -/
def trimRight (cs : List Char) : List Char :=
  (cs.reverse.dropWhile isBlank).reverse

/-- The text without the blanks at both ends. -/
def trim (cs : List Char) : List Char :=
  trimRight (trimLeft cs)

/-- The text without the blanks at both ends. -/
def strip (s : String) : String :=
  String.ofList (trim s.toList)

end Text
end Roster
