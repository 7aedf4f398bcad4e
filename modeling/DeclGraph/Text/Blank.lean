/-
  DeclGraph — blanks and line breaks.

  * `Char.isBlank` is the Unicode notion of white space together with the four
    separators `U+001C` to `U+001F`;
  * `Text.lines` cuts a text at line breaks, of which there are more than the
    line feed.
-/
import DeclGraph.Text.Basic

namespace DeclGraph.Text

/-- Whether a code point lies in one of the ranges, ends included. -/
def inRanges (ranges : List (Nat × Nat)) (n : Nat) : Bool :=
  ranges.any fun r => r.1 ≤ n && n ≤ r.2

/-- The ranges of white space. -/
def blankRanges : List (Nat × Nat) :=
  [(0x09, 0x0d), (0x1c, 0x20), (0x85, 0x85), (0xa0, 0xa0), (0x1680, 0x1680), (0x2000, 0x200a),
   (0x2028, 0x2029), (0x202f, 0x202f), (0x205f, 0x205f), (0x3000, 0x3000)]

/-- White space. -/
def isBlank (c : Char) : Bool := inRanges blankRanges c.toNat

/-- A text without the blanks at its ends. -/
def trim (s : String) : String := String.ofList (trimWhile isBlank s.toList)

/-- Characters that end a line: line feed, vertical tab, form feed, carriage
    return, the separators of files, groups and records, next line, and the
    separators of lines and paragraphs. -/
def isLineBreak (c : Char) : Bool :=
  inRanges [(0x0a, 0x0d), (0x1c, 0x1e), (0x85, 0x85), (0x2028, 0x2029)] c.toNat

/-- The lines of a text without their breaks.  A carriage return and a line
    feed in a row are one break; a break at the end starts no further line. -/
def splitLines : List Char → List (List Char)
  | [] => []
  | [c] => if isLineBreak c then [[]] else [[c]]
  | c :: d :: cs =>
    if c = '\r' ∧ d = '\n' then [] :: splitLines cs
    else if isLineBreak c then [] :: splitLines (d :: cs)
    else match splitLines (d :: cs) with
      | [] => [[c]]
      | line :: rest => (c :: line) :: rest

/-- The lines of a text. -/
def lines (s : String) : List String := (splitLines s.toList).map String.ofList

end DeclGraph.Text
