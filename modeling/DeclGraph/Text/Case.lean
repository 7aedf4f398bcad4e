/-
  DeclGraph — lower case.

  * `Text.toLower` puts a text in lower case with the full Unicode mapping: the
    capital I with a dot becomes two characters, and a capital sigma becomes a
    final sigma at the end of a word.
-/
import DeclGraph.Text.Blank
import DeclGraph.Text.Case.Ranges

namespace DeclGraph.Text

/-- The lower case form of a character where it is a single one. -/
def lowerChar (c : Char) : Char :=
  match lowerRuns.find? fun (first, last, step, _) =>
      first ≤ c.toNat && c.toNat ≤ last && (c.toNat - first) % step == 0 with
  | some (_, _, _, offset) => Char.ofNat ((c.toNat : Int) + offset).toNat
  | none => c

/-- Whether the next character that is not skipped has a case. -/
def meetsCased (cs : List Char) : Bool :=
  match cs.dropWhile fun c => inRanges ignorableRanges c.toNat with
  | c :: _ => inRanges casedRanges c.toNat
  | [] => false

/-- The lower case of the characters after `before`, which holds the text so far
    from its end to its start.  A capital sigma is final if a cased character
    comes before it and none after it. -/
def lowerFrom (before : List Char) : List Char → List Char
  | [] => []
  | c :: rest =>
    let lowered :=
      if c = 'Σ' then [if meetsCased before && !meetsCased rest then 'ς' else 'σ']
      else if c = 'İ' then ['i', '\u0307']
      else [lowerChar c]
    lowered ++ lowerFrom (c :: before) rest

/-- A text in lower case. -/
def toLower (s : String) : String := String.ofList (lowerFrom [] s.toList)

end DeclGraph.Text
