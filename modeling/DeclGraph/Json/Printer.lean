/-
  DeclGraph — JSON texts.

  * `Json.render` is the text of a value on one line or with one item per line;
    all characters outside of ASCII are escaped, so the text is ASCII;
  * `Json.write` writes it, unless the value has a flaw: an integer with too many
    digits, or lists and objects too deep in one another.
-/
import DeclGraph.Fault
import DeclGraph.Json.Literal
import DeclGraph.Number.Shortest

namespace DeclGraph.Json

/-! ## Texts and numbers -/

/-- The escape of one unit of 16 bits. -/
def escapeUnit (n : Nat) : List Char := '\\' :: 'u' :: Text.hexDigits 4 n

/-- A character inside a text.  A character outside of the first plane is
    written as two units. -/
def escapeChar (c : Char) : List Char :=
  if c = '"' then ['\\', '"']
  else if c = '\\' then ['\\', '\\']
  else if c = '\n' then ['\\', 'n']
  else if c = '\r' then ['\\', 'r']
  else if c = '\t' then ['\\', 't']
  else if c = '\x08' then ['\\', 'b']
  else if c = '\x0c' then ['\\', 'f']
  else if 0x20 ≤ c.toNat ∧ c.toNat < 0x7f then [c]
  else if c.toNat < 0x10000 then escapeUnit c.toNat
  else
    let n := c.toNat - 0x10000
    escapeUnit (0xd800 + n / 0x400) ++ escapeUnit (0xdc00 + n % 0x400)

/-- A text in its quotes. -/
def renderText (s : String) : List Char := '"' :: s.toList.flatMap escapeChar ++ ['"']

/-- An integer. -/
def renderInt (n : Int) : List Char :=
  if n < 0 then '-' :: Nat.toDigits 10 n.natAbs else Nat.toDigits 10 n.natAbs

/-- A floating point number; the special kinds have names. -/
def renderFloat : Binary64 → List Char
  | .nan => "NaN".toList
  | .infinite s => if s then "-Infinity".toList else "Infinity".toList
  | x => x.toText.toList

/-! ## Values -/

/-- How items are laid out. -/
inductive Layout where
  /-- all on one line, with a space after each comma -/
  | oneLine
  /-- one item per line, two spaces further in than what it belongs to -/
  | indented
deriving DecidableEq

/-- What stands before an item at a depth. -/
def Layout.gap : Layout → Nat → List Char
  | oneLine, _ => []
  | indented, depth => '\n' :: List.replicate (2 * depth) ' '

/-- What stands between two items. -/
def Layout.comma : Layout → List Char
  | oneLine => [',', ' ']
  | indented => [',']

mutual

/-- A value at a depth. -/
def renderAt (lay : Layout) (depth : Nat) : Json → List Char
  | null => "null".toList
  | bool b => if b then "true".toList else "false".toList
  | int n => renderInt n
  | float x => renderFloat x
  | str s => renderText s
  | arr [] => ['[', ']']
  | arr (x :: xs) =>
    '[' :: lay.gap (depth + 1) ++ renderAt lay (depth + 1) x ++ renderItems lay (depth + 1) xs ++
      lay.gap depth ++ [']']
  | obj [] => ['\x7b', '\x7d']
  | obj ((k, x) :: ms) =>
    '\x7b' :: lay.gap (depth + 1) ++ renderText k ++ [':', ' '] ++ renderAt lay (depth + 1) x ++
      renderMembers lay (depth + 1) ms ++ lay.gap depth ++ ['\x7d']

/-- The further items of a list, each after a comma. -/
def renderItems (lay : Layout) (depth : Nat) : List Json → List Char
  | [] => []
  | x :: xs => lay.comma ++ lay.gap depth ++ renderAt lay depth x ++ renderItems lay depth xs

/-- The further members of an object, each after a comma. -/
def renderMembers (lay : Layout) (depth : Nat) : List (String × Json) → List Char
  | [] => []
  | (k, x) :: ms =>
    lay.comma ++ lay.gap depth ++ renderText k ++ [':', ' '] ++ renderAt lay depth x ++
      renderMembers lay depth ms

end

/-- The text of a value. -/
def render (lay : Layout) (j : Json) : String := String.ofList (renderAt lay 0 j)

/-! ## Flaws -/

/-- Whether an integer has more digits than may be written. -/
def isLong (n : Int) : Bool := tenTo Text.maxIntDigits ≤ n.natAbs

mutual

/-- What first keeps a value from being written if `depth` lists and objects may
    lie in one another. -/
def flaw? (depth : Nat) : Json → Option Fault
  | int n => if isLong n then some .longInteger else none
  | arr items => match depth with
    | 0 => some .tooDeep
    | depth + 1 => flawOfItems? depth items
  | obj members => match depth with
    | 0 => some .tooDeep
    | depth + 1 => flawOfMembers? depth members
  | _ => none

/-- The first flaw of some values. -/
def flawOfItems? (depth : Nat) : List Json → Option Fault
  | [] => none
  | x :: xs => flaw? depth x <|> flawOfItems? depth xs

/-- The first flaw of the values of some members. -/
def flawOfMembers? (depth : Nat) : List (String × Json) → Option Fault
  | [] => none
  | (_, x) :: ms => flaw? depth x <|> flawOfMembers? depth ms

end

/-- Writes a value. -/
def write (depth : Nat) (lay : Layout) (j : Json) : Except Fault String :=
  match j.flaw? depth with
  | some fault => .error fault
  | none => .ok (j.render lay)

end DeclGraph.Json
