/-
  DeclGraph — values in messages.

  A message shows a text as it is and every other value in literal notation:
  texts inside it are quoted, and the three constants are capitalised.

  * `Json.literal` is the literal notation of any value;
  * `Json.plain` is the text of a value in a message.
-/
import DeclGraph.Json.Basic
import DeclGraph.Number.Shortest
import DeclGraph.Text.Printable

namespace DeclGraph

namespace Text

/-- The last `width` hexadecimal digits of a number. -/
def hexDigits : (width : Nat) → Nat → List Char
  | 0, _ => []
  | width + 1, n => hexDigits width (n / 16) ++ [Nat.digitChar (n % 16)]

/-- A character inside quotes: the quote and the backslash are escaped, and so
    is every character that cannot be shown. -/
def quotedChar (quote c : Char) : List Char :=
  if c = quote ∨ c = '\\' then ['\\', c]
  else if c = '\n' then ['\\', 'n']
  else if c = '\r' then ['\\', 'r']
  else if c = '\t' then ['\\', 't']
  else if isPrintable c then [c]
  else if c.toNat < 0x100 then '\\' :: 'x' :: hexDigits 2 c.toNat
  else if c.toNat < 0x10000 then '\\' :: 'u' :: hexDigits 4 c.toNat
  else '\\' :: 'U' :: hexDigits 8 c.toNat

/-- A text in quotes: double ones if it holds a single but no double quote. -/
def quoted (s : String) : String :=
  let cs := s.toList
  let quote := if cs.contains '\'' && !cs.contains '"' then '"' else '\''
  String.ofList (quote :: cs.flatMap (quotedChar quote) ++ [quote])

end Text

namespace Json

mutual

/-- The literal notation of a value. -/
def literal : Json → String
  | null => "None"
  | bool b => if b then "True" else "False"
  | int n => toString n
  | float x => x.toText
  | str s => Text.quoted s
  | arr items => "[" ++ ", ".intercalate (literalItems items) ++ "]"
  | obj members => "\x7b" ++ ", ".intercalate (literalMembers members) ++ "\x7d"

/-- The literal notations of some values. -/
def literalItems : List Json → List String
  | [] => []
  | x :: xs => literal x :: literalItems xs

/-- The literal notations of some members. -/
def literalMembers : List (String × Json) → List String
  | [] => []
  | (k, x) :: ms => (Text.quoted k ++ ": " ++ literal x) :: literalMembers ms

end

/-- A value in a message. -/
def plain : Json → String
  | str s => s
  | j => literal j

end Json

end DeclGraph
