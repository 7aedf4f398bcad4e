/-
  DeclGraph — operations on texts.

  A text is a list of code points here; lengths and cuts count code points.

  * `upTo` keeps the front of a list, where a negative limit counts from the end;
  * `Text.occursIn` searches one text in another;
  * `Text.splitOn` cuts a text at every occurrence of a separator;
  * `Text.after?` takes a text off the front of another.
-/

namespace DeclGraph

/-- The first `limit` items of a list.  A negative limit leaves out that many
    items at the end. -/
def upTo {α : Type _} (limit : Int) (xs : List α) : List α :=
  if limit < 0 then xs.take (xs.length - limit.natAbs) else xs.take limit.toNat

/-- What `upTo` keeps is always a front of the list. -/
theorem upTo_prefix {α : Type _} (limit : Int) (xs : List α) : upTo limit xs <+: xs := by
  unfold upTo
  split <;> exact List.take_prefix _ _

namespace Text

/-- The most digits that an integer may be written with. -/
def maxIntDigits : Nat := 4300

/-! ## Searching -/

/-- Whether `needle` stands somewhere in a text. -/
def occursIn (needle : List Char) : List Char → Bool
  | [] => needle.isEmpty
  | c :: cs => needle.isPrefixOf (c :: cs) || occursIn needle cs

/-- Whether the text `needle` occurs in the text `s`. -/
def contains (s needle : String) : Bool := occursIn needle.toList s.toList

/-- Whether a text begins with another. -/
def startsWith (s head : String) : Bool := head.toList.isPrefixOf s.toList

/-- The rest of a text after `head`, if it begins so. -/
def after? : (head s : List Char) → Option (List Char)
  | [], s => some s
  | _ :: _, [] => none
  | h :: hs, c :: cs => if h = c then after? hs cs else none

/-- A text without `head` at its front; unchanged if it does not begin so. -/
def dropPrefix (head s : String) : String :=
  match after? head.toList s.toList with
  | some rest => String.ofList rest
  | none => s

/-! ## Cutting -/

/-- The front of a text, in code points. -/
def upTo (limit : Int) (s : String) : String := String.ofList (DeclGraph.upTo limit s.toList)

/-- Cuts a text at every occurrence of the character `sep`; there is always at
    least one piece. -/
def splitAtChar (sep : Char) : List Char → List (List Char)
  | [] => [[]]
  | c :: cs =>
    if c = sep then [] :: splitAtChar sep cs
    else match splitAtChar sep cs with
      | [] => [[c]]
      | piece :: rest => (c :: piece) :: rest

/-- Cuts a text at every occurrence of the two characters `a` and `b` in a row,
    from left to right. -/
def splitAtPair (a b : Char) : List Char → List (List Char)
  | [] => [[]]
  | [c] => [[c]]
  | c :: d :: cs =>
    if c = a ∧ d = b then [] :: splitAtPair a b cs
    else match splitAtPair a b (d :: cs) with
      | [] => [[c]]
      | piece :: rest => (c :: piece) :: rest

/-- Leaves out the characters at the end that satisfy a test. -/
def dropEndWhile (p : Char → Bool) (cs : List Char) : List Char :=
  (cs.reverse.dropWhile p).reverse

/-- Leaves out the characters at both ends that satisfy a test. -/
def trimWhile (p : Char → Bool) (cs : List Char) : List Char :=
  dropEndWhile p (cs.dropWhile p)

/-- `count` spaces. -/
def spaces (count : Nat) : String := String.ofList (List.replicate count ' ')

/-- A text with its ASCII letters in upper case. -/
def asciiUpper (s : String) : String := String.ofList (s.toList.map Char.toUpper)

/-- A text with its ASCII letters in lower case. -/
def asciiLower (s : String) : String := String.ofList (s.toList.map Char.toLower)

end Text

end DeclGraph
