/-
  DeclGraph — marked-up text.

  Text for the screen may hold tags: words in brackets that begin with a small
  letter and set the style, and closing tags that end it.  A backslash before a
  tag makes it plain text.  Here styles are not shown, so the tags vanish.

  * `Display.cutTag?` finds the first tag of a text;
  * `Display.plain?` is a text without its tags; a closing tag has to close
    something.
-/
import DeclGraph.Display.Shortcode

namespace DeclGraph.Display

/-! ## Tags -/

/-- The characters up to the bracket that closes a tag, and what comes after it. -/
def untilBracket? : List Char → Option (List Char × List Char)
  | [] => none
  | c :: cs =>
    if c = ']' then some ([], cs)
    else if c = '[' then none
    else (untilBracket? cs).map fun (tag, rest) => (c :: tag, rest)

/-- Whether a tag can begin with a character. -/
def opensTag (c : Char) : Bool := c.isLower || c == '#' || c == '/' || c == '@'

/-- The tag at the front of a text, after its opening bracket. -/
def tag? : List Char → Option (List Char × List Char)
  | c :: cs => if opensTag c then (untilBracket? cs).map fun (tag, rest) => (c :: tag, rest) else none
  | [] => none

/-- Cuts a text at its first tag: what comes before, the tag, what comes after. -/
def cutTag? : List Char → Option (List Char × List Char × List Char)
  | [] => none
  | c :: cs =>
    match if c = '[' then tag? cs else none with
    | some (tag, rest) => some ([], tag, rest)
    | none => (cutTag? cs).map fun (before, found) => (c :: before, found)

/-- What comes after the bracket is shorter. -/
theorem untilBracket?_length {cs tag rest : List Char} (h : untilBracket? cs = some (tag, rest)) :
    rest.length < cs.length := by
  induction cs generalizing tag with
  | nil => simp [untilBracket?] at h
  | cons c cs ih =>
    unfold untilBracket? at h
    split at h
    · simp_all
    · split at h
      · simp at h
      · obtain ⟨⟨tag', rest'⟩, h', e⟩ := Option.map_eq_some_iff.1 h
        obtain ⟨-, rfl⟩ := Prod.mk.inj e
        exact Nat.lt_succ_of_lt (ih h')

/-- What comes after a tag is shorter. -/
theorem tag?_length {cs tag rest : List Char} (h : tag? cs = some (tag, rest)) :
    rest.length < cs.length := by
  cases cs with
  | nil => simp [tag?] at h
  | cons c cs =>
    simp only [tag?] at h
    split at h
    · obtain ⟨⟨tag', rest'⟩, h', e⟩ := Option.map_eq_some_iff.1 h
      obtain ⟨-, rfl⟩ := Prod.mk.inj e
      exact Nat.lt_succ_of_lt (untilBracket?_length h')
    · simp at h

/-- What comes after the first tag is shorter. -/
theorem cutTag?_length {cs before tag rest : List Char}
    (h : cutTag? cs = some (before, tag, rest)) : rest.length < cs.length := by
  induction cs generalizing before with
  | nil => simp [cutTag?] at h
  | cons c cs ih =>
    unfold cutTag? at h
    split at h
    · rename_i t r hm
      split at hm
      · simp only [Option.some.injEq, Prod.mk.injEq] at h
        obtain ⟨-, -, rfl⟩ := h
        exact Nat.lt_succ_of_lt (tag?_length hm)
      · simp at hm
    · obtain ⟨⟨before', found⟩, h', e⟩ := Option.map_eq_some_iff.1 h
      obtain ⟨-, rfl⟩ := Prod.mk.inj e
      exact Nat.lt_succ_of_lt (ih h')

/-! ## Plain text -/

/-- Brackets without the backslash before them. -/
def dropEscapes : List Char → List Char
  | [] => []
  | '\\' :: '[' :: cs => '[' :: dropEscapes cs
  | c :: cs => c :: dropEscapes cs

/-- The characters that are never shown. -/
def isHidden (c : Char) : Bool := [7, 8, 11, 12, 13].contains c.toNat

/-- A piece of text as it is shown. -/
def shown (cs : List Char) : List Char :=
  (drawShortcodes (dropEscapes cs)).filter fun c => !isHidden c

/-- The name of a tag, which may go on with an equals sign and a value. -/
def tagName (tag : List Char) : String :=
  Text.toLower (String.ofList (Text.trimWhile Text.isBlank (tag.takeWhile (· ≠ '='))))

/-- The open tags after a tag, innermost first; `none` if it closes nothing. -/
def nextOpen? (tag : List Char) (opened : List String) : Option (List String) :=
  match tag with
  | '/' :: closed =>
    match tagName closed, opened with
    | "", [] => none
    | "", _ :: rest => some rest
    | name, _ => if opened.contains name then some (opened.erase name) else none
  | _ => some (tagName tag :: opened)

/-- A text without its tags, where the tags `opened` are open before it. -/
def plainFrom? (opened : List String) (cs : List Char) : Option (List Char) :=
  match _h : cutTag? cs with
  | none => some (shown cs)
  | some (before, tag, rest) =>
    let text := Text.dropEndWhile (· = '\\') before
    let slashes := before.length - text.length
    let front := shown text ++ List.replicate (slashes / 2) '\\'
    if slashes % 2 = 1 then
      (plainFrom? opened rest).map (front ++ shown ('[' :: tag ++ [']']) ++ ·)
    else do
      let opened ← nextOpen? tag opened
      return front ++ (← plainFrom? opened rest)
termination_by cs.length
decreasing_by all_goals exact cutTag?_length _h

/-- A text as it is shown. -/
def plain? (s : String) : Option String := (plainFrom? [] s.toList).map String.ofList

end DeclGraph.Display
