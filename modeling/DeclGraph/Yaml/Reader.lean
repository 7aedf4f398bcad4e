/-
  DeclGraph — reading YAML texts.

  Configuration files are YAML documents: comments, block and flow collections,
  plain, quoted and block scalars.  Aliases, merged mappings, complex keys,
  directives and tags other than that of texts are not read.

  * `compose` reads the nodes of a text that holds one document, with a bound on
    how many collections lie in one another;
  * `read` is the value of the document; a document without content is `null`.

  A `Cursor` is a place in the text.  A collection in block style ends where the
  column of the next token says so.  Every function that could run for long is
  bounded by a number computed from the length of the text.
-/
import DeclGraph.Json.Parser
import DeclGraph.Yaml.Node

namespace DeclGraph.Yaml

/-! ## Characters -/

/-- Whether a character ends a line. -/
def isBreak (c : Char) : Bool := ['\n', '\r', '\u0085', '\u2028', '\u2029'].contains c

/-- Whether a character separates tokens. -/
def isGap (c : Char) : Bool := c == ' ' || c == '\t' || c == '\x00' || isBreak c

/-- Whether a text ends here or goes on with a separator. -/
def atGap (cs : List Char) : Bool := (cs.head?.map isGap).getD true

/-- Whether a text goes on with a character that ends an item in flow style. -/
def atFlowEnd (cs : List Char) : Bool :=
  (cs.head?.map fun c => ",[]\x7b\x7d".toList.contains c).getD false

/-- Whether a character may stand in a document. -/
def isAllowed (c : Char) : Bool :=
  let n := c.toNat
  n == 0x09 || n == 0x0a || n == 0x0d || (0x20 ≤ n && n ≤ 0x7e) || n == 0x85 ||
    (0xa0 ≤ n && n ≤ 0xd7ff) || (0xe000 ≤ n && n ≤ 0xfffd) || 0x10000 ≤ n

/-! ## Places -/

/-- A place in a text. -/
structure Cursor where
  rest : List Char
  line : Nat := 0
  column : Nat := 0
  /-- Whether only blanks stand before it on its line. -/
  fresh : Bool := true

namespace Cursor

/-- The place after `count` characters of the line. -/
def forward (c : Cursor) (count : Nat) : Cursor :=
  { c with rest := c.rest.drop count, column := c.column + count, fresh := false }

/-- The place where `rest` is left of the line. -/
def jumpTo (c : Cursor) (rest : List Char) : Cursor := c.forward (c.rest.length - rest.length)

/-- The start of the line after a line break; the end of the text is on no further line. -/
def newline (c : Cursor) : Cursor :=
  match c.rest with
  | [] => c
  | _ :: rest => { rest, line := c.line + 1, column := 0, fresh := true }

/-- Whether the text ends here or is divided from another document. -/
def atEnd (c : Cursor) : Bool :=
  c.rest.isEmpty || (c.column == 0 && ["---", "..."].any fun mark =>
    mark.toList.isPrefixOf c.rest && atGap (c.rest.drop 3))

/-- The next token: blanks, comments and line breaks are passed over. -/
def skip (c : Cursor) : Cursor := go c.line c.column c.fresh false c.rest
where
  go (line column : Nat) (fresh comment : Bool) : List Char → Cursor
    | [] => ⟨[], line, column, fresh⟩
    | ch :: rest =>
      if isBreak ch then go (line + 1) 0 true false rest
      else if comment || ch == '#' then go line (column + 1) fresh true rest
      else if ch == ' ' then go line (column + 1) fresh false rest
      else ⟨ch :: rest, line, column, fresh⟩

end Cursor

/-! ## Plain scalars -/

/-- Characters that cannot begin a plain scalar. -/
def indicators : List Char := "-?:,[]\x7b\x7d#&*!|>'\"%@`".toList

/-- Whether a plain scalar begins here. -/
def startsPlain (flow : Bool) : List Char → Bool
  | [] => false
  | c :: rest =>
    (!isGap c && !indicators.contains c) ||
      (!atGap rest && (c == '-' || (!flow && (c == '?' || c == ':'))))

/-- A run of a plain scalar without blanks, and the rest. -/
def plainRun (flow : Bool) : List Char → List Char × List Char
  | [] => ([], [])
  | c :: rest =>
    if isGap c || (c == ':' && (atGap rest || (flow && atFlowEnd rest))) ||
        (flow && (c == '?' || atFlowEnd [c])) then ([], c :: rest)
    else
      let (run, rest) := plainRun flow rest
      (c :: run, rest)

/-- The line breaks here, with blanks between them left out, and the next place
    in a line; `none` before the mark of another document. -/
def breaks? : Nat → Cursor → Option (List Char × Cursor)
  | 0, _ => none
  | fuel + 1, c =>
    if c.column == 0 && c.atEnd && !c.rest.isEmpty then none
    else match c.rest with
      | ch :: _ =>
        if ch == ' ' then breaks? fuel { c.forward 1 with fresh := c.fresh }
        else if isBreak ch then (breaks? fuel c.newline).map fun (bs, c) => (ch :: bs, c)
        else some ([], c)
      | [] => some ([], c)

/-- What line breaks mean: a single one is a space, and of several the first one
    counts for nothing. -/
def foldBreaks (bs : List Char) : List Char :=
  match bs with
  | [] => []
  | first :: more =>
    if first ≠ '\n' then first :: more else if more = [] then [' '] else more

/-- The blanks inside a plain scalar: spaces, or line breaks in their meaning. -/
def plainGap? (c : Cursor) : Option (List Char × Cursor) :=
  let spaces := c.rest.takeWhile (· == ' ')
  let next := c.forward spaces.length
  match next.rest with
  | ch :: _ =>
    if isBreak ch then (breaks? (next.rest.length + 1) next).map fun (bs, c) => (foldBreaks bs, c)
    else some (spaces, next)
  | [] => some (spaces, next)

/-- A plain scalar.  Outside of flow style its further lines stand to the right
    of the column `indent`. -/
def plain (flow : Bool) (indent : Int) : Nat → Cursor → List Char × Cursor
  | 0, c => ([], c)
  | fuel + 1, c =>
    let (run, rest) := plainRun flow c.rest
    let c := c.jumpTo rest
    match plainGap? c with
    | none => (run, c)
    | some (gap, next) =>
      let more := (plainRun flow next.rest).1
      if gap = [] ∨ next.rest.head? = some '#' ∨ more = [] ∨
          (!flow ∧ (next.column : Int) ≤ indent) then (run, c)
      else
        let (tail, c) := plain flow indent fuel next
        (run ++ gap ++ tail, c)

/-! ## Quoted scalars -/

/-- Blanks and line breaks in a quoted scalar; fails before the mark of another
    document. -/
def quotedBreaks? : Nat → Cursor → Option (List Char × Cursor)
  | 0, _ => none
  | fuel + 1, c =>
    if c.column == 0 && c.atEnd && !c.rest.isEmpty then none
    else match c.rest with
      | ch :: _ =>
        if ch == ' ' || ch == '\t' then quotedBreaks? fuel (c.forward 1)
        else if isBreak ch then
          (quotedBreaks? fuel { c.newline with fresh := false }).map fun (bs, c) => (ch :: bs, c)
        else some ([], c)
      | [] => none

/-- The blanks inside a quoted scalar. -/
def quotedGap? (c : Cursor) : Option (List Char × Cursor) :=
  let blanks := c.rest.takeWhile fun ch => ch == ' ' || ch == '\t'
  let next := c.forward blanks.length
  match next.rest with
  | [] => none
  | ch :: _ =>
    if isBreak ch then
      (quotedBreaks? (next.rest.length + 1) next).map fun (bs, c) => (foldBreaks bs, c)
    else some (blanks, next)

/-- A scalar after its single quote; two of them stand for one. -/
def single? : Nat → Cursor → Option (List Char × Cursor)
  | 0, _ => none
  | fuel + 1, c =>
    match c.rest with
    | [] => none
    | '\'' :: '\'' :: _ => (single? fuel (c.forward 2)).map fun (cs, c) => ('\'' :: cs, c)
    | '\'' :: _ => some ([], c.forward 1)
    | ch :: _ =>
      if isGap ch then do
        let (gap, c) ← quotedGap? c
        let (cs, c) ← single? fuel c
        return (gap ++ cs, c)
      else (single? fuel (c.forward 1)).map fun (cs, c) => (ch :: cs, c)

/-- Escapes of one character. -/
def escapes : List (Char × Char) :=
  [('0', '\x00'), ('a', '\x07'), ('b', '\x08'), ('t', '\t'), ('\t', '\t'), ('n', '\n'),
   ('v', '\x0b'), ('f', '\x0c'), ('r', '\r'), ('e', '\x1b'), (' ', ' '), ('"', '"'), ('/', '/'),
   ('\\', '\\'), ('N', '\u0085'), ('_', '\u00a0'), ('L', '\u2028'), ('P', '\u2029')]

/-- The number that hexadecimal digits write. -/
def hexNumber? (cs : List Char) : Option Nat :=
  cs.foldl (fun n c => do return 16 * (← n) + (← Json.hexValue? c)) (some 0)

/-- The character of an escape by number, and the count of characters that it
    takes after the backslash.  Two halves of a character are joined. -/
def numbered? (mark : Char) (rest : List Char) : Option (Char × Nat) := do
  let width ← [('x', 2), ('u', 4), ('U', 8)].lookup mark
  if rest.length < width then none
  let n ← hexNumber? (rest.take width)
  let joined : Option (Char × Nat) := do
    if mark ≠ 'u' ∨ n < 0xd800 ∨ 0xdbff < n then none
    let (m, _) ← Json.lowUnit? (rest.drop width)
    some (Char.ofNat (0x10000 + (n - 0xd800) * 0x400 + (m - 0xdc00)), 11)
  match joined with
  | some found => some found
  | none => some (if n.isValidChar then Char.ofNat n else '\ufffd', width + 1)

/-- A scalar after its double quote. -/
def double? : Nat → Cursor → Option (List Char × Cursor)
  | 0, _ => none
  | fuel + 1, c =>
    match c.rest with
    | [] => none
    | '"' :: _ => some ([], c.forward 1)
    | '\\' :: mark :: rest =>
      if isBreak mark then do
        let (bs, c) ← quotedBreaks? (rest.length + 1) { (c.forward 1).newline with fresh := false }
        let (cs, c) ← double? fuel c
        return (bs ++ cs, c)
      else match escapes.lookup mark with
        | some ch => (double? fuel (c.forward 2)).map fun (cs, c) => (ch :: cs, c)
        | none => do
          let (ch, width) ← numbered? mark rest
          let (cs, c) ← double? fuel (c.forward (width + 1))
          return (ch :: cs, c)
    | ch :: _ =>
      if isGap ch then do
        let (gap, c) ← quotedGap? c
        let (cs, c) ← double? fuel c
        return (gap ++ cs, c)
      else (double? fuel (c.forward 1)).map fun (cs, c) => (ch :: cs, c)

/-! ## Block scalars -/

/-- What happens to the line breaks at the end of a block scalar. -/
inductive Chomping where
  /-- one is kept -/
  | clip
  /-- none is kept -/
  | strip
  /-- all are kept -/
  | keep
deriving DecidableEq

/-- The chomping that a mark asks for. -/
def Chomping.ofMark? : Char → Option Chomping
  | '+' => some .keep
  | '-' => some .strip
  | _ => none

/-- The indentation that a mark asks for. -/
def indentation? (c : Char) : Option Nat :=
  if c.isDigit ∧ c ≠ '0' then some (c.toNat - 48) else none

/-- The header of a block scalar: chomping and perhaps an indentation. -/
def blockHeader? : List Char → Option (Chomping × Option Nat × List Char)
  | a :: rest =>
    match Chomping.ofMark? a, indentation? a with
    | some m, _ => match rest with
      | b :: more => match indentation? b with
        | some d => some (m, some d, more)
        | none => some (m, none, rest)
      | [] => some (m, none, rest)
    | none, some d => match rest with
      | b :: more => match Chomping.ofMark? b with
        | some m => some (m, some d, more)
        | none => some (.clip, some d, rest)
      | [] => some (.clip, some d, rest)
    | none, none => if a = '0' then none else some (.clip, none, a :: rest)
  | [] => some (.clip, none, [])

/-- The empty lines before a line of a block scalar: their breaks, and the widest
    of their indentations. -/
def blankLines : Nat → Option Nat → Cursor → List Char × Nat × Cursor
  | 0, _, c => ([], 0, c)
  | fuel + 1, limit, c =>
    let spaces := (c.rest.takeWhile (· == ' ')).length
    let spaces := match limit with
      | some n => min n spaces
      | none => spaces
    let next := c.forward spaces
    match next.rest with
    | ch :: _ =>
      if isBreak ch then
        let (bs, widest, c) := blankLines fuel limit next.newline
        (ch :: bs, max spaces widest, c)
      else ([], spaces, next)
    | [] => ([], spaces, next)

/-- The lines of a block scalar at the column `indent`, with the breaks `bs`
    before the next one. -/
def blockLines (folded : Bool) (indent : Nat) :
    Nat → (last : List Char) → (bs : List Char) → Cursor → List Char × List Char × List Char × Cursor
  | 0, last, bs, c => ([], last, bs, c)
  | fuel + 1, last, bs, c =>
    if c.column ≠ indent ∨ c.rest = [] then ([], last, bs, c)
    else
      let text := c.rest.takeWhile fun ch => !isBreak ch
      let indented := (text.head?.map fun ch => ch == ' ' || ch == '\t').getD false
      let after := c.forward text.length
      let lineBreak := after.rest.take 1
      let (nextBreaks, _, next) := blankLines (after.rest.length + 1) (some indent) after.newline
      let continues := next.column == indent && !next.rest.isEmpty
      let nextIndented := (next.rest.head?.map fun ch => ch == ' ' || ch == '\t').getD false
      let joint :=
        if !continues then []
        else if folded && lineBreak == ['\n'] && !indented && !nextIndented then
          (if nextBreaks.isEmpty then [' '] else [])
        else lineBreak
      let (more, last, bs', c') := blockLines folded indent fuel lineBreak nextBreaks next
      (bs ++ text ++ joint ++ more, last, bs', c')

/-- The column of the lines of a block scalar, and the place of the first one after the breaks of
    empty lines. -/
def blockStart (indent : Int) (depth : Option Nat) (c : Cursor) : Nat × List Char × Cursor :=
  let least : Nat := (max 1 (indent + 1)).toNat
  match depth with
  | some d =>
    let (bs, _, next) := blankLines (c.rest.length + 1) (some (least + d - 1)) c
    (least + d - 1, bs, next)
  | none =>
    let (bs, widest, next) := blankLines (c.rest.length + 1) none c
    (max least widest, bs, next)

/-- A block scalar after its indicator. -/
def blockScalar? (folded : Bool) (indent : Int) (c : Cursor) : Option (List Char × Cursor) := do
  let (chomping, depth, rest) ← blockHeader? c.rest
  let line := rest.takeWhile fun ch => !isBreak ch
  let trailing := line.dropWhile (· == ' ')
  if !(trailing.isEmpty || trailing.head? == some '#') then none
  let start := ((c.jumpTo rest).forward line.length).newline
  let (column, bs, next) := blockStart indent depth start
  let (body, last, bs, c) := blockLines folded column (start.rest.length + 1) [] bs next
  let ending := match chomping with
    | .clip => last
    | .strip => []
    | .keep => last ++ bs
  return (body ++ ending, { c with fresh := true })

/-! ## Nodes -/

/-- Tags and anchors before a node: whether the node is a text by its tag, and
    the place after them. -/
def properties? : Nat → Bool → Cursor → Option (Bool × Cursor)
  | 0, _, _ => none
  | fuel + 1, tagged, c =>
    match c.rest with
    | '&' :: rest =>
      let name := rest.takeWhile fun ch => ch.isAlphanum || ch == '-' || ch == '_'
      let after := rest.drop name.length
      if name = [] ∨ !(atGap after || "?:,]\x7d%@`".toList.contains (after.headD ' ')) then none
      else properties? fuel tagged (c.jumpTo after).skip
    | '!' :: rest =>
      let name := rest.takeWhile fun ch => !isGap ch
      if name = [] ∨ name = "!str".toList then
        properties? fuel true (c.jumpTo (rest.drop name.length)).skip
      else none
    | _ => some (tagged, c)

/-- The node of a plain scalar, which may be a text by its tag. -/
def plainNode (tagged : Bool) (cs : List Char) : Node :=
  if tagged then .text (String.ofList cs) else .plain (String.ofList cs)

/-- A scalar in quotes or in block style. -/
def textNode : Option (List Char × Cursor) → Except Flaw (Node × Cursor)
  | some (cs, c) => .ok (.text (String.ofList cs), c)
  | none => .error .malformed

/-- The tags and anchors before a node, as far as they are read. -/
def properties (c : Cursor) : Except Flaw (Bool × Cursor) :=
  match properties? (c.rest.length + 1) false c with
  | some found => .ok found
  | none => .error .malformed

mutual

/-- A node in flow style, or a scalar; `depth` more collections may lie in one
    another. -/
def flowNode (flow : Bool) (indent : Int) (tagged : Bool) :
    (fuel depth : Nat) → Cursor → Except Flaw (Node × Cursor)
  | 0, _, _ => .error .malformed
  | fuel + 1, depth, c =>
    match c.rest with
    | '[' :: _ =>
      if tagged then .error .malformed
      else match depth with
        | 0 => .error .tooDeep
        | depth + 1 => do
          let (xs, c) ← flowItems indent fuel depth (c.forward 1).skip
          return (.list xs, c)
    | '\x7b' :: _ =>
      if tagged then .error .malformed
      else match depth with
        | 0 => .error .tooDeep
        | depth + 1 => do
          let (ms, c) ← flowMembers indent fuel depth (c.forward 1).skip
          return (.mapping ms, c)
    | '\'' :: rest => textNode (single? (rest.length + 1) (c.forward 1))
    | '"' :: rest => textNode (double? (rest.length + 1) (c.forward 1))
    | rest =>
      if startsPlain flow rest then
        let (cs, c) := plain flow indent (rest.length + 1) c
        .ok (plainNode tagged cs, c)
      else .error .malformed
termination_by structural fuel => fuel

/-- A node among items in flow style; nothing may be written for it. -/
def flowValue (indent : Int) : (fuel depth : Nat) → Cursor → Except Flaw (Node × Cursor)
  | 0, _, _ => .error .malformed
  | fuel + 1, depth, c => do
    let (tagged, c) ← properties c
    match c.rest with
    | ',' :: _ | ']' :: _ | '\x7d' :: _ | ':' :: _ =>
      if startsPlain true c.rest then flowNode true indent tagged fuel depth c
      else return (plainNode tagged [], c)
    | _ => flowNode true indent tagged fuel depth c
termination_by structural fuel => fuel

/-- The value of a key that began on the line `line`, in flow style; nothing may be
    written for it. -/
def flowMember (indent : Int) (line : Nat) :
    (fuel depth : Nat) → Cursor → Except Flaw (Node × Cursor)
  | 0, _, _ => .error .malformed
  | fuel + 1, depth, c =>
    match c.rest with
    | ':' :: _ =>
      if c.line = line then do
        let (x, after) ← flowValue indent fuel depth (c.forward 1).skip
        return (x, after.skip)
      else .error .malformed
    | _ => .ok (plainNode false [], c)
termination_by structural fuel => fuel

/-- An item of a list in flow style, from its node on: with a colon after it it is a
    mapping of its own. -/
def flowItem (indent : Int) (line : Nat) (x : Node) :
    (fuel depth : Nat) → Cursor → Except Flaw (Node × Cursor)
  | 0, _, _ => .error .malformed
  | fuel + 1, depth, c =>
    match c.rest with
    | ':' :: _ =>
      match depth with
      | 0 => .error .tooDeep
      | depth + 1 => do
        let (y, after) ← flowMember indent line fuel depth c
        return (.mapping [(x, y)], after)
    | _ => .ok (x, c)
termination_by structural fuel => fuel

/-- The items of a list up to its closing bracket. -/
def flowItems (indent : Int) : (fuel depth : Nat) → Cursor → Except Flaw (List Node × Cursor)
  | 0, _, _ => .error .malformed
  | fuel + 1, depth, c =>
    match c.rest with
    | ']' :: _ => .ok ([], c.forward 1)
    | ',' :: _ => .error .malformed
    | _ => do
      let (x, after) ← flowValue indent fuel depth c
      let (x, next) ← flowItem indent c.line x fuel depth after.skip
      match next.rest with
      | ',' :: _ => do
        let (xs, c) ← flowItems indent fuel depth (next.forward 1).skip
        return (x :: xs, c)
      | ']' :: _ => return ([x], next.forward 1)
      | _ => throw .malformed
termination_by structural fuel => fuel

/-- The members of a mapping up to its closing brace. -/
def flowMembers (indent : Int) :
    (fuel depth : Nat) → Cursor → Except Flaw (List (Node × Node) × Cursor)
  | 0, _, _ => .error .malformed
  | fuel + 1, depth, c =>
    match c.rest with
    | '\x7d' :: _ => .ok ([], c.forward 1)
    | ',' :: _ => .error .malformed
    | _ => do
      let (key, after) ← flowValue indent fuel depth c
      let (x, next) ← flowMember indent c.line fuel depth after.skip
      match next.rest with
      | ',' :: _ => do
        let (ms, c) ← flowMembers indent fuel depth (next.forward 1).skip
        return ((key, x) :: ms, c)
      | '\x7d' :: _ => return ([(key, x)], next.forward 1)
      | _ => throw .malformed
termination_by structural fuel => fuel

end

/-- The place after the colon of a key that began on the line `line`. -/
def afterColon? (line : Nat) (c : Cursor) : Option Cursor :=
  let next := c.forward (c.rest.takeWhile (· == ' ')).length
  match next.rest with
  | ':' :: rest => if next.line = line && atGap rest then some (next.forward 1) else none
  | _ => none

/-- Whether an item of a list in block style begins here. -/
def atItem (c : Cursor) : Bool :=
  match c.rest with
  | '-' :: rest => atGap rest
  | _ => false

mutual

/-- A node to the right of the column `indent`.  It may be a collection in block
    style only if `blocks` says so. -/
def node (indent : Int) (blocks : Bool) :
    (fuel depth : Nat) → Cursor → Except Flaw (Node × Cursor)
  | 0, _, _ => .error .malformed
  | fuel + 1, depth, start =>
    if start.atEnd ∨ (start.fresh ∧ (start.column : Int) ≤ indent) then
      .ok (plainNode false [], start)
    else do
      let (tagged, c) ← properties start
      let blocks := if c.line = start.line then blocks && c.column == start.column else true
      content indent blocks tagged fuel depth c
termination_by structural fuel => fuel

/-- What stands after the tags and anchors of a node. -/
def content (indent : Int) (blocks tagged : Bool) :
    (fuel depth : Nat) → Cursor → Except Flaw (Node × Cursor)
  | 0, _, _ => .error .malformed
  | fuel + 1, depth, c =>
    if c.atEnd ∨ (c.fresh ∧ (c.column : Int) ≤ indent) then .ok (plainNode tagged [], c)
    else if atItem c then
      if blocks && !tagged then blockList c.column fuel depth c else .error .malformed
    else match c.rest with
      | '|' :: _ => textNode (blockScalar? false indent (c.forward 1))
      | '>' :: _ => textNode (blockScalar? true indent (c.forward 1))
      | _ => do
        let (x, after) ← flowNode false indent tagged fuel depth c
        match afterColon? c.line after with
        | none => return (x, after)
        | some value =>
          if blocks then
            match depth with
            | 0 => throw .tooDeep
            | depth + 1 => do
              let (ms, c) ← blockMembers c.column x fuel depth value
              return (.mapping ms, c)
          else throw .malformed
termination_by structural fuel => fuel

/-- The value of a key at a column; the items of a list may stand at that column
    too. -/
def blockValue (column : Nat) : (fuel depth : Nat) → Cursor → Except Flaw (Node × Cursor)
  | 0, _, _ => .error .malformed
  | fuel + 1, depth, c =>
    if c.fresh ∧ c.column = column ∧ atItem c ∧ !c.atEnd then blockList column fuel depth c
    else node column c.fresh fuel depth c
termination_by structural fuel => fuel

/-- The members of a mapping at a column, from the value of the first key on. -/
def blockMembers (column : Nat) (key : Node) :
    (fuel depth : Nat) → Cursor → Except Flaw (List (Node × Node) × Cursor)
  | 0, _, _ => .error .malformed
  | fuel + 1, depth, c => do
    let (x, after) ← blockValue column fuel depth c.skip
    let next := after.skip
    if next.atEnd ∨ (next.fresh ∧ next.column < column) then return ([(key, x)], next)
    else if !next.fresh ∨ next.column ≠ column ∨ atItem next then throw .malformed
    else do
      let (k, afterKey) ← flowNode false column false fuel depth next
      match afterColon? next.line afterKey with
      | none => throw .malformed
      | some colon => do
        let (ms, c) ← blockMembers column k fuel depth colon
        return ((key, x) :: ms, c)
termination_by structural fuel => fuel

/-- A list at a column. -/
def blockList (column : Nat) : (fuel depth : Nat) → Cursor → Except Flaw (Node × Cursor)
  | 0, _, _ => .error .malformed
  | fuel + 1, depth, c =>
    match depth with
    | 0 => .error .tooDeep
    | depth + 1 => do
      let (xs, c) ← blockItems column fuel depth c
      return (.list xs, c)
termination_by structural fuel => fuel

/-- The items of a list at a column. -/
def blockItems (column : Nat) : (fuel depth : Nat) → Cursor → Except Flaw (List Node × Cursor)
  | 0, _, _ => .error .malformed
  | fuel + 1, depth, c => do
    let (x, after) ← node column true fuel depth (c.forward 1).skip
    let next := after.skip
    if next.atEnd ∨ (next.fresh ∧ next.column < column) then return ([x], next)
    else if !next.fresh ∨ next.column ≠ column then throw .malformed
    else if atItem next then do
      let (xs, c) ← blockItems column fuel depth next
      return (x :: xs, c)
    else return ([x], next)
termination_by structural fuel => fuel

end

/-! ## Documents -/

/-- Whether nothing but the end of the document is left. -/
def isFinished (c : Cursor) : Bool :=
  c.rest.isEmpty ||
    (c.atEnd && "...".toList.isPrefixOf c.rest && (c.forward 3).skip.rest.isEmpty)

/-- A text with one line feed for every line break of a carriage return, of the two or
    of a next line character, and without the mark of its encoding. -/
def normalized (s : String) : List Char :=
  let rec go : List Char → List Char
    | '\r' :: '\n' :: rest => '\n' :: go rest
    | '\r' :: rest => '\n' :: go rest
    | '\u0085' :: rest => '\n' :: go rest
    | c :: rest => c :: go rest
    | [] => []
  match go s.toList with
  | '\ufeff' :: rest => rest
  | cs => cs

/-- Reads the nodes of a text that holds one document. -/
def compose (depth : Nat) (s : String) : Except Flaw Node :=
  let cs := normalized s
  if !cs.all isAllowed then .error .malformed
  else
    let start := Cursor.skip { rest := cs }
    let marked := start.atEnd && "---".toList.isPrefixOf start.rest
    let start := if marked then (start.forward 3).skip else start
    match node (-1) start.fresh (4 * cs.length + 4) depth start with
    | .ok (n, c) => if isFinished c.skip then .ok n else .error .malformed
    | .error flaw => .error flaw

/-- Reads the value of a text that holds one document. -/
def read (depth : Nat) (s : String) : Except Flaw Json := do (← compose depth s).value

end DeclGraph.Yaml
