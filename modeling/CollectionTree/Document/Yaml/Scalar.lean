import CollectionTree.Document.Yaml.Cursor
import CollectionTree.Number.Reading

/-!
# Scalars of a YAML text

A scalar is a text in one of four ways of writing. A plain or quoted one may go over several lines:
then each line break between words counts as one blank, and each further one as itself. In a block,
either every line break counts as itself or single ones between lines count as blanks.
-/

namespace CollectionTree.Yaml

/-- How a scalar is written. -/
inductive Style where
  /-- Without quotes. -/
  | plain
  /-- Between single or double quotes. -/
  | quoted
  /-- In a block that keeps its line breaks. -/
  | literal
  /-- In a block whose single line breaks count as blanks. -/
  | folded
  deriving DecidableEq, Repr

/-- What lies between two words of a scalar: the blanks before the first line break, and the line
breaks if there were some. A backslash may have taken the first one back. -/
structure Gap where
  blanks : List Char := []
  breaks : Option (List Char) := none
  escaped : Bool := false

/-- What a gap counts as. -/
def Gap.text (gap : Gap) : List Char :=
  match gap.breaks with
  | none => gap.blanks
  | some ['\n'] => if gap.escaped then ['\n'] else [' ']
  | some ('\n' :: more) => if gap.escaped then '\n' :: more else more
  | some breaks => breaks

/-- The gap from here on. In a later line no tab may stand before column `margin`. -/
def readGap? (margin : Nat) : (fuel : Nat) → Gap → Cursor → Option (Gap × Cursor)
  | 0, _, _ => none
  | fuel + 1, gap, c =>
    match c.rest with
    | [] => some (gap, c)
    | next :: _ =>
      if isBlank next then
        if gap.breaks.isNone then
          readGap? margin fuel { gap with blanks := gap.blanks ++ [next] } c.skip
        else if next == '\t' && c.column < margin then none
        else readGap? margin fuel gap c.skip
      else if isBreak next then
        readGap? margin fuel { gap with breaks := some (gap.breaks.getD [] ++ [next]) } c.skip
      else some (gap, c)

/-- Whether a character separates the parts of a collection between brackets. -/
def isFlowMark (c : Char) : Bool := [',', '[', ']', '{', '}'].contains c

/-- Whether a character ends a plain word, where a space or nothing comes next if `beforeSpace`. -/
def endsWord (inFlow beforeSpace : Bool) (c : Char) : Bool :=
  isSpace c || c == ':' && beforeSpace || inFlow && isFlowMark c

/-- A word of a plain scalar. Between brackets no colon in it may stand before a bracket, a comma or
a question mark. -/
def readWord? (inFlow : Bool) : (fuel : Nat) → Cursor → Option (List Char × Cursor)
  | 0, _ => none
  | fuel + 1, c =>
    match c.rest with
    | [] => some ([], c)
    | next :: rest =>
      if inFlow && next == ':' && rest.head?.any fun d ↦ isFlowMark d || d == '?' then none
      else if endsWord inFlow (c.spaceAt 1) next then some ([], c)
      else (readWord? inFlow fuel c.skip).map fun (word, c) ↦ (next :: word, c)

/-- A plain scalar from one of its words on, after a gap: its text, whether the gap at its end goes
over a line, and the place after that gap. -/
def readPlain? (inFlow : Bool) (margin : Nat) :
    (fuel : Nat) → Gap → Cursor → Option (List Char × Bool × Cursor)
  | 0, _, _ => none
  | fuel + 1, gap, c => do
    let stop := ([], gap.breaks.isSome, c)
    if c.atSeparator || c.startsWith "#" then return stop
    let (word, c) ← readWord? inFlow (c.rest.length + 1) c
    if word.isEmpty then return stop
    let (next, c) ← readGap? margin (c.rest.length + 1) {} c
    if next.blanks.isEmpty && next.breaks.isNone then return (gap.text ++ word, false, c)
    if !inFlow && c.column < margin then return (gap.text ++ word, next.breaks.isSome, c)
    let (more, later, c) ← readPlain? inFlow margin fuel next c
    return (gap.text ++ word ++ more, later, c)

/-- The character with a code, unless there is none. -/
def charOfCode? (code : Nat) : Option Char :=
  if h : code.isValidChar then some (Char.ofNatAux code h) else none

/-- The character that so many hexadecimal digits name, and how many characters that takes. -/
def readCode? (digits : Nat) (cs : List Char) : Option (Char × Nat) := do
  if cs.length < digits then failure
  let code ← readDigits? 16 (cs.take digits)
  return (← charOfCode? code, digits + 1)

/-- The character that is written after a backslash, and how many characters that takes. -/
def readEscape? : List Char → Option (Char × Nat)
  | '0' :: _ => some ('\x00', 1)
  | 'a' :: _ => some ('\x07', 1)
  | 'b' :: _ => some ('\x08', 1)
  | 't' :: _ => some ('\t', 1)
  | '\t' :: _ => some ('\t', 1)
  | 'n' :: _ => some ('\n', 1)
  | 'v' :: _ => some ('\x0b', 1)
  | 'f' :: _ => some ('\x0c', 1)
  | 'r' :: _ => some ('\r', 1)
  | 'e' :: _ => some ('\x1b', 1)
  | ' ' :: _ => some (' ', 1)
  | '"' :: _ => some ('"', 1)
  | '/' :: _ => some ('/', 1)
  | '\\' :: _ => some ('\\', 1)
  | 'N' :: _ => some ('\u0085', 1)
  | '_' :: _ => some ('\u00a0', 1)
  | 'L' :: _ => some ('\u2028', 1)
  | 'P' :: _ => some ('\u2029', 1)
  | 'x' :: rest => readCode? 2 rest
  | 'u' :: rest => readCode? 4 rest
  | 'U' :: rest => readCode? 8 rest
  | _ => none

/-- A quoted scalar after its opening quote: its text, and the place after its closing quote. -/
def readQuoted? (quote : Char) : (fuel : Nat) → Cursor → Option (List Char × Cursor)
  | 0, _ => none
  | fuel + 1, c =>
    let after := fun (text : List Char) (c : Cursor) ↦
      (readQuoted? quote fuel c).map fun (more, c) ↦ (text ++ more, c)
    if c.atSeparator then none
    else
      match c.rest with
      | [] => none
      | next :: rest =>
        if isSpace next then do
          let (gap, c) ← readGap? 0 (c.rest.length + 1) {} c
          after gap.text c
        else if next == quote then
          if quote == '\'' && rest.head? == some '\'' then after ['\''] (c.skipMany 2)
          else some ([], c.skip)
        else if quote == '"' && next == '\\' then
          if rest.head?.any isBreak then do
            let start : Gap := { breaks := some [], escaped := true }
            let (gap, c) ← readGap? 0 (c.rest.length + 1) start (c.skipMany 2)
            after gap.text c
          else do
            let (escaped, count) ← readEscape? rest
            after [escaped] (c.skipMany (count + 1))
        else after [next] c.skip

/-- What becomes of the line breaks at the end of a block. -/
inductive Chomp where
  /-- None is left. -/
  | strip
  /-- One is left. -/
  | clip
  /-- All are left. -/
  | keep
  deriving DecidableEq, Repr

/-- What becomes of the line breaks at the end of a block, by the sign in its first line. -/
def Chomp.ofSign? : Char → Option Chomp
  | '-' => some .strip
  | '+' => some .keep
  | _ => none

/-- How far a block is indented further, by the digit in its first line. -/
def indentOfDigit? (c : Char) : Option Nat :=
  if '1' ≤ c ∧ c ≤ '9' then some (c.toNat - '0'.toNat) else none

/-- A sign and a digit, each of which may be missing, in either order. -/
def readBlockSigns (c : Cursor) : Chomp × Nat × Cursor :=
  match c.rest.head? >>= Chomp.ofSign? with
  | some chomp =>
    match c.skip.rest.head? >>= indentOfDigit? with
    | some indent => (chomp, indent, c.skip.skip)
    | none => (chomp, 0, c.skip)
  | none =>
    match c.rest.head? >>= indentOfDigit? with
    | some indent =>
      match c.skip.rest.head? >>= Chomp.ofSign? with
      | some chomp => (chomp, indent, c.skip.skip)
      | none => (.clip, indent, c.skip)
    | none => (.clip, 0, c)

/-- The place at the end of a line on which nothing but a comment is left. -/
def skipLineEnd? (c : Cursor) : Option Cursor :=
  let c := (c.span isBlank).2
  let c := if c.startsWith "#" then (c.span fun d ↦ !isBreak d).2 else c
  if c.rest.head?.all isBreak then some c.skip else none

/-- The line breaks of empty lines, the furthest column seen in them, and the place in the line
after them at column `indent`, or at its first character that is no space. An `indent` of zero is
not known yet, and any number of spaces may come. -/
def readEmptyLines? (indent : Nat) :
    (fuel : Nat) → (furthest : Nat) → Cursor → Option (List Char × Nat × Cursor)
  | 0, _, _ => none
  | fuel + 1, furthest, c =>
    let spaces := (c.rest.takeWhile (· == ' ')).length
    let c := c.skipMany (if indent = 0 then spaces else min spaces (indent - c.column))
    let furthest := max furthest c.column
    if (indent = 0 ∨ c.column < indent) ∧ c.startsWith "\t" then none
    else
      match c.rest with
      | next :: _ =>
        if isBreak next then
          (readEmptyLines? indent fuel furthest c.skip).map fun (breaks, rest) ↦
            (next :: breaks, rest)
        else some ([], furthest, c)
      | [] => some ([], furthest, c)

/-- The lines of a block: their text, the line break after the last of them, the empty lines after
that, and the place after those. Before the first of these lines came `last` and the empty lines
`breaks`; `joined` says whether a single line break there counts as a blank. -/
def readBlockLines? (folds : Bool) (indent : Nat) :
    (fuel : Nat) → (last breaks : List Char) → (joined : Bool) → Cursor →
      Option (List Char × List Char × List Char × Cursor)
  | 0, _, _, _, _ => none
  | fuel + 1, last, breaks, joined, c =>
    match c.rest with
    | [] => some ([], last, breaks, c)
    | next :: _ =>
      if c.column = indent then do
        let gap :=
          if folds && joined && !isBlank next && last == ['\n'] then
            if breaks.isEmpty then [' '] else breaks
          else last ++ breaks
        let (line, c) := c.span fun d ↦ !isBreak d
        let (breaks, _, after) ← readEmptyLines? indent (c.rest.length + 1) 0 c.skip
        let (text, rest) ←
          readBlockLines? folds indent fuel (c.rest.take 1) breaks (!isBlank next) after
        return (gap ++ line ++ text, rest)
      else some ([], last, breaks, c)

/-- A block scalar after its first character: its text and the place after it. -/
def readBlock? (style : Style) (margin : Nat) (c : Cursor) : Option (List Char × Cursor) := do
  let (chomp, further, c) := readBlockSigns c
  let c ← skipLineEnd? c
  let given := if further = 0 then 0 else margin - 1 + further
  let fuel := c.rest.length + 1
  let (breaks, furthest, c) ← readEmptyLines? given fuel 0 c
  let indent := if given = 0 then max furthest (max margin 1) else given
  let (text, last, breaks, c) ← readBlockLines? (style == .folded) indent fuel [] breaks false c
  let ending := match chomp with
    | .strip => []
    | .clip => last
    | .keep => last ++ breaks
  return (text ++ ending, c)

end CollectionTree.Yaml
