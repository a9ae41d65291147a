import CollectionTree.Bytes
import CollectionTree.Document.Yaml.Scalar

/-!
# Tokens of a YAML text

A text is split into tokens. Where indentation opens and closes collections, tokens say so that
stand for no characters, and so does a token before what turns out to be a key when a colon follows
it.

Where a key may begin, a slot without tokens is left; a colon later on the same line fills it.

A tag is a string of bytes, because its characters may be written as the codes of their bytes, which
need not make up characters. It ends before the first of these that is zero.
-/

namespace CollectionTree.Yaml

/-- The parts that a text is made of. -/
inductive Token where
  /-- The version that a document is written for. -/
  | version (major minor : Nat)
  /-- What a tag's handle stands for in a document. -/
  | handle (name : List Char) (meaning : Bytes)
  /-- The line before a document. -/
  | documentStart
  /-- The line after a document. -/
  | documentEnd
  /-- An indented sequence begins. -/
  | sequenceStart
  /-- An indented mapping begins. -/
  | mappingStart
  /-- An indented collection ends. -/
  | blockEnd
  /-- A sequence in brackets begins. -/
  | bracketOpen
  /-- A sequence in brackets ends. -/
  | bracketClose
  /-- A mapping in braces begins. -/
  | braceOpen
  /-- A mapping in braces ends. -/
  | braceClose
  /-- The dash before an item. -/
  | dash
  /-- The comma between items. -/
  | comma
  /-- A key comes next. -/
  | key
  /-- A value comes next. -/
  | value
  /-- A name given to the next node. -/
  | anchor (name : List Char)
  /-- The node with a name, once more. -/
  | alias (name : List Char)
  /-- The tag of the next node: its handle, if it has one, and the rest. -/
  | tag (handle : Option (List Char)) (rest : Bytes)
  /-- A scalar. -/
  | scalar (style : Style) (text : List Char)
  deriving DecidableEq, Repr

/-- Where a key may have begun, and the slot that is left for it. In an indented mapping that goes
on it must have begun there. -/
structure PossibleKey where
  required : Bool
  slot : Nat
  place : Cursor

/-- A text split into tokens up to some place. The margins are the columns, each plus one, at which
the open indented collections began; the keys say where one may have begun outside of brackets and
inside of each open pair. Both have the innermost first. -/
structure Scanner where
  cursor : Cursor
  slots : Array (List Token) := #[]
  margins : List Nat := []
  keyAllowed : Bool := true
  keys : List (Option PossibleKey) := [none]

namespace Scanner

/-- Whether the place is between brackets. -/
def inFlow (s : Scanner) : Bool := s.keys.length > 1

/-- The least column that belongs to the innermost indented collection, plus one. -/
def margin (s : Scanner) : Nat := s.margins.headD 0

/-- Add a token. -/
def emit (s : Scanner) (token : Token) : Scanner := { s with slots := s.slots.push [token] }

/-- Add a token that so many characters make. -/
def emitAfter (s : Scanner) (count : Nat) (token : Token) : Scanner :=
  { s with cursor := s.cursor.skipMany count }.emit token

/-- Close the indented collections that began beyond a margin. -/
def closeBeyond (s : Scanner) (margin : Nat) : Scanner :=
  if s.inFlow then s
  else
    let closed := s.margins.takeWhile (margin < ·)
    { s with
      slots := s.slots ++ closed.map fun _ ↦ [Token.blockEnd]
      margins := s.margins.drop closed.length }

/-- Open an indented collection at a column, unless one is open there already, and say whether one
was opened. -/
def openAt (s : Scanner) (column : Nat) : Bool × Scanner :=
  if !s.inFlow && s.margin ≤ column then (true, { s with margins := (column + 1) :: s.margins })
  else (false, s)

/-- No key began where one may have begun. -/
def dropKey? (s : Scanner) : Option Scanner :=
  match s.keys with
  | some possible :: outer =>
    if possible.required then none else some { s with keys := none :: outer }
  | _ => some s

/-- A key may begin here, if one is allowed to. -/
def noteKey? (s : Scanner) : Option Scanner := do
  if !s.keyAllowed then return s
  let s ← s.dropKey?
  let possible : PossibleKey :=
    { required := !s.inFlow && s.margin == s.cursor.column + 1
      slot := s.slots.size
      place := s.cursor }
  return { s with slots := s.slots.push [], keys := some possible :: s.keys.drop 1 }

/-- Skip spaces, comments, and at the front of a line the mark of the byte order. A tab does not
indent, and after a line break a key may begin. -/
def skipSpaces : (fuel : Nat) → Scanner → Scanner
  | 0, s => s
  | fuel + 1, s =>
    match s.cursor.rest with
    | [] => s
    | c :: _ =>
      if c == ' ' || c == '\t' && (s.inFlow || !s.keyAllowed) ||
          isOrderMark c && s.cursor.column == 0 then
        skipSpaces fuel { s with cursor := s.cursor.skip }
      else if c == '#' then
        skipSpaces fuel { s with cursor := (s.cursor.span fun d ↦ !isBreak d).2 }
      else if isBreak c then
        skipSpaces fuel { s with cursor := s.cursor.skip, keyAllowed := s.keyAllowed || !s.inFlow }
      else s

/-- The key that a colon here belongs to. Keys end on the line where they began, within 1024
bytes. -/
def keyOfColon? (s : Scanner) : Option (Option PossibleKey) :=
  match s.keys with
  | some possible :: _ =>
    let here := s.cursor
    if possible.place.line < here.line || possible.place.index + 1024 < here.index then
      if possible.required then none else some none
    else some (some possible)
  | _ => some none

/-- A colon: what began as a possible key is a key, or else the key is empty. -/
def scanColon? (s : Scanner) : Option Scanner := do
  match ← s.keyOfColon? with
  | some possible =>
    let (opened, s) := s.openAt possible.place.column
    let filled := if opened then [.mappingStart, .key] else [.key]
    let s := { s with
      slots := s.slots.setIfInBounds possible.slot filled
      keys := none :: s.keys.drop 1
      keyAllowed := false }
    return s.emitAfter 1 .value
  | none =>
    if s.inFlow then return { s with keyAllowed := false }.emitAfter 1 .value
    if !s.keyAllowed then failure
    let (opened, s) := s.openAt s.cursor.column
    let s := if opened then s.emit .mappingStart else s
    return { s with keyAllowed := true }.emitAfter 1 .value

/-- A dash before an item, or a question mark before a key. -/
def scanIndicator? (s : Scanner) (start token : Token) (allowsKey : Bool) : Option Scanner := do
  if !s.inFlow && !s.keyAllowed then failure
  let (opened, s) := s.openAt s.cursor.column
  let s := if opened then s.emit start else s
  let s ← s.dropKey?
  return { s with keyAllowed := allowsKey }.emitAfter 1 token

/-- An opening bracket. -/
def scanOpen? (s : Scanner) (token : Token) : Option Scanner := do
  let s ← s.noteKey?
  return { s with keys := none :: s.keys, keyAllowed := true }.emitAfter 1 token

/-- A closing bracket. -/
def scanClose? (s : Scanner) (token : Token) : Option Scanner := do
  let s ← s.dropKey?
  let keys := if s.inFlow then s.keys.drop 1 else s.keys
  return { s with keys, keyAllowed := false }.emitAfter 1 token

/-- A comma. -/
def scanComma? (s : Scanner) : Option Scanner := do
  let s ← s.dropKey?
  return { s with keyAllowed := true }.emitAfter 1 .comma

/-- A mark between documents: every indented collection ends. -/
def scanMark? (s : Scanner) (token : Token) : Option Scanner := do
  let s ← (s.closeBeyond 0).dropKey?
  return { s with keyAllowed := false }.emitAfter 3 token

/-- A name after the character that says what it is for. -/
def scanName? (s : Scanner) (token : List Char → Token) : Option Scanner := do
  let s ← s.noteKey?
  let (name, c) := s.cursor.skip.span isWord
  if name.isEmpty then failure
  if !(c.spaceAt 0 || c.rest.head?.any fun d ↦ "?:,]\x7d%@`".toList.contains d) then failure
  return { s with cursor := c, keyAllowed := false }.emit (token name)

/-- Whether a character may be in a tag. The marks of flow collections may be only where the tag is
written out in full. -/
def isTagChar (full : Bool) (c : Char) : Bool :=
  isWord c || ";/?:@&=+$.%!~*'()".toList.contains c || full && ",[]".toList.contains c

/-- The byte that two hexadecimal digits name. -/
def readByte? (a b : Char) : Option UInt8 := (readDigits? 16 [a, b]).map (·.toUInt8)

/-- How many bytes make up a character of which this is the first. -/
def lengthFrom? (first : UInt8) : Option Nat :=
  if first < 0x80 then some 1
  else if first < 0xc0 then none
  else if first < 0xe0 then some 2
  else if first < 0xf0 then some 3
  else if first < 0xf8 then some 4
  else none

/-- How many bytes of a character are still to come after this one, of `pending` before it. -/
def pendingAfter? (pending : Nat) (byte : UInt8) : Option Nat :=
  if pending = 0 then (lengthFrom? byte).map (· - 1)
  else if 0x80 ≤ byte ∧ byte < 0xc0 then some (pending - 1)
  else none

/-- Characters of a tag as bytes, with those put in that are written as percent signs and digits. Of
a character that is written so, `pending` bytes are still to come. -/
def tagBytes? : (pending : Nat) → List Char → Option Bytes
  | 0, [] => some []
  | _, [] => none
  | pending, '%' :: a :: b :: rest => do
    let byte ← readByte? a b
    return byte :: (← tagBytes? (← pendingAfter? pending byte) rest)
  | 0, c :: rest => if c = '%' then none else (tagBytes? 0 rest).map (c.toNat.toUInt8 :: ·)
  | _, _ => none

/-- A part of a tag up to the first byte in it that is zero. -/
def tagPart? (cs : List Char) : Option Bytes := (tagBytes? 0 cs).map (·.takeWhile (· != 0))

/-- The tag that is nothing but an exclamation mark. -/
def bareTag : Bytes := [0x21]

/-- A handle: an exclamation mark, or a name between two; and the place after it. -/
def readHandle? (c : Cursor) : Option (List Char × Cursor) := do
  if !c.startsWith "!" then failure
  let (name, after) := c.skip.span isWord
  if after.startsWith "!" then return ('!' :: name ++ ['!'], after.skip)
  else return ('!' :: name, after)

/-- A tag, and the place after it. -/
def readTag? (c : Cursor) : Option (Token × Cursor) := do
  if c.startsWith "!<" then
    let (tag, c) := (c.skipMany 2).span (isTagChar true)
    if tag.isEmpty || !c.startsWith ">" then failure
    return (.tag none (← tagPart? tag), c.skip)
  let (handle, after) ← readHandle? c
  let (rest, after) := after.span (isTagChar false)
  if handle.length > 1 && handle.getLast? == some '!' then
    if rest.isEmpty then failure
    return (.tag (some handle) (← tagPart? rest), after)
  let part ← tagPart? (handle.drop 1 ++ rest)
  if part.isEmpty then return (.tag none bareTag, after) else return (.tag (some ['!']) part, after)

/-- A tag. -/
def scanTag? (s : Scanner) : Option Scanner := do
  let s ← s.noteKey?
  let (token, c) ← readTag? s.cursor
  if !(c.spaceAt 0 || s.inFlow && c.startsWith ",") then failure
  return { s with cursor := c, keyAllowed := false }.emit token

/-- A number of at most nine digits. -/
def readVersionNumber? (c : Cursor) : Option (Nat × Cursor) := do
  let (digits, c) := c.span isDecimalDigit
  if digits.length > 9 then failure
  return (← readDigits? 10 digits, c)

/-- The rest of a line that states the version. -/
def readVersion? (c : Cursor) : Option (Token × Cursor) := do
  let (major, c) ← readVersionNumber? (c.span isBlank).2
  if !c.startsWith "." then failure
  let (minor, c) ← readVersionNumber? c.skip
  return (.version major minor, c)

/-- The rest of a line that states what a handle stands for. -/
def readHandleRule? (c : Cursor) : Option (Token × Cursor) := do
  let (name, c) ← readHandle? (c.span isBlank).2
  if name.length > 1 && name.getLast? != some '!' then failure
  let (blanks, c) := c.span isBlank
  let (meaning, c) := c.span (isTagChar true)
  if blanks.isEmpty || meaning.isEmpty || !c.spaceAt 0 then failure
  return (.handle name (← tagPart? meaning), c)

/-- A line about the document that follows. -/
def scanDirective? (s : Scanner) : Option Scanner := do
  let s ← (s.closeBeyond 0).dropKey?
  let (name, c) := s.cursor.skip.span isWord
  if !c.spaceAt 0 then failure
  let (token, c) ←
    if name = "YAML".toList then readVersion? c
    else if name = "TAG".toList then readHandleRule? c
    else none
  return { s with cursor := ← skipLineEnd? c, keyAllowed := false }.emit token

/-- A quoted scalar. -/
def scanQuoted? (s : Scanner) (quote : Char) : Option Scanner := do
  let s ← s.noteKey?
  let (text, c) ← readQuoted? quote s.cursor.rest.length s.cursor.skip
  return { s with cursor := c, keyAllowed := false }.emit (.scalar .quoted text)

/-- A plain scalar. -/
def scanPlain? (s : Scanner) : Option Scanner := do
  let s ← s.noteKey?
  let fuel := s.cursor.rest.length + 1
  let (text, later, c) ← readPlain? s.inFlow s.margin fuel {} s.cursor
  return { s with cursor := c, keyAllowed := later }.emit (.scalar .plain text)

/-- A block scalar. -/
def scanBlock? (s : Scanner) (style : Style) : Option Scanner := do
  let s ← s.dropKey?
  let (text, c) ← readBlock? style s.margin s.cursor.skip
  return { s with cursor := c, keyAllowed := true }.emit (.scalar style text)

/-- Whether a plain scalar may begin with a character, where a blank comes next if `beforeBlank` and
a space or nothing if `beforeSpace`. -/
def beginsPlain (inFlow beforeBlank beforeSpace : Bool) (c : Char) : Bool :=
  !(isSpace c || "-?:,[]\x7b\x7d#&*!|>'\"%@`".toList.contains c) || c == '-' && !beforeBlank ||
    !inFlow && (c == '?' || c == ':') && !beforeSpace

/-- The next token, which begins with the character `next`. -/
def scanToken? (s : Scanner) (next : Char) : Option Scanner :=
  let c := s.cursor
  if c.column = 0 ∧ next = '%' then s.scanDirective?
  else if c.atMark "---" then s.scanMark? .documentStart
  else if c.atMark "..." then s.scanMark? .documentEnd
  else if next = '[' then s.scanOpen? .bracketOpen
  else if next = '{' then s.scanOpen? .braceOpen
  else if next = ']' then s.scanClose? .bracketClose
  else if next = '}' then s.scanClose? .braceClose
  else if next = ',' then s.scanComma?
  else if next = '-' ∧ c.spaceAt 1 then s.scanIndicator? .sequenceStart .dash true
  else if next = '?' ∧ (s.inFlow ∨ c.spaceAt 1) then s.scanIndicator? .mappingStart .key !s.inFlow
  else if next = ':' ∧ (s.inFlow ∨ c.spaceAt 1) then s.scanColon?
  else if next = '*' then s.scanName? .alias
  else if next = '&' then s.scanName? .anchor
  else if next = '!' then s.scanTag?
  else if next = '|' ∧ !s.inFlow then s.scanBlock? .literal
  else if next = '>' ∧ !s.inFlow then s.scanBlock? .folded
  else if next = '\'' ∨ next = '"' then s.scanQuoted? next
  else if beginsPlain s.inFlow (c.rest[1]?.any isBlank) (c.spaceAt 1) next then s.scanPlain?
  else none

/-- Scan to the end of the text. -/
def scanAll? : (fuel : Nat) → Scanner → Option (List Token)
  | 0, _ => none
  | fuel + 1, s =>
    let s := s.skipSpaces (s.cursor.rest.length + 1)
    match s.cursor.rest with
    | [] => ((s.closeBeyond 0).dropKey?).map fun s ↦ s.slots.toList.flatten
    | next :: _ => (s.closeBeyond (s.cursor.column + 1)).scanToken? next >>= scanAll? fuel

end Scanner

/-- The tokens of a text. -/
def scan? (source : String) : Option (List Token) :=
  let cs := source.toList
  if cs.all isAllowed then Scanner.scanAll? (cs.length + 1) { cursor := { rest := normalize cs } }
  else none

end CollectionTree.Yaml
