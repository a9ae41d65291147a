/-!
# Places in a YAML text

A cursor is a place in a text: what is left of the text from there, and how far the place is from
the start of the text and of its line. Lines end where the text breaks them; `normalize` writes the
ways of ending a line that mean the same as one.
-/

namespace CollectionTree.Yaml

/-- Whether a character ends a line. -/
def isBreak (c : Char) : Bool := c == '\n' || c == '\u2028' || c == '\u2029'

/-- Whether a character is a blank within a line. -/
def isBlank (c : Char) : Bool := c == ' ' || c == '\t'

/-- Whether a character is a blank or ends a line. -/
def isSpace (c : Char) : Bool := isBlank c || isBreak c

/-- Whether a character may be in a name. -/
def isWord (c : Char) : Bool := c.isAlphanum || c == '-' || c == '_'

/-- Whether a character may be in a text at all. -/
def isAllowed (c : Char) : Bool :=
  c == '\t' || c == '\n' || c == '\r' || ' ' ≤ c && c ≤ '~' || c == '\u0085' ||
    '\u00a0' ≤ c && c != '\ufffe' && c != '\uffff'

/-- Whether a character is the mark of the byte order. At the front of a line it is passed over. -/
def isOrderMark (c : Char) : Bool := c == '\ufeff'

/-- The text with every carriage return, alone or before a line feed, and every next-line character
written as a line feed. -/
def normalize : List Char → List Char
  | [] => []
  | '\r' :: '\n' :: rest => '\n' :: normalize rest
  | c :: rest => (if c == '\r' || c == '\u0085' then '\n' else c) :: normalize rest

/-- A place in a text: what is left of it, how many bytes of UTF-8 and how many lines lie before the
place, and how many characters of its line. -/
structure Cursor where
  rest : List Char
  index : Nat := 0
  line : Nat := 0
  column : Nat := 0

namespace Cursor

/-- The place after the next character. -/
def skip (c : Cursor) : Cursor :=
  match c.rest with
  | [] => c
  | next :: rest =>
    let index := c.index + next.utf8Size
    if isBreak next then ⟨rest, index, c.line + 1, 0⟩ else ⟨rest, index, c.line, c.column + 1⟩

/-- The place so many characters further on. -/
def skipMany (c : Cursor) : Nat → Cursor
  | 0 => c
  | count + 1 => c.skip.skipMany count

/-- The characters that satisfy a condition up to the first that does not, and the place there. -/
def span (condition : Char → Bool) (c : Cursor) : List Char × Cursor :=
  let taken := c.rest.takeWhile condition
  (taken, c.skipMany taken.length)

/-- Whether the text is over, or goes on with a space, so many characters further on. -/
def spaceAt (c : Cursor) (offset : Nat) : Bool := c.rest[offset]?.all isSpace

/-- Whether some characters come next. -/
def startsWith (c : Cursor) (word : String) : Bool := word.toList.isPrefixOf c.rest

/-- Whether a line begins here with a mark of three characters that stands alone. -/
def atMark (c : Cursor) (mark : String) : Bool := c.column == 0 && c.startsWith mark && c.spaceAt 3

/-- Whether the line that begins here separates documents. -/
def atSeparator (c : Cursor) : Bool := c.atMark "---" || c.atMark "..."

end Cursor

end CollectionTree.Yaml
