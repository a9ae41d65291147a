/-!
# Why bytes are not a frame, a segment or a record

The five ways in which the wire format refuses bytes or lengths, with the wording of each.
-/

namespace CollectionTree.Wire

/-- A reason to refuse bytes read from the radio, or lengths that the format cannot state. -/
inductive Error where
  /-- The bytes are too few to hold a header. -/
  | incomplete
  /-- A key and value, or the record made of them, need this many bytes, which is too many. -/
  | size (bytes : Nat)
  /-- The segment claims to be shorter than its own header. -/
  | malformed
  /-- The segment claims more bytes than there are. -/
  | segmentOverrun (declared available : Nat)
  /-- The record that starts at this offset of a segment's body is not all there. -/
  | recordOverrun (offset : Nat)
  deriving DecidableEq, Repr

/-- The wording of an error. -/
def Error.message : Error → String
  | incomplete => "incomplete header"
  | size bytes => s!"size limit exceeded: {bytes}"
  | malformed => "malformed segment"
  | segmentOverrun declared available =>
    s!"segment overrun: declared {declared}, available {available}"
  | recordOverrun offset => s!"record overrun at offset {offset}"

end CollectionTree.Wire
