/-!
# Positions in a source text

A `Position` is a byte offset together with the label of the file it counts in. A `Span` runs from
the first byte of a piece of text to the byte just after its last one.

* `bytes` is the view of a text that offsets count in; `bytes_append` says that it splits where the
  text does.
* `Span.ofRange` is the span of a range of bytes, `Span.upTo` joins two spans.
-/

namespace Prattle

/-- The UTF-8 bytes of a text, the unit in which all offsets count. -/
def bytes (text : String) : List UInt8 :=
  text.toByteArray.data.toList

/-- The bytes of two texts in a row are those of each. -/
@[simp] theorem bytes_append (a b : String) : bytes (a ++ b) = bytes a ++ bytes b := by
  simp [bytes, String.toByteArray_append, ByteArray.data_append]

/-- The empty text has no bytes. -/
@[simp] theorem bytes_empty : bytes "" = [] := by
  simp [bytes]

/-- A text has as many bytes as its size says. -/
@[simp] theorem length_bytes (text : String) : (bytes text).length = text.utf8ByteSize := by
  simp [bytes]

/-- A byte offset into the file with the given label. Offsets are 32-bit words, so in a text of
`2 ^ 32` bytes or more they count modulo `2 ^ 32`. -/
structure Position where
  /-- How many bytes of the file stand before this place. -/
  offset : UInt32
  /-- The label of the file. -/
  file : String
  deriving DecidableEq, Inhabited

/-- A stretch of one file. -/
structure Span where
  /-- The place of its first byte. -/
  start : Position
  /-- The place just after its last byte. -/
  stop : Position
  deriving DecidableEq, Inhabited

namespace Span

/-- The span of the bytes with offsets `start ≤ i < stop`. -/
def ofRange (file : String) (start stop : Nat) : Span :=
  ⟨⟨start.toUInt32, file⟩, ⟨stop.toUInt32, file⟩⟩

/-- The span from the start of `a` to the end of `b`. -/
def upTo (a b : Span) : Span :=
  ⟨a.start, b.stop⟩

/-- The span from one to another starts where the first does. -/
@[simp] theorem start_upTo (a b : Span) : (a.upTo b).start = a.start := rfl

/-- The span from one to another stops where the second does. -/
@[simp] theorem stop_upTo (a b : Span) : (a.upTo b).stop = b.stop := rfl

end Span

end Prattle
