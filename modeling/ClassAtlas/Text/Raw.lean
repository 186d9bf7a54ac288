import ClassAtlas.Text.Utf8

/-!
Texts that are kept and compared as bytes. The names of files and of archive entries are
such: nothing sees to it that their bytes spell characters. Where a text has to, as in a
stored record or a message, U+FFFD stands in place of each byte that belongs to none.

Raw texts are in the order of their bytes.
-/
namespace ClassAtlas

structure RawText where
  bytes : Bytes
deriving Repr, DecidableEq

namespace RawText

def ofString (s : String) : RawText := ⟨Text.Utf8.encode s⟩

instance : Coe String RawText := ⟨ofString⟩

def empty : RawText := ⟨[]⟩

instance : Inhabited RawText := ⟨empty⟩

instance : Append RawText := ⟨fun a b => ⟨a.bytes ++ b.bytes⟩⟩

instance : LT RawText := ⟨fun a b => a.bytes < b.bytes⟩

instance : DecidableLT RawText := fun a b => inferInstanceAs (Decidable (a.bytes < b.bytes))

/-- The number of bytes. -/
def size (t : RawText) : Nat := t.bytes.length

/-- Texts with another between each two of them. -/
def intercalate (between : RawText) (ts : List RawText) : RawText :=
  ⟨between.bytes.intercalate (ts.map bytes)⟩

/-- The characters that the bytes spell. -/
def shown (t : RawText) : String := Text.Utf8.decodeLossy t.bytes

/-- The text as a record keeps it. -/
def mended (t : RawText) : RawText := ofString t.shown

/-- The bytes spell characters. -/
def IsText (t : RawText) : Prop := ∃ s : String, t = ofString s

end RawText
end ClassAtlas
