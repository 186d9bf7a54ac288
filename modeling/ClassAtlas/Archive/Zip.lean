import ClassAtlas.Archive.Checksum
import ClassAtlas.Archive.Inflate
import ClassAtlas.Error
import ClassAtlas.Text.Raw

/-!
Archives in the zip format. An archive ends in a record that tells where its directory
is; the directory lists the entries, each with its name, sizes, checksum and the place
of its data. Bytes before the archive are allowed for.

Opening an archive reads its directory only. An entry's data is found, inflated and
checked when its contents are asked for. Entries go by the bytes of their names, which may be
the same for several.
-/
namespace ClassAtlas.Archive

/-- Where the bytes of an archive come from. -/
inductive Source where
  | file (path : RawText)
  | memory
deriving Repr, DecidableEq

inductive Fault where
  | format
  | checksum
  | method
  | ended
  | cutShort
  | corrupt (offset : Nat)
  | before (source : Source)
deriving Repr, DecidableEq

def Fault.error : Fault → Error
  | format => .text "zip: not a valid zip file"
  | checksum => .text "zip: checksum error"
  | method => .text "zip: unsupported compression algorithm"
  | ended => .sentinel .endOfInput
  | cutShort => .sentinel .unexpectedEnd
  | corrupt offset => .text ("flate: corrupt input before offset " ++ toString offset)
  | before (.file path) => .text ("readat " ++ path.shown ++ ": negative offset")
  | before .memory => .text "bytes.Reader.ReadAt: negative offset"

/-- An entry of an archive: its size is the one declared, and `content` reads it. -/
structure Entry where
  name : RawText
  isDirectory : Bool
  size : Nat
  content : Unit → Except Fault Bytes

namespace Zip

abbrev Image := Array UInt8

/-! ### Fields -/

/-- The number written low byte first. -/
def little : Bytes → Nat
  | [] => 0
  | b :: rest => b.toNat + little rest * 256

/-- `n` bytes from a place on, if there are as many. -/
def slice? (image : Image) (place n : Nat) : Option Bytes :=
  if place + n ≤ image.size then some (image.extract place (place + n)).toList else none

/-- A number of `n` bytes at an offset of a record. -/
def field (record : Bytes) (offset n : Nat) : Nat := little ((record.drop offset).take n)

/-- A 64-bit word read as a signed number. -/
def signed (n : Nat) : Int := Int.bmod n 18446744073709551616

/-! ### The end record -/

/-- What the end of an archive says of its directory. `place` is the end record's own. -/
structure Ending where
  place : Nat
  records : Nat
  size : Nat
  offset : Nat
deriving Repr, DecidableEq

def isEnding (image : Image) (place : Nat) : Bool := slice? image place 4 == some [0x50, 0x4B, 5, 6]

/-- The last place, at most `place` and at least `first`, where an end record starts. -/
def searchEnding (image : Image) (first : Nat) : (place : Nat) → Option Nat
  | 0 => if first = 0 && isEnding image 0 then some 0 else none
  | place + 1 =>
    if place + 1 < first then none
    else if isEnding image (place + 1) then some (place + 1)
    else searchEnding image first place

/-- The end record within the last `reach` bytes. One whose comment is cut short hides
any before it. -/
def endingWithin (image : Image) (reach : Nat) : Option Nat := do
  let first := image.size - reach
  if image.size < 22 then none
  let place ← searchEnding image first (image.size - 22)
  let record ← slice? image place 22
  if place + 22 + field record 20 2 ≤ image.size then some place else none

/-- The directory's place according to the record for large archives, if the end record
at `place` has a locator before it. -/
def largeEnding? (image : Image) (place : Nat) : Except Fault (Option Ending) := do
  if place < 20 then return none
  let some locator := slice? image (place - 20) 20 | return none
  if field locator 0 4 ≠ 0x07064B50 ∨ field locator 4 4 ≠ 0 ∨ field locator 16 4 ≠ 1 then return none
  let start := field locator 8 8
  if Nat.pow 2 63 ≤ start then return none
  let some record := slice? image start 56 | throw .ended
  if field record 0 4 ≠ 0x06064B50 then throw .format
  return some ⟨start, field record 32 8, field record 40 8, field record 48 8⟩

/-- The end of the archive, looked for close to the end of the file and then further up. -/
def ending (image : Image) : Except Fault Ending := do
  let some place := endingWithin image 1024 <|> endingWithin image 66560 | throw .format
  let some record := slice? image place 22 | throw .format
  let plain : Ending := ⟨place, field record 10 2, field record 12 4, field record 16 4⟩
  if plain.records = 0xFFFF ∨ plain.size = 0xFFFF ∨ plain.offset = 0xFFFFFFFF then
    return (← largeEnding? image place).getD plain
  return plain

/-! ### The directory -/

/-- What the directory says of an entry. -/
structure Header where
  creator : Nat
  flags : Nat
  method : Nat
  checksum : Nat
  compressed : Nat
  size : Nat
  name : Bytes
  attributes : Nat
  offset : Int
deriving Repr, DecidableEq

/-- Sizes and place of an entry while its extra fields are read: each is still asked
for, or not. -/
structure Large where
  size : Option Nat
  compressed : Option Nat
  offset : Option Int
deriving Repr, DecidableEq

/-- Takes a value from the extra field for large entries, if it is asked for. -/
def takeLarge (known : Option Nat) (bytes : Bytes) : Except Fault (Option Nat × Bytes) :=
  match known with
  | some n => .ok (some n, bytes)
  | none => if bytes.length < 8 then .error .format else .ok (some (field bytes 0 8), bytes.drop 8)

/-- Goes through the extra fields of an entry. -/
def extras (large : Large) : (fuel : Nat) → Bytes → Except Fault Large
  | 0, _ => .ok large
  | fuel + 1, bytes => do
    if bytes.length < 4 then return large
    let tag := field bytes 0 2
    let length := field bytes 2 2
    let rest := bytes.drop 4
    if rest.length < length then return large
    if tag ≠ 1 then extras large fuel (rest.drop length)
    else
      let body := rest.take length
      let (size, body) ← takeLarge large.size body
      let (compressed, body) ← takeLarge large.compressed body
      let (offset, _) ← takeLarge (large.offset.map fun _ => 0) body
      extras ⟨size, compressed, large.offset <|> offset.map signed⟩ fuel (rest.drop length)

/-- Reads the directory header at a place, and finds the place behind it. -/
def header (image : Image) (place : Nat) : Except Fault (Header × Nat) := do
  if image.size ≤ place then throw .ended
  let some record := slice? image place 46 | throw .cutShort
  if field record 0 4 ≠ 0x02014B50 then throw .format
  let nameLength := field record 28 2
  let extraLength := field record 30 2
  let length := nameLength + extraLength + field record 32 2
  let some tail := slice? image (place + 46) length
    | throw (if image.size = place + 46 then .ended else .cutShort)
  let full (n : Nat) : Option Nat := if n = 0xFFFFFFFF then none else some n
  let size := field record 24 4
  let large ← extras ⟨full size, full (field record 20 4), (full (field record 42 4)).map Int.ofNat⟩
    (extraLength + 1) ((tail.drop nameLength).take extraLength)
  let some compressed := large.compressed | throw .format
  let some offset := large.offset | throw .format
  return ({
    creator := field record 4 2
    flags := field record 8 2
    method := field record 10 2
    checksum := field record 16 4
    compressed
    size := large.size.getD size
    name := tail.take nameLength
    attributes := field record 38 4
    offset }, place + 46 + length)

/-- The headers from a place on, up to the first that cannot be read, and why not. -/
def headers (image : Image) : (fuel : Nat) → (place : Nat) → List Header × Fault
  | 0, _ => ([], .ended)
  | fuel + 1, place =>
    match header image place with
    | .error fault => ([], fault)
    | .ok (h, next) =>
      let (rest, fault) := headers image fuel next
      (h :: rest, fault)

/-! ### Entries -/

/-- A name that ends in a slash is a directory's, and so are some attributes, which
mean different things to different makers. -/
def Header.isDirectory (h : Header) : Bool :=
  h.name.getLast? == some 0x2F ||
    match h.creator / 256 with
    | 3 | 19 => h.attributes / 65536 / 4096 % 16 == 4
    | 0 | 11 | 14 => h.attributes / 16 % 2 == 1
    | _ => false

/-- The checksum in the record that follows the data of some entries. It may have a
signature before it. -/
def trailingChecksum (image : Image) (place : Nat) : Except Fault Nat := do
  let some start := slice? image place 4 | throw .cutShort
  let place := if little start = 0x08074B50 then place + 4 else place
  let some record := slice? image place 12 | throw .cutShort
  return field record 0 4

/-- Checks data against what the directory and, where there is one, the record behind
it say. -/
def checked (image : Image) (h : Header) (stop : Nat) (data : Bytes) : Except Fault Bytes := do
  let sum := (Archive.checksum data).toNat
  if data.length ≠ h.size then throw .cutShort
  if h.flags / 8 % 2 = 1 then
    if (← trailingChecksum image stop) ≠ h.checksum then throw .checksum
    if sum ≠ h.checksum then throw .checksum
  else if h.checksum ≠ 0 ∧ sum ≠ h.checksum then throw .checksum
  return data

/-- The contents of an entry. -/
def read (source : Source) (image : Image) (h : Header) : Except Fault Bytes := do
  if h.offset < 0 then throw (.before source)
  let place := h.offset.toNat
  let some record := slice? image place 30 | throw .ended
  if field record 0 4 ≠ 0x04034B50 then throw .format
  let start := place + 30 + field record 26 2 + field record 28 2
  let length := (signed h.compressed).toNat
  let stop := start + length
  match h.method with
  | 0 =>
    if h.size < min stop image.size - start then throw .format
    checked image h stop (image.extract start stop).toList
  | 8 =>
    match Inflate.inflate h.size (image.extract start stop) with
    | .ok data => checked image h stop data
    | .error .overlong => throw .format
    | .error .truncated => throw .cutShort
    | .error (.corrupt offset) => throw (.corrupt offset)
  | _ => throw .method

/-- Where the archive starts: the directory ends at the end record. An archive whose
directory is right where the record says starts at zero all the same. -/
def start (image : Image) (e : Ending) : Except Fault Int := do
  if Nat.pow 2 63 ≤ e.size ∨ Nat.pow 2 63 ≤ e.offset then throw .format
  if e.place < e.size ∨ image.size ≤ e.place - e.size then throw .format
  let base := (e.place : Int) - e.size - e.offset
  if 0 < base ∧ (header image e.offset).isOk then return 0
  return base

/-- The entries of an archive. The directory must hold as many as the end record says,
apart from multiples of 65536. -/
def entries (source : Source) (bytes : Bytes) : Except Fault (List Entry) := do
  let image := bytes.toArray
  let e ← ending image
  let base ← start image e
  let (hs, fault) := headers image (image.size + 1) (base + e.offset).toNat
  if fault = .ended ∨ hs.length % 65536 ≠ e.records % 65536 then throw fault
  return hs.map fun h =>
    let h := { h with offset := signed ((h.offset + base) % 18446744073709551616).toNat }
    ⟨⟨h.name⟩, h.isDirectory, h.size, fun _ => read source image h⟩

end Zip
end ClassAtlas.Archive
