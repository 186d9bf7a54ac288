import ClassAtlas.Bytes
import ClassAtlas.Text.Units

/-!
UTF-8. `encode` spells a text, `decode?` reads one that is well formed, and
`decodeLossy` reads any bytes: a byte that belongs to no well-formed group
becomes U+FFFD.
-/
namespace ClassAtlas.Text.Utf8

def encode (s : String) : Bytes := s.toList.flatMap String.utf8EncodeChar

/-- The number of bytes a text takes. -/
def size (s : String) : Nat := s.utf8ByteSize

def decode? (bs : Bytes) : Option String := String.fromUTF8? ⟨bs.toArray⟩

def isContinuation (b : UInt8) : Bool := b.toNat / 64 == 2

/-- The well-formed group a byte sequence starts with, as its character and length. -/
def group? : Bytes → Option (Char × Nat)
  | b :: rest =>
    let b := b.toNat
    if b < 0x80 then some (Char.ofNat b, 1)
    else match rest with
      | c :: rest =>
        if !isContinuation c then none
        else if 0xC2 ≤ b && b < 0xE0 then some (Char.ofNat (b % 32 * 64 + c.toNat % 64), 2)
        else match rest with
          | d :: rest =>
            if !isContinuation d then none
            else
              let n := b % 16 * 4096 + c.toNat % 64 * 64 + d.toNat % 64
              if 0xE0 ≤ b && b < 0xF0 then
                if n < 0x800 || (0xD800 ≤ n && n < 0xE000) then none else some (Char.ofNat n, 3)
              else match rest with
                | e :: _ =>
                  let m := b % 8 * 262144 + c.toNat % 64 * 4096 + d.toNat % 64 * 64 + e.toNat % 64
                  if !isContinuation e then none
                  else if 0xF0 ≤ b && b < 0xF5 && 0x10000 ≤ m && m < 0x110000 then
                    some (Char.ofNat m, 4)
                  else none
                | [] => none
          | [] => none
      | [] => none
  | [] => none

/-- Reads groups; `skip` bytes of the last one are still to be passed over. -/
def decodeFrom : Nat → Bytes → List Char
  | _, [] => []
  | skip + 1, _ :: rest => decodeFrom skip rest
  | 0, b :: rest =>
    match group? (b :: rest) with
    | some (c, n) => c :: decodeFrom (n - 1) rest
    | none => Units.replacement :: decodeFrom 0 rest

def decodeLossy (bs : Bytes) : String := String.ofList (decodeFrom 0 bs)

end ClassAtlas.Text.Utf8
