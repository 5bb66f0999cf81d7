import RegisterMap.Xml.Scan

/-!
# Character sets

The characters that the bytes of a document stand for.  A byte order mark or the
spacing of the first bytes tells the character set; otherwise the document names
it in its declaration or uses UTF-8.
-/

namespace RegisterMap.Xml

inductive Charset where
  | ascii
  | latin1
  | utf8
  | utf16le
  | utf16be
  deriving DecidableEq, Repr

namespace Charset

def charOf? (n : Nat) : Option Char :=
  if n.isValidChar then some (Char.ofNat n) else none

/-- The bits that a byte in the middle of a sequence adds. -/
def tailBits? (b : UInt8) : Option Nat :=
  if b.toNat / 0x40 = 2 then some (b.toNat % 0x40) else none

/-- The value of a sequence: the bits of the first byte and those of the others. -/
def sequenceValue? (first : Nat) (others : List UInt8) : Option Nat :=
  others.foldlM (fun value b => (tailBits? b).map (value * 0x40 + ·)) first

/-- Decode UTF-8.  Overlong sequences and surrogates are refused. -/
def decodeUtf8 : List UInt8 → Option (List Char)
  | [] => some []
  | b :: bytes =>
      let n := b.toNat
      let char? (value? : Option Nat) (least : Nat) : Option Char :=
        (value?.filter (least ≤ ·)).bind charOf?
      if n < 0x80 then do
        let c ← charOf? n
        return c :: (← decodeUtf8 bytes)
      else if n < 0xC2 then none
      else if n < 0xE0 then
        match bytes with
        | b₁ :: bytes => do
            let c ← char? (sequenceValue? (n % 0x20) [b₁]) 0x80
            return c :: (← decodeUtf8 bytes)
        | _ => none
      else if n < 0xF0 then
        match bytes with
        | b₁ :: b₂ :: bytes => do
            let c ← char? (sequenceValue? (n % 0x10) [b₁, b₂]) 0x800
            return c :: (← decodeUtf8 bytes)
        | _ => none
      else if n < 0xF5 then
        match bytes with
        | b₁ :: b₂ :: b₃ :: bytes => do
            let c ← char? (sequenceValue? (n % 0x08) [b₁, b₂, b₃]) 0x10000
            return c :: (← decodeUtf8 bytes)
        | _ => none
      else none

def units (littleEndian : Bool) : List UInt8 → Option (List Nat)
  | [] => some []
  | [_] => none
  | a :: b :: bytes =>
      let unit := if littleEndian then a.toNat + 0x100 * b.toNat else 0x100 * a.toNat + b.toNat
      (units littleEndian bytes).map (unit :: ·)

/-- Decode 16-bit units, of which surrogates come in pairs. -/
def decodeUnits : List Nat → Option (List Char)
  | [] => some []
  | high :: low :: rest =>
      if 0xD800 ≤ high ∧ high < 0xDC00 then
        if 0xDC00 ≤ low ∧ low < 0xE000 then do
          let c ← charOf? (0x10000 + 0x400 * (high - 0xD800) + (low - 0xDC00))
          return c :: (← decodeUnits rest)
        else none
      else do
        let c ← charOf? high
        return c :: (← decodeUnits (low :: rest))
  | [unit] => (charOf? unit).map ([·])

def decode : Charset → List UInt8 → Option (List Char)
  | ascii, bytes => bytes.mapM fun b => if b.toNat < 0x80 then charOf? b.toNat else none
  | latin1, bytes => bytes.mapM fun b => charOf? b.toNat
  | utf8, bytes => decodeUtf8 bytes
  | utf16le, bytes => (units true bytes).bind decodeUnits
  | utf16be, bytes => (units false bytes).bind decodeUnits

/-- The character set that the first bytes give away, and the bytes after a byte order mark. -/
def ofFirstBytes? : List UInt8 → Option (Charset × List UInt8)
  | 0xEF :: 0xBB :: 0xBF :: bytes => some (utf8, bytes)
  | 0xFF :: 0xFE :: bytes => some (utf16le, bytes)
  | 0xFE :: 0xFF :: bytes => some (utf16be, bytes)
  | bytes@(0x3C :: 0x00 :: 0x3F :: 0x00 :: _) => some (utf16le, bytes)
  | bytes@(0x00 :: 0x3C :: 0x00 :: 0x3F :: _) => some (utf16be, bytes)
  | _ => none

/-- The names of the character sets in which a declaration can be read byte by byte. -/
def ofName? (name : List Char) : Option Charset :=
  match String.ofList (name.map Char.toLower) with
  | "utf-8" | "utf8" => some utf8
  | "iso-8859-1" | "iso_8859-1" | "iso8859-1" | "iso-latin-1" | "latin1" | "l1" => some latin1
  | "us-ascii" | "ascii" => some ascii
  | _ => none

end Charset

end RegisterMap.Xml
