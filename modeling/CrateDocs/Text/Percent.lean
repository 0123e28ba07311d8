import CrateDocs.Text.Utf8

namespace CrateDocs.Percent

-- The bytes that stand for themselves: ASCII letters and digits, and `_ . - ~`.
def isUnreserved (b : UInt8) : Bool :=
  (0x41 ≤ b && b ≤ 0x5A) || (0x61 ≤ b && b ≤ 0x7A) || (0x30 ≤ b && b ≤ 0x39) ||
    b == 0x5F || b == 0x2E || b == 0x2D || b == 0x7E

-- The upper-case digit of a value below 16.
def hexDigit (n : Nat) : Char :=
  if n < 10 then Char.ofNat (0x30 + n) else Char.ofNat (0x41 + n - 10)

-- The value of a hexadecimal digit of either case.
def hexValue? (c : Char) : Option Nat :=
  let n := c.toNat
  if 0x30 ≤ n && n ≤ 0x39 then some (n - 0x30)
  else if 0x41 ≤ n && n ≤ 0x46 then some (n - 0x41 + 10)
  else if 0x61 ≤ n && n ≤ 0x66 then some (n - 0x61 + 10)
  else none

def encodeByte (b : UInt8) : List Char :=
  if isUnreserved b then [Char.ofNat b.toNat]
  else ['%', hexDigit (b.toNat / 16), hexDigit (b.toNat % 16)]

-- A text with every byte of its encoding that is not unreserved written as `%` and two digits.
def encode (s : String) : String :=
  String.ofList ((Utf8.encode s).flatMap encodeByte)

-- The bytes that an encoded text stands for; a `%` without two digits stands for itself.
def decodeBytes : List Char → List UInt8
  | [] => []
  | '%' :: h :: l :: rest =>
    match hexValue? h, hexValue? l with
    | some high, some low => UInt8.ofNat (16 * high + low) :: decodeBytes rest
    | _, _ => 0x25 :: decodeBytes (h :: l :: rest)
  | c :: rest => String.utf8EncodeChar c ++ decodeBytes rest

-- The text that an encoded text stands for.
def decode (s : String) : String :=
  Utf8.decodeLossy (decodeBytes s.toList)

end CrateDocs.Percent
