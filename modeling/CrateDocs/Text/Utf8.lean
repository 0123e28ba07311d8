namespace CrateDocs.Utf8

-- The bytes that encode a text.
def encode (s : String) : List UInt8 :=
  s.toList.flatMap String.utf8EncodeChar

-- The number of bytes that encode a text.
def size (s : String) : Nat :=
  (encode s).length

-- How many bytes follow a lead byte, and between which bounds the first of them must lie.
-- Bytes that cannot lead a sequence of two or more have no entry.
def tail? (lead : UInt8) : Option (Nat × UInt8 × UInt8) :=
  if 0xC2 ≤ lead && lead ≤ 0xDF then some (1, 0x80, 0xBF)
  else if lead == 0xE0 then some (2, 0xA0, 0xBF)
  else if lead == 0xED then some (2, 0x80, 0x9F)
  else if 0xE1 ≤ lead && lead ≤ 0xEF then some (2, 0x80, 0xBF)
  else if lead == 0xF0 then some (3, 0x90, 0xBF)
  else if 0xF1 ≤ lead && lead ≤ 0xF3 then some (3, 0x80, 0xBF)
  else if lead == 0xF4 then some (3, 0x80, 0x8F)
  else none

def isContinuation (b : UInt8) : Bool :=
  0x80 ≤ b && b ≤ 0xBF

-- The six low bits that a continuation byte carries.
def payload (b : UInt8) : Nat :=
  b.toNat % 64

-- A part of a byte sequence: a character, or bytes that encode none, and how many bytes it takes.
structure Glyph where
  char? : Option Char
  width : Nat
deriving DecidableEq, Repr

-- The glyphs of a byte sequence. Bytes that encode no character are one glyph where they are the
-- longest start of a sequence that is cut short, and else each a glyph of its own.
def glyphs : List UInt8 → List Glyph
  | [] => []
  | a :: r =>
    if a < 0x80 then ⟨some (Char.ofNat a.toNat), 1⟩ :: glyphs r
    else
      match tail? a with
      | none => ⟨none, 1⟩ :: glyphs r
      | some (count, low, high) =>
        match r with
        | [] => [⟨none, 1⟩]
        | b :: r₂ =>
          if low ≤ b && b ≤ high then
            if count == 1 then
              ⟨some (Char.ofNat (a.toNat % 32 * 64 + payload b)), 2⟩ :: glyphs r₂
            else
              match r₂ with
              | [] => [⟨none, 2⟩]
              | c :: r₃ =>
                if isContinuation c then
                  if count == 2 then
                    ⟨some (Char.ofNat (a.toNat % 16 * 4096 + payload b * 64 + payload c)), 3⟩
                      :: glyphs r₃
                  else
                    match r₃ with
                    | [] => [⟨none, 3⟩]
                    | d :: r₄ =>
                      if isContinuation d then
                        ⟨some (Char.ofNat
                          (a.toNat % 8 * 262144 + payload b * 4096 + payload c * 64 + payload d)), 4⟩
                          :: glyphs r₄
                      else ⟨none, 3⟩ :: glyphs (d :: r₄)
                else ⟨none, 2⟩ :: glyphs (c :: r₃)
          else ⟨none, 1⟩ :: glyphs (b :: r₂)

-- The text that a byte sequence encodes, if all of it does.
def decode? (bytes : List UInt8) : Option String :=
  ((glyphs bytes).mapM Glyph.char?).map String.ofList

-- The text of a byte sequence, with the replacement character for every glyph that is none.
def decodeLossy (bytes : List UInt8) : String :=
  String.ofList ((glyphs bytes).map fun glyph => glyph.char?.getD '\uFFFD')

end CrateDocs.Utf8
