namespace CrateDocs.Text

-- Blank characters: the ASCII controls that separate text, the space, and the Unicode separators.
def isBlank (c : Char) : Bool :=
  let n := c.toNat
  (0x09 ≤ n && n ≤ 0x0D) || (0x1C ≤ n && n ≤ 0x20) || n == 0x85 || n == 0xA0 || n == 0x1680 ||
    (0x2000 ≤ n && n ≤ 0x200A) || n == 0x2028 || n == 0x2029 || n == 0x202F || n == 0x205F ||
    n == 0x3000

-- Characters that end a line of text.
def isLineEnd (c : Char) : Bool :=
  let n := c.toNat
  (0x0A ≤ n && n ≤ 0x0D) || (0x1C ≤ n && n ≤ 0x1E) || n == 0x85 || n == 0x2028 || n == 0x2029

-- The characters without those at the end that satisfy `p`.
def dropEndWhile (p : Char → Bool) (cs : List Char) : List Char :=
  (cs.reverse.dropWhile p).reverse

-- The characters without those at either end that satisfy `p`.
def trimWhile (p : Char → Bool) (cs : List Char) : List Char :=
  dropEndWhile p (cs.dropWhile p)

-- A text without the blanks around it.
def trimBlanks (s : String) : String :=
  String.ofList (trimWhile isBlank s.toList)

-- A text without any blank.
def withoutBlanks (s : String) : String :=
  String.ofList (s.toList.filter fun c => !isBlank c)

-- Whether a text has no character but blanks.
def allBlank (s : String) : Bool :=
  s.toList.all isBlank

end CrateDocs.Text
