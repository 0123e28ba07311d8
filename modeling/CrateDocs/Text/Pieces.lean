namespace CrateDocs.Text

-- Splits at every occurrence of `sep`, taken from the left without overlap. The first argument
-- counts the characters of a separator still to be passed over, the second holds the current piece
-- back to front.
def splitFrom (sep : List Char) : Nat → List Char → List Char → List (List Char)
  | _, current, [] => [current.reverse]
  | 0, current, c :: rest =>
    if sep.isPrefixOf (c :: rest) then
      current.reverse :: splitFrom sep (sep.length - 1) [] rest
    else splitFrom sep 0 (c :: current) rest
  | skip + 1, current, _ :: rest => splitFrom sep skip current rest

-- The pieces between the occurrences of a non-empty separator.
def split (sep s : String) : List String :=
  (splitFrom sep.toList 0 [] s.toList).map String.ofList

-- Whether the first text occurs in the second.
def occursIn (part : List Char) : List Char → Bool
  | [] => part.isEmpty
  | c :: rest => part.isPrefixOf (c :: rest) || occursIn part rest

-- The characters before the first `mark`, and those after it if there is one.
def cutFirst (mark : Char) (cs : List Char) : List Char × List Char :=
  (cs.takeWhile (· != mark), (cs.dropWhile (· != mark)).drop 1)

-- What stands before and after the last `mark`, if there is one.
def cutLast? {α : Type} [BEq α] (mark : α) (cs : List α) : Option (List α × List α) :=
  let back := cs.reverse
  if back.contains mark then
    some (((back.dropWhile (· != mark)).drop 1).reverse, (back.takeWhile (· != mark)).reverse)
  else none

-- A text without a mark that it starts with.
def withoutStart (mark s : String) : String :=
  if mark.toList.isPrefixOf s.toList then String.ofList (s.toList.drop mark.length) else s

-- Whether a text starts with another.
def startsWith (mark s : String) : Bool :=
  mark.toList.isPrefixOf s.toList

-- A text with every occurrence of one character turned into another text.
def replaceChar (old : Char) (new s : String) : String :=
  String.ofList (s.toList.flatMap fun c => if c == old then new.toList else [c])

end CrateDocs.Text
