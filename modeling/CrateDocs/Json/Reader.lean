import CrateDocs.Json.Token

namespace CrateDocs.Json

-- A container that is not closed yet, with what it holds so far, back to front.
inductive Frame
  | array (items : List Json)
  | object (fields : List (String × Json))
  | field (fields : List (String × Json)) (key : String)

-- What may come next.
inductive Expected
  | value
  | valueOrEnd
  | key
  | keyOrEnd
  | colon
  | commaOrEnd
  | nothing (read : Json)

-- The containers that are open, innermost first, and what may come next.
structure Progress where
  frames : List Frame
  expected : Expected

namespace Progress

def initial : Progress := ⟨[], .value⟩

-- Takes in a complete value.
def accept (value : Json) : List Frame → Option Progress
  | [] => some ⟨[], .nothing value⟩
  | .array items :: outer => some ⟨.array (value :: items) :: outer, .commaOrEnd⟩
  | .field fields key :: outer => some ⟨.object ((key, value) :: fields) :: outer, .commaOrEnd⟩
  | .object _ :: _ => none

-- Opens a container, unless `limit` of them are open.
def enter (limit : Nat) (frames : List Frame) (frame : Frame) (expected : Expected) :
    Option Progress :=
  if frames.length < limit then some ⟨frame :: frames, expected⟩ else none

-- Closes the innermost container if it is an array.
def leaveArray : List Frame → Option Progress
  | .array items :: outer => accept (.array items.reverse) outer
  | _ => none

-- Closes the innermost container if it is an object.
def leaveObject : List Frame → Option Progress
  | .object fields :: outer => accept (.object (mergeFields fields.reverse)) outer
  | _ => none

-- A token where a value is expected.
def takeValue (limit : Nat) (frames : List Frame) : Token → Option Progress
  | .openArray => enter limit frames (.array []) .valueOrEnd
  | .openObject => enter limit frames (.object []) .keyOrEnd
  | .text value => accept (.string value) frames
  | .atom value => accept value frames
  | _ => none

-- A key where one is expected.
def takeKey (key : String) : List Frame → Option Progress
  | .object fields :: outer => some ⟨.field fields key :: outer, .colon⟩
  | _ => none

-- One token more.
def step (limit : Nat) (p : Progress) (token : Token) : Option Progress :=
  match p.expected, token with
  | .valueOrEnd, .closeArray => leaveArray p.frames
  | .valueOrEnd, token => takeValue limit p.frames token
  | .value, token => takeValue limit p.frames token
  | .keyOrEnd, .closeObject => leaveObject p.frames
  | .keyOrEnd, .text key => takeKey key p.frames
  | .key, .text key => takeKey key p.frames
  | .colon, .colon => some ⟨p.frames, .value⟩
  | .commaOrEnd, .closeArray => leaveArray p.frames
  | .commaOrEnd, .closeObject => leaveObject p.frames
  | .commaOrEnd, .comma =>
    match p.frames with
    | .array _ :: _ => some ⟨p.frames, .value⟩
    | .object _ :: _ => some ⟨p.frames, .key⟩
    | _ => none
  | _, _ => none

end Progress

-- The value of a JSON text in which at most `limit` containers are open at once.
def parse? (limit : Nat) (text : String) : Option Json := do
  let tokens ← Token.scan text.toList
  let last ← tokens.foldlM (Progress.step limit) Progress.initial
  match last.expected with
  | .nothing value => some value
  | _ => none

end CrateDocs.Json
