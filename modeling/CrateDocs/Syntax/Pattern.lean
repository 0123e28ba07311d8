import CrateDocs.Syntax.Node
import CrateDocs.Text.Utf8

namespace CrateDocs.Syntax

open Utf8 (Glyph)

-- What a recogniser of one lexeme says about the glyphs ahead: how many of them the lexeme takes.
abbrev Lexeme := List Glyph → Option Nat

-- A token: how its text is recognised, the kind of its node, and whether the grammar names it.
structure Terminal where
  lexeme : Lexeme
  kind : String
  named : Bool

-- A grammar over the rules `ρ`. Alternatives are tried in order and the first that fits is taken.
inductive Pattern (ρ : Type)
  | nothing
  | token (t : Terminal)
  | rule (r : ρ)
  | seq (first second : Pattern ρ)
  | choice (first second : Pattern ρ)
  | many (p : Pattern ρ)
  | ahead (p : Pattern ρ)
  | notAhead (p : Pattern ρ)
  | node (kind : String) (p : Pattern ρ)
  | field (name : String) (p : Pattern ρ)

namespace Pattern

-- What is left to read, and how many bytes were read.
structure Cursor where
  rest : List Glyph
  offset : Nat

namespace Cursor

-- The number of bytes in some glyphs.
def width : List Glyph → Nat
  | [] => 0
  | g :: rest => g.width + width rest

-- The cursor after some more glyphs.
def advance (c : Cursor) (count : Nat) : Cursor :=
  ⟨c.rest.drop count, c.offset + width (c.rest.take count)⟩

end Cursor

-- What stands between tokens: a recogniser of a blank, and the kinds of comments with theirs.
structure Trivia where
  blank : Lexeme
  comments : List (String × Lexeme)

-- Reads blanks and comments as far as they go; the comments become nodes.
def skip (trivia : Trivia) : Nat → Cursor → Cursor × List Node
  | 0, c => (c, [])
  | fuel + 1, c =>
    match trivia.blank c.rest with
    | some count => skip trivia fuel (c.advance count)
    | none =>
      let comment? := trivia.comments.findSome? fun (kind, lexeme) =>
        (lexeme c.rest).map fun count => (kind, count)
      match comment? with
      | none => (c, [])
      | some (kind, count) =>
        let after := c.advance count
        let (last, nodes) := skip trivia fuel after
        (last, .leaf kind c.offset after.offset true :: nodes)

-- Puts nodes under a node of their own. Comments before the first of them stay outside, and no
-- node is made of comments alone.
def wrap (kind : String) (nodes : List Node) : List Node :=
  let leading := nodes.takeWhile (·.isComment)
  let inner := nodes.dropWhile (·.isComment)
  match inner.head?, inner.getLast? with
  | some first, some last =>
    leading ++ [⟨kind, first.start, last.stop, none, true, false, inner⟩]
  | _, _ => leading

-- Marks nodes as filling a field; comments fill none.
def mark (name : String) (nodes : List Node) : List Node :=
  nodes.map fun n => if n.isComment then n else { n with field := some name }

-- Matches a pattern at a cursor. Gives the cursor after it and the nodes it made, or `none` if it
-- does not fit. The first argument bounds the depth of the search.
def run {ρ : Type} (trivia : Trivia) (grammar : ρ → Pattern ρ) :
    Nat → Pattern ρ → Cursor → Option (Cursor × List Node)
  | 0, _, _ => none
  | _ + 1, .nothing, c => some (c, [])
  | _ + 1, .token t, c =>
    let (c, comments) := skip trivia (c.rest.length + 1) c
    match t.lexeme c.rest with
    | none => none
    | some count =>
      let after := c.advance count
      some (after, comments ++ [.leaf t.kind c.offset after.offset t.named])
  | fuel + 1, .rule r, c => run trivia grammar fuel (grammar r) c
  | fuel + 1, .seq first second, c =>
    match run trivia grammar fuel first c with
    | none => none
    | some (c₁, nodes₁) =>
      match run trivia grammar fuel second c₁ with
      | none => none
      | some (c₂, nodes₂) => some (c₂, nodes₁ ++ nodes₂)
  | fuel + 1, .choice first second, c =>
    match run trivia grammar fuel first c with
    | some result => some result
    | none => run trivia grammar fuel second c
  | fuel + 1, .many p, c =>
    match run trivia grammar fuel p c with
    | none => some (c, [])
    | some (c₁, nodes₁) =>
      if c₁.offset ≤ c.offset then some (c, [])
      else
        match run trivia grammar fuel (.many p) c₁ with
        | none => none
        | some (c₂, nodes₂) => some (c₂, nodes₁ ++ nodes₂)
  | fuel + 1, .ahead p, c => (run trivia grammar fuel p c).map fun _ => (c, [])
  | fuel + 1, .notAhead p, c =>
    match run trivia grammar fuel p c with
    | some _ => none
    | none => some (c, [])
  | fuel + 1, .node kind p, c =>
    (run trivia grammar fuel p c).map fun (after, nodes) => (after, wrap kind nodes)
  | fuel + 1, .field name p, c =>
    (run trivia grammar fuel p c).map fun (after, nodes) => (after, mark name nodes)

end Pattern

end CrateDocs.Syntax
