import CrateDocs.Rust.Lexeme

namespace CrateDocs.Rust

-- Where an expression stands. In the head of a block no structure literal is read, since its brace
-- would be taken for the block's. Heads and guards may hold `let` conditions.
inductive Position
  | free
  | head
  | guard
deriving DecidableEq, Repr

-- What ends a statement that is an expression: a semicolon, or in a block also the block's end.
inductive Ending
  | semicolon
  | block
deriving DecidableEq, Repr

-- The rules of the grammar that refer to each other.
inductive Rule
  | tokenTree
  | type
  | bareType
  | typeArguments
  | pattern
  | simplePattern
  | useTree
  | expression (place : Position)
  | operand (place : Position)
  | blockLike
  | ifExpression
  | block
  | declarationList
  | declaration
  | statement (ending : Ending)

abbrev Pattern := Syntax.Pattern Rule

instance : AndThen Pattern := ⟨fun first second => .seq first (second ())⟩
instance : OrElse Pattern := ⟨fun first second => .choice first (second ())⟩

namespace Grammar

open Syntax.Pattern (rule node field nothing many ahead notAhead)

def maybe (p : Pattern) : Pattern := p <|> nothing
def atLeastOne (p : Pattern) : Pattern := p >> many p

-- The first of several patterns that fits.
def firstOf : List Pattern → Pattern
  | [] => notAhead nothing
  | [p] => p
  | p :: rest => p <|> firstOf rest

-- A token that the grammar has no name for.
def mark (text : String) : Pattern :=
  .token ⟨Lexeme.exactly text, text, false⟩

-- A mark that is not the start of a longer one.
def markNotBefore (text : String) (following : List Char) : Pattern :=
  .token ⟨Lexeme.exactlyNotBefore text following, text, false⟩

def keyword (text : String) : Pattern :=
  .token ⟨Lexeme.keyword text, text, false⟩

-- Any word.
def word : Pattern :=
  .token ⟨Lexeme.identifier, "identifier", true⟩

def wordBut (words : List String) : Pattern :=
  .token ⟨Lexeme.identifierBut words, "identifier", true⟩

def wordIn (words : List String) : Pattern :=
  .token ⟨Lexeme.identifierIn words, "identifier", true⟩

def metavariable : Pattern :=
  .token ⟨Lexeme.metavariable, "metavariable", true⟩

def integer : Pattern := .token ⟨Lexeme.integer, "integer_literal", true⟩
def stringLiteral : Pattern := .token ⟨Lexeme.string, "string_literal", true⟩

def literal : Pattern :=
  .token ⟨Lexeme.float, "float_literal", true⟩ <|> integer
    <|> .token ⟨Lexeme.rawString, "raw_string_literal", true⟩ <|> stringLiteral
    <|> .token ⟨Lexeme.char, "char_literal", true⟩

def semicolon : Pattern := mark ";"
def comma : Pattern := mark ","
-- A colon that is not half of a path separator.
def colon : Pattern := markNotBefore ":" [':']
-- An equals sign that starts neither a comparison nor an arm of a match.
def equals : Pattern := markNotBefore "=" ['=', '>']
def separator : Pattern := mark "::"
def arrow : Pattern := mark "->"

def inParens (p : Pattern) : Pattern := mark "(" >> p >> mark ")"
def inBrackets (p : Pattern) : Pattern := mark "[" >> p >> mark "]"
def inBraces (p : Pattern) : Pattern := mark "\x7b" >> p >> mark "\x7d"
def inAngles (p : Pattern) : Pattern := mark "<" >> p >> mark ">"

-- One or more items with commas between them and maybe one after the last.
def items (p : Pattern) : Pattern :=
  p >> many (comma >> p) >> maybe comma

-- Any number of such items.
def list (p : Pattern) : Pattern := maybe (items p)

end Grammar

end CrateDocs.Rust
