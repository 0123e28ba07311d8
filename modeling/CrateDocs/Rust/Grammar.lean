import CrateDocs.Rust.Rule

namespace CrateDocs.Rust.Grammar

open Syntax.Pattern (rule node field nothing many ahead notAhead)

-- Lifetimes and labels.

def lifetime : Pattern := node "lifetime" (mark "'" >> word)
def label : Pattern := node "label" (mark "'" >> word)

-- Token trees: anything between matching delimiters.

-- The characters that marks inside a token tree are made of.
def treeMarks : List String :=
  ["+", "-", "*", "%", "^", "!", "&", "|", "=", ">", "<", "@", ".", ",", ";", ":", "#", "?", "'", "$"]

def treeToken : Pattern :=
  rule .tokenTree <|> literal <|> word <|> firstOf (treeMarks.map mark) <|> markNotBefore "/" ['*']

def tokenTree : Pattern :=
  node "token_tree" (inParens (many treeToken) <|> inBrackets (many treeToken) <|>
    inBraces (many treeToken))

-- Paths.

-- Words that have a meaning of their own where an expression starts.
def expressionWords : List String :=
  ["async", "break", "const", "continue", "for", "if", "let", "loop", "match", "move", "return", "static", "try",
    "unsafe", "while", "yield"]

def qualifiedStart : Pattern :=
  inAngles (rule .type >> maybe (keyword "as" >> rule .type)) >> separator >> word

-- A path in an expression or a pattern, whose first word is none of the given ones. Type arguments
-- follow a separator.
def valuePath (words : List String) : Pattern :=
  (qualifiedStart <|> (maybe separator >> (wordBut words <|> metavariable))) >>
    many (separator >> (rule .typeArguments <|> word))

-- A path of words only.
def plainPath : Pattern :=
  maybe separator >> word >> many (separator >> word)

-- The rest of a macro call after its path.
def macroRest : Pattern := markNotBefore "!" ['='] >> rule .tokenTree

def macroCall : Pattern :=
  node "macro_invocation" (maybe separator >> wordBut expressionWords >> many (separator >> word) >> macroRest)

-- Attributes.

def attributeBody : Pattern :=
  node "attribute" (plainPath >> maybe ((equals >> rule (.expression .free)) <|> rule .tokenTree))

def outerAttribute : Pattern :=
  node "attribute_item" (mark "#" >> inBrackets attributeBody)

def innerAttribute : Pattern :=
  node "inner_attribute_item" (mark "#" >> mark "!" >> inBrackets attributeBody)

def attributes : Pattern := many outerAttribute

-- Modifiers.

def externModifier : Pattern :=
  node "extern_modifier" (keyword "extern" >> maybe stringLiteral)

def functionModifiers : Pattern :=
  node "function_modifiers" (atLeastOne
    (keyword "async" <|> keyword "default" <|> keyword "const" <|> keyword "unsafe" <|> externModifier))

-- The part of a visibility in parentheses.
def restriction : Pattern :=
  inParens (((keyword "self" <|> keyword "super" <|> keyword "crate") >> ahead (mark ")")) <|>
    (keyword "in" >> plainPath))

def visibility : Pattern :=
  node "visibility_modifier" ((keyword "pub" >> maybe restriction) <|>
    (keyword "crate" >> notAhead separator))

-- Types.

def primitiveTypes : List String :=
  ["u8", "i8", "u16", "i16", "u32", "i32", "u64", "i64", "u128", "i128", "isize", "usize", "f32", "f64",
    "bool", "str", "char"]

-- Words that have a meaning of their own where a type starts.
def typeWords : List String :=
  ["for", "fn", "impl", "unsafe", "extern", "async", "const"]

def boundItem : Pattern :=
  lifetime <|> (keyword "use" >> inAngles (list (lifetime <|> word))) <|> rule .bareType

-- Types and lifetimes with pluses between them.
def bounds : Pattern :=
  node "trait_bounds" (colon >> boundItem >> many (mark "+" >> boundItem))

def forLifetimes : Pattern :=
  node "for_lifetimes" (keyword "for" >> inAngles (items lifetime))

def parameter : Pattern :=
  let typed := node "parameter"
    (maybe (keyword "mut" >> notAhead colon) >> field "pattern" (rule .pattern) >> colon >>
      field "type" (rule .type))
  let rest := node "variadic_parameter"
    (maybe (maybe (keyword "mut") >> rule .pattern >> colon) >> mark "...")
  let self := node "self_parameter"
    (maybe (mark "&") >> maybe lifetime >> maybe (keyword "mut") >> keyword "self")
  attributes >> (typed <|> rest <|> self <|> rule .type)

def parameters : Pattern :=
  node "parameters" (inParens (list parameter))

def returnType : Pattern := arrow >> field "return_type" (rule .type)

def typeArgument : Pattern :=
  (literal <|> lifetime <|> rule .block <|> (rule .type >> maybe (equals >> rule .type))) >> maybe bounds

def typeArguments : Pattern :=
  node "type_arguments" (inAngles (items typeArgument))

-- One word of a path in a type.
def typeSegment : Pattern :=
  wordIn primitiveTypes <|> (wordBut typeWords >> maybe (rule .typeArguments))

def typeSegments : Pattern :=
  many (separator >> word >> maybe (rule .typeArguments))

-- A type named by a path, a function trait or a macro call.
def namedType : Pattern :=
  let path := maybe separator >> typeSegment >> typeSegments
  node "macro_invocation" (maybe separator >> wordBut typeWords >> many (separator >> word) >> macroRest) <|>
    (path >> maybe (parameters >> maybe returnType)) <|> metavariable

def functionType : Pattern :=
  node "function_type" (maybe functionModifiers >> keyword "fn" >> parameters >> maybe returnType)

def referenceType : Pattern :=
  mark "&" >> maybe lifetime >> maybe (keyword "mut") >> rule .bareType

def pointerType : Pattern :=
  mark "*" >> (keyword "const" <|> keyword "mut") >> rule .bareType

def arrayType : Pattern :=
  inBrackets (rule .type >> maybe (semicolon >> rule (.expression .free)))

def markedType : Pattern :=
  firstOf [mark "?", forLifetimes, keyword "dyn", keyword "impl"] >> rule .bareType

def qualifiedType : Pattern :=
  qualifiedStart >> maybe (rule .typeArguments) >> typeSegments

def bareType : Pattern :=
  firstOf [referenceType, pointerType, inParens (list (rule .type)), arrayType, mark "!", functionType,
    markedType, qualifiedType, namedType]

-- A type and what is added to it. A lifetime may come first.
def type : Pattern :=
  (rule .bareType <|> (lifetime >> ahead (mark "+"))) >> many (mark "+" >> boundItem)

-- Generic parameters.

def constDefault : Pattern :=
  rule .block <|> (maybe (mark "-") >> literal) <|> word

def typeParameter : Pattern :=
  attributes >> ((keyword "const" >> word >> colon >> rule .type >> maybe (equals >> constDefault)) <|>
    ((lifetime <|> word <|> metavariable) >> maybe bounds >> maybe (equals >> rule .type)))

def typeParameters : Pattern :=
  node "type_parameters" (inAngles (items typeParameter))

def whereClause : Pattern :=
  node "where_clause" (keyword "where" >> list ((lifetime <|> rule .bareType) >> bounds))

-- Patterns.

-- Words that have a meaning of their own where a pattern starts.
def patternWords : List String := ["ref", "mut", "const"]

def rangeMark : Pattern := mark "..=" <|> mark "..." <|> mark ".."

def rangeEnd : Pattern := (maybe (mark "-") >> literal) <|> valuePath patternWords

def fieldPattern : Pattern :=
  attributes >> (mark ".." <|> (integer >> colon >> rule .pattern) <|>
    (word >> colon >> rule .pattern) <|>
    (maybe (keyword "ref" >> ahead word) >> maybe (keyword "mut" >> ahead word) >> (word <|> metavariable)))

def simplePattern : Pattern :=
  firstOf [
    mark "&" >> maybe (keyword "mut") >> rule .simplePattern,
    keyword "ref" >> maybe (keyword "mut") >> rule .simplePattern,
    keyword "mut" >> rule .simplePattern,
    keyword "const" >> rule .block,
    inParens (list (rule .pattern)),
    inBrackets (list (rule .pattern)),
    rangeMark >> maybe rangeEnd,
    maybe (mark "-") >> literal >> maybe (rangeMark >> maybe rangeEnd),
    macroCall,
    valuePath patternWords >> maybe (firstOf [
      inParens (list (rule .pattern)),
      inBraces (list fieldPattern),
      mark "@" >> rule .simplePattern,
      rangeMark >> maybe rangeEnd])]

def pattern : Pattern :=
  maybe (mark "|") >> rule .simplePattern >> many (markNotBefore "|" ['|'] >> rule .simplePattern)

-- Expressions.

def arguments : Pattern :=
  node "arguments" (inParens (list (attributes >> rule (.expression .free))))

-- Marks between two operands, longer ones before those they start with.
def operator : Pattern :=
  firstOf (["<<=", ">>=", "&&", "||", "==", "!=", "<=", ">=", "<<", ">>", "+=", "-=", "*=", "/=", "%=", "^=",
    "&=", "|=", "+", "-", "*", "%", "^", "&", "|", "<", ">"].map mark) <|> markNotBefore "/" ['*'] <|> equals

-- The start of a condition that binds variables.
def letCondition : Position → Pattern
  | .free => nothing
  | _ => maybe (keyword "let" >> rule .pattern >> equals)

-- What keeps a head's block from being read as part of it.
def noBlock : Position → Pattern
  | .head => notAhead (mark "\x7b")
  | _ => nothing

-- What can follow an operand: an operator and another operand, or a range.
def continuation (place : Position) : Pattern :=
  (rangeMark >> maybe (noBlock place >> rule (.operand place))) <|>
    (operator >> letCondition place >> rule (.operand place))

def expression (place : Position) : Pattern :=
  letCondition place >> rule (.operand place) >> many (continuation place)

def trailer : Pattern :=
  firstOf [
    mark "?",
    markNotBefore "." ['.'] >> (integer <|> (word >> maybe (separator >> rule .typeArguments))),
    arguments,
    inBrackets (rule (.expression .free)),
    keyword "as" >> rule .bareType]

def leader : Pattern :=
  mark "-" <|> mark "*" <|> mark "!" <|>
    (mark "&" >> maybe ((keyword "raw" >> (keyword "const" <|> keyword "mut")) <|> keyword "mut"))

def closure (place : Position) : Pattern :=
  node "closure_expression" (maybe (keyword "static") >> maybe (keyword "async") >> maybe (keyword "move") >>
    mark "|" >> list (attributes >> rule .simplePattern >> maybe (colon >> rule .type)) >> mark "|" >>
    ((arrow >> rule .type >> rule .block) <|> rule (.expression place)))

-- The fields of a structure literal.
def fieldInitializer : Pattern :=
  attributes >> ((mark ".." >> rule (.expression .free)) <|>
    ((word <|> integer) >> maybe (colon >> rule (.expression .free))))

def structLiteral : Position → Pattern
  | .head => nothing
  | _ => maybe (inBraces (list fieldInitializer))

def operand (place : Position) : Pattern :=
  let value := maybe (noBlock place >> rule (.expression place))
  many leader >> firstOf [
    closure place,
    keyword "return" >> value,
    keyword "yield" >> value,
    keyword "break" >> maybe (label >> notAhead colon) >> value,
    keyword "continue" >> maybe label,
    rule .blockLike,
    literal,
    rangeMark >> maybe (noBlock place >> rule (.operand place)),
    inParens (attributes >> list (rule (.expression .free))),
    inBrackets (attributes >> maybe (rule (.expression .free) >>
      ((semicolon >> rule (.expression .free)) <|>
        (many (comma >> attributes >> rule (.expression .free)) >> maybe comma)))),
    macroCall,
    valuePath expressionWords >> structLiteral place] >>
    many trailer

-- Expressions that end in a block.

def ifExpression : Pattern :=
  keyword "if" >> rule (.expression .head) >> rule .block >>
    maybe (keyword "else" >> (rule .block <|> rule .ifExpression))

-- The value of an arm: with a comma after it, at the end of the match, or ending in a block.
def armEnd : Pattern := comma <|> ahead (mark "\x7d")

-- The rest of an expression, of which an operand was read.
def expressionRest : Pattern := many trailer >> many (continuation .free)

-- Where an expression that ends in a block starts.
def blockStart : Pattern :=
  let brace := mark "\x7b"
  maybe (label >> colon) >> firstOf [
    brace, keyword "if", keyword "match", keyword "while", keyword "loop", keyword "for",
    (keyword "unsafe" <|> keyword "try" <|> keyword "const") >> brace,
    (keyword "async" <|> keyword "gen") >> maybe (keyword "move") >> brace]

-- What makes an expression of a block at the start of a statement, since no statement can start
-- with it.
def blockContinues : Pattern :=
  firstOf (["==", "!=", ">=", "<=", ">>=", "<<=", "<<", ">>", "&&", "||", "+=", "-=", "*=", "/=", "%=", "^=", "&=",
    "|=", "?", "+", "%", "^", ">"].map mark) <|> markNotBefore "/" ['*'] <|> markNotBefore "." ['.'] <|>
    equals <|> keyword "as"

def matchArm : Pattern :=
  let value :=
    (ahead blockStart >> rule .blockLike >>
      (comma <|> (ahead blockContinues >> expressionRest >> armEnd) <|> nothing)) <|>
    (notAhead blockStart >> rule (.expression .free) >> armEnd)
  node "match_arm" (many (outerAttribute <|> innerAttribute) >> rule .pattern >>
    maybe (keyword "if" >> rule (.expression .guard)) >> mark "=>" >> value)

def matchExpression : Pattern :=
  node "match_expression" (keyword "match" >> rule (.expression .head) >>
    inBraces (many innerAttribute >> many matchArm))

def whileExpression : Pattern :=
  node "while_expression" (keyword "while" >> rule (.expression .head) >> rule .block)

def forExpression : Pattern :=
  node "for_expression" (keyword "for" >> rule .pattern >> keyword "in" >> rule (.expression .head) >>
    rule .block)

-- A block after a keyword, with or without `move` between them.
def leadBlock (kind start : String) : Pattern :=
  node kind (keyword start >> rule .block)

def movingBlock (kind start : String) : Pattern :=
  node kind (keyword start >> maybe (keyword "move") >> rule .block)

def blockLike : Pattern :=
  maybe (label >> colon) >> firstOf [node "if_expression" (rule .ifExpression), matchExpression,
    whileExpression, leadBlock "loop_expression" "loop", forExpression, leadBlock "unsafe_block" "unsafe",
    leadBlock "try_block" "try", leadBlock "const_block" "const", movingBlock "async_block" "async",
    movingBlock "gen_block" "gen", rule .block]

def block : Pattern :=
  node "block" (inBraces (many (rule (.statement .block))))

-- Items.

def name : Pattern := field "name" (word <|> metavariable)
def visible (p : Pattern) : Pattern := maybe visibility >> p

def declarationList : Pattern :=
  node "declaration_list" (inBraces (many (rule .declaration)))

def body : Pattern := field "body" (rule .declarationList)

def constItem : Pattern :=
  node "const_item" (visible (keyword "const" >> name >> colon >> rule .type >>
    maybe (equals >> rule (.expression .free)) >> semicolon))

def staticItem : Pattern :=
  node "static_item" (visible (keyword "static" >> maybe (keyword "ref" >> ahead word) >>
    maybe (keyword "mut" >> ahead word) >> name >> colon >> rule .type >>
    maybe (equals >> rule (.expression .free)) >> semicolon))

def macroRules : Pattern :=
  let arm := node "macro_rule" (rule .tokenTree >> mark "=>" >> rule .tokenTree)
  many (arm >> semicolon) >> maybe arm

-- What starts the definition of a macro, one token with its exclamation mark.
def macroStart : Pattern := mark "macro_rules!"

def macroDefinition : Pattern :=
  node "macro_definition" (macroStart >> name >>
    ((inParens macroRules >> semicolon) <|> (inBrackets macroRules >> semicolon) <|> inBraces macroRules))

def modItem : Pattern :=
  node "mod_item" (visible (keyword "mod" >> name >> (semicolon <|> body)))

def foreignItem : Pattern :=
  node "foreign_mod_item" (visible (maybe (keyword "unsafe") >> externModifier >> (semicolon <|> body)))

def fieldList : Pattern :=
  inBraces (list (attributes >> visible (word >> colon >> rule .type)))

def orderedFieldList : Pattern :=
  inParens (list (attributes >> visible (rule .type)))

def structItem : Pattern :=
  node "struct_item" (visible (keyword "struct" >> name >> maybe typeParameters >>
    (semicolon <|> (orderedFieldList >> maybe whereClause >> semicolon) <|> (maybe whereClause >> fieldList))))

def unionItem : Pattern :=
  node "union_item" (visible (keyword "union" >> name >> maybe typeParameters >> maybe whereClause >> fieldList))

def enumItem : Pattern :=
  let variant := attributes >> visible (word >> maybe (fieldList <|> orderedFieldList) >>
    maybe (equals >> rule (.expression .free)))
  node "enum_item" (visible (keyword "enum" >> name >> maybe typeParameters >> maybe whereClause >>
    inBraces (list variant)))

def typeItem : Pattern :=
  node "type_item" (visible (keyword "type" >> name >> maybe typeParameters >> maybe bounds >>
    maybe whereClause >> maybe (equals >> rule .type) >> maybe whereClause >> semicolon))

def functionHead : Pattern :=
  visible (maybe functionModifiers >> keyword "fn" >> name >> maybe typeParameters >> parameters >>
    maybe returnType >> maybe whereClause)

def functionItem : Pattern :=
  node "function_item" (functionHead >> field "body" (rule .block)) <|>
    node "function_signature_item" (functionHead >> semicolon)

def implItem : Pattern :=
  node "impl_item" (maybe (keyword "unsafe") >> keyword "impl" >> maybe typeParameters >> maybe (mark "!") >>
    rule .bareType >> maybe (keyword "for" >> rule .bareType) >> maybe whereClause >> (body <|> semicolon))

def traitItem : Pattern :=
  node "trait_item" (visible (maybe (keyword "unsafe") >> keyword "trait" >> name >> maybe typeParameters >>
    maybe bounds >> maybe whereClause >> body))

def useTree : Pattern :=
  let group := inBraces (list (rule .useTree))
  maybe separator >> firstOf [
    mark "*",
    group,
    word >> many (separator >> word) >> maybe (separator >> (mark "*" <|> group)) >> maybe (keyword "as" >> word)]

def useDeclaration : Pattern :=
  node "use_declaration" (visible (keyword "use" >> rule .useTree >> semicolon))

def externCrate : Pattern :=
  node "extern_crate_declaration" (visible (keyword "extern" >> keyword "crate" >> word >>
    maybe (keyword "as" >> word) >> semicolon))

def letDeclaration : Pattern :=
  node "let_declaration" (keyword "let" >> maybe (keyword "mut" >> ahead word) >> rule .pattern >>
    maybe (colon >> rule .type) >> maybe (equals >> rule (.expression .free)) >>
    maybe (keyword "else" >> rule .block) >> semicolon)

-- A macro call that no operand or operator makes part of an expression.
def macroStatement : Pattern :=
  macroCall >> notAhead (trailer <|> continuation .free)

def declaration : Pattern :=
  firstOf [
    node "empty_statement" semicolon,
    outerAttribute,
    innerAttribute,
    functionItem,
    modItem,
    implItem,
    useDeclaration,
    constItem,
    structItem,
    enumItem,
    traitItem,
    letDeclaration,
    staticItem,
    typeItem,
    externCrate,
    foreignItem,
    unionItem,
    macroDefinition,
    notAhead macroStart >> macroStatement]

-- Statements.

-- Words that start declarations only.
def declarationWords : List String :=
  ["fn", "struct", "enum", "mod", "impl", "trait", "type", "use", "let", "pub", "extern"]

def statementEnd : Ending → Pattern
  | .semicolon => semicolon
  | .block => semicolon <|> ahead (mark "\x7d")

def statement (ending : Ending) : Pattern :=
  firstOf [
    rule .declaration,
    node "expression_statement" (ahead blockStart >> rule .blockLike >>
      ((ahead blockContinues >> expressionRest >> statementEnd ending) <|> nothing)),
    node "expression_statement" (notAhead (blockStart <|> wordIn declarationWords <|> macroStart) >>
      rule (.expression .free) >> statementEnd ending)]

-- The patterns of the rules.
def grammar : Rule → Pattern
  | .tokenTree => tokenTree
  | .type => type
  | .bareType => bareType
  | .typeArguments => typeArguments
  | .pattern => pattern
  | .simplePattern => simplePattern
  | .useTree => useTree
  | .expression place => expression place
  | .operand place => operand place
  | .blockLike => blockLike
  | .ifExpression => ifExpression
  | .block => block
  | .declarationList => declarationList
  | .declaration => declaration
  | .statement ending => statement ending

end CrateDocs.Rust.Grammar
