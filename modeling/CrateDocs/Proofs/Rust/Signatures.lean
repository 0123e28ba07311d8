import CrateDocs.Proofs.Rust.Lexemes
import CrateDocs.Rust.Parse

namespace CrateDocs.Rust

open Syntax (Node Source Terminal)
open Syntax.Pattern (OfTokens)
open Syntax.Signature

-- The terminals of the language read tokens.

theorem Lexeme.Fenced.readsTokens {t : Terminal} (h : Lexeme.Fenced t.lexeme) :
    Syntax.Pattern.Terminal.ReadsTokens t := by
  intro gs count hread
  obtain ⟨hfirst, hlast⟩ := h gs count hread
  exact isToken_of_firm hfirst hlast

-- A terminal for one text, whatever may or may not follow.
theorem readsTokens_of_exactly {t : Terminal} {text : String} (htext : IsToken text)
    (h : ∀ gs count, t.lexeme gs = some count → Lexeme.exactly text gs = some count) :
    Syntax.Pattern.Terminal.ReadsTokens t := by
  intro gs count hread
  obtain ⟨hstarts, rfl⟩ := Lexeme.exactly_eq_some_iff.mp (h gs count hread)
  rw [← String.length_toList, letters_startsWithChars hstarts, String.ofList_toList]
  exact htext

namespace Grammar

@[simp] theorem ofTokens_mark {text : String} (h : IsToken text) : OfTokens (mark text) :=
  readsTokens_of_exactly h fun _ _ hread => hread

@[simp] theorem ofTokens_markNotBefore {text : String} {following : List Char} (h : IsToken text) :
    OfTokens (markNotBefore text following) :=
  readsTokens_of_exactly h fun _ _ => Lexeme.exactly_of_exactlyNotBefore

@[simp] theorem ofTokens_keyword {text : String} (h : IsToken text) : OfTokens (keyword text) :=
  readsTokens_of_exactly h fun _ _ => Lexeme.exactly_of_keyword

@[simp] theorem ofTokens_word : OfTokens word :=
  (Lexeme.fenced_of_firm fun _ _ => Lexeme.identifier_firm).readsTokens

@[simp] theorem ofTokens_wordBut (words : List String) : OfTokens (wordBut words) :=
  (Lexeme.fenced_of_firm fun _ _ h => Lexeme.identifier_firm (Lexeme.identifier_of_identifierBut h)).readsTokens

@[simp] theorem ofTokens_wordIn (words : List String) : OfTokens (wordIn words) :=
  (Lexeme.fenced_of_firm fun _ _ h => Lexeme.identifier_firm (Lexeme.identifier_of_identifierIn h)).readsTokens

@[simp] theorem ofTokens_metavariable : OfTokens metavariable :=
  (Lexeme.fenced_of_firm fun _ _ => Lexeme.metavariable_firm).readsTokens

@[simp] theorem ofTokens_integer : OfTokens integer :=
  (Lexeme.fenced_of_firm fun _ _ => Lexeme.integer_firm).readsTokens

@[simp] theorem ofTokens_stringLiteral : OfTokens stringLiteral := Lexeme.fenced_string.readsTokens

@[simp] theorem ofTokens_literal : OfTokens literal :=
  ⟨(Lexeme.fenced_of_firm fun _ _ => Lexeme.float_firm).readsTokens, ofTokens_integer,
    Lexeme.fenced_rawString.readsTokens, ofTokens_stringLiteral, Lexeme.fenced_char.readsTokens⟩

-- Patterns made of others.

section Combinators

open Syntax.Pattern (rule node field nothing many ahead notAhead)

variable {p first second : Pattern}

@[simp] theorem ofTokens_seq : OfTokens (first >> second) ↔ OfTokens first ∧ OfTokens second := Iff.rfl
@[simp] theorem ofTokens_choice : OfTokens (first <|> second) ↔ OfTokens first ∧ OfTokens second := Iff.rfl
@[simp] theorem ofTokens_nothing : OfTokens (nothing : Pattern) := trivial
@[simp] theorem ofTokens_rule {r : Rule} : OfTokens (rule r) := trivial
@[simp] theorem ofTokens_ahead : OfTokens (ahead p) := trivial
@[simp] theorem ofTokens_notAhead : OfTokens (notAhead p) := trivial
@[simp] theorem ofTokens_many : OfTokens (many p) ↔ OfTokens p := Iff.rfl
@[simp] theorem ofTokens_field {name : String} : OfTokens (field name p) ↔ OfTokens p := Iff.rfl
@[simp] theorem ofTokens_maybe : OfTokens (maybe p) ↔ OfTokens p := iff_of_eq (and_true _)

@[simp] theorem ofTokens_node {kind : String} (h : isAtomic kind = false) : OfTokens (node kind p) ↔ OfTokens p :=
  and_iff_right h

@[simp] theorem ofTokens_firstOf {ps : List Pattern} : OfTokens (firstOf ps) ↔ ∀ p ∈ ps, OfTokens p := by
  induction ps with
  | nil => simp [firstOf]
  | cons p rest ih =>
      cases rest with
      | nil => simp [firstOf]
      | cons next rest =>
          have hnext : firstOf (p :: next :: rest) = (p <|> firstOf (next :: rest)) := rfl
          rw [hnext, ofTokens_choice, ih, ← List.forall_mem_cons]

@[simp] theorem ofTokens_atLeastOne : OfTokens (atLeastOne p) ↔ OfTokens p := and_self_iff

@[simp] theorem ofTokens_list : OfTokens (list p) ↔ OfTokens p := by
  simp (disch := decide) [list, items, comma]

@[simp] theorem ofTokens_items : OfTokens (items p) ↔ OfTokens p := by
  simp (disch := decide) [items, comma]

@[simp] theorem ofTokens_inParens : OfTokens (inParens p) ↔ OfTokens p := by
  simp (disch := decide) [inParens]

@[simp] theorem ofTokens_inBrackets : OfTokens (inBrackets p) ↔ OfTokens p := by
  simp (disch := decide) [inBrackets]

@[simp] theorem ofTokens_inBraces : OfTokens (inBraces p) ↔ OfTokens p := by
  simp (disch := decide) [inBraces]

@[simp] theorem ofTokens_inAngles : OfTokens (inAngles p) ↔ OfTokens p := by
  simp (disch := decide) [inAngles]

end Combinators

-- The parts that several rules share.

@[simp] theorem ofTokens_separator : OfTokens separator := ofTokens_mark (by decide)
@[simp] theorem ofTokens_comma : OfTokens comma := ofTokens_mark (by decide)
@[simp] theorem ofTokens_semicolon : OfTokens semicolon := ofTokens_mark (by decide)
@[simp] theorem ofTokens_arrow : OfTokens arrow := ofTokens_mark (by decide)
@[simp] theorem ofTokens_colon : OfTokens colon := ofTokens_markNotBefore (by decide)
@[simp] theorem ofTokens_equals : OfTokens equals := ofTokens_markNotBefore (by decide)

@[simp] theorem ofTokens_lifetime : OfTokens lifetime := by
  simp (disch := decide) [lifetime]

@[simp] theorem ofTokens_label : OfTokens label := by
  simp (disch := decide) [label]

@[simp] theorem ofTokens_outerAttribute : OfTokens outerAttribute := by
  simp (disch := decide) [outerAttribute, attributeBody, plainPath]

@[simp] theorem ofTokens_innerAttribute : OfTokens innerAttribute := by
  simp (disch := decide) [innerAttribute, attributeBody, plainPath]

@[simp] theorem ofTokens_attributes : OfTokens attributes := by
  simp (disch := decide) [attributes]

@[simp] theorem ofTokens_macroRest : OfTokens macroRest := by
  simp (disch := decide) [macroRest]

@[simp] theorem ofTokens_macroCall : OfTokens macroCall := by
  simp (disch := decide) [macroCall]

@[simp] theorem ofTokens_valuePath (words : List String) : OfTokens (valuePath words) := by
  simp (disch := decide) [valuePath, qualifiedStart]

@[simp] theorem ofTokens_externModifier : OfTokens externModifier := by
  simp (disch := decide) [externModifier]

@[simp] theorem ofTokens_functionModifiers : OfTokens functionModifiers := by
  simp (disch := decide) [functionModifiers]

@[simp] theorem ofTokens_visibility : OfTokens visibility := by
  simp (disch := decide) [visibility, restriction, plainPath]

@[simp] theorem ofTokens_boundItem : OfTokens boundItem := by
  simp (disch := decide) [boundItem]

@[simp] theorem ofTokens_bounds : OfTokens bounds := by
  simp (disch := decide) [bounds]

@[simp] theorem ofTokens_returnType : OfTokens returnType := by
  simp (disch := decide) [returnType]

@[simp] theorem ofTokens_parameters : OfTokens parameters := by
  simp (disch := decide) [parameters, parameter]

@[simp] theorem ofTokens_typeParameters : OfTokens typeParameters := by
  simp (disch := decide) [typeParameters, typeParameter, constDefault]

@[simp] theorem ofTokens_whereClause : OfTokens whereClause := by
  simp (disch := decide) [whereClause]

@[simp] theorem ofTokens_rangeMark : OfTokens rangeMark := by
  simp (disch := decide) [rangeMark]

@[simp] theorem ofTokens_trailer : OfTokens trailer := by
  simp (disch := decide) [trailer, arguments]

@[simp] theorem ofTokens_body : OfTokens body := by
  simp (disch := decide) [body]

@[simp] theorem ofTokens_name : OfTokens name := by
  simp (disch := decide) [name]

@[simp] theorem ofTokens_continuation (place : Position) : OfTokens (continuation place) := by
  cases place <;> simp (disch := decide) [continuation, operator, letCondition, noBlock]

@[simp] theorem ofTokens_expressionRest : OfTokens expressionRest := by
  simp [expressionRest]

-- The rules.

theorem ofTokens_bareType : OfTokens bareType := by
  simp (disch := decide) [bareType, referenceType, pointerType, arrayType, functionType, markedType, forLifetimes,
    qualifiedType, qualifiedStart, typeSegments, namedType, typeSegment]

theorem ofTokens_simplePattern : OfTokens simplePattern := by
  simp (disch := decide) [simplePattern, rangeEnd, fieldPattern]

theorem ofTokens_operand (place : Position) : OfTokens (operand place) := by
  cases place <;>
    simp (disch := decide) [operand, leader, closure, noBlock, structLiteral, fieldInitializer]

theorem ofTokens_blockLike : OfTokens blockLike := by
  simp (disch := decide) [blockLike, matchExpression, matchArm, armEnd, whileExpression, leadBlock, forExpression,
    movingBlock]

theorem ofTokens_declaration : OfTokens declaration := by
  simp (disch := decide) [declaration, functionItem, functionHead, visible, modItem, implItem, useDeclaration,
    constItem, structItem, orderedFieldList, fieldList, enumItem, traitItem, letDeclaration, staticItem, typeItem,
    externCrate, foreignItem, unionItem, macroDefinition, macroRules, macroStart, macroStatement]

theorem ofTokens_statement (ending : Ending) : OfTokens (statement ending) := by
  cases ending <;> simp (disch := decide) [statement, statementEnd]

theorem ofTokens_grammar (r : Rule) : OfTokens (grammar r) := by
  cases r with
  | tokenTree => simp (disch := decide) [grammar, tokenTree, treeToken, treeMarks]
  | type => simp (disch := decide) [grammar, type]
  | bareType => exact ofTokens_bareType
  | typeArguments => simp (disch := decide) [grammar, typeArguments, typeArgument]
  | pattern => simp (disch := decide) [grammar, pattern]
  | simplePattern => exact ofTokens_simplePattern
  | useTree => simp (disch := decide) [grammar, useTree]
  | expression place => cases place <;> simp (disch := decide) [grammar, expression, letCondition]
  | operand place => exact ofTokens_operand place
  | blockLike => exact ofTokens_blockLike
  | ifExpression => simp (disch := decide) [grammar, ifExpression]
  | block => simp (disch := decide) [grammar, block]
  | declarationList => simp (disch := decide) [grammar, declarationList]
  | declaration => exact ofTokens_declaration
  | statement ending => exact ofTokens_statement ending

end Grammar

-- The nodes of a file.

open Syntax.Pattern (Cursor run run_choice run_made run_nothing run_seq run_token skip_at)
open Syntax (Made)

theorem plain_trivia : trivia.Plain := by
  intro entry hentry
  simp only [trivia, List.mem_cons, List.not_mem_nil, or_false] at hentry
  rcases hentry with rfl | rfl <;> rfl

theorem fileStart_at (bytes : List UInt8) : (fileStart bytes).At bytes := by
  rw [fileStart]
  split
  · rename_i width rest hglyphs
    have hrest := Utf8.glyphs_drop bytes 1
    rw [hglyphs] at hrest
    exact hrest
  · rfl

-- A node that is part of no declaration: it has no others below it and is no function.
def Aside (n : Node) : Prop := n.children = [] ∧ n.kind ≠ "function_item"

theorem aside_of_comment {n : Node} (h : n.children = [] ∧ n.isComment = true) : Aside n := by
  refine ⟨h.1, fun hkind => ?_⟩
  have hcomment := h.2
  rw [Node.isComment, hkind] at hcomment
  cases hcomment

variable {s : Source}

theorem run_shebang {fuel : Nat} {c after : Cursor} {nodes : List Node} (hc : c.At s.bytes)
    (h : run trivia Grammar.grammar fuel shebang c = some (after, nodes)) :
    after.At s.bytes ∧ ∀ n ∈ nodes, Aside n := by
  obtain ⟨depth, -, hread | hread⟩ := run_choice h
  · obtain ⟨place, count, comments, hplace, -, rfl, hcomments, rfl⟩ := run_token plain_trivia hc hread
    refine ⟨hplace.advance count, List.forall_mem_append.mpr ⟨fun n hn => aside_of_comment (hcomments n hn), ?_⟩⟩
    intro n hn
    rw [List.mem_singleton.mp hn]
    exact ⟨rfl, (by decide : "shebang" ≠ "function_item")⟩
  · obtain ⟨rfl, rfl⟩ := run_nothing hread
    exact ⟨hc, by simp⟩

theorem run_file {fuel : Nat} {c after : Cursor} {nodes : List Node} (hc : c.At s.bytes)
    (h : run trivia Grammar.grammar fuel file c = some (after, nodes)) :
    after.At s.bytes ∧ ∀ n ∈ nodes, Aside n ∨ Made (fun start stop => IsToken (s.slice start stop)) n := by
  obtain ⟨depth, -, middle, first, second, hfirst, hsecond, rfl⟩ := run_seq h
  obtain ⟨hmiddle, haside⟩ := run_shebang hc hfirst
  obtain ⟨hlast, hmade⟩ := run_made plain_trivia Grammar.ofTokens_grammar (by simp) hmiddle hsecond
  exact ⟨hlast, List.forall_mem_append.mpr ⟨fun n hn => Or.inl (haside n hn), fun n hn => Or.inr (hmade n hn)⟩⟩

theorem children_parse (child : Node) (h : child ∈ (parse s.bytes).children) :
    Aside child ∨ Made (fun start stop => IsToken (s.slice start stop)) child := by
  have hstart := fileStart_at s.bytes
  rw [parse] at h
  generalize hread : run trivia Grammar.grammar (depthFor (fileStart s.bytes)) file (fileStart s.bytes) = result at h
  have hresult : (result.getD (fileStart s.bytes, [])).1.At s.bytes ∧ ∀ n ∈ (result.getD (fileStart s.bytes, [])).2,
      Aside n ∨ Made (fun start stop => IsToken (s.slice start stop)) n := by
    cases result with
    | none => exact ⟨hstart, by simp⟩
    | some pair => exact run_file hstart hread
  have hcomments := (skip_at plain_trivia ((result.getD (fileStart s.bytes, [])).1.rest.length + 1) hresult.1).2
  rcases List.mem_append.mp h with h | h
  · rcases List.mem_append.mp h with h | h
    · exact hresult.2 child h
    · exact Or.inl (aside_of_comment (hcomments child h))
  · split at h
    · cases h
    · rw [List.mem_singleton.mp h]
      exact Or.inl ⟨rfl, (by decide : Node.errorKind ≠ "function_item")⟩

-- The leaves of every function in the tree of a file are tokens, whatever bytes the file holds.
theorem isToken_of_parse {address : List Nat} {n : Node} {ls : List Node}
    (hn : nodeAt (parse s.bytes) address = some n) (hkind : n.kind = "function_item") (hls : LeafSequence n ls) :
    ∀ leaf ∈ ls, IsToken (s.text leaf) := by
  cases address with
  | nil =>
      have hroot : (parse s.bytes).kind = "source_file" := rfl
      rw [← Option.some.inj hn, hroot] at hkind
      exact absurd hkind (by decide)
  | cons i address =>
      obtain ⟨child, hchild, hn⟩ := Option.bind_eq_some_iff.mp hn
      rcases children_parse child (List.mem_of_getElem? hchild) with ⟨hnone, hother⟩ | hmade
      · cases address with
        | nil => exact absurd hkind (Option.some.inj hn ▸ hother)
        | cons j address => simp [nodeAt, hnone] at hn
      · rw [leafSequence_iff.mp hls]
        exact (hmade.nodeAt hn).of_mem_declarationLeaves

end CrateDocs.Rust
