import CrateDocs.Yaml.Token

namespace CrateDocs.Yaml

-- Whether one of some tokens comes next, or nothing.
def comesNext (tokens : List Token) (some? : List Token) : Bool :=
  tokens.head?.any some?.contains

-- What is wrong where no token fits.
def unfit (tokens : List Token) : Flaw :=
  if tokens.isEmpty then .cutShort else .misplaced

-- A scalar, in the way it was written.
def scalarValue (text : String) (plain : Bool) : Json :=
  if plain then plainValue text else .string text

-- The fields of a mapping whose keys are scalars.
def mappingOf (fields : List (Json × Json)) : Except Flaw Json := do
  let named ← fields.mapM fun (key, value) =>
    match keyText? key with
    | some name => .ok (name, value)
    | none => .error .badKey
  return .object (Json.mergeFields named)

-- The values that tokens make, and what follows each. The first argument bounds how many follow each
-- other or hold each other.
mutual
-- A value. `inLines` says that it may be a block, and `indentless` that it may be a sequence whose dashes
-- stand right below the key.
def value : Nat → Bool → Bool → List Token → Except Flaw (Json × List Token)
  | 0, _, _, _ => .error .misplaced
  | limit + 1, inLines, indentless, tokens =>
    match tokens with
    | .entry :: _ => if indentless then looseItems limit [] tokens else .error (unfit tokens)
    | .scalar text plain :: rest => .ok (scalarValue text plain, rest)
    | .openBracket :: rest => flowItems limit [] rest
    | .openBrace :: rest => flowFields limit [] rest
    | .sequenceStart :: rest => if inLines then blockItems limit [] rest else .error (unfit tokens)
    | .mappingStart :: rest => if inLines then blockFields limit [] rest else .error (unfit tokens)
    | _ => .error (unfit tokens)
-- A value, or nothing before one of the tokens that may follow it.
def valueBefore : Nat → Bool → Bool → List Token → List Token → Except Flaw (Json × List Token)
  | 0, _, _, _, _ => .error .misplaced
  | limit + 1, inLines, indentless, following, tokens =>
    if comesNext tokens following then .ok (.null, tokens) else value limit inLines indentless tokens
def looseItems : Nat → List Json → List Token → Except Flaw (Json × List Token)
  | 0, _, _ => .error .misplaced
  | limit + 1, items, tokens =>
    match tokens with
    | .entry :: rest => do
      let (item, left) ← valueBefore limit true false [.entry, .key, .value, .blockEnd] rest
      looseItems limit (items ++ [item]) left
    | _ => .ok (.array items, tokens)
def blockItems : Nat → List Json → List Token → Except Flaw (Json × List Token)
  | 0, _, _ => .error .misplaced
  | limit + 1, items, tokens =>
    match tokens with
    | .entry :: rest => do
      let (item, left) ← valueBefore limit true false [.entry, .blockEnd] rest
      blockItems limit (items ++ [item]) left
    | .blockEnd :: rest => .ok (.array items, rest)
    | _ => .error (unfit tokens)
def blockFields : Nat → List (Json × Json) → List Token → Except Flaw (Json × List Token)
  | 0, _, _ => .error .misplaced
  | limit + 1, fields, tokens =>
    match tokens with
    | .key :: rest => do
      let (name, afterKey) ← valueBefore limit true true [.key, .value, .blockEnd] rest
      let (item, left) ← match afterKey with
        | .value :: more => valueBefore limit true true [.key, .value, .blockEnd] more
        | _ => pure (.null, afterKey)
      blockFields limit (fields ++ [(name, item)]) left
    | .blockEnd :: rest => do return (← mappingOf fields, rest)
    | _ => .error (unfit tokens)
-- The rest of a sequence in brackets. A field in it is a mapping of its own.
def flowItems : Nat → List Json → List Token → Except Flaw (Json × List Token)
  | 0, _, _ => .error .misplaced
  | limit + 1, items, tokens =>
    match tokens with
    | .closeBracket :: rest => .ok (.array items, rest)
    | _ => do
      let start ← match items, tokens with
        | [], _ => pure tokens
        | _, .comma :: rest => pure rest
        | _, _ => throw (unfit tokens)
      match start with
      | .closeBracket :: rest => return (.array items, rest)
      | .key :: rest =>
        let (name, afterKey) ← valueBefore limit false false [.value, .comma, .closeBracket] rest
        let (item, left) ← match afterKey with
          | .value :: more => valueBefore limit false false [.comma, .closeBracket] more
          | _ => pure (.null, afterKey)
        flowItems limit (items ++ [← mappingOf [(name, item)]]) left
      | _ =>
        let (item, left) ← value limit false false start
        flowItems limit (items ++ [item]) left
-- The rest of a mapping in braces.
def flowFields : Nat → List (Json × Json) → List Token → Except Flaw (Json × List Token)
  | 0, _, _ => .error .misplaced
  | limit + 1, fields, tokens =>
    match tokens with
    | .closeBrace :: rest => do return (← mappingOf fields, rest)
    | _ => do
      let start ← match fields, tokens with
        | [], _ => pure tokens
        | _, .comma :: rest => pure rest
        | _, _ => throw (unfit tokens)
      match start with
      | .closeBrace :: rest => return (← mappingOf fields, rest)
      | .key :: rest =>
        let (name, afterKey) ← valueBefore limit false false [.value, .comma, .closeBrace] rest
        let (item, left) ← match afterKey with
          | .value :: more => valueBefore limit false false [.comma, .closeBrace] more
          | _ => pure (.null, afterKey)
        flowFields limit (fields ++ [(name, item)]) left
      | _ =>
        let (name, left) ← value limit false false start
        flowFields limit (fields ++ [(name, .null)]) left
end

-- The value of the only document, and what follows it.
def document (limit : Nat) (tokens : List Token) : Except Flaw (Json × List Token) :=
  match tokens with
  | [] => .ok (.null, [])
  | .documentStart :: rest =>
    if rest.isEmpty || comesNext rest [.documentStart, .documentEnd] then .ok (.null, rest)
    else value limit true false rest
  | _ => value limit true false tokens

-- Whether a text may stand in a document.
def isPrintable (c : Char) : Bool :=
  let n := c.toNat
  n == 0x9 || n == 0xA || n == 0xD || (0x20 ≤ n && n ≤ 0x7E) || n == 0x85 || (0xA0 ≤ n && n ≤ 0xFFFD) ||
    0x10000 ≤ n

-- Line breaks of every kind as the plain one. A mark of the byte order at the start is dropped.
def unify : List Char → List Char
  | '\r' :: '\n' :: rest => '\n' :: unify rest
  | '\r' :: rest => '\n' :: unify rest
  | c :: rest => c :: unify rest
  | [] => []

-- The value of a text that is one document.
def parse (text : String) : Except Flaw Json :=
  let cs := unify text.toList
  if !cs.all isPrintable then .error .unprintable
  else
    let start := if cs.head? == some '\uFEFF' then cs.drop 1 else cs
    let (tokens, flaw?) := (Scan.initial start).all (start.length + 1)
    let limit := 4 * tokens.length + 8
    match document limit tokens with
    | .error .cutShort => .error (flaw?.getD .misplaced)
    | .error flaw => .error flaw
    | .ok (found, rest) =>
      match rest.dropWhile (· == .documentEnd), flaw? with
      | [], none => .ok found
      | [], some flaw => .error flaw
      | .documentStart :: _, _ => .error .severalDocuments
      | _, _ => .error .misplaced

end CrateDocs.Yaml
