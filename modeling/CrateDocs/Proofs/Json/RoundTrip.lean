import CrateDocs.Json.Reader
import CrateDocs.Json.Writer

namespace CrateDocs.Json

-- Values of texts, arrays and objects with distinct keys, in which at most `n` containers are open at
-- once.
inductive Fits : Nat → Json → Prop
  | string (n : Nat) (s : String) : Fits n (.string s)
  | array {n : Nat} {items : List Json} (hitems : ∀ item ∈ items, Fits n item) :
      Fits (n + 1) (.array items)
  | object {n : Nat} {fields : List (String × Json)} (hkeys : (fields.map (·.1)).Nodup)
      (hfields : ∀ field ∈ fields, Fits n field.2) : Fits (n + 1) (.object fields)

-- The tokens of a value.
mutual
def tokens : Json → List Token
  | string value => [.text value]
  | array [] => [.openArray, .closeArray]
  | array (item :: items) => .openArray :: (tokens item ++ itemTokens items)
  | object [] => [.openObject, .closeObject]
  | object ((key, value) :: fields) =>
    .openObject :: .text key :: .colon :: (tokens value ++ fieldTokens fields)
  | null => [.atom null]
  | bool value => [.atom (bool value)]
  | number digits => [.atom (number digits)]
def itemTokens : List Json → List Token
  | [] => [.closeArray]
  | item :: items => .comma :: (tokens item ++ itemTokens items)
def fieldTokens : List (String × Json) → List Token
  | [] => [.closeObject]
  | (key, value) :: fields =>
    .comma :: .text key :: .colon :: (tokens value ++ fieldTokens fields)
end

namespace Token

-- Characters of a string come back from the way they are written.

theorem hexValue?_hexDigit : ∀ n < 16, Percent.hexValue? (Text.hexDigit n) = some n := by
  decide

theorem textRest_control {c : Char} (hc : c.toNat < 0x20) (rest read : List Char) :
    textRest ('\\' :: 'u' :: Text.hexText 4 c.toNat ++ rest) (.plain none) read =
      textRest rest (.plain none) (c :: read) := by
  have hdigits : Text.hexText 4 c.toNat =
      [Text.hexDigit 0, Text.hexDigit 0, Text.hexDigit (c.toNat / 16), Text.hexDigit (c.toNat % 16)] := by
    simp only [Text.hexText, List.nil_append, List.cons_append]
    rw [show c.toNat / 16 / 16 / 16 % 16 = 0 by omega, show c.toNat / 16 / 16 % 16 = 0 by omega,
      show c.toNat / 16 % 16 = c.toNat / 16 by omega]
  have hvalue : 16 * (16 * (16 * (16 * 0 + 0) + 0) + c.toNat / 16) + c.toNat % 16 = c.toNat := by omega
  have hhigh : isHighHalf c.toNat = false := by simp [isHighHalf]; omega
  have hlow : isLowHalf c.toNat = false := by simp [isLowHalf]; omega
  rw [hdigits]
  simp only [List.cons_append, List.nil_append, textRest,
    hexValue?_hexDigit 0 (by omega), hexValue?_hexDigit (c.toNat / 16) (by omega),
    hexValue?_hexDigit (c.toNat % 16) (by omega), hvalue, hhigh, hlow, Char.ofNat_toNat]
  simp

theorem textRest_escapedChar (c : Char) (rest read : List Char) :
    textRest (escapedChar c ++ rest) (.plain none) read = textRest rest (.plain none) (c :: read) := by
  by_cases hquote : c = '"'
  · subst hquote; rfl
  by_cases hslash : c = '\\'
  · subst hslash; rfl
  by_cases hback : c = '\x08'
  · subst hback; rfl
  by_cases htab : c = '\t'
  · subst htab; rfl
  by_cases hline : c = '\n'
  · subst hline; rfl
  by_cases hform : c = '\x0c'
  · subst hform; rfl
  by_cases hreturn : c = '\r'
  · subst hreturn; rfl
  by_cases hcontrol : c.toNat < 0x20
  · simpa [escapedChar, hquote, hslash, hback, htab, hline, hform, hreturn, hcontrol] using
      textRest_control hcontrol rest read
  · simp [escapedChar, hquote, hslash, hback, htab, hline, hform, hreturn, hcontrol, textRest]

theorem textRest_flatMap (cs rest read : List Char) :
    textRest (cs.flatMap escapedChar ++ '"' :: rest) (.plain none) read =
      some (String.ofList (read.reverse ++ cs), rest) := by
  induction cs generalizing read with
  | nil => simp [textRest]
  | cons c cs ih =>
      rw [List.flatMap_cons, List.append_assoc, textRest_escapedChar, ih]
      simp

theorem first?_stringText (s : String) (rest : List Char) :
    first? (stringText s ++ rest) = some (.text s, rest) := by
  have htext := textRest_flatMap s.toList rest []
  simp only [stringText, List.cons_append, List.append_assoc, first?] at htext ⊢
  simp [htext]

-- What scanning does with each piece of written text.

theorem scan_of_first? {cs rest : List Char} {token : Token} {c : Char} {tail : List Char}
    (hcs : cs = c :: tail) (hspace : isSpace c = false) (hfirst : first? cs = some (token, rest))
    (hlength : rest.length < cs.length) : scan cs = (scan rest).map (token :: ·) := by
  subst hcs
  rw [scan, if_neg (by simp [hspace])]
  simp only [hfirst, hlength, if_true]

theorem scan_stringText (s : String) (rest : List Char) :
    scan (stringText s ++ rest) = (scan rest).map (.text s :: ·) := by
  refine scan_of_first? rfl (by decide) (first?_stringText s rest) ?_
  simp [stringText]
  omega

theorem scan_space {c : Char} (hc : isSpace c = true) (rest : List Char) :
    scan (c :: rest) = scan rest := by
  rw [scan, if_pos hc]

theorem scan_lineStart (depth : Nat) (rest : List Char) : scan (lineStart depth ++ rest) = scan rest := by
  have hblanks : ∀ n, scan (List.replicate n ' ' ++ rest) = scan rest := by
    intro n
    induction n with
    | zero => rfl
    | succ n ih => rw [List.replicate_succ, List.cons_append, scan_space (by decide), ih]
  rw [lineStart, List.cons_append, scan_space (by decide), hblanks]

-- The tokens that are one character.
def mark? : Char → Option Token
  | '[' => some .openArray
  | ']' => some .closeArray
  | '\x7b' => some .openObject
  | '\x7d' => some .closeObject
  | ',' => some .comma
  | ':' => some .colon
  | _ => none

theorem first?_mark {c : Char} {token : Token} (hc : mark? c = some token) :
    isSpace c = false ∧ ∀ rest, first? (c :: rest) = some (token, rest) := by
  unfold mark? at hc
  split at hc
  case h_7 => cases hc
  all_goals
    obtain rfl := Option.some.inj hc
    exact ⟨rfl, fun _ => rfl⟩

theorem scan_mark {c : Char} {token : Token} (hc : mark? c = some token) (rest : List Char) :
    scan (c :: rest) = (scan rest).map (token :: ·) :=
  scan_of_first? rfl (first?_mark hc).1 ((first?_mark hc).2 rest) (Nat.lt_succ_self rest.length)

end Token

open Token

-- Scanning a written value gives its tokens, and goes on with what comes after.
def Scans (written : Nat → List Char) (found : List Token) : Prop :=
  ∀ depth rest, scan (written depth ++ rest) = (scan rest).map (found ++ ·)

theorem scans_items {items : List Json} (h : ∀ item ∈ items, Scans (indented · item) (tokens item)) :
    Scans (indentedItems · items) (itemTokens items) := by
  intro depth rest
  induction items with
  | nil =>
      simp only [indentedItems, itemTokens, List.append_assoc, scan_lineStart]
      exact scan_mark rfl rest
  | cons item items ih =>
      have hitem := h item List.mem_cons_self
      have hrest := ih fun other hother => h other (List.mem_cons_of_mem item hother)
      simp only [indentedItems, itemTokens, List.cons_append, List.append_assoc,
        scan_mark (show mark? ',' = some .comma from rfl), scan_lineStart, hitem (depth + 1), hrest,
        Option.map_map]
      rfl

theorem scans_fields {fields : List (String × Json)}
    (h : ∀ field ∈ fields, Scans (indented · field.2) (tokens field.2)) :
    Scans (indentedFields · fields) (fieldTokens fields) := by
  intro depth rest
  induction fields with
  | nil =>
      simp only [indentedFields, fieldTokens, List.append_assoc, scan_lineStart]
      exact scan_mark rfl rest
  | cons field fields ih =>
      have hfield := h field List.mem_cons_self
      have hrest := ih fun other hother => h other (List.mem_cons_of_mem field hother)
      simp only [indentedFields, fieldTokens, List.cons_append, List.append_assoc,
        scan_mark (show mark? ',' = some .comma from rfl), scan_lineStart, scan_stringText,
        scan_mark (show mark? ':' = some .colon from rfl),
        scan_space (show isSpace ' ' = true from rfl), hfield (depth + 1), hrest, Option.map_map]
      rfl

theorem scans_indented {n : Nat} {v : Json} (h : Fits n v) : Scans (indented · v) (tokens v) := by
  induction h with
  | string n s =>
      intro depth rest
      simpa [indented, tokens] using scan_stringText s rest
  | @array n items hitems ih =>
      intro depth rest
      cases items with
      | nil =>
          simp only [indented, tokens, List.cons_append, List.nil_append,
            scan_mark (show mark? '[' = some .openArray from rfl),
            scan_mark (show mark? ']' = some .closeArray from rfl), Option.map_map]
          rfl
      | cons item items =>
          have hitem := ih item List.mem_cons_self
          have hrest := scans_items fun other hother => ih other (List.mem_cons_of_mem item hother)
          simp only [indented, tokens, List.cons_append, List.append_assoc,
            scan_mark (show mark? '[' = some .openArray from rfl), scan_lineStart,
            hitem (depth + 1), hrest depth rest, Option.map_map]
          rfl
  | @object n fields hkeys hfields ih =>
      intro depth rest
      cases fields with
      | nil =>
          simp only [indented, tokens, List.cons_append, List.nil_append,
            scan_mark (show mark? '\x7b' = some .openObject from rfl),
            scan_mark (show mark? '\x7d' = some .closeObject from rfl), Option.map_map]
          rfl
      | cons field fields =>
          have hfield := ih field List.mem_cons_self
          have hrest := scans_fields fun other hother => ih other (List.mem_cons_of_mem field hother)
          simp only [indented, tokens, List.cons_append, List.append_assoc,
            scan_mark (show mark? '\x7b' = some .openObject from rfl), scan_lineStart, scan_stringText,
            scan_mark (show mark? ':' = some .colon from rfl),
            scan_space (show isSpace ' ' = true from rfl), hfield (depth + 1), hrest depth rest,
            Option.map_map]
          rfl

-- Objects whose keys are distinct are read as they were written.

theorem setField_of_notMem {fields : List (String × Json)} {key : String} (value : Json)
    (h : key ∉ fields.map (·.1)) : setField fields key value = fields ++ [(key, value)] := by
  have hany : (fields.any fun field => field.1 == key) = false := by
    rw [List.any_eq_false]
    intro field hfield heq
    exact h (List.mem_map.mpr ⟨field, hfield, beq_iff_eq.mp heq⟩)
  simp [setField, hany]

theorem mergeFields_of_nodup {fields : List (String × Json)} (h : (fields.map (·.1)).Nodup) :
    mergeFields fields = fields := by
  have hfold : ∀ done rest : List (String × Json), ((done ++ rest).map (·.1)).Nodup →
      rest.foldl (fun merged field => setField merged field.1 field.2) done = done ++ rest := by
    intro done rest
    induction rest generalizing done with
    | nil => simp
    | cons field rest ih =>
        intro hnodup
        have hkey : field.1 ∉ done.map (·.1) := by
          rw [List.map_append, List.map_cons, List.nodup_append] at hnodup
          intro hmem
          exact hnodup.2.2 field.1 hmem field.1 List.mem_cons_self rfl
        rw [List.foldl_cons, setField_of_notMem field.2 hkey, ih _ (by simpa using hnodup)]
        simp
  simpa [mergeFields] using hfold [] fields (by simpa using h)

-- Reading the tokens of a value where one is expected is taking the value in.

namespace Progress

-- A value whose tokens are taken in as a whole, below any containers that leave room for `n` more.
def TakesIn (limit n : Nat) (v : Json) : Prop :=
  ∀ frames expected, expected = .value ∨ expected = .valueOrEnd → frames.length + n ≤ limit →
    (tokens v).foldlM (step limit) ⟨frames, expected⟩ = accept v frames

theorem step_value {limit : Nat} {frames : List Frame} {expected : Expected} {token : Token}
    (h : expected = .value ∨ expected = .valueOrEnd) (htoken : token ≠ .closeArray) :
    step limit ⟨frames, expected⟩ token = takeValue limit frames token := by
  rcases h with rfl | rfl
  · rfl
  · cases token with
    | closeArray => exact absurd rfl htoken
    | _ => rfl

theorem foldlM_step {limit : Nat} {p q : Progress} {token : Token} (h : step limit p token = some q)
    (rest : List Token) :
    (token :: rest).foldlM (step limit) p = rest.foldlM (step limit) q := by
  rw [List.foldlM_cons, h]
  rfl

theorem foldlM_last (limit : Nat) (p : Progress) (token : Token) :
    [token].foldlM (step limit) p = step limit p token := by
  rw [List.foldlM_cons]
  exact bind_pure (step limit p token)

theorem takesIn_items {limit n : Nat} {items : List Json} (h : ∀ item ∈ items, TakesIn limit n item)
    (frames : List Frame) (hroom : frames.length + (n + 1) ≤ limit) (done : List Json) :
    (itemTokens items).foldlM (step limit) ⟨.array done :: frames, .commaOrEnd⟩ =
      accept (.array (done.reverse ++ items)) frames := by
  induction items generalizing done with
  | nil =>
      rw [itemTokens, foldlM_last, List.append_nil]
      rfl
  | cons item items ih =>
      have hitem := h item List.mem_cons_self (.array done :: frames) .value (Or.inl rfl)
        (by rw [List.length_cons]; omega)
      have hrest := ih (fun other hother => h other (List.mem_cons_of_mem item hother)) (item :: done)
      rw [itemTokens, foldlM_step rfl, List.foldlM_append, hitem]
      rw [List.reverse_cons, List.append_assoc] at hrest
      exact hrest

theorem takesIn_fields {limit n : Nat} {fields : List (String × Json)}
    (h : ∀ field ∈ fields, TakesIn limit n field.2) (frames : List Frame)
    (hroom : frames.length + (n + 1) ≤ limit) (done : List (String × Json)) :
    (fieldTokens fields).foldlM (step limit) ⟨.object done :: frames, .commaOrEnd⟩ =
      accept (.object (mergeFields (done.reverse ++ fields))) frames := by
  induction fields generalizing done with
  | nil =>
      rw [fieldTokens, foldlM_last, List.append_nil]
      rfl
  | cons field fields ih =>
      have hfield := h field List.mem_cons_self (.field done field.1 :: frames) .value (Or.inl rfl)
        (by rw [List.length_cons]; omega)
      have hrest := ih (fun other hother => h other (List.mem_cons_of_mem field hother)) (field :: done)
      rw [fieldTokens, foldlM_step rfl, foldlM_step rfl, foldlM_step rfl, List.foldlM_append, hfield]
      rw [List.reverse_cons, List.append_assoc] at hrest
      exact hrest

theorem takesIn_of_fits {limit n : Nat} {v : Json} (h : Fits n v) : TakesIn limit n v := by
  induction h with
  | string n s =>
      intro frames expected hexpected hroom
      rw [tokens, foldlM_last, step_value hexpected (by simp), takeValue]
  | @array n items hitems ih =>
      intro frames expected hexpected hroom
      have henter : step limit ⟨frames, expected⟩ .openArray =
          some ⟨.array [] :: frames, .valueOrEnd⟩ := by
        rw [step_value hexpected (by simp), takeValue, enter, if_pos (by omega)]
      cases items with
      | nil =>
          rw [tokens, foldlM_step henter, foldlM_last]
          rfl
      | cons item items =>
          have hitem := ih item List.mem_cons_self (.array [] :: frames) .valueOrEnd (Or.inr rfl)
            (by rw [List.length_cons]; omega)
          have hrest := takesIn_items (fun other hother => ih other (List.mem_cons_of_mem item hother))
            frames hroom [item]
          rw [tokens, foldlM_step henter, List.foldlM_append, hitem]
          exact hrest
  | @object n fields hkeys hfields ih =>
      intro frames expected hexpected hroom
      have henter : step limit ⟨frames, expected⟩ .openObject =
          some ⟨.object [] :: frames, .keyOrEnd⟩ := by
        rw [step_value hexpected (by simp), takeValue, enter, if_pos (by omega)]
      cases fields with
      | nil =>
          rw [tokens, foldlM_step henter, foldlM_last]
          rfl
      | cons field fields =>
          have hfield := ih field List.mem_cons_self (.field [] field.1 :: frames) .value (Or.inl rfl)
            (by rw [List.length_cons]; omega)
          have hrest := takesIn_fields (fun other hother => ih other (List.mem_cons_of_mem field hother))
            frames hroom [field]
          rw [List.reverse_singleton, List.singleton_append, mergeFields_of_nodup hkeys] at hrest
          rw [tokens, foldlM_step henter, foldlM_step rfl, foldlM_step rfl, List.foldlM_append, hfield]
          exact hrest

end Progress

theorem parse?_indented {limit n : Nat} {v : Json} (h : Fits n v) (hn : n ≤ limit) :
    parse? limit (String.ofList (indented 0 v ++ ['\n'])) = some v := by
  have hscan : scan (String.ofList (indented 0 v ++ ['\n'])).toList = some (tokens v) := by
    have hend : scan ['\n'] = some [] := by rw [scan_space (by decide), scan]
    rw [String.toList_ofList, scans_indented h 0 ['\n'], hend]
    simp
  have hread := Progress.takesIn_of_fits h [] .value (Or.inl rfl) (by simpa using hn)
  simp only [parse?, hscan, Progress.initial, Option.bind_eq_bind, Option.bind_some, hread, Progress.accept]

end CrateDocs.Json
