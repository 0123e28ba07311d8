import CrateDocs.Proofs.FunctionDoc.Conformance

namespace CrateDocs.FunctionDoc

-- What is told of a value that is refused.

-- A problem of a part, told of the whole.
def Problem.under (spot : List Step) (p : Problem) : Problem :=
  { p with spot := spot ++ p.spot }

def notText? (entry : Json × Nat) : Option Problem :=
  if entry.1.string?.isSome then none else some ⟨.notString, [.index entry.2]⟩

-- The problems of a value that should have some content.
def Content.faults : Content → Json → List Problem
  | .path, .array items => items.zipIdx.filterMap notText?
  | .path, _ => [⟨.notPath, []⟩]
  | .text, .string _ => []
  | .text, _ => [⟨.notString, []⟩]
  | .tag known, .string s => if s ∈ known then [] else [⟨.notTag, []⟩]
  | .tag _, _ => [⟨.notTag, []⟩]

def Field.faults (f : Field) (fields : List (String × Json)) : List Problem :=
  match field? f.keys fields with
  | some (key, value) => (f.content.faults value).map (Problem.under [.key key])
  | none => [⟨.missing, [.key f.key]⟩]

theorem problems_checkString (spot : List Step) (value : Json) :
    problems (checkString spot value) = (Content.text.faults value).map (Problem.under spot) := by
  cases value <;> simp [checkString, problems, Content.faults, Problem.under]

theorem problems_checkTag {α : Type} [Tagged α] (spot : List Step) (value : Json) :
    problems (checkTag spot value : Checked α) = ((Content.tag (tagsOf α)).faults value).map (Problem.under spot) := by
  cases value with
  | string s =>
      have hnone : (ofTag? s : Option α) = none ↔ s ∉ tagsOf α := by
        simp [ofTag?, tagsOf, List.find?_eq_none]
      rw [checkTag, Content.faults]
      by_cases hs : s ∈ tagsOf α
      · obtain ⟨known, hknown⟩ := Option.ne_none_iff_exists'.mp (mt hnone.mp (not_not_intro hs))
        rw [hknown, if_pos hs]
        rfl
      · rw [hnone.mpr hs, if_neg hs]
        simp [problems, Problem.under]
  | _ => simp [checkTag, problems, Content.faults, Problem.under]

theorem problems_checkStrings_cons (spot : List Step) (i : Nat) (item : Json) (items : List Json) :
    problems (checkStrings spot i (item :: items)) =
      problems (checkString (spot ++ [.index i]) item) ++ problems (checkStrings spot (i + 1) items) := by
  rw [checkStrings]
  cases checkString (spot ++ [.index i]) item with
  | ok s => cases checkStrings spot (i + 1) items <;> rfl
  | error found => rfl

theorem problems_checkStrings (spot : List Step) (i : Nat) (items : List Json) :
    problems (checkStrings spot i items) = ((items.zipIdx i).filterMap notText?).map (Problem.under spot) := by
  induction items generalizing i with
  | nil => rfl
  | cons item items ih =>
      have hfirst : problems (checkString (spot ++ [.index i]) item) =
          (notText? (item, i)).toList.map (Problem.under spot) := by
        cases item <;> simp [checkString, problems, notText?, Json.string?, Problem.under]
      rw [problems_checkStrings_cons, hfirst, ih, List.zipIdx_cons, List.filterMap_cons]
      cases notText? (item, i) <;> rfl

theorem problems_checkPath (spot : List Step) (value : Json) :
    problems (checkPath spot value) = (Content.path.faults value).map (Problem.under spot) := by
  cases value with
  | array items => exact problems_checkStrings spot 0 items
  | _ => simp [checkPath, problems, Content.faults, Problem.under]

theorem problems_checkField {α : Type} {check : List Step → Json → Checked α} (f : Field)
    (hcheck : ∀ spot value, problems (check spot value) = (f.content.faults value).map (Problem.under spot))
    (fields : List (String × Json)) : problems (checkField check f.keys fields) = f.faults fields := by
  rw [checkField, Field.faults]
  cases field? f.keys fields with
  | none => rfl
  | some entry => exact hcheck _ _

-- The problems of the fields and of the extra keys are told together, whatever the fields are.
theorem problems_checkFields_eq (fields : List (String × Json)) :
    problems (checkFields fields) =
      problems (checkField checkPath pathKeys fields) ++ problems (checkField checkString signatureKeys fields) ++
        problems (checkField checkTag unsafetyKeys fields : Checked Unsafety) ++
        problems (checkField checkTag constnessKeys fields : Checked Constness) ++
        problems (checkField checkTag visibilityKeys fields : Checked Visibility) ++
        problems (checkField checkTag abiKeys fields : Checked Abi) ++ extraKeys fields := by
  rw [checkFields]
  split
  · rename_i hpath hsignature hunsafety hconstness hvisibility habi hextra
    rw [hpath, hsignature, hunsafety, hconstness, hvisibility, habi, hextra]
    rfl
  · rfl

theorem problems_checkFields (fields : List (String × Json)) :
    problems (checkFields fields) = declared.flatMap (·.faults fields) ++ extraKeys fields := by
  have hpath := problems_checkField pathField problems_checkPath fields
  have hsignature := problems_checkField signatureField problems_checkString fields
  have hunsafety := problems_checkField unsafetyField (problems_checkTag (α := Unsafety)) fields
  have hconstness := problems_checkField constnessField (problems_checkTag (α := Constness)) fields
  have hvisibility := problems_checkField visibilityField (problems_checkTag (α := Visibility)) fields
  have habi := problems_checkField abiField (problems_checkTag (α := Abi)) fields
  have hall : declared.flatMap (·.faults fields) =
      pathField.faults fields ++ signatureField.faults fields ++ unsafetyField.faults fields ++
        constnessField.faults fields ++ visibilityField.faults fields ++ abiField.faults fields := by
    simp only [declared, List.flatMap_cons, List.flatMap_nil, List.append_nil, List.append_assoc]
  rw [hall, ← hpath, ← hsignature, ← hunsafety, ← hconstness, ← hvisibility, ← habi]
  exact problems_checkFields_eq fields

theorem problems_checkItems_cons (i : Nat) (item : Json) (items : List Json) :
    problems (checkItems i (item :: items)) =
      (problems (check item)).map (Problem.under [.index i]) ++ problems (checkItems (i + 1) items) := by
  rw [checkItems]
  cases check item with
  | ok doc => cases checkItems (i + 1) items <;> rfl
  | error found => rfl

theorem problems_checkItems (i : Nat) (items : List Json) :
    problems (checkItems i items) =
      (items.zipIdx i).flatMap fun entry => (problems (check entry.1)).map (Problem.under [.index entry.2]) := by
  induction items generalizing i with
  | nil => rfl
  | cons item items ih => rw [problems_checkItems_cons, ih, List.zipIdx_cons, List.flatMap_cons]

-- A check that fails says why.

def Explained {α : Type} (result : Checked α) : Prop :=
  problems result = [] → ∃ a, result = .ok a

theorem explained_singleton {α : Type} (p : Problem) : Explained (.error [p] : Checked α) :=
  fun h => absurd h (List.cons_ne_nil p [])

theorem explained_checkString (spot : List Step) (value : Json) : Explained (checkString spot value) := by
  cases value with
  | string s => exact fun _ => ⟨s, rfl⟩
  | _ => exact explained_singleton _

theorem explained_checkTag {α : Type} [Tagged α] (spot : List Step) (value : Json) :
    Explained (checkTag spot value : Checked α) := by
  rw [checkTag.eq_def]
  split
  · split
    · exact fun _ => ⟨_, rfl⟩
    · exact explained_singleton _
  · exact explained_singleton _

theorem explained_checkStrings (spot : List Step) (i : Nat) (items : List Json) :
    Explained (checkStrings spot i items) := by
  induction items generalizing i with
  | nil => exact fun _ => ⟨[], rfl⟩
  | cons item items ih =>
      intro h
      rw [problems_checkStrings_cons, List.append_eq_nil_iff] at h
      obtain ⟨first, hfirst⟩ := explained_checkString _ item h.1
      obtain ⟨rest, hrest⟩ := ih (i + 1) h.2
      exact ⟨first :: rest, by rw [checkStrings, hfirst, hrest]⟩

theorem explained_checkPath (spot : List Step) (value : Json) : Explained (checkPath spot value) := by
  cases value with
  | array items => exact explained_checkStrings spot 0 items
  | _ => exact explained_singleton _

theorem explained_checkField {α : Type} {check : List Step → Json → Checked α}
    (hcheck : ∀ spot value, Explained (check spot value)) (keys : List String) (fields : List (String × Json)) :
    Explained (checkField check keys fields) := by
  rw [checkField]
  split
  · exact hcheck _ _
  · exact explained_singleton _

theorem explained_check (item : Json) : Explained (check item) := by
  cases item with
  | object fields =>
      intro h
      rw [check, problems_checkFields_eq] at h
      simp only [List.append_eq_nil_iff] at h
      obtain ⟨⟨⟨⟨⟨⟨h1, h2⟩, h3⟩, h4⟩, h5⟩, h6⟩, hextra⟩ := h
      obtain ⟨path, hpath⟩ := explained_checkField explained_checkPath pathKeys fields h1
      obtain ⟨signature, hsignature⟩ := explained_checkField explained_checkString signatureKeys fields h2
      obtain ⟨unsafety, hunsafety⟩ := explained_checkField explained_checkTag unsafetyKeys fields h3
      obtain ⟨constness, hconstness⟩ := explained_checkField explained_checkTag constnessKeys fields h4
      obtain ⟨visibility, hvisibility⟩ := explained_checkField explained_checkTag visibilityKeys fields h5
      obtain ⟨abi, habi⟩ := explained_checkField explained_checkTag abiKeys fields h6
      refine ⟨⟨path, signature, unsafety, constness, visibility, abi⟩, checkFields_eq_ok_iff.mpr ?_⟩
      exact ⟨hpath, hsignature, hunsafety, hconstness, hvisibility, habi, hextra⟩
  | _ => exact explained_singleton _

theorem explained_checkItems (i : Nat) (items : List Json) : Explained (checkItems i items) := by
  induction items generalizing i with
  | nil => exact fun _ => ⟨[], rfl⟩
  | cons item items ih =>
      intro h
      rw [problems_checkItems_cons, List.append_eq_nil_iff, List.map_eq_nil_iff] at h
      obtain ⟨first, hfirst⟩ := explained_check item h.1
      obtain ⟨rest, hrest⟩ := ih (i + 1) h.2
      exact ⟨first :: rest, by rw [checkItems, hfirst, hrest]⟩

-- What is told is what is wrong.

theorem notText?_eq_some_iff {item : Json} {i : Nat} {p : Problem} :
    notText? (item, i) = some p ↔ (∀ s, item ≠ .string s) ∧ p = ⟨.notString, [.index i]⟩ := by
  cases item <;> simp [notText?, Json.string?, eq_comm]

theorem Content.mem_faults_iff (content : Content) (value : Json) (complaint : Complaint) (rest : List Step) :
    ⟨complaint, rest⟩ ∈ content.faults value ↔ content.Rejects value complaint rest := by
  constructor
  · intro h
    rw [faults.eq_def] at h
    split at h
    · obtain ⟨⟨item, i⟩, hitem, hsome⟩ := List.mem_filterMap.mp h
      obtain ⟨hnot, heq⟩ := notText?_eq_some_iff.mp hsome
      cases heq
      exact .element (List.mem_zipIdx_iff_getElem?.mp hitem) hnot
    · rename_i hnot
      cases List.mem_singleton.mp h
      exact .notPath hnot
    · cases h
    · rename_i hnot
      cases List.mem_singleton.mp h
      exact .notText hnot
    · split at h
      · cases h
      · rename_i s hs
        cases List.mem_singleton.mp h
        exact .notTag fun t ht heq => hs (Json.string.inj heq ▸ ht)
    · rename_i hnot
      cases List.mem_singleton.mp h
      exact .notTag fun s _ => hnot s
  · intro h
    cases h with
    | notPath hnot =>
        cases value with
        | array items => exact absurd rfl (hnot items)
        | _ => exact List.mem_singleton_self _
    | element hitem hnot =>
        exact List.mem_filterMap.mpr ⟨_, List.mem_zipIdx_iff_getElem?.mpr hitem, notText?_eq_some_iff.mpr ⟨hnot, rfl⟩⟩
    | notText hnot =>
        cases value with
        | string s => exact absurd rfl (hnot s)
        | _ => exact List.mem_singleton_self _
    | notTag hnot =>
        cases value with
        | string s =>
            rw [faults, if_neg fun hs => hnot s hs rfl]
            exact List.mem_singleton_self _
        | _ => exact List.mem_singleton_self _

variable {fields : List (String × Json)}

theorem Field.mem_faults_iff (hkeys : (fields.map (·.1)).Nodup) (f : Field) (complaint : Complaint) (spot : List Step) :
    ⟨complaint, spot⟩ ∈ f.faults fields ↔
      f.Missing fields ∧ complaint = .missing ∧ spot = [.key f.key] ∨
        ∃ key value rest, f.Found fields key value ∧ f.content.Rejects value complaint rest ∧
          spot = .key key :: rest := by
  rw [faults]
  cases hfield : field? f.keys fields with
  | none =>
      have hnot : ∀ key value, ¬f.Found fields key value := by
        intro key value hfound
        rw [(field?_eq_some_iff hkeys f key value).mpr hfound] at hfield
        cases hfield
      simp [hnot, (field?_eq_none_iff f).mp hfield]
  | some entry =>
      have hfound := (field?_eq_some_iff hkeys f entry.1 entry.2).mp hfield
      have hnot : ¬f.Missing fields := by
        rw [← field?_eq_none_iff, hfield]
        exact Option.some_ne_none entry
      simp only [hnot, false_and, false_or, List.mem_map]
      constructor
      · rintro ⟨p, hp, heq⟩
        cases heq
        exact ⟨entry.1, entry.2, p.spot, hfound, (f.content.mem_faults_iff entry.2 p.complaint p.spot).mp hp, rfl⟩
      · rintro ⟨key, value, rest, hother, hrejects, rfl⟩
        cases hfound.unique hkeys hother
        exact ⟨⟨complaint, rest⟩, (f.content.mem_faults_iff _ complaint rest).mpr hrejects, rfl⟩

theorem mem_problems_checkFields_iff (hkeys : (fields.map (·.1)).Nodup) (complaint : Complaint) (spot : List Step) :
    ⟨complaint, spot⟩ ∈ problems (checkFields fields) ↔ Lacks fields complaint spot := by
  rw [problems_checkFields, List.mem_append, List.mem_flatMap, mem_extraKeys_iff hkeys]
  simp only [Field.mem_faults_iff hkeys]
  constructor
  · rintro (⟨f, hf, ⟨hmissing, rfl, rfl⟩ | ⟨key, value, rest, hfound, hrejects, rfl⟩⟩ | ⟨key, hextra, heq⟩)
    · exact .missing hf hmissing
    · exact .content hf hfound hrejects
    · cases heq
      exact .extra hextra
  · intro h
    cases h with
    | missing hf hmissing => exact Or.inl ⟨_, hf, Or.inl ⟨hmissing, rfl, rfl⟩⟩
    | content hf hfound hrejects => exact Or.inl ⟨_, hf, Or.inr ⟨_, _, _, hfound, hrejects, rfl⟩⟩
    | extra hextra => exact Or.inr ⟨_, hextra, rfl⟩

-- The problems of an element of a list.
theorem mem_problems_check_iff {item : Json} (hproper : item.Proper) (complaint : Complaint) (spot : List Step) :
    ⟨complaint, spot⟩ ∈ problems (check item) ↔
      (∀ fields, item ≠ .object fields) ∧ complaint = .notRecord ∧ spot = [] ∨
        ∃ fields, item = .object fields ∧ Lacks fields complaint spot := by
  cases hproper with
  | object hkeys _ => simp [check, mem_problems_checkFields_iff hkeys]
  | _ => simp [check, problems]

theorem mem_problems_checkItems_iff (items : List Json) (complaint : Complaint) (spot : List Step) :
    ⟨complaint, spot⟩ ∈ problems (checkItems 0 items) ↔
      ∃ i item rest, items[i]? = some item ∧ ⟨complaint, rest⟩ ∈ problems (check item) ∧ spot = .index i :: rest := by
  rw [problems_checkItems, List.mem_flatMap]
  constructor
  · rintro ⟨⟨item, i⟩, hitem, hunder⟩
    obtain ⟨p, hp, heq⟩ := List.mem_map.mp hunder
    cases heq
    exact ⟨i, item, p.spot, List.mem_zipIdx_iff_getElem?.mp hitem, hp, rfl⟩
  · rintro ⟨i, item, rest, hget, hp, rfl⟩
    exact ⟨(item, i), List.mem_zipIdx_iff_getElem?.mpr hget, List.mem_map.mpr ⟨_, hp, rfl⟩⟩

theorem mem_problems_checkList_iff {value : Json} (hproper : value.Proper) (complaint : Complaint) (spot : List Step) :
    ⟨complaint, spot⟩ ∈ problems (checkList value) ↔ Offends value complaint spot := by
  cases hproper with
  | array hitems =>
      rename_i items
      have hitem : ∀ {i : Nat} {item : Json}, items[i]? = some item → item.Proper := fun hget =>
        hitems _ (List.mem_of_getElem? hget)
      rw [checkList, mem_problems_checkItems_iff]
      constructor
      · rintro ⟨i, item, rest, hget, hp, rfl⟩
        rcases (mem_problems_check_iff (hitem hget) complaint rest).mp hp with ⟨hnot, rfl, rfl⟩ | ⟨fields, rfl, hlacks⟩
        · exact .notRecord rfl hget hnot
        · exact .record rfl hget hlacks
      · -- An offence is about the list as a whole or about one of its elements.
        intro h
        cases h with
        | notList hnot => exact absurd rfl (hnot _)
        | notRecord hvalue hget hnot =>
            cases hvalue
            have hp := (mem_problems_check_iff (hitem hget) .notRecord []).mpr (Or.inl ⟨hnot, rfl, rfl⟩)
            exact ⟨_, _, [], hget, hp, rfl⟩
        | record hvalue hget hlacks =>
            cases hvalue
            have hp := (mem_problems_check_iff (hitem hget) complaint _).mpr (Or.inr ⟨_, rfl, hlacks⟩)
            exact ⟨_, _, _, hget, hp, rfl⟩
  | _ =>
      constructor
      · intro h
        cases List.mem_singleton.mp h
        exact .notList fun items => by rintro ⟨⟩
      · intro h
        cases h with
        | notList _ => exact List.mem_singleton_self _
        | notRecord hvalue _ _ => cases hvalue
        | record hvalue _ _ => cases hvalue

-- It is told in order.

theorem pairwise_zipIdx (items : List Json) : items.zipIdx.Pairwise fun a b => a.2 < b.2 := by
  rw [List.pairwise_iff_getElem]
  intro i j hi hj hij
  simpa using hij

theorem Content.pairwise_faults (content : Content) (value : Json) :
    (content.faults value).Pairwise fun p q => ∃ i j, i < j ∧ p.spot = [.index i] ∧ q.spot = [.index j] := by
  rw [faults.eq_def]
  split
  · rw [List.pairwise_filterMap]
    refine (pairwise_zipIdx _).imp fun {a b} hlt p hp q hq => ?_
    obtain ⟨_, rfl⟩ := notText?_eq_some_iff.mp hp
    obtain ⟨_, rfl⟩ := notText?_eq_some_iff.mp hq
    exact ⟨a.2, b.2, hlt, rfl, rfl⟩
  · exact List.pairwise_singleton _ _
  · exact List.Pairwise.nil
  · exact List.pairwise_singleton _ _
  · split
    · exact List.Pairwise.nil
    · exact List.pairwise_singleton _ _
  · exact List.pairwise_singleton _ _

theorem Field.pairwise_faults (f : Field) (fields : List (String × Json)) :
    (f.faults fields).Pairwise fun p q => ComesFirst fields p.spot q.spot := by
  rw [faults]
  split
  · rw [List.pairwise_map]
    refine (f.content.pairwise_faults _).imp fun {p q} h => ?_
    obtain ⟨i, j, hij, hp, hq⟩ := h
    rw [Problem.under, Problem.under, hp, hq]
    exact .element hij
  · exact List.pairwise_singleton _ _

theorem Field.toldAs_of_mem_faults (hkeys : (fields.map (·.1)).Nodup) {f : Field} {p : Problem}
    (h : p ∈ f.faults fields) : ∃ key rest, f.ToldAs fields key ∧ p.spot = .key key :: rest := by
  rcases (f.mem_faults_iff hkeys p.complaint p.spot).mp h with
    ⟨hmissing, _, hspot⟩ | ⟨key, value, rest, hfound, _, hspot⟩
  · exact ⟨f.key, [], Or.inr ⟨hmissing, rfl⟩, hspot⟩
  · exact ⟨key, rest, Or.inl ⟨value, hfound⟩, hspot⟩

theorem pairwise_extraKeys (hkeys : (fields.map (·.1)).Nodup) :
    (extraKeys fields).Pairwise fun p q => ComesFirst fields p.spot q.spot := by
  have hextra : ∀ entry ∈ fields.filter (fun field => !(usedKeys fields).contains field.1), Extra fields entry.1 := by
    intro entry hentry
    have hp : (⟨.extra, [.key entry.1]⟩ : Problem) ∈ extraKeys fields := List.mem_map_of_mem hentry
    obtain ⟨key, hkey, heq⟩ := (mem_extraKeys_iff hkeys _).mp hp
    cases heq
    exact hkey
  rw [extraKeys, List.pairwise_map, List.pairwise_iff_forall_sublist]
  intro a b hab
  have ha := hextra a (hab.subset List.mem_cons_self)
  have hb := hextra b (hab.subset (List.mem_cons_of_mem a List.mem_cons_self))
  exact .written (hab.trans List.filter_sublist) ha hb

theorem pairwise_problems_checkFields (hkeys : (fields.map (·.1)).Nodup) :
    (problems (checkFields fields)).Pairwise fun p q => ComesFirst fields p.spot q.spot := by
  rw [problems_checkFields, List.pairwise_append, List.pairwise_flatMap]
  refine ⟨⟨fun f _ => f.pairwise_faults fields, ?_⟩, pairwise_extraKeys hkeys, ?_⟩
  · rw [List.pairwise_iff_forall_sublist]
    intro f g hfg p hp q hq
    obtain ⟨key, rest, hkey, hspot⟩ := Field.toldAs_of_mem_faults hkeys hp
    obtain ⟨next, others, hnext, hspot'⟩ := Field.toldAs_of_mem_faults hkeys hq
    rw [hspot, hspot']
    exact .declared hfg hkey hnext
  · intro p hp q hq
    obtain ⟨f, hf, hp⟩ := List.mem_flatMap.mp hp
    obtain ⟨key, rest, hkey, hspot⟩ := Field.toldAs_of_mem_faults hkeys hp
    obtain ⟨next, hnext, rfl⟩ := (mem_extraKeys_iff hkeys q).mp hq
    rw [hspot]
    exact .extra hf hkey hnext

theorem pairwise_problems_checkList {value : Json} (hproper : value.Proper) :
    (problems (checkList value)).Pairwise fun p q => Before value p.spot q.spot := by
  cases hproper with
  | array hitems =>
      rw [checkList, problems_checkItems, List.pairwise_flatMap]
      constructor
      · rintro ⟨item, i⟩ hitem
        have hget := List.mem_zipIdx_iff_getElem?.mp hitem
        rw [List.pairwise_map]
        cases hitems item (List.mem_of_getElem? hget) with
        | object hkeys _ => exact (pairwise_problems_checkFields hkeys).imp fun h => .record rfl hget h
        | _ => exact List.pairwise_singleton _ _
      · refine (pairwise_zipIdx _).imp fun {a b} hlt p hp q hq => ?_
        obtain ⟨_, _, rfl⟩ := List.mem_map.mp hp
        obtain ⟨_, _, rfl⟩ := List.mem_map.mp hq
        exact .item hlt
  | _ => exact List.pairwise_singleton _ _

-- No part is told of twice.

theorem Field.ToldAs.mem_keys {f : Field} {key : String} (h : f.ToldAs fields key) : key ∈ f.keys := by
  rw [keys, List.mem_cons, Option.mem_toList]
  rcases h with ⟨_, _, hkey | ⟨hkey, _⟩⟩ | ⟨_, hkey⟩
  · exact Or.inl hkey
  · exact Or.inr hkey
  · exact Or.inl hkey

theorem Field.ToldAs.not_extra {f : Field} (hf : f ∈ declared) {key : String} (h : f.ToldAs fields key) :
    ¬Extra fields key := by
  rintro ⟨hmem, hnone⟩
  rcases h with ⟨value, hfound⟩ | ⟨hmissing, rfl⟩
  · exact hnone f hf value hfound
  · exact hmissing.1 hmem

theorem declared_disjoint : declared.Pairwise fun f g => ∀ key ∈ f.keys, key ∉ g.keys := by
  decide

theorem ComesFirst.ne (hkeys : (fields.map (·.1)).Nodup) {spot other : List Step} (h : ComesFirst fields spot other) :
    spot ≠ other := by
  intro heq
  cases h with
  | declared hfg hf hg =>
      cases heq
      exact List.pairwise_iff_forall_sublist.mp declared_disjoint hfg _ hf.mem_keys hg.mem_keys
  | extra hf hkey hnext =>
      cases heq
      exact hkey.not_extra hf hnext
  | written hwritten _ _ =>
      cases heq
      have htwice := hkeys.sublist (hwritten.map (·.1))
      simp at htwice
  | element hij =>
      cases heq
      exact Nat.lt_irrefl _ hij

theorem Before.ne {value : Json} (hproper : value.Proper) {spot other : List Step} (h : Before value spot other) :
    spot ≠ other := by
  intro heq
  cases h with
  | item hij =>
      cases heq
      exact Nat.lt_irrefl _ hij
  | record hvalue hget hfirst =>
      subst hvalue
      cases hproper with
      | array hitems =>
          cases hitems _ (List.mem_of_getElem? hget) with
          | object hkeys _ => exact hfirst.ne hkeys (List.cons.inj heq).2

theorem explained_checkList (value : Json) : Explained (checkList value) := by
  cases value with
  | array items => exact explained_checkItems 0 items
  | _ => exact explained_singleton _

theorem judges_checkList {value : Json} (hproper : value.Proper) : Judges value (checkList value) := by
  refine ⟨fun docs => checkList_eq_ok_iff hproper, fun hnone => ?_⟩
  have hmem := fun p : Problem => mem_problems_checkList_iff hproper p.complaint p.spot
  have hordered := pairwise_problems_checkList hproper
  cases hresult : checkList value with
  | ok docs => exact absurd ((checkList_eq_ok_iff hproper).mp hresult) (hnone docs)
  | error found =>
      rw [hresult] at hmem hordered
      refine ⟨found, rfl, ?_, hmem, hordered, ?_⟩
      · rintro rfl
        obtain ⟨docs, hdocs⟩ := explained_checkList value (by rw [hresult]; rfl)
        rw [hresult] at hdocs
        cases hdocs
      · rw [List.Nodup, List.pairwise_map]
        exact hordered.imp fun h => h.ne hproper

-- A value is accepted exactly if it is a list of records, and then as those records. Otherwise each part that is
-- wrong is told of once, in order. This holds of what is read from a cache file, since no object that is read has a
-- key twice.
theorem validation_follows_schema :
    (∀ value : Json, value.Proper → Judges value (checkList value)) ∧
      ∀ (bytes : List UInt8) (value : Json), (Utf8.decode? bytes).bind (Json.parse? depthLimit) = some value →
        Judges value (ofBytes bytes) := by
  refine ⟨fun value hproper => judges_checkList hproper, fun bytes value hread => ?_⟩
  obtain ⟨text, _, hparse⟩ := Option.bind_eq_some_iff.mp hread
  have hbytes : ofBytes bytes = checkList value := by rw [ofBytes, hread]
  rw [hbytes]
  exact judges_checkList (Json.proper_of_parse? hparse)

-- A record under the second keys, then one with many faults, then no record.
def faultyRecord : List (String × Json) :=
  [("zeta", .null), ("symbol_path", .array []), ("abi", .string "D"), ("signature", .string "fn b()"),
    ("path", .array [.string "b", .number "1", .null]), ("unsafety", .string "Normal"), ("constness", .bool true)]

def faultyList : Json :=
  .array [.object (entriesOf "symbol_path" "calling_convention" ⟨["a"], "fn a()", .normal, .marked, .exported, .c⟩),
    .object faultyRecord, .null]

theorem validation_faultyList :
    faultyList.Proper ∧ (∀ docs, ¬Holds faultyList docs) ∧ ∃ found, checkList faultyList = .error found ∧
      found = [⟨.notString, [.index 1, .key "path", .index 1]⟩, ⟨.notString, [.index 1, .key "path", .index 2]⟩,
        ⟨.notTag, [.index 1, .key "constness"]⟩, ⟨.missing, [.index 1, .key "visibility"]⟩,
        ⟨.notTag, [.index 1, .key "abi"]⟩, ⟨.extra, [.index 1, .key "zeta"]⟩,
        ⟨.extra, [.index 1, .key "symbol_path"]⟩, ⟨.notRecord, [.index 2]⟩] ∧
      ∀ p ∈ found, Offends faultyList p.complaint p.spot := by
  have hproper : faultyList.Proper := by simp [faultyList, faultyRecord, entriesOf]
  have hjudges := validation_follows_schema.1 faultyList hproper
  have hresult : checkList faultyList = .error _ := rfl
  have hnone : ∀ docs, ¬Holds faultyList docs := by
    intro docs hholds
    have hok := (hjudges.accepts docs).mpr hholds
    rw [hresult] at hok
    cases hok
  obtain ⟨found, hfound, _, hoffends, _⟩ := hjudges.refuses hnone
  refine ⟨hproper, hnone, found, hfound, ?_, fun p hp => (hoffends p).mp hp⟩
  exact Except.error.inj (hfound.symm.trans hresult)

end CrateDocs.FunctionDoc
