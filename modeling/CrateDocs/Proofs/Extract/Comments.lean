import CrateDocs.Proofs.Extract.Modifiers

namespace CrateDocs.Extract

open Result (First)
open Syntax (Tree)

def IsComment (t : Tree) : Prop :=
  t.kind = "line_comment" ∨ t.kind = "block_comment"

instance (t : Tree) : Decidable (IsComment t) :=
  inferInstanceAs (Decidable (_ ∨ _))

-- A tree without some of its comments, and the nodes of a list without some of theirs. Whatever else
-- is asked of a node stays as it is.
mutual
inductive Strips : Tree → Tree → Prop
  | node {kind text signature : String} {fields : List (String × String)} {span : Syntax.Span}
    {children rest : List Tree} (h : StripsIn children rest) :
    Strips ⟨kind, fields, text, signature, span, children⟩ ⟨kind, fields, text, signature, span, rest⟩
inductive StripsIn : List Tree → List Tree → Prop
  | nil : StripsIn [] []
  | keep {t u : Tree} {ts us : List Tree} (h : Strips t u) (hrest : StripsIn ts us) :
    StripsIn (t :: ts) (u :: us)
  | drop {t : Tree} {ts us : List Tree} (h : IsComment t) (hrest : StripsIn ts us) : StripsIn (t :: ts) us
end

variable {t u : Tree} {ts us : List Tree}

namespace Strips

theorem kind_eq (h : Strips t u) : u.kind = t.kind := by
  cases h; rfl

theorem fields_eq (h : Strips t u) : u.fields = t.fields := by
  cases h; rfl

theorem text_eq (h : Strips t u) : u.text = t.text := by
  cases h; rfl

theorem signature_eq (h : Strips t u) : u.signature = t.signature := by
  cases h; rfl

theorem span_eq (h : Strips t u) : u.span = t.span := by
  cases h; rfl

theorem children (h : Strips t u) : StripsIn t.children u.children := by
  cases h with
  | node h => exact h

theorem declaredName?_eq (h : Strips t u) : declaredName? u = declaredName? t := by
  simp only [declaredName?, Tree.field?, h.fields_eq]

end Strips

-- What is left of the nodes of a tree, each with the nodes above it.

-- The same node, with fewer comments below it and below the nodes above it.
structure Counterpart (o o' : Occurrence) : Prop where
  above : List.Forall₂ Strips o.above o'.above
  node : Strips o.node o'.node

def Occurrence.InComment (o : Occurrence) : Prop :=
  IsComment o.node ∨ ∃ t ∈ o.above, IsComment t

inductive Thinned : List Occurrence → List Occurrence → Prop
  | nil : Thinned [] []
  | keep {o o' : Occurrence} {os os' : List Occurrence} (h : Counterpart o o') (hrest : Thinned os os') :
    Thinned (o :: os) (o' :: os')
  | drop {o : Occurrence} {os os' : List Occurrence} (h : o.InComment) (hrest : Thinned os os') :
    Thinned (o :: os) os'

namespace Thinned

variable {os os' : List Occurrence}

theorem append {us us' : List Occurrence} (h : Thinned os os') (h' : Thinned us us') :
    Thinned (os ++ us) (os' ++ us') := by
  induction h with
  | nil => exact h'
  | keep hhead _ ih => exact .keep hhead ih
  | drop hhead _ ih => exact .drop hhead ih

theorem of_inComment {rest : List Occurrence} (hrest : ∀ o ∈ rest, o.InComment) (h : Thinned os os') :
    Thinned (rest ++ os) os' := by
  induction rest with
  | nil => exact h
  | cons o rest ih =>
      rw [List.forall_mem_cons] at hrest
      exact .drop hrest.1 (ih hrest.2)

theorem forall₂ (h : Thinned os os') (hout : ∀ o ∈ os, ¬o.InComment) : List.Forall₂ Counterpart os os' := by
  induction h with
  | nil => exact .nil
  | keep hhead _ ih =>
      rw [List.forall_mem_cons] at hout
      exact .cons hhead (ih hout.2)
  | drop hhead _ _ => exact absurd hhead (hout _ List.mem_cons_self)

end Thinned

theorem inComment_of_mem_occurrences (ht : IsComment t) {above : List Tree} {o : Occurrence}
    (ho : o ∈ occurrences above t) : o.InComment := by
  cases t with
  | mk kind fields text signature span children =>
      rw [occurrences, List.mem_cons] at ho
      cases ho with
      | inl ho => rw [ho]; exact .inl ht
      | inr ho =>
          have hbelow := above_subset_of_mem_occurrencesIn children _ o ho
          exact .inr ⟨_, hbelow (List.mem_append_right above List.mem_cons_self), ht⟩

-- By induction on what is taken away: a node that stays keeps its place, and a comment goes with all that
-- is in it.
mutual
theorem thinned_occurrences {t u : Tree} {above above' : List Tree} (h : Strips t u)
    (habove : List.Forall₂ Strips above above') : Thinned (occurrences above t) (occurrences above' u) := by
  cases h with
  | node hchildren =>
      refine .keep ⟨habove, .node hchildren⟩ (thinned_occurrencesIn hchildren ?_)
      exact List.rel_append habove (.cons (.node hchildren) .nil)
theorem thinned_occurrencesIn {ts us : List Tree} {above above' : List Tree} (h : StripsIn ts us)
    (habove : List.Forall₂ Strips above above') :
    Thinned (occurrencesIn above ts) (occurrencesIn above' us) := by
  cases h with
  | nil => exact .nil
  | keep hhead hrest => exact (thinned_occurrences hhead habove).append (thinned_occurrencesIn hrest habove)
  | drop hcomment hrest =>
      exact .of_inComment (fun o => inComment_of_mem_occurrences hcomment) (thinned_occurrencesIn hrest habove)
end

-- Nothing that decides what is documented, and under which path, depends on comments.

theorem kinds_eq {above above' : List Tree} (h : List.Forall₂ Strips above above') :
    above'.map (·.kind) = above.map (·.kind) := by
  induction h with
  | nil => rfl
  | cons hhead _ ih => rw [List.map_cons, List.map_cons, hhead.kind_eq, ih]

theorem containerBelow_eq {above above' : List Tree} (h : List.Forall₂ Strips above above') :
    containerBelow above' = containerBelow above := by
  have hkinds : ∀ ts : List Tree, containerBelow ts =
      ((ts.map (·.kind)).reverse.findSome? containerOf?).getD .module := by
    intro ts
    rw [containerBelow, ← List.map_reverse, List.findSome?_map]
    rfl
  rw [hkinds, hkinds, kinds_eq h]

namespace Counterpart

variable {o o' : Occurrence}

theorem namesPath_iff (h : Counterpart o o') : o'.NamesPath ↔ o.NamesPath := by
  simp only [Occurrence.NamesPath, h.node.kind_eq, containerBelow_eq h.above]

theorem segment?_eq (h : Counterpart o o') : o'.segment? = o.segment? := by
  rw [Occurrence.segment?, Occurrence.segment?, h.node.declaredName?_eq]
  exact if_congr h.namesPath_iff rfl rfl

theorem documented_iff (h : Counterpart o o') : o'.Documented ↔ o.Documented := by
  have hopen : ∀ ts : List Tree, (∀ t ∈ ts, isSealed t.kind = false) ↔ ∀ kind ∈ ts.map (·.kind), isSealed kind = false := by
    simp
  simp only [Occurrence.Documented, hopen, h.node.kind_eq, h.node.declaredName?_eq, containerBelow_eq h.above,
    kinds_eq h.above]

end Counterpart

theorem segments_eq {before before' above above' : List Tree} (hbefore : List.Forall₂ Strips before before')
    (h : List.Forall₂ Strips above above') :
    (lineage before' above').filterMap Occurrence.segment? = (lineage before above).filterMap Occurrence.segment? := by
  induction h generalizing before before' with
  | nil => rfl
  | @cons t u above above' hhead _ ih =>
      have hsegment : Occurrence.segment? ⟨before', u⟩ = Occurrence.segment? ⟨before, t⟩ :=
        Counterpart.segment?_eq ⟨hbefore, hhead⟩
      rw [lineage, lineage, List.filterMap_cons, List.filterMap_cons, hsegment,
        ih (List.rel_append hbefore (.cons hhead .nil))]

theorem Counterpart.symbolPath_eq {o o' : Occurrence} (h : Counterpart o o') (crate : Option String) :
    o'.symbolPath crate = o.symbolPath crate := by
  rw [Occurrence.symbolPath, Occurrence.symbolPath, scopeBelow, scopeBelow, segments_eq .nil h.above,
    h.node.declaredName?_eq]

theorem thinned_documented {root stripped : Tree} (h : Strips root stripped) :
    Thinned (documented root) (documented stripped) := by
  have hall := thinned_occurrences h .nil
  rw [documented, documented]
  generalize occurrences [] root = os at hall ⊢
  generalize occurrences [] stripped = os' at hall ⊢
  induction hall with
  | nil => exact .nil
  | @keep o o' os os' hhead _ ih =>
      by_cases ho : o.Documented
      · rw [List.filter_cons_of_pos (by simpa using ho),
          List.filter_cons_of_pos (by simpa using hhead.documented_iff.mpr ho)]
        exact .keep hhead ih
      · have ho' : ¬o'.Documented := fun ho' => ho (hhead.documented_iff.mp ho')
        rw [List.filter_cons_of_neg (by simpa using ho), List.filter_cons_of_neg (by simpa using ho')]
        exact ih
  | @drop o os os' hhead _ ih =>
      by_cases ho : o.Documented
      · rw [List.filter_cons_of_pos (by simpa using ho)]
        exact .drop hhead ih
      · rw [List.filter_cons_of_neg (by simpa using ho)]
        exact ih

-- The scanners of modifiers: those for a child of some kind pass over comments.

namespace StripsIn

theorem append {ts' us' : List Tree} (h : StripsIn ts us) (h' : StripsIn ts' us') :
    StripsIn (ts ++ ts') (us ++ us') := by
  induction ts generalizing us with
  | nil => cases h; exact h'
  | cons t ts ih =>
      cases h with
      | keep hhead hrest => exact .keep hhead (ih hrest)
      | drop hhead hrest => exact .drop hhead (ih hrest)

-- The first node of some kind that is no comment stays the first.
theorem find? (test : String → Bool) (htest : ∀ t, IsComment t → test t.kind = false) (h : StripsIn ts us) :
    Option.Rel Strips (ts.find? fun c => test c.kind) (us.find? fun c => test c.kind) := by
  induction ts generalizing us with
  | nil => cases h; exact .none
  | cons t ts ih =>
      cases h with
      | @keep _ u _ us hhead hrest =>
          rw [List.find?_cons, List.find?_cons, hhead.kind_eq]
          cases test t.kind with
          | false => exact ih hrest
          | true => exact .some hhead
      | drop hhead hrest =>
          rw [List.find?_cons, htest t hhead]
          exact ih hrest

end StripsIn

theorem abiOf_of_strips (h : Strips t u) : abiOf u = abiOf t := by
  have hliteral : Option.Rel Strips (literal? t) (literal? u) := by
    refine h.children.find? (fun kind => kind == "string_literal" || kind == "raw_string_literal") ?_
    rintro c (hc | hc) <;> simp [hc]
  rw [abiOf_eq, abiOf_eq, h.span_eq]
  generalize literal? t = literal at hliteral ⊢
  generalize literal? u = literal' at hliteral ⊢
  cases hliteral with
  | none => rfl
  | some hsame => simp only [hsame.text_eq]

theorem visibilityOf_of_strips (h : Strips t u) : visibilityOf u = visibilityOf t := by
  have hmodifier := h.children.find? (fun kind => kind == "visibility_modifier") (by
    rintro c (hc | hc) <;> simp [hc])
  rw [visibilityOf, visibilityOf]
  generalize (t.children.find? fun c => c.kind == "visibility_modifier") = modifier at hmodifier ⊢
  generalize (u.children.find? fun c => c.kind == "visibility_modifier") = modifier' at hmodifier ⊢
  cases hmodifier with
  | none => rfl
  | some hsame => simp only [hsame.text_eq, hsame.span_eq]

theorem qualify_of_strips (h : Strips t u) (q : Qualifiers) : qualify q u = qualify q t := by
  simp only [qualify, h.kind_eq, h.text_eq, h.span_eq, abiOf_of_strips h]

theorem modifiersOf_of_strips (h : Strips t u) : StripsIn (modifiersOf t) (modifiersOf u) := by
  have hchildren := h.children
  rw [modifiersOf, modifiersOf]
  generalize t.children = ts at hchildren ⊢
  generalize u.children = us at hchildren ⊢
  induction ts generalizing us with
  | nil => cases hchildren; exact .nil
  | cons t ts ih =>
      cases hchildren with
      | keep hhead hrest =>
          rw [List.filter_cons, List.filter_cons, hhead.kind_eq]
          split
          · exact hhead.children.append (ih _ hrest)
          · exact ih _ hrest
      | drop hhead hrest =>
          have hkind : (t.kind == "function_modifiers") = false := by
            rcases hhead with hhead | hhead <;> simp [hhead]
          rw [List.filter_cons, hkind]
          exact ih _ hrest

-- The words before `fn` are read one after the other, and here a comment counts as a word.

theorem wordFault_of_isComment {m : Tree} (hm : IsComment m) : WordFault m (.unsupportedQualifier m.text m.span) := by
  apply WordFault.qualifier
  rcases hm with hm | hm <;> simp [hm]

-- A comment among the words is the first that no record can hold.
def CommentFirst (t : Tree) : Prop :=
  ∃ m, First UnsupportedWord (modifiersOf t) m ∧ IsComment m

theorem foldlM_qualify_strips {words words' : List Tree} (h : StripsIn words words') (q : Qualifiers) :
    words'.foldlM qualify q = words.foldlM qualify q ∨ ∃ m, First UnsupportedWord words m ∧ IsComment m := by
  induction words generalizing words' q with
  | nil => cases h; exact .inl rfl
  | cons m words ih =>
      cases h with
      | drop hm _ =>
          have hunsupported : UnsupportedWord m := ⟨_, wordFault_of_isComment hm⟩
          exact .inr ⟨m, Result.first_cons.mpr (.inl ⟨hunsupported, rfl⟩), hm⟩
      | keep hhead hrest =>
          rw [List.foldlM_cons, List.foldlM_cons, qualify_of_strips hhead]
          cases hnext : qualify q m with
          | error fault => exact .inl rfl
          | ok next =>
              refine (ih hrest next).imp id ?_
              rintro ⟨comment, hfirst, hcomment⟩
              have hsupported : ¬UnsupportedWord m := by
                rintro ⟨fault, hfault⟩
                rw [(qualify_eq_error_iff q m fault).mpr hfault] at hnext
                cases hnext
              exact ⟨comment, Result.first_cons.mpr (.inr ⟨hsupported, hfirst⟩), hcomment⟩

theorem document_of_strips (h : Strips t u) (path : List String) :
    document u path = document t path ∨ CommentFirst t := by
  refine (foldlM_qualify_strips (modifiersOf_of_strips h) Qualifiers.initial).imp ?_ id
  intro hqualifiers
  rw [document, document, qualifiersOf, qualifiersOf, hqualifiers, visibilityOf_of_strips h, h.signature_eq]

theorem CommentFirst.document_eq (h : CommentFirst t) (path : List String) :
    ∃ m, First UnsupportedWord (modifiersOf t) m ∧ IsComment m ∧
      document t path = .error (.unsupportedQualifier m.text m.span) := by
  obtain ⟨m, hfirst, hm⟩ := h
  exact ⟨m, hfirst, hm, document_eq_error_iff.mpr (.word (words_iff.mpr rfl) hfirst (wordFault_of_isComment hm))⟩

-- The records of all functions.

theorem exists_error_iff_flawed (t : Tree) (path : List String) :
    (∃ fault, document t path = .error fault) ↔ Flawed t := by
  simp only [document_eq_error_iff, exists_flaw_iff]

theorem mapM_document_thinned (crate : Option String) {os os' : List Occurrence} (h : Thinned os os')
    {docs : List FunctionDoc} (hdocs : (os.mapM fun o => document o.node (o.symbolPath crate)) = .ok docs) :
    ∃ less, (os'.mapM fun o => document o.node (o.symbolPath crate)) = .ok less ∧ less.Sublist docs := by
  rw [Result.mapM_eq_ok_iff] at hdocs
  simp only [Result.mapM_eq_ok_iff]
  induction h generalizing docs with
  | nil => exact ⟨[], .nil, List.nil_sublist docs⟩
  | @keep o o' os os' hhead _ ih =>
      obtain ⟨doc, docs, hdoc, hrest, rfl⟩ := List.forall₂_cons_left_iff.mp hdocs
      obtain ⟨less, hless, hsub⟩ := ih hrest
      have hsame : document o'.node (o'.symbolPath crate) = .ok doc := by
        rw [hhead.symbolPath_eq]
        rcases document_of_strips hhead.node (o.symbolPath crate) with heq | hcomment
        · rw [heq, hdoc]
        · obtain ⟨m, _, _, herror⟩ := hcomment.document_eq (o.symbolPath crate)
          rw [herror] at hdoc
          cases hdoc
      exact ⟨doc :: less, .cons hsame hless, hsub.cons_cons doc⟩
  | drop _ _ ih =>
      obtain ⟨doc, docs, _, hrest, rfl⟩ := List.forall₂_cons_left_iff.mp hdocs
      obtain ⟨less, hless, hsub⟩ := ih hrest
      exact ⟨less, hless, hsub.cons doc⟩

theorem mapM_document_counterparts (crate : Option String) {os os' : List Occurrence}
    (h : List.Forall₂ Counterpart os os') :
    ((os'.mapM fun o => document o.node (o.symbolPath crate)) = os.mapM fun o => document o.node (o.symbolPath crate)) ∨
      ∃ o, First (fun o => Flawed o.node) os o ∧ CommentFirst o.node := by
  induction h with
  | nil => exact .inl rfl
  | @cons o o' os os' hhead _ ih =>
      rw [List.mapM_cons, List.mapM_cons, hhead.symbolPath_eq]
      rcases document_of_strips hhead.node (o.symbolPath crate) with heq | hcomment
      · rw [heq]
        cases hdoc : document o.node (o.symbolPath crate) with
        | error fault => exact .inl rfl
        | ok doc =>
            have hsound : ¬Flawed o.node := by
              rw [← exists_error_iff_flawed o.node (o.symbolPath crate), hdoc]
              rintro ⟨fault, hfault⟩
              cases hfault
            refine ih.imp (fun hrest => by rw [hrest]) ?_
            rintro ⟨first, hfirst, hcomment⟩
            exact ⟨first, Result.first_cons.mpr (.inr ⟨hsound, hfirst⟩), hcomment⟩
      · obtain ⟨m, _, _, herror⟩ := hcomment.document_eq (o.symbolPath crate)
        have hflawed := (exists_error_iff_flawed o.node (o.symbolPath crate)).mp ⟨_, herror⟩
        exact .inr ⟨o, Result.first_cons.mpr (.inl ⟨hflawed, rfl⟩), hcomment⟩

-- No function that is documented is part of a comment.
def CommentsApart (root : Tree) : Prop :=
  ∀ o ∈ documented root, ∀ t ∈ o.above, ¬IsComment t

instance (root : Tree) : Decidable (CommentsApart root) :=
  inferInstanceAs (Decidable (∀ o ∈ documented root, ∀ t ∈ o.above, ¬IsComment t))

theorem not_inComment_of_documented {root : Tree} (h : CommentsApart root) :
    ∀ o ∈ documented root, ¬o.InComment := by
  intro o ho hin
  have hdocumented : o.Documented := by simpa using (List.mem_filter.mp ho).2
  rcases hin with hnode | ⟨t, ht, hcomment⟩
  · rcases hnode with hnode | hnode <;> simp [hdocumented.1] at hnode
  · exact h o ho t ht hcomment

theorem functions_eq_error {root : Tree} {crate : Option String} {o : Occurrence} {fault : Fault}
    (hfirst : First (fun o => Flawed o.node) (documented root) o)
    (hfault : document o.node (o.symbolPath crate) = .error fault) : functions root crate = .error fault := by
  have hrecords : ((documented root).mapM fun o => document o.node (o.symbolPath crate)) = .error fault := by
    refine Result.mapM_eq_error_iff.mpr ⟨o, ?_, hfault⟩
    simpa only [exists_error_iff_flawed] using hfirst
  exact Result.map_eq_error_iff.mp ((functions_docs root crate).trans hrecords)

-- Taking comments away loses no record but those of functions in them, and makes nothing fail. It changes
-- how the walk ends only if that fails at a comment: one among the words before the `fn` of the first
-- function that fails. Each comment in such a place does make it fail.
theorem functions_without_comments {root stripped : Tree} (h : Strips root stripped) (crate : Option String) :
    (∀ found, functions root crate = .ok found →
      ∃ less, functions stripped crate = .ok less ∧ less.docs.Sublist found.docs) ∧
    (CommentsApart root →
      (functions stripped crate).map (·.docs) = (functions root crate).map (·.docs) ∨
        ∃ o m, First (fun o => Flawed o.node) (documented root) o ∧ First UnsupportedWord (modifiersOf o.node) m ∧
          IsComment m ∧ functions root crate = .error (.unsupportedQualifier m.text m.span)) ∧
    ((∃ o ∈ documented root, ∃ m ∈ modifiersOf o.node, IsComment m) → ∃ fault, functions root crate = .error fault) := by
  have hthinned := thinned_documented h
  have houtcome : ∀ t : Tree, (functions t crate).map (·.docs) =
      (documented t).mapM fun o => document o.node (o.symbolPath crate) := fun t => functions_docs t crate
  refine ⟨?_, ?_, ?_⟩
  · intro found hfound
    have hdocs := houtcome root
    rw [hfound] at hdocs
    obtain ⟨docs, hless, hsub⟩ := mapM_document_thinned crate hthinned hdocs.symm
    rw [← houtcome, Result.map_eq_ok_iff] at hless
    obtain ⟨less, hless, rfl⟩ := hless
    exact ⟨less, hless, hsub⟩
  · intro hapart
    rw [houtcome, houtcome]
    refine (mapM_document_counterparts crate (hthinned.forall₂ (not_inComment_of_documented hapart))).imp id ?_
    rintro ⟨o, hfirst, hcomment⟩
    obtain ⟨m, hm, hcomment, hfault⟩ := hcomment.document_eq (o.symbolPath crate)
    exact ⟨o, m, hfirst, hm, hcomment, functions_eq_error hfirst hfault⟩
  · rintro ⟨o, ho, m, hm, hcomment⟩
    have hflawed : ∃ o ∈ documented root, Flawed o.node :=
      ⟨o, ho, .inl ⟨m, hasWord_iff.mpr hm, _, wordFault_of_isComment hcomment⟩⟩
    obtain ⟨first, hfirst⟩ := Result.exists_first_iff.mpr hflawed
    obtain ⟨fault, hfault⟩ := (exists_error_iff_flawed first.node (first.symbolPath crate)).mpr hfirst.holds
    exact ⟨fault, functions_eq_error hfirst hfault⟩

def sampleComment : Tree :=
  plainNode "block_comment" "/* c */" []

-- An exported function that is `unsafe` and `extern`, with some nodes between the two words, and some before the
-- function, after its visibility and inside the `extern`.
def linkedFunction (between around : List Tree) : Tree :=
  plainNode "source_file" "" (around ++ [
    plainNode "function_item" "f" (plainNode "visibility_modifier" "pub" [] :: around ++ [
      plainNode "function_modifiers" "" (plainNode "unsafe" "" [] :: between ++ [
        plainNode "extern_modifier" "" (around ++ [plainNode "string_literal" "\"C\"" []])])])])

theorem functions_linkedFunction :
    Strips (linkedFunction [] [sampleComment]) (linkedFunction [] []) ∧
      CommentsApart (linkedFunction [] [sampleComment]) ∧
      (functions (linkedFunction [] []) none).map (·.docs) =
        (functions (linkedFunction [] [sampleComment]) none).map (·.docs) ∧
      Strips (linkedFunction [sampleComment] []) (linkedFunction [] []) ∧
      (∃ found, functions (linkedFunction [] []) none = .ok found) ∧
      ∃ fault, functions (linkedFunction [sampleComment] []) none = .error fault := by
  have hcomment : IsComment sampleComment := .inr rfl
  have hleaf : ∀ kind name, Strips (plainNode kind name []) (plainNode kind name []) := fun kind name => .node .nil
  have haround : Strips (linkedFunction [] [sampleComment]) (linkedFunction [] []) := by
    refine .node (.drop hcomment (.keep (.node (.keep (hleaf _ _) (.drop hcomment ?_))) .nil))
    exact .keep (.node (.keep (hleaf _ _) (.keep (.node (.drop hcomment (.keep (hleaf _ _) .nil))) .nil))) .nil
  have hbetween : Strips (linkedFunction [sampleComment] []) (linkedFunction [] []) := by
    refine .node (.keep (.node (.keep (hleaf _ _) (.keep (.node (.keep (hleaf _ _) (.drop hcomment ?_))) .nil))) .nil)
    exact .keep (.node (.keep (hleaf _ _) .nil)) .nil
  have hapart : CommentsApart (linkedFunction [] [sampleComment]) := by decide +kernel
  have hsupported : ∀ o ∈ documented (linkedFunction [] [sampleComment]), Supported o.node := by decide +kernel
  have hwords : ∃ o ∈ documented (linkedFunction [sampleComment] []), ∃ m ∈ modifiersOf o.node, IsComment m := by
    decide +kernel
  obtain ⟨docs, hdocs, _⟩ := mapM_document none _ hsupported
  obtain ⟨found, hfound, _⟩ := Result.map_eq_ok_iff.mp ((functions_docs _ none).trans hdocs)
  obtain ⟨hkept, hsame, _⟩ := functions_without_comments haround none
  obtain ⟨less, hless, _⟩ := hkept found hfound
  refine ⟨haround, hapart, ?_, hbetween, ⟨less, hless⟩, (functions_without_comments hbetween none).2.2 hwords⟩
  refine (hsame hapart).resolve_right ?_
  rintro ⟨o, m, _, _, _, hfault⟩
  rw [hfound] at hfault
  cases hfault

end CrateDocs.Extract
