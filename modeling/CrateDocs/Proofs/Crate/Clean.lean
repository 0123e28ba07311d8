import CrateDocs.Proofs.Crate.Grafts
import CrateDocs.Proofs.Crate.Survey
import Mathlib.Data.List.Nodup
import Mathlib.Data.List.Perm.Basic

namespace CrateDocs.Crate

open Syntax (Node Source Tree Diagnostic Site sites)
open Relation (ReflTransGen TransGen)

variable {grammar : Grammar} {d : Disk} {entry : Path}

-- A crate without a problem: whatever it leads to can be read and parsed, every declared module has a file,
-- and no file belongs to two modules or leads to itself. The first is a condition on the entry file alone, since a
-- module leads to nothing but files.
structure Clean (grammar : Grammar) (d : Disk) (entry : Path) : Prop where
  readable : ∀ t : Target, t.Reached grammar d entry → ∃ bytes, d.read t.file = .ok bytes
  parsable : ∀ (t : Target) bytes, t.Reached grammar d entry → d.read t.file = .ok bytes →
    ∀ site ∈ sites [] [] (grammar bytes), site.node.kind ≠ "ERROR" ∧ site.node.missing = false
  located : ∀ (t : Target) s decl, t.Reached grammar d entry → t.Declares grammar d s decl →
    ∃ file beside, Located d s t.directory decl file beside
  once : ∀ (t t' : Target) decl decl' next next', t.Reached grammar d entry → t'.Reached grammar d entry →
    t.Leads grammar d decl next → t'.Leads grammar d decl' next' → next.spot d = next'.spot d →
    t.spot d = t'.spot d ∧ decl.site.way = decl'.site.way
  acyclic : ∀ t t' : Target, t.Reached grammar d entry → TransGen (Target.Follows grammar d) t t' →
    t'.spot d ≠ t.spot d

-- A file has no problem of its own.

theorem syntaxErrors_eq_nil_iff_sites (s : Source) (root : Node) :
    s.syntaxErrors root = [] ↔ ∀ site ∈ sites [] [] root, site.node.kind ≠ "ERROR" ∧ site.node.missing = false := by
  rw [Syntax.syntaxErrors_eq_nil_iff, ← Bool.not_eq_true, Syntax.hasError_iff root [] [], not_exists]
  refine forall_congr' fun site => ?_
  rw [not_and, Node.isError, Bool.or_eq_true, not_or, beq_iff_eq, Bool.not_eq_true, Node.errorKind]

theorem missing?_eq_none_iff {s : Source} {directory : Path} {decl : Declaration} (h : Answered d s directory decl) :
    missing? d s directory decl = none ↔ ∃ file beside, Located d s directory decl file beside := by
  simp only [← locateDeclared_eq_some_iff, missing?]
  obtain ⟨found?, hfound⟩ := exists_locateDeclared_iff.mpr h
  rw [hfound]
  cases found? with
  | none => simp
  | some found => exact ⟨fun _ => ⟨found.1, found.2, rfl⟩, fun _ => rfl⟩

theorem problems_eq_nil_iff (hasks : Asks grammar d entry) {t : Target} (ht : t.Reached grammar d entry) :
    t.problems grammar d = [] ↔ ∃ bytes, d.read t.file = .ok bytes ∧
      (∀ site ∈ sites [] [] (grammar bytes), site.node.kind ≠ "ERROR" ∧ site.node.missing = false) ∧
      ∀ decl, t.Declares grammar d ⟨t.file, bytes⟩ decl →
        ∃ file beside, Located d ⟨t.file, bytes⟩ t.directory decl file beside := by
  rw [Target.problems]
  cases hread : d.read t.file with
  | error e => simp
  | ok bytes =>
      simp only [List.append_eq_nil_iff, syntaxErrors_eq_nil_iff_sites, List.filterMap_eq_nil_iff, Except.ok.injEq,
        exists_eq_left', Target.declares_iff hread, true_and]
      refine and_congr_right fun _ => forall₂_congr fun decl hdecl => ?_
      exact missing?_eq_none_iff (hasks t _ decl ht ⟨rfl, hread, hdecl⟩)

theorem Target.nodup_ways_steps (grammar : Grammar) (d : Disk) (t : Target) :
    ((t.steps grammar d).map (·.1.site.way)).Nodup := by
  rw [steps]
  cases d.read t.file with
  | error e => exact List.nodup_nil
  | ok bytes =>
      have hways := (Syntax.nodup_ways (grammar bytes) [] []).sublist
        ((declarations_sublist ⟨t.file, bytes⟩ (grammar bytes)).map (·.way))
      rw [List.map_map, List.Nodup, List.pairwise_map] at hways
      rw [List.Nodup, List.pairwise_map, List.pairwise_filterMap]
      refine hways.imp fun {a b} hne x hx y hy => ?_
      obtain ⟨_, _, rfl⟩ := Option.map_eq_some_iff.mp hx
      obtain ⟨_, _, rfl⟩ := Option.map_eq_some_iff.mp hy
      exact hne

-- A step with the file it starts from. It is known by this file and by the place of the declaration.
def arcs (grammar : Grammar) (d : Disk) (visits : List Target) : List (Target × Declaration × Target) :=
  visits.flatMap fun t => (t.steps grammar d).map fun step => (t, step)

def arcKey (d : Disk) (arc : Target × Declaration × Target) : Location × List Nat :=
  (arc.1.spot d, arc.2.1.site.way)

def arcEnd (d : Disk) (arc : Target × Declaration × Target) : Location :=
  arc.2.2.spot d

theorem mem_arcs_iff {visits : List Target} {t next : Target} {decl : Declaration} :
    (t, decl, next) ∈ arcs grammar d visits ↔ t ∈ visits ∧ t.Leads grammar d decl next := by
  rw [← Target.mem_steps_iff]
  simp [arcs]

theorem map_arcEnd (visits : List Target) :
    (arcs grammar d visits).map (arcEnd d) = (visits.flatMap (Target.led grammar d)).map (Target.spot d) := by
  rw [arcs, List.map_flatMap, List.map_flatMap]
  refine List.flatMap_congr fun t _ => ?_
  rw [← Target.map_snd_steps, List.map_map, List.map_map]
  rfl

theorem nodup_arcKeys {visits : List Target} (h : (visits.map (Target.spot d)).Nodup) :
    ((arcs grammar d visits).map (arcKey d)).Nodup := by
  rw [arcs, List.map_flatMap, List.nodup_flatMap]
  constructor
  · intro t _
    have hways := (Target.nodup_ways_steps grammar d t).map (Prod.mk_right_injective (t.spot d))
    rw [List.map_map] at hways ⊢
    exact hways
  · rw [List.Nodup, List.pairwise_map] at h
    refine h.imp fun {a b} hne key ha hb => hne ?_
    simp only [List.map_map, List.mem_map, Function.comp_apply] at ha hb
    obtain ⟨_, _, rfl⟩ := ha
    obtain ⟨_, _, heq⟩ := hb
    exact (congrArg Prod.fst heq).symm

-- Under a crate without a problem, arcs that end in one file are one arc. So all that is visited is visited once.
theorem nodup_ends_of_clean (h : Clean grammar d entry) {visits : List Target}
    (hreached : ∀ t ∈ visits, t.Reached grammar d entry) (hnodup : (visits.map (Target.spot d)).Nodup) :
    ((Target.entry entry :: visits.flatMap (Target.led grammar d)).map (Target.spot d)).Nodup := by
  rw [List.map_cons, List.nodup_cons, ← map_arcEnd]
  constructor
  · intro hmem
    obtain ⟨⟨t, decl, next⟩, harc, hend⟩ := List.mem_map.mp hmem
    obtain ⟨ht, hleads⟩ := mem_arcs_iff.mp harc
    exact h.acyclic _ next .refl (TransGen.tail' (hreached t ht) ⟨decl, hleads⟩) hend
  · have hkeys := @nodup_arcKeys grammar d visits hnodup
    refine List.Nodup.map_on ?_ hkeys.of_map
    rintro ⟨t, decl, next⟩ harc ⟨t', decl', next'⟩ harc' hend
    obtain ⟨ht, hleads⟩ := mem_arcs_iff.mp harc
    obtain ⟨ht', hleads'⟩ := mem_arcs_iff.mp harc'
    obtain ⟨hspot, hway⟩ := h.once t t' decl decl' next next' (hreached t ht) (hreached t' ht') hleads hleads' hend
    exact List.inj_on_of_nodup_map hkeys harc harc' (Prod.ext hspot hway)

section survey

variable {progress : Progress} {visits repeats : List Target}

theorem Survey.reached (h : Survey grammar d [Target.entry entry] [] ⟨[], []⟩ progress visits repeats) :
    ∀ t ∈ visits, t.Reached grammar d entry := by
  refine h.closed (Target.Reached grammar d entry) ?_ fun t next ht hnext => ht.tail hnext
  rw [List.forall_mem_singleton]
  exact .refl

-- A crate without a problem is loaded without a diagnostic.
theorem Survey.diagnostics_eq_nil (h : Survey grammar d [Target.entry entry] [] ⟨[], []⟩ progress visits repeats)
    (hasks : Asks grammar d entry) (hnodup : (visits.map (Target.spot d)).Nodup) (hclean : Clean grammar d entry) :
    progress.diagnostics = [] := by
  have hproblems : visits.flatMap (Target.problems grammar d) = [] := by
    rw [List.flatMap_eq_nil_iff]
    intro t ht
    have hreached := h.reached t ht
    obtain ⟨bytes, hread⟩ := hclean.readable t hreached
    exact (problems_eq_nil_iff hasks hreached).mpr
      ⟨bytes, hread, hclean.parsable t bytes hreached hread, fun decl => hclean.located t _ decl hreached⟩
  have hrepeats : repeats = [] := by
    have hends := (h.followed.map (Target.spot d)).nodup_iff.mp (nodup_ends_of_clean hclean h.reached hnodup)
    rw [List.map_append, List.nodup_append] at hends
    rw [List.eq_nil_iff_forall_not_mem]
    intro t ht
    have hagain := h.again t ht
    rw [h.files, List.nil_append] at hagain
    exact hends.2.2 _ hagain _ (List.mem_map_of_mem ht) rfl
  have hall := h.diagnostics
  rw [hproblems, hrepeats] at hall
  exact List.perm_nil.mp hall

-- Where nothing is told, the files that are visited are all that the crate leads to, and each but the first has
-- one arc to it.

theorem Survey.mem_visits (h : Survey grammar d [Target.entry entry] [] ⟨[], []⟩ progress visits []) {t : Target}
    (ht : t.Reached grammar d entry) : t ∈ visits := by
  have hfollowed := h.followed
  rw [List.append_nil] at hfollowed
  induction ht with
  | refl => exact hfollowed.subset (List.mem_append_left _ List.mem_cons_self)
  | @tail t next _ hnext ih =>
      exact hfollowed.subset (List.mem_append_right _ (List.mem_flatMap.mpr ⟨t, ih, mem_led_iff.mpr hnext⟩))

theorem Survey.nodup_ends (h : Survey grammar d [Target.entry entry] [] ⟨[], []⟩ progress visits [])
    (hnodup : (visits.map (Target.spot d)).Nodup) :
    (Target.entry entry).spot d ∉ (arcs grammar d visits).map (arcEnd d) ∧
      ((arcs grammar d visits).map (arcEnd d)).Nodup := by
  have hends := h.followed.map (Target.spot d)
  rw [List.append_nil] at hends
  rw [map_arcEnd, ← List.nodup_cons]
  exact hends.nodup_iff.mpr hnodup

theorem Survey.arc_eq (h : Survey grammar d [Target.entry entry] [] ⟨[], []⟩ progress visits [])
    (hnodup : (visits.map (Target.spot d)).Nodup) {t t' next next' : Target} {decl decl' : Declaration}
    (ht : t.Reached grammar d entry) (ht' : t'.Reached grammar d entry) (hleads : t.Leads grammar d decl next)
    (hleads' : t'.Leads grammar d decl' next') (hend : next.spot d = next'.spot d) :
    (t, decl, next) = (t', decl', next') :=
  List.inj_on_of_nodup_map (h.nodup_ends hnodup).2 (mem_arcs_iff.mpr ⟨h.mem_visits ht, hleads⟩)
    (mem_arcs_iff.mpr ⟨h.mem_visits ht', hleads'⟩) hend

-- No cycle goes through the entry file, which nothing leads to, and none through a file that is led to from
-- outside of all cycles.
theorem Survey.acyclic (h : Survey grammar d [Target.entry entry] [] ⟨[], []⟩ progress visits [])
    (hnodup : (visits.map (Target.spot d)).Nodup) {t : Target} (ht : t.Reached grammar d entry) :
    ¬TransGen (Target.Follows grammar d) t t := by
  induction ht with
  | refl =>
      intro hcycle
      obtain ⟨last, hlast, decl, hleads⟩ := TransGen.tail'_iff.mp hcycle
      apply (h.nodup_ends hnodup).1
      exact List.mem_map.mpr ⟨(last, decl, _), mem_arcs_iff.mpr ⟨h.mem_visits hlast, hleads⟩, rfl⟩
  | @tail t next ht hnext ih =>
      intro hcycle
      obtain ⟨last, hlast, decl', hleads'⟩ := TransGen.tail'_iff.mp hcycle
      obtain ⟨decl, hleads⟩ := hnext
      have hreached : last.Reached grammar d entry := (ht.tail ⟨decl, hleads⟩).trans hlast
      obtain rfl := congrArg Prod.fst (h.arc_eq hnodup ht hreached hleads hleads' rfl)
      exact ih (TransGen.head' ⟨decl, hleads⟩ hlast)

-- A crate that is loaded without a diagnostic has no problem.
theorem Survey.clean (h : Survey grammar d [Target.entry entry] [] ⟨[], []⟩ progress visits repeats)
    (hasks : Asks grammar d entry) (hnodup : (visits.map (Target.spot d)).Nodup) (hnone : progress.diagnostics = []) :
    Clean grammar d entry := by
  have hall := h.diagnostics
  rw [hnone, List.nil_perm] at hall
  simp only [List.append_eq_nil_iff, List.flatMap_eq_nil_iff, List.map_eq_nil_iff] at hall
  obtain ⟨⟨_, hproblems⟩, rfl⟩ := hall
  have hfile : ∀ t : Target, t.Reached grammar d entry → _ :=
    fun t ht => (problems_eq_nil_iff hasks ht).mp (hproblems t (h.mem_visits ht))
  refine ⟨fun t ht => ?_, fun t bytes ht hread => ?_, fun t s decl ht hdecl => ?_, ?_, fun t t' ht hpath hspot => ?_⟩
  · obtain ⟨bytes, hread, _⟩ := hfile t ht
    exact ⟨bytes, hread⟩
  · obtain ⟨found, hfound, hclean, _⟩ := hfile t ht
    obtain rfl := Except.ok.inj (hfound.symm.trans hread)
    exact hclean
  · obtain ⟨bytes, hread, _, hlocated⟩ := hfile t ht
    obtain ⟨rfl, _⟩ := (Target.declares_iff hread).mp hdecl
    exact hlocated decl hdecl
  · intro t t' decl decl' next next' ht ht' hleads hleads' hend
    have harc := h.arc_eq hnodup ht ht' hleads hleads' hend
    simp only [Prod.mk.injEq] at harc
    obtain ⟨rfl, rfl, _⟩ := harc
    exact ⟨rfl, rfl⟩
  · have hpath' : t'.Reached grammar d entry := ht.trans hpath.to_reflTransGen
    have hsame := List.inj_on_of_nodup_map hnodup (h.mem_visits hpath') (h.mem_visits ht) hspot
    rw [hsame] at hpath
    exact h.acyclic hnodup ht hpath

end survey

-- The way that loading a crate takes. It goes to files that the crate leads to, to each once, and whatever
-- the declarations in one of them lead to is gone to as well, or has been.
structure Tour (grammar : Grammar) (d : Disk) (entry : Path) (visits repeats : List Target) : Prop where
  reached : ∀ t ∈ visits, t.Reached grammar d entry
  once : (visits.map (Target.spot d)).Nodup
  followed : (Target.entry entry :: visits.flatMap (Target.led grammar d)).Perm (visits ++ repeats)
  again : ∀ t ∈ repeats, ∃ v ∈ visits, v.spot d = t.spot d

theorem Survey.tour {progress : Progress} {visits repeats : List Target}
    (h : Survey grammar d [Target.entry entry] [] ⟨[], []⟩ progress visits repeats)
    (hnodup : (visits.map (Target.spot d)).Nodup) : Tour grammar d entry visits repeats where
  reached := h.reached
  once := hnodup
  followed := h.followed
  again := by
    intro t ht
    have hagain := h.again t ht
    rw [h.files, List.nil_append] at hagain
    exact List.mem_map.mp hagain

theorem accept_of_diagnostics (entry : Path) (tree? : Option Tree) {progress : Progress}
    (h : progress.diagnostics ≠ []) :
    accept entry (tree?, progress) = .error (.fault (.unparsable entry progress.diagnostics)) := by
  obtain ⟨diagnostics, files⟩ := progress
  cases diagnostics with
  | nil => exact absurd rfl h
  | cons first rest => cases tree? <;> rfl

section parsed

variable {w : World}

-- An entry with a zero byte in it is no path. The error of the disk is not made a diagnostic then.
theorem parse_of_zeroByte (grammar : Grammar) (w : World) (hzero : '\x00' ∈ entry.text.toList) :
    ((parse grammar entry).runIn w).1 = .error (.disk ⟨.zeroByte, some entry.text⟩) := by
  obtain ⟨_, hrun⟩ := reads_parse grammar entry w
  have hload : Crate.load grammar w.disk entry = .error ⟨.zeroByte, some entry.text⟩ := by
    rw [Crate.load, fileLimit, loadFile, w.disk.read_of_zeroByte hzero]
    rfl
  rw [hrun, parseAt, hload]
  rfl

theorem parse_accounts (hentry : '\x00' ∉ entry.text.toList) (hasks : Asks grammar w.disk entry) :
    ∃ diagnostics visits repeats, (diagnostics = [] ↔ Clean grammar w.disk entry) ∧
      (diagnostics = [] → ∃ crate, ((parse grammar entry).runIn w).1 = .ok crate) ∧
      (diagnostics ≠ [] → ((parse grammar entry).runIn w).1 = .error (.fault (.unparsable entry diagnostics))) ∧
      Tour grammar w.disk entry visits repeats ∧
      diagnostics.Perm (visits.flatMap (Target.problems grammar w.disk) ++ repeats.map Target.repeated) := by
  obtain ⟨tree?, ⟨diagnostics, files⟩, visits, repeats, hload, hnodup, hsurvey⟩ := load_accounts hentry hasks
  obtain ⟨_, hrun⟩ := reads_parse grammar entry w
  have hparse : ((parse grammar entry).runIn w).1 = accept entry (tree?, ⟨diagnostics, files⟩) := by
    rw [hrun, parseAt, hload]
    rfl
  have htold := hsurvey.diagnostics
  rw [List.append_nil, List.nil_append] at htold
  refine ⟨diagnostics, visits, repeats, ⟨hsurvey.clean hasks hnodup, hsurvey.diagnostics_eq_nil hasks hnodup⟩,
    fun hnone => ?_, fun hsome => hparse.trans (accept_of_diagnostics entry tree? hsome), hsurvey.tour hnodup, htold⟩
  obtain ⟨m, _, _, rfl, _⟩ := load_eq_ok hload hnone
  subst hnone
  exact ⟨⟨m.tree grammar, files⟩, hparse⟩

theorem exists_parse_eq_ok_iff (hasks : Asks grammar w.disk entry) :
    (∃ crate, ((parse grammar entry).runIn w).1 = .ok crate) ↔ Clean grammar w.disk entry := by
  by_cases hzero : '\x00' ∈ entry.text.toList
  · rw [parse_of_zeroByte grammar w hzero]
    constructor
    · rintro ⟨_, h⟩
      cases h
    · intro hclean
      obtain ⟨bytes, hread⟩ := hclean.readable (Target.entry entry) .refl
      cases (w.disk.read_of_zeroByte hzero).symm.trans hread
  · obtain ⟨_, _, _, hclean, hok, herror, _⟩ := parse_accounts hzero hasks
    rw [← hclean]
    refine ⟨fun hcrate => ?_, hok⟩
    obtain ⟨crate, hcrate⟩ := hcrate
    by_contra hsome
    cases hcrate.symm.trans (herror hsome)

end parsed

-- A crate is parsed exactly if there is no problem in it. Otherwise every problem of every file that is gone
-- to is told, wherever there are others, and so is every file that is met again.
theorem parse_accepts_clean {w : World} (hasks : Asks grammar w.disk entry) :
    ((∃ crate, ((parse grammar entry).runIn w).1 = .ok crate) ↔ Clean grammar w.disk entry) ∧
    ('\x00' ∈ entry.text.toList →
      ((parse grammar entry).runIn w).1 = .error (.disk ⟨.zeroByte, some entry.text⟩)) ∧
    ('\x00' ∉ entry.text.toList → ¬Clean grammar w.disk entry → ∃ diagnostics visits repeats,
      ((parse grammar entry).runIn w).1 = .error (.fault (.unparsable entry diagnostics)) ∧ diagnostics ≠ [] ∧
      (Fault.unparsable entry diagnostics).message =
        s!"Failed to parse {entry.text}: {diagnostics.length} error(s)" ∧
      Tour grammar w.disk entry visits repeats ∧
      diagnostics.Perm (visits.flatMap (Target.problems grammar w.disk) ++ repeats.map Target.repeated)) := by
  refine ⟨exists_parse_eq_ok_iff hasks, parse_of_zeroByte grammar w, fun hentry hproblem => ?_⟩
  obtain ⟨diagnostics, visits, repeats, hclean, _, herror, htour, htold⟩ := parse_accounts hentry hasks
  rw [← hclean] at hproblem
  exact ⟨diagnostics, visits, repeats, herror hproblem, hproblem, rfl, htour, htold⟩

-- It can be computed whether the tests for all files of modules are answered.

theorem reached_subset {ts : List Target} (hentry : Target.entry entry ∈ ts)
    (hled : ∀ t ∈ ts, ∀ next ∈ t.led grammar d, next ∈ ts) {t : Target} (ht : t.Reached grammar d entry) : t ∈ ts := by
  induction ht with
  | refl => exact hentry
  | @tail t next _ hnext ih => exact hled t ih next (mem_led_iff.mpr hnext)

def Target.answers (grammar : Grammar) (d : Disk) (t : Target) : Bool :=
  match d.read t.file with
  | .error _ => true
  | .ok bytes =>
    (declarations ⟨t.file, bytes⟩ [] [] [] (grammar bytes)).all fun decl =>
      (locateDeclared d ⟨t.file, bytes⟩ t.directory decl).isOk

theorem asks_of_answers {ts : List Target} (hentry : Target.entry entry ∈ ts)
    (hled : ∀ t ∈ ts, ∀ next ∈ t.led grammar d, next ∈ ts) (hanswers : ∀ t ∈ ts, t.answers grammar d = true) :
    Asks grammar d entry := by
  intro t s decl ht hdecl
  obtain ⟨bytes, hread⟩ : ∃ bytes, d.read t.file = .ok bytes := ⟨_, hdecl.read⟩
  obtain ⟨rfl, hmem⟩ := (Target.declares_iff hread).mp hdecl
  have hall := hanswers t (reached_subset hentry hled ht)
  rw [Target.answers, hread] at hall
  have hok := List.all_eq_true.mp hall decl hmem
  apply exists_locateDeclared_iff.mp
  cases hfound : locateDeclared d ⟨t.file, bytes⟩ t.directory decl with
  | error e =>
      rw [hfound] at hok
      cases hok
  | ok found? => exact ⟨found?, rfl⟩

-- A module that cannot be parsed, beside one that has no file.

def brokenText : String := "mod a;mod b;"

def brokenModules : World :=
  .ofDisk (.ofFolder (.file "lib.rs" (Utf8.encode brokenText) (.file "a.rs" (Utf8.encode "fn (){}") .empty)))

def brokenGrammar : Grammar := fun bytes =>
  if bytes = Utf8.encode brokenText then
    ⟨"source_file", 0, 12, none, true, false, [declaredModule 0, declaredModule 6]⟩
  else
    ⟨"source_file", 0, 7, none, true, false, [⟨"function_item", 0, 7, none, true, false,
      [.leaf "fn" 0 2 false, ⟨"identifier", 2, 2, some "name", true, true, []⟩,
        sampleBrackets "parameters" "(" ")" 3 "parameters", sampleBrackets "block" "\x7b" "\x7d" 5 "body"]⟩]⟩

theorem asks_brokenModules : Asks brokenGrammar brokenModules.disk ⟨.here, ["lib.rs"]⟩ := by
  refine @asks_of_answers _ _ _ [⟨⟨.here, ["lib.rs"]⟩, ⟨.here, []⟩⟩, ⟨⟨.here, ["a.rs"]⟩, ⟨.here, ["a"]⟩⟩] ?_ ?_ ?_
  · decide +kernel
  · decide +kernel
  · decide +kernel

def diagnosed : Except Failure Crate → List String
  | .error (.fault (.unparsable _ diagnostics)) => diagnostics.map (·.problem)
  | _ => []

theorem parse_brokenModules :
    ¬Clean brokenGrammar brokenModules.disk ⟨.here, ["lib.rs"]⟩ ∧
    ∃ (diagnostics : List Diagnostic) (visits repeats : List Target),
      ((parse brokenGrammar ⟨.here, ["lib.rs"]⟩).runIn brokenModules).1 =
        .error (.fault (.unparsable ⟨.here, ["lib.rs"]⟩ diagnostics)) ∧
      diagnostics.map (·.problem) = ["missing `identifier`", "file not found for module `b`"] ∧
      diagnostics.Perm (visits.flatMap (Target.problems brokenGrammar brokenModules.disk) ++
        repeats.map Target.repeated) := by
  have hparse : diagnosed ((parse brokenGrammar ⟨.here, ["lib.rs"]⟩).runIn brokenModules).1 =
      ["missing `identifier`", "file not found for module `b`"] := by
    decide +kernel
  obtain ⟨hok, _, hfault⟩ := parse_accepts_clean asks_brokenModules
  have hproblem : ¬Clean brokenGrammar brokenModules.disk ⟨.here, ["lib.rs"]⟩ := by
    rw [← hok]
    rintro ⟨_, h⟩
    rw [h] at hparse
    cases hparse
  obtain ⟨diagnostics, visits, repeats, herror, _, _, _, htold⟩ := hfault (by decide +kernel) hproblem
  rw [herror] at hparse
  exact ⟨hproblem, diagnostics, visits, repeats, herror, hparse, htold⟩

end CrateDocs.Crate
