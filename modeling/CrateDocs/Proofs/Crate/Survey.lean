import CrateDocs.Proofs.Crate.Located
import CrateDocs.Proofs.Disk.Replace
import Mathlib.Algebra.Order.Group.Multiset
import Mathlib.Tactic.Abel

namespace CrateDocs.Crate

open Syntax (Node Source Tree Diagnostic)

-- What becomes of a declaration: it leads to a file, or a file is missing.

def ledBy? (d : Disk) (s : Source) (directory : Path) (decl : Declaration) : Option Target :=
  match locateDeclared d s directory decl with
  | .ok (some (file, beside)) => some ⟨file, childFolder file beside⟩
  | _ => none

def missing? (d : Disk) (s : Source) (directory : Path) (decl : Declaration) : Option Diagnostic :=
  match locateDeclared d s directory decl with
  | .ok none => some ⟨s.path, s.place decl.site.node.start, s!"file not found for module `{decl.name}`"⟩
  | _ => none

namespace Target

variable (grammar : Grammar) (d : Disk)

-- The files that a file leads to, in the order of the declarations.
def led (t : Target) : List Target :=
  match d.read t.file with
  | .error _ => []
  | .ok bytes =>
    (declarations ⟨t.file, bytes⟩ [] [] [] (grammar bytes)).filterMap (ledBy? d ⟨t.file, bytes⟩ t.directory)

-- What is wrong with a file by itself.
def problems (t : Target) : List Diagnostic :=
  match d.read t.file with
  | .error e => [⟨t.file, ⟨1, 1⟩, s!"cannot read source file: {e.message}"⟩]
  | .ok bytes =>
    Source.syntaxErrors ⟨t.file, bytes⟩ (grammar bytes) ++
      (declarations ⟨t.file, bytes⟩ [] [] [] (grammar bytes)).filterMap (missing? d ⟨t.file, bytes⟩ t.directory)

-- What is told of a file that is reached again.
def repeated (t : Target) : Diagnostic :=
  ⟨t.file, ⟨1, 1⟩, "module file is included more than once"⟩

end Target

variable {grammar : Grammar} {d : Disk}

theorem ledBy?_eq_some_iff {s : Source} {directory : Path} {decl : Declaration} {next : Target} :
    ledBy? d s directory decl = some next ↔
      ∃ beside, Located d s directory decl next.file beside ∧ next.directory = childFolder next.file beside := by
  simp only [← locateDeclared_eq_some_iff, ledBy?]
  rcases locateDeclared d s directory decl with e | (_ | ⟨file, beside⟩)
  · simp
  · simp
  · cases next
    simp only [Option.some.injEq, Target.mk.injEq, Except.ok.injEq, Prod.mk.injEq]
    constructor
    · rintro ⟨rfl, rfl⟩
      exact ⟨beside, ⟨rfl, rfl⟩, rfl⟩
    · rintro ⟨_, ⟨rfl, rfl⟩, rfl⟩
      exact ⟨rfl, rfl⟩

-- The same files with the declarations that lead to them.
def Target.steps (grammar : Grammar) (d : Disk) (t : Target) : List (Declaration × Target) :=
  match d.read t.file with
  | .error _ => []
  | .ok bytes =>
    (declarations ⟨t.file, bytes⟩ [] [] [] (grammar bytes)).filterMap fun decl =>
      (ledBy? d ⟨t.file, bytes⟩ t.directory decl).map fun next => (decl, next)

theorem Target.map_snd_steps (t : Target) : (t.steps grammar d).map (·.2) = t.led grammar d := by
  rw [steps, led]
  cases d.read t.file with
  | error e => rfl
  | ok bytes => simp [List.map_filterMap, Function.comp_def]

theorem Target.mem_steps_iff {t next : Target} {decl : Declaration} :
    (decl, next) ∈ t.steps grammar d ↔ t.Leads grammar d decl next := by
  rw [steps]
  cases hread : d.read t.file with
  | error e =>
      constructor
      · intro h
        cases h
      · rintro ⟨s, hdecl, _⟩
        cases hread.symm.trans hdecl.read
  | ok bytes =>
      simp only [List.mem_filterMap, Option.map_eq_some_iff, Prod.mk.injEq, Leads, declares_iff hread,
        ← ledBy?_eq_some_iff]
      constructor
      · rintro ⟨_, hdecl, _, hled, rfl, rfl⟩
        exact ⟨_, ⟨rfl, hdecl⟩, hled⟩
      · rintro ⟨_, ⟨rfl, hdecl⟩, hled⟩
        exact ⟨decl, hdecl, next, hled, rfl, rfl⟩

theorem mem_led_iff {t next : Target} : next ∈ t.led grammar d ↔ t.Follows grammar d next := by
  rw [← Target.map_snd_steps, List.mem_map]
  constructor
  · rintro ⟨⟨decl, _⟩, hstep, rfl⟩
    exact ⟨decl, Target.mem_steps_iff.mp hstep⟩
  · rintro ⟨decl, hleads⟩
    exact ⟨(decl, next), Target.mem_steps_iff.mpr hleads, rfl⟩

-- An account of loading the files that it starts with. Some files are visited, and all that they lead to is
-- visited as well or has been visited before, which is told. Whatever is wrong with a file that is visited
-- is told too, next to what is told on the way.
structure Survey (grammar : Grammar) (d : Disk) (starts : List Target) (own : List Diagnostic) (p q : Progress)
    (visits repeats : List Target) : Prop where
  files : q.files = p.files ++ visits.map (Target.spot d)
  followed : (starts ++ visits.flatMap (Target.led grammar d)).Perm (visits ++ repeats)
  again : ∀ t ∈ repeats, t.spot d ∈ q.files
  diagnostics : q.diagnostics.Perm
    (p.diagnostics ++ own ++ visits.flatMap (Target.problems grammar d) ++ repeats.map Target.repeated)
  closed : ∀ holds : Target → Prop, (∀ t ∈ starts, holds t) →
    (∀ t next, holds t → t.Follows grammar d next → holds next) → ∀ t ∈ visits, holds t

namespace Survey

theorem nil (p : Progress) : Survey grammar d [] [] p p [] [] where
  files := by simp
  followed := by simp
  again := by simp
  diagnostics := by simp
  closed := by simp

theorem append {starts starts' : List Target} {own own' : List Diagnostic} {p q r : Progress}
    {visits visits' repeats repeats' : List Target} (h : Survey grammar d starts own p q visits repeats)
    (h' : Survey grammar d starts' own' q r visits' repeats') :
    Survey grammar d (starts ++ starts') (own ++ own') p r (visits ++ visits') (repeats ++ repeats') where
  files := by rw [h'.files, h.files, List.map_append, List.append_assoc]
  followed := by
    have hfirst := Multiset.coe_eq_coe.mpr h.followed
    have hsecond := Multiset.coe_eq_coe.mpr h'.followed
    simp only [← Multiset.coe_add] at hfirst hsecond
    rw [← Multiset.coe_eq_coe]
    simp only [List.flatMap_append, ← Multiset.coe_add]
    calc _ = ((starts : Multiset Target) + visits.flatMap (Target.led grammar d)) +
          (starts' + visits'.flatMap (Target.led grammar d)) := by abel
      _ = _ := by rw [hfirst, hsecond]; abel
  again := by
    intro t ht
    rcases List.mem_append.mp ht with ht | ht
    · rw [h'.files]
      exact List.mem_append_left _ (h.again t ht)
    · exact h'.again t ht
  diagnostics := by
    have hfirst := Multiset.coe_eq_coe.mpr h.diagnostics
    have hsecond := Multiset.coe_eq_coe.mpr h'.diagnostics
    simp only [← Multiset.coe_add] at hfirst hsecond
    rw [← Multiset.coe_eq_coe]
    simp only [List.flatMap_append, List.map_append, ← Multiset.coe_add]
    rw [hsecond, hfirst]
    abel
  closed := by
    intro holds hstarts hnext t ht
    rw [List.forall_mem_append] at hstarts
    rcases List.mem_append.mp ht with ht | ht
    · exact h.closed holds hstarts.1 hnext t ht
    · exact h'.closed holds hstarts.2 hnext t ht

-- A file that was visited before.
theorem again_of_mem {t : Target} {p : Progress} (h : t.spot d ∈ p.files) :
    Survey grammar d [t] [] p { p with diagnostics := p.diagnostics ++ [t.repeated] } [] [t] where
  files := by simp
  followed := by simp
  again := by simpa using h
  diagnostics := by simp
  closed := by simp

-- A file that cannot be read.
theorem of_unreadable {t : Target} {p : Progress} {e : DiskError} (h : d.read t.file = .error e) :
    Survey grammar d [t] [] p
      ⟨p.diagnostics ++ [⟨t.file, ⟨1, 1⟩, s!"cannot read source file: {e.message}"⟩], p.files ++ [t.spot d]⟩ [t] [] where
  files := by simp
  followed := by simp [Target.led, h]
  again := by simp
  diagnostics := by simp [Target.problems, h]
  closed := fun _ hstarts _ => hstarts

-- A file that is read, and then all that it leads to.
theorem visit {t : Target} {bytes : List UInt8} (hread : d.read t.file = .ok bytes) {p q : Progress}
    {visits repeats : List Target}
    (h : Survey grammar d (t.led grammar d)
      ((declarations ⟨t.file, bytes⟩ [] [] [] (grammar bytes)).filterMap (missing? d ⟨t.file, bytes⟩ t.directory))
      ⟨p.diagnostics ++ Source.syntaxErrors ⟨t.file, bytes⟩ (grammar bytes), p.files ++ [t.spot d]⟩ q visits repeats) :
    Survey grammar d [t] [] p q (t :: visits) repeats where
  files := by rw [h.files, List.map_cons, List.append_assoc, List.singleton_append]
  followed := by
    rw [List.flatMap_cons, List.singleton_append, List.cons_append]
    exact h.followed.cons t
  again := h.again
  diagnostics := by
    rw [List.flatMap_cons, Target.problems, hread]
    simpa [List.append_assoc] using h.diagnostics
  closed := by
    intro holds hstarts hnext
    have ht : holds t := hstarts t List.mem_cons_self
    rw [List.forall_mem_cons]
    refine ⟨ht, h.closed holds (fun next hled => ?_) hnext⟩
    exact hnext t next ht (mem_led_iff.mp hled)

end Survey

-- How loading goes on, step by step.

theorem Loading.run_get (p : Progress) : (get : Loading Progress).run p = .ok (p, p) :=
  rfl

theorem Loading.run_lift {α : Type} {x : Except DiskError α} {a : α} (h : x = .ok a) (p : Progress) :
    (liftM x : Loading α).run p = .ok (a, p) := by
  rw [h]
  rfl

theorem Loading.run_bind_of_ok {α β : Type} {x : Loading α} {next : α → Loading β} {p q : Progress} {a : α}
    (h : x.run p = .ok (a, q)) : (x >>= next).run p = (next a).run q := by
  rw [StateT.run_bind, h]
  rfl

section run

variable {load : Path → Path → Loading (Option Tree)} {s : Source} {directory : Path} {decl : Declaration} {p q : Progress}

theorem run_loadDeclaration_missing {problem : Diagnostic} (h : missing? d s directory decl = some problem) :
    (loadDeclaration load d s directory decl).run p =
      .ok ([], { p with diagnostics := p.diagnostics ++ [problem] }) := by
  rw [missing?] at h
  split at h
  · rename_i hlocate
    cases h
    rw [loadDeclaration, loadModule, ← locateDeclared, Loading.run_bind_of_ok (Loading.run_lift hlocate p)]
    rfl
  · cases h

theorem run_loadDeclaration_led {t : Target} {tree? : Option Tree} (h : ledBy? d s directory decl = some t)
    (hload : (load t.file t.directory).run p = .ok (tree?, q)) :
    ∃ grafts, (loadDeclaration load d s directory decl).run p = .ok (grafts, q) := by
  rw [ledBy?] at h
  split at h
  · rename_i file beside hlocate
    cases h
    rw [loadDeclaration, loadModule, ← locateDeclared, Loading.run_bind_of_ok (Loading.run_lift hlocate p)]
    dsimp only
    rw [Loading.run_bind_of_ok hload]
    exact ⟨_, rfl⟩
  · cases h

theorem run_loadFile_again {limit : Nat} {t : Target} (h : t.spot d ∈ p.files) :
    (loadFile grammar d (limit + 1) t.file t.directory).run p =
      .ok (none, { p with diagnostics := p.diagnostics ++ [t.repeated] }) := by
  rw [← List.contains_iff_mem, Target.spot] at h
  rw [loadFile, Loading.run_bind_of_ok (Loading.run_get p), if_pos h]
  rfl

theorem run_loadFile_unreadable {limit : Nat} {t : Target} {e : DiskError} (h : t.spot d ∉ p.files)
    (hread : d.read t.file = .error e) (he : e.fromSystem = true) :
    (loadFile grammar d (limit + 1) t.file t.directory).run p =
      .ok (none, ⟨p.diagnostics ++ [⟨t.file, ⟨1, 1⟩, s!"cannot read source file: {e.message}"⟩],
        p.files ++ [t.spot d]⟩) := by
  rw [← List.contains_iff_mem, Target.spot] at h
  rw [loadFile, Loading.run_bind_of_ok (Loading.run_get p), if_neg h, hread]
  dsimp only
  rw [if_pos he]
  rfl

theorem run_loadFile_read {limit : Nat} {t : Target} {bytes : List UInt8} {grafts : List (Nat × Tree)}
    (h : t.spot d ∉ p.files) (hread : d.read t.file = .ok bytes)
    (hload : (loadDeclarations (loadFile grammar d limit) d ⟨t.file, bytes⟩ t.directory
      (declarations ⟨t.file, bytes⟩ [] [] [] (grammar bytes))).run
        ⟨p.diagnostics ++ Source.syntaxErrors ⟨t.file, bytes⟩ (grammar bytes), p.files ++ [t.spot d]⟩ = .ok (grafts, q)) :
    ∃ tree?, (loadFile grammar d (limit + 1) t.file t.directory).run p = .ok (tree?, q) := by
  rw [← List.contains_iff_mem, Target.spot] at h
  rw [loadFile, Loading.run_bind_of_ok (Loading.run_get p), if_neg h, hread]
  dsimp only
  have hfiles : (modify fun p => { p with files := p.files ++ [d.resolve t.file] } : Loading Unit).run p =
      .ok ((), ⟨p.diagnostics, p.files ++ [t.spot d]⟩) := rfl
  have herrors : (modify fun p =>
      { p with diagnostics := p.diagnostics ++ Source.syntaxErrors ⟨t.file, bytes⟩ (grammar bytes) } : Loading Unit).run
        ⟨p.diagnostics, p.files ++ [t.spot d]⟩ =
      .ok ((), ⟨p.diagnostics ++ Source.syntaxErrors ⟨t.file, bytes⟩ (grammar bytes), p.files ++ [t.spot d]⟩) := rfl
  rw [Loading.run_bind_of_ok hfiles, Loading.run_bind_of_ok herrors, loadModules_root _ d ⟨t.file, bytes⟩,
    Loading.run_bind_of_ok hload]
  exact ⟨_, rfl⟩

end run

-- Loading that is accounted for, wherever files that the crate leads to are loaded.
def Accounts (grammar : Grammar) (d : Disk) (entry : Path) (limit : Nat)
    (load : Path → Path → Loading (Option Tree)) : Prop :=
  ∀ (t : Target) (p : Progress), Target.Reached grammar d entry t → (∃ bytes, d.read t.file = .ok bytes) →
    FileSpots d p.files → d.root.fileCount < p.files.length + limit →
    ∃ tree? q visits repeats, (load t.file t.directory).run p = .ok (tree?, q) ∧ FileSpots d q.files ∧
      Survey grammar d [t] [] p q visits repeats

-- No test for the file of a module fails in a crate.
def Asks (grammar : Grammar) (d : Disk) (entry : Path) : Prop :=
  ∀ t s decl, Target.Reached grammar d entry t → t.Declares grammar d s decl → Answered d s t.directory decl

theorem exists_read_of_isFile {file : Path} (h : d.isFile file = .ok true) : ∃ bytes, d.read file = .ok bytes := by
  obtain ⟨e, he, hfile⟩ := (Disk.test_eq_true_iff d file _).mp h
  cases e with
  | file content => exact ⟨content, (Disk.read_eq_ok_iff d file content).mpr he⟩
  | folder inner => cases hfile

-- A declaration leads to a file that can be read, or its file is missing.
theorem led_or_missing {s : Source} {directory : Path} {decl : Declaration} (h : Answered d s directory decl) :
    (∃ t, ledBy? d s directory decl = some t ∧ missing? d s directory decl = none ∧ ∃ bytes, d.read t.file = .ok bytes) ∨
      ∃ problem, missing? d s directory decl = some problem ∧ ledBy? d s directory decl = none := by
  obtain ⟨found?, hfound⟩ := exists_locateDeclared_iff.mpr h
  rw [ledBy?, missing?, hfound]
  cases found? with
  | none => exact Or.inr ⟨_, rfl, rfl⟩
  | some found =>
      obtain ⟨file, beside⟩ := found
      have hfile := ((locateDeclared_eq_some_iff file beside).mp hfound).isFile
      exact Or.inl ⟨_, rfl, rfl, exists_read_of_isFile hfile⟩

section loading

variable {entry : Path} {limit : Nat} {load : Path → Path → Loading (Option Tree)}

theorem loadDeclaration_accounts (hload : Accounts grammar d entry limit load) (hasks : Asks grammar d entry)
    {t : Target} (ht : t.Reached grammar d entry) {s : Source} {decl : Declaration} (hdecl : t.Declares grammar d s decl)
    {p : Progress} (hspots : FileSpots d p.files) (hlimit : d.root.fileCount < p.files.length + limit) :
    ∃ grafts q visits repeats, (loadDeclaration load d s t.directory decl).run p = .ok (grafts, q) ∧
      FileSpots d q.files ∧ Survey grammar d (ledBy? d s t.directory decl).toList
        (missing? d s t.directory decl).toList p q visits repeats := by
  rcases led_or_missing (hasks t s decl ht hdecl) with ⟨next, hled, hnone, hread⟩ | ⟨problem, hmissing, hnone⟩
  · have hnext : next.Reached grammar d entry := ht.tail ⟨decl, s, hdecl, ledBy?_eq_some_iff.mp hled⟩
    obtain ⟨tree?, q, visits, repeats, hrun, hafter, hsurvey⟩ := hload next p hnext hread hspots hlimit
    obtain ⟨grafts, hgrafts⟩ := run_loadDeclaration_led hled hrun
    rw [hled, hnone]
    exact ⟨grafts, q, visits, repeats, hgrafts, hafter, hsurvey⟩
  · rw [hmissing, hnone]
    refine ⟨_, _, [], [], run_loadDeclaration_missing hmissing, hspots, ?_⟩
    exact ⟨by simp, by simp, by simp, by simp, by simp⟩

theorem loadDeclarations_accounts (hload : Accounts grammar d entry limit load) (hasks : Asks grammar d entry)
    {t : Target} (ht : t.Reached grammar d entry) {s : Source} {decls : List Declaration}
    (hdecls : ∀ decl ∈ decls, t.Declares grammar d s decl)
    {p : Progress} (hspots : FileSpots d p.files) (hlimit : d.root.fileCount < p.files.length + limit) :
    ∃ grafts q visits repeats, (loadDeclarations load d s t.directory decls).run p = .ok (grafts, q) ∧
      FileSpots d q.files ∧ Survey grammar d (decls.filterMap (ledBy? d s t.directory))
        (decls.filterMap (missing? d s t.directory)) p q visits repeats := by
  induction decls generalizing p with
  | nil => exact ⟨[], p, [], [], rfl, hspots, Survey.nil p⟩
  | cons decl decls ih =>
      rw [List.forall_mem_cons] at hdecls
      obtain ⟨here, q, visits, repeats, hhere, hafter, hfirst⟩ :=
        loadDeclaration_accounts hload hasks ht hdecls.1 hspots hlimit
      have hlonger : d.root.fileCount < q.files.length + limit := by
        rw [hfirst.files, List.length_append]
        omega
      obtain ⟨others, r, visits', repeats', hothers, hlast, hrest⟩ := ih hdecls.2 hafter hlonger
      refine ⟨here ++ others, r, visits ++ visits', repeats ++ repeats', ?_, hlast, ?_⟩
      · rw [loadDeclarations, Loading.run_bind_of_ok hhere, Loading.run_bind_of_ok hothers]
        rfl
      · have hboth := hfirst.append hrest
        rw [List.filterMap_eq_flatMap_toList, List.filterMap_eq_flatMap_toList] at hboth ⊢
        rw [List.flatMap_cons, List.flatMap_cons]
        exact hboth

-- As before, no more files are loaded than there are locations of files.
theorem loadFile_accounts (hasks : Asks grammar d entry) (limit : Nat) :
    Accounts grammar d entry limit (loadFile grammar d limit) := by
  induction limit with
  | zero =>
      intro t p ht hread hspots hlimit
      have hcount := Folder.length_le_fileCount hspots.1 hspots.2
      omega
  | succ limit ih =>
      intro t p ht hread hspots hlimit
      obtain ⟨bytes, hread⟩ := hread
      by_cases hagain : t.spot d ∈ p.files
      · exact ⟨none, _, [], [t], run_loadFile_again hagain, hspots, Survey.again_of_mem hagain⟩
      · have hdecls : ∀ decl ∈ declarations ⟨t.file, bytes⟩ [] [] [] (grammar bytes),
            t.Declares grammar d ⟨t.file, bytes⟩ decl := fun decl hdecl => ⟨rfl, hread, hdecl⟩
        have hlonger : d.root.fileCount < (p.files ++ [t.spot d]).length + limit := by
          rw [List.length_append, List.length_singleton]
          omega
        obtain ⟨grafts, q, visits, repeats, hrun, hafter, hsurvey⟩ := loadDeclarations_accounts ih hasks ht hdecls
          (p := ⟨p.diagnostics ++ Source.syntaxErrors ⟨t.file, bytes⟩ (grammar bytes), p.files ++ [t.spot d]⟩)
          (hspots.append hagain hread) hlonger
        obtain ⟨tree?, htree⟩ := run_loadFile_read hagain hread hrun
        refine ⟨tree?, q, t :: visits, repeats, htree, hafter, Survey.visit hread ?_⟩
        rwa [Target.led, hread]

-- A crate is loaded with an account of all the files in it.
theorem load_accounts (hentry : '\x00' ∉ entry.text.toList) (hasks : Asks grammar d entry) :
    ∃ tree? progress visits repeats, Crate.load grammar d entry = .ok (tree?, progress) ∧
      (visits.map (Target.spot d)).Nodup ∧
      Survey grammar d [Target.entry entry] [] ⟨[], []⟩ progress visits repeats := by
  cases hread : d.read entry with
  | error e =>
      have hnew : (Target.entry entry).spot d ∉ ([] : List Location) := List.not_mem_nil
      have hrun := @run_loadFile_unreadable grammar d ⟨[], []⟩ d.root.fileCount (Target.entry entry) e hnew hread
        (Disk.fromSystem_of_read hentry hread)
      exact ⟨none, _, [Target.entry entry], [], hrun, List.nodup_singleton _, Survey.of_unreadable hread⟩
  | ok bytes =>
      obtain ⟨tree?, q, visits, repeats, hrun, hspots, hsurvey⟩ := loadFile_accounts hasks (fileLimit d)
        (Target.entry entry) ⟨[], []⟩ .refl ⟨bytes, hread⟩ ⟨List.nodup_nil, by simp⟩ (by simp [fileLimit])
      have hnodup := hspots.1
      rw [hsurvey.files, List.nil_append] at hnodup
      exact ⟨tree?, q, visits, repeats, hrun, hnodup, hsurvey⟩

end loading

end CrateDocs.Crate
