import CrateDocs.Proofs.Crate.Survey

namespace CrateDocs.Crate

open Syntax (Node Source Tree Diagnostic)

-- What there is to load: a file, the modules that some nodes declare, or what a single node declares.
inductive Task
  | file (path directory : Path)
  | modules (s : Source) (directory attributeFolder : Path) (before nodes : List Node)
  | declared (s : Source) (directory attributeFolder : Path) (before : List Node) (n : Node)

namespace Task

abbrev Yield : Task → Type
  | file _ _ => Option Tree
  | modules _ _ _ _ _ | declared _ _ _ _ _ => List (Nat × Tree)

def run (grammar : Grammar) (d : Disk) (limit : Nat) : (task : Task) → Loading task.Yield
  | file path directory => loadFile grammar d limit path directory
  | modules s directory attributeFolder before nodes =>
    loadModules (loadFile grammar d limit) d s directory attributeFolder before nodes
  | declared s directory attributeFolder before n =>
    loadDeclared (loadFile grammar d limit) d s directory attributeFolder before n

end Task

-- How a task ends, by the rules of loading alone and with no bound on how deep files lead to files: from the
-- progress before it, with the paths that are read on the way, to what it gives. It may also end with an error
-- of the disk, and then nothing else is done.
inductive Ends (grammar : Grammar) (d : Disk) :
    (task : Task) → Progress → List Path → Except DiskError (task.Yield × Progress) → Prop
  | again {path directory : Path} {p : Progress} (h : d.resolve path ∈ p.files) :
      Ends grammar d (.file path directory) p []
        (.ok (none, ⟨p.diagnostics ++ [⟨path, ⟨1, 1⟩, "module file is included more than once"⟩], p.files⟩))
  | unreadable {path directory : Path} {p : Progress} {e : DiskError} (hnew : d.resolve path ∉ p.files)
      (hread : d.read path = .error e) (he : e.fromSystem = true) :
      Ends grammar d (.file path directory) p [path]
        (.ok (none, ⟨p.diagnostics ++ [⟨path, ⟨1, 1⟩, s!"cannot read source file: {e.message}"⟩],
          p.files ++ [d.resolve path]⟩))
  | refused {path directory : Path} {p : Progress} {e : DiskError} (hnew : d.resolve path ∉ p.files)
      (hread : d.read path = .error e) (he : e.fromSystem = false) :
      Ends grammar d (.file path directory) p [path] (.error e)
  | read {path directory : Path} {p : Progress} {bytes : List UInt8} {reads : List Path}
      {outcome : Except DiskError (List (Nat × Tree) × Progress)} (hnew : d.resolve path ∉ p.files)
      (hread : d.read path = .ok bytes)
      (h : Ends grammar d (.modules ⟨path, bytes⟩ directory path.parent [] (grammar bytes).children)
        ⟨p.diagnostics ++ Source.syntaxErrors ⟨path, bytes⟩ (grammar bytes), p.files ++ [d.resolve path]⟩ reads outcome) :
      Ends grammar d (.file path directory) p (path :: reads)
        (outcome.map fun (grafts, q) => (some (Tree.ofNode ⟨path, bytes⟩ grafts (grammar bytes)), q))
  | nil {s : Source} {directory attributeFolder : Path} {before : List Node} {p : Progress} :
      Ends grammar d (.modules s directory attributeFolder before []) p [] (.ok ([], p))
  | stopped {s : Source} {directory attributeFolder : Path} {before rest : List Node} {n : Node} {p : Progress}
      {reads : List Path} {e : DiskError}
      (h : Ends grammar d (.declared s directory attributeFolder before n) p reads (.error e)) :
      Ends grammar d (.modules s directory attributeFolder before (n :: rest)) p reads (.error e)
  | cons {s : Source} {directory attributeFolder : Path} {before rest : List Node} {n : Node} {p q : Progress}
      {reads more : List Path} {here : List (Nat × Tree)} {outcome : Except DiskError (List (Nat × Tree) × Progress)}
      (h : Ends grammar d (.declared s directory attributeFolder before n) p reads (.ok (here, q)))
      (hrest : Ends grammar d (.modules s directory attributeFolder (n :: before) rest) q more outcome) :
      Ends grammar d (.modules s directory attributeFolder before (n :: rest)) p (reads ++ more)
        (outcome.map fun (others, r) => (here ++ others, r))
  | other {s : Source} {directory attributeFolder : Path} {before : List Node} {n : Node} {p : Progress}
      (h : ¬n.IsModule) : Ends grammar d (.declared s directory attributeFolder before n) p [] (.ok ([], p))
  | inline {s : Source} {directory attributeFolder : Path} {before : List Node} {n body : Node} {p : Progress}
      {reads : List Path} {outcome : Except DiskError (List (Nat × Tree) × Progress)} (h : n.IsModule)
      (hbody : n.child? "body" = some body)
      (hin : Ends grammar d (.modules s (directory.child (moduleName s n)) (directory.child (moduleName s n)) []
        body.children) p reads outcome) :
      Ends grammar d (.declared s directory attributeFolder before n) p reads outcome
  | unanswered {s : Source} {directory attributeFolder : Path} {before : List Node} {n : Node} {p : Progress}
      {e : DiskError} (h : n.IsModule) (hbody : n.child? "body" = none)
      (hlocate : locate d directory attributeFolder (pathBefore? s before) (moduleName s n) = .error e) :
      Ends grammar d (.declared s directory attributeFolder before n) p [] (.error e)
  | missing {s : Source} {directory attributeFolder : Path} {before : List Node} {n : Node} {p : Progress}
      (h : n.IsModule) (hbody : n.child? "body" = none)
      (hlocate : locate d directory attributeFolder (pathBefore? s before) (moduleName s n) = .ok none) :
      Ends grammar d (.declared s directory attributeFolder before n) p []
        (.ok ([], ⟨p.diagnostics ++
          [⟨s.path, s.place n.start, s!"file not found for module `{moduleName s n}`"⟩], p.files⟩))
  | found {s : Source} {directory attributeFolder : Path} {before : List Node} {n : Node} {p : Progress}
      {file : Path} {beside : Bool} {reads : List Path} {outcome : Except DiskError (Option Tree × Progress)}
      (h : n.IsModule) (hbody : n.child? "body" = none)
      (hlocate : locate d directory attributeFolder (pathBefore? s before) (moduleName s n) = .ok (some (file, beside)))
      (hin : Ends grammar d (.file file (childFolder file beside)) p reads outcome) :
      Ends grammar d (.declared s directory attributeFolder before n) p reads
        (outcome.map fun (tree?, q) => ((tree?.map fun tree => (n.start, tree)).toList, q))

section declared

variable (load : Path → Path → Loading (Option Tree)) (d : Disk) (s : Source) (directory attributeFolder : Path)
  (before : List Node)

theorem loadBody_eq_find? (n : Node) (name : String) (ns : List Node) :
    loadBody load d s directory attributeFolder before n name ns =
      match ns.find? fun child => child.field == some "body" with
      | none => loadModule load d s directory attributeFolder before n name
      | some body => loadModules load d s (directory.child name) (directory.child name) [] body.children := by
  induction ns with
  | nil => rw [loadBody, List.find?_nil]
  | cons child ns ih =>
      cases child with
      | mk kind start stop field named missing children =>
          rw [loadBody, List.find?_cons, ih]
          cases field == some "body" <;> rfl

theorem loadDeclared_of_module {n : Node} (h : n.IsModule) :
    loadDeclared load d s directory attributeFolder before n =
      match n.child? "body" with
      | none => loadModule load d s directory attributeFolder before n (moduleName s n)
      | some body =>
        loadModules load d s (directory.child (moduleName s n)) (directory.child (moduleName s n)) [] body.children := by
  obtain ⟨hnamed, hkind, hname⟩ := h
  obtain ⟨nameNode, hname⟩ := Option.ne_none_iff_exists'.mp hname
  cases n with
  | mk kind start stop field named missing children =>
      dsimp only at hnamed hkind
      subst hnamed hkind
      rw [loadDeclared, moduleName, hname]
      exact loadBody_eq_find? load d s directory attributeFolder before _ _ children

theorem loadDeclared_of_not_module {n : Node} (h : ¬n.IsModule) :
    loadDeclared load d s directory attributeFolder before n = pure [] := by
  cases n with
  | mk kind start stop field named missing children =>
      rw [loadDeclared]
      split
      · rename_i nameNode hname
        rw [if_neg]
        intro hmodule
        simp only [Bool.and_eq_true, beq_iff_eq] at hmodule
        exact h ⟨hmodule.1, hmodule.2, by simp [hname]⟩
      · rfl

end declared

variable {grammar : Grammar} {d : Disk}

theorem Loading.run_bind_of_error {α β : Type} {x : Loading α} {next : α → Loading β} {p : Progress} {e : DiskError}
    (h : x.run p = .error e) : (x >>= next).run p = .error e := by
  rw [StateT.run_bind, h]
  rfl

-- A last step that cannot fail only changes what is given.
theorem Loading.run_bind_pure {α β : Type} {x : Loading α} {f : α → β} {p : Progress}
    {outcome : Except DiskError (α × Progress)} (h : x.run p = outcome) :
    (x >>= fun a => pure (f a)).run p = outcome.map fun (a, q) => (f a, q) := by
  cases outcome with
  | error e => exact Loading.run_bind_of_error h
  | ok found =>
      rw [Loading.run_bind_of_ok h]
      rfl

theorem run_loadFile_new {limit : Nat} {path directory : Path} {p : Progress} {bytes : List UInt8}
    (hnew : d.resolve path ∉ p.files) (hread : d.read path = .ok bytes) :
    (loadFile grammar d (limit + 1) path directory).run p =
      (loadModules (loadFile grammar d limit) d ⟨path, bytes⟩ directory path.parent [] (grammar bytes).children >>=
        fun grafts => pure (some (Tree.ofNode ⟨path, bytes⟩ grafts (grammar bytes)))).run
          ⟨p.diagnostics ++ Source.syntaxErrors ⟨path, bytes⟩ (grammar bytes), p.files ++ [d.resolve path]⟩ := by
  rw [← List.contains_iff_mem] at hnew
  rw [loadFile, Loading.run_bind_of_ok (Loading.run_get p), if_neg hnew, hread]
  rfl

theorem run_loadFile_refused {limit : Nat} {path directory : Path} {p : Progress} {e : DiskError}
    (hnew : d.resolve path ∉ p.files) (hread : d.read path = .error e) (he : e.fromSystem = false) :
    (loadFile grammar d (limit + 1) path directory).run p = .error e := by
  rw [← List.contains_iff_mem] at hnew
  rw [loadFile, Loading.run_bind_of_ok (Loading.run_get p), if_neg hnew, hread]
  dsimp only
  rw [he]
  rfl

-- A bound that is more than the number of files that are read has no effect.
theorem Ends.run_eq {task : Task} {p : Progress} {reads : List Path} {outcome : Except DiskError (task.Yield × Progress)}
    (h : Ends grammar d task p reads outcome) :
    ∀ {limit : Nat}, reads.length < limit → (task.run grammar d limit).run p = outcome := by
  induction h with
  | @again path directory p hagain =>
      intro limit hlimit
      obtain ⟨limit, rfl⟩ := Nat.exists_eq_add_one.mpr (Nat.zero_lt_of_lt hlimit)
      exact run_loadFile_again (t := ⟨path, directory⟩) hagain
  | @unreadable path directory p e hnew hread he =>
      intro limit hlimit
      obtain ⟨limit, rfl⟩ := Nat.exists_eq_add_one.mpr (Nat.zero_lt_of_lt hlimit)
      exact run_loadFile_unreadable (t := ⟨path, directory⟩) hnew hread he
  | refused hnew hread he =>
      intro limit hlimit
      obtain ⟨limit, rfl⟩ := Nat.exists_eq_add_one.mpr (Nat.zero_lt_of_lt hlimit)
      exact run_loadFile_refused hnew hread he
  | read hnew hread _ ih =>
      intro limit hlimit
      obtain ⟨limit, rfl⟩ := Nat.exists_eq_add_one.mpr (Nat.zero_lt_of_lt hlimit)
      rw [List.length_cons] at hlimit
      rw [Task.run, run_loadFile_new hnew hread]
      exact Loading.run_bind_pure (ih (by omega))
  | nil =>
      intro limit hlimit
      rw [Task.run, loadModules]
      rfl
  | stopped _ ih =>
      intro limit hlimit
      rw [Task.run, loadModules]
      exact Loading.run_bind_of_error (ih hlimit)
  | @cons s directory attributeFolder before rest n p q reads more here outcome _ _ ih ihrest =>
      intro limit hlimit
      rw [List.length_append] at hlimit
      have hfirst : reads.length < limit := by omega
      have hhere := ih hfirst
      rw [Task.run] at hhere
      rw [Task.run, loadModules, Loading.run_bind_of_ok hhere]
      exact Loading.run_bind_pure (ihrest (by omega))
  | other h =>
      intro limit hlimit
      rw [Task.run, loadDeclared_of_not_module _ _ _ _ _ _ h]
      rfl
  | inline h hbody _ ih =>
      intro limit hlimit
      rw [Task.run, loadDeclared_of_module _ _ _ _ _ _ h, hbody]
      exact ih hlimit
  | @unanswered s directory attributeFolder before n p e h hbody hlocate =>
      intro limit hlimit
      rw [Task.run, loadDeclared_of_module _ _ _ _ _ _ h, hbody]
      dsimp only
      rw [loadModule, hlocate]
      rfl
  | missing h hbody hlocate =>
      intro limit hlimit
      rw [Task.run, loadDeclared_of_module _ _ _ _ _ _ h, hbody]
      dsimp only
      rw [loadModule, hlocate]
      rfl
  | found h hbody hlocate _ ih =>
      intro limit hlimit
      rw [Task.run, loadDeclared_of_module _ _ _ _ _ _ h, hbody]
      dsimp only
      rw [loadModule, Loading.run_bind_of_ok (Loading.run_lift hlocate _)]
      exact Loading.run_bind_pure (ih hlimit)

-- What is read was not reached before, is read once, and is all that is reached on the way.
theorem Ends.reads_new {task : Task} {p : Progress} {reads : List Path}
    {outcome : Except DiskError (task.Yield × Progress)} (h : Ends grammar d task p reads outcome) :
    (reads.map d.resolve).Nodup ∧ (∀ spot ∈ reads.map d.resolve, spot ∉ p.files) ∧
      ∀ found q, outcome = .ok (found, q) → q.files = p.files ++ reads.map d.resolve := by
  induction h with
  | again h =>
      refine ⟨by simp, by simp, ?_⟩
      rintro found q ⟨⟩
      simp
  | unreadable hnew hread he =>
      refine ⟨by simp, by simpa using hnew, ?_⟩
      rintro found q ⟨⟩
      rfl
  | refused hnew hread he => exact ⟨by simp, by simpa using hnew, by simp⟩
  | @read path directory p bytes reads outcome hnew hread _ ih =>
      obtain ⟨hnodup, hothers, hfiles⟩ := ih
      have hfirst : ∀ spot ∈ reads.map d.resolve, spot ≠ d.resolve path ∧ spot ∉ p.files := by
        intro spot hspot
        have hnone := hothers spot hspot
        rw [List.mem_append, List.mem_singleton, not_or] at hnone
        exact hnone.symm
      refine ⟨?_, ?_, ?_⟩
      · rw [List.map_cons, List.nodup_cons]
        exact ⟨fun hmem => (hfirst _ hmem).1 rfl, hnodup⟩
      · rw [List.map_cons, List.forall_mem_cons]
        exact ⟨hnew, fun spot hspot => (hfirst spot hspot).2⟩
      · intro found q hq
        cases outcome with
        | error e => cases hq
        | ok result =>
            cases hq
            rw [hfiles _ _ rfl]
            simp
  | nil =>
      refine ⟨by simp, by simp, ?_⟩
      rintro found q ⟨⟩
      simp
  | stopped _ ih => exact ⟨ih.1, ih.2.1, by simp⟩
  | @cons s directory attributeFolder before rest n p q reads more here outcome _ _ ih ihrest =>
      obtain ⟨hnodup, hothers, hfiles⟩ := ih
      obtain ⟨hnodup', hothers', hfiles'⟩ := ihrest
      have hq : q.files = p.files ++ reads.map d.resolve := hfiles _ _ rfl
      have hmore : ∀ spot ∈ more.map d.resolve, spot ∉ p.files ∧ spot ∉ reads.map d.resolve := by
        intro spot hspot
        have hnone := hothers' spot hspot
        rw [hq, List.mem_append, not_or] at hnone
        exact hnone
      refine ⟨?_, ?_, ?_⟩
      · rw [List.map_append, List.nodup_append]
        refine ⟨hnodup, hnodup', ?_⟩
        rintro one hone other hother rfl
        exact (hmore one hother).2 hone
      · rw [List.map_append, List.forall_mem_append]
        exact ⟨hothers, fun spot hspot => (hmore spot hspot).1⟩
      · intro found r hr
        cases outcome with
        | error e => cases hr
        | ok result =>
            cases hr
            rw [hfiles' _ _ rfl, hq, List.map_append, List.append_assoc]
  | other h =>
      refine ⟨by simp, by simp, ?_⟩
      rintro found q ⟨⟩
      simp
  | inline _ _ _ ih => exact ih
  | unanswered => exact ⟨by simp, by simp, by simp⟩
  | missing =>
      refine ⟨by simp, by simp, ?_⟩
      rintro found q ⟨⟩
      simp
  | @found s directory attributeFolder before n p file beside reads outcome _ _ _ _ ih =>
      refine ⟨ih.1, ih.2.1, ?_⟩
      intro found q hq
      cases outcome with
      | error e => cases hq
      | ok result =>
          cases hq
          exact ih.2.2 _ _ rfl

-- A task that ends, with nothing but files reached on the way.
def EndsAmong (grammar : Grammar) (d : Disk) (task : Task) (p : Progress) : Prop :=
  ∃ reads outcome, Ends grammar d task p reads outcome ∧ FileSpots d (p.files ++ reads.map d.resolve)

-- Every readable file ends while fewer than `left` more files can be reached.
def EachEnds (grammar : Grammar) (d : Disk) (left : Nat) : Prop :=
  ∀ (path directory : Path) (p : Progress), (∃ bytes, d.read path = .ok bytes) → FileSpots d p.files →
    d.root.fileCount < p.files.length + left → EndsAmong grammar d (.file path directory) p

theorem isFile_of_locate {directory attributeFolder : Path} {attribute? : Option String} {name : String} {file : Path}
    {beside : Bool} (h : locate d directory attributeFolder attribute? name = .ok (some (file, beside))) :
    d.isFile file = .ok true := by
  cases attribute? with
  | some target =>
      obtain ⟨there, hthere, h⟩ := Work.bind_eq_ok h
      cases there <;> cases h
      exact hthere
  | none =>
      obtain ⟨flat, hflat, h⟩ := Work.bind_eq_ok h
      cases flat with
      | true =>
          cases h
          exact hflat
      | false =>
          obtain ⟨there, hthere, h⟩ := Work.bind_eq_ok h
          cases there <;> cases h
          exact hthere

section nodes

variable {left : Nat} {s : Source} (directory attributeFolder : Path) (before : List Node) {p : Progress}

theorem endsAmong_declared (hload : EachEnds grammar d left) {n : Node} (hspots : FileSpots d p.files)
    (hleft : d.root.fileCount < p.files.length + left)
    (hbodies : ∀ body, n.child? "body" = some body → ∀ directory,
      EndsAmong grammar d (.modules s directory directory [] body.children) p) :
    EndsAmong grammar d (.declared s directory attributeFolder before n) p := by
  by_cases hmodule : n.IsModule
  · cases hbody : n.child? "body" with
    | some body =>
        obtain ⟨reads, outcome, hends, hafter⟩ := hbodies body hbody (directory.child (moduleName s n))
        exact ⟨reads, outcome, .inline hmodule hbody hends, hafter⟩
    | none =>
        rcases hlocate : locate d directory attributeFolder (pathBefore? s before) (moduleName s n) with
          e | (_ | ⟨file, beside⟩)
        · exact ⟨[], _, .unanswered hmodule hbody hlocate, by simpa using hspots⟩
        · exact ⟨[], _, .missing hmodule hbody hlocate, by simpa using hspots⟩
        · obtain ⟨reads, outcome, hends, hafter⟩ := hload file (childFolder file beside) p
            (exists_read_of_isFile (isFile_of_locate hlocate)) hspots hleft
          exact ⟨reads, _, .found hmodule hbody hlocate hends, hafter⟩
  · exact ⟨[], _, .other hmodule, by simpa using hspots⟩

theorem endsAmong_modules (hload : EachEnds grammar d left) (c : Node) (hspots : FileSpots d p.files)
    (hleft : d.root.fileCount < p.files.length + left) :
    EndsAmong grammar d (.modules s directory attributeFolder before c.children) p := by
  induction c using Node.holder_induction generalizing directory attributeFolder before p with
  | h c ihbody =>
      generalize c.children = nodes at ihbody
      induction nodes generalizing before p with
      | nil => exact ⟨[], _, .nil, by simpa using hspots⟩
      | cons n rest ih =>
          rw [List.forall_mem_cons] at ihbody
          have hbodies : ∀ body, n.child? "body" = some body → ∀ directory,
              EndsAmong grammar d (.modules s directory directory [] body.children) p := by
            intro body hbody directory
            rw [Node.child?, ← Node.map_firstBody?, Option.map_eq_some_iff] at hbody
            obtain ⟨⟨b, _⟩, hfirst, rfl⟩ := hbody
            exact ihbody.1 b _ hfirst directory directory [] hspots hleft
          obtain ⟨reads, outcome, hends, hafter⟩ :=
            endsAmong_declared directory attributeFolder before hload hspots hleft hbodies
          rcases outcome with e | ⟨here, q⟩
          · exact ⟨reads, _, .stopped hends, hafter⟩
          · have hq := hends.reads_new.2.2 here q rfl
            rw [← hq] at hafter
            have hlonger : d.root.fileCount < q.files.length + left := by
              rw [hq, List.length_append]
              omega
            obtain ⟨more, outcome, hrest, hlast⟩ := ih (n :: before) hafter hlonger ihbody.2
            rw [hq, List.append_assoc, ← List.map_append] at hlast
            exact ⟨reads ++ more, _, .cons hends hrest, hlast⟩

end nodes

-- With every file that is read fewer are left, so the recursion comes to an end.
theorem eachEnds (grammar : Grammar) (d : Disk) (left : Nat) : EachEnds grammar d left := by
  induction left with
  | zero =>
      intro path directory p _ hspots hleft
      have hcount := Folder.length_le_fileCount hspots.1 hspots.2
      omega
  | succ left ih =>
      intro path directory p hread hspots hleft
      obtain ⟨bytes, hread⟩ := hread
      by_cases hnew : d.resolve path ∈ p.files
      · exact ⟨[], _, .again hnew, by simpa using hspots⟩
      · have hlonger : d.root.fileCount < (p.files ++ [d.resolve path]).length + left := by
          rw [List.length_append, List.length_singleton]
          omega
        obtain ⟨reads, outcome, hends, hafter⟩ := endsAmong_modules directory path.parent [] ih (grammar bytes)
          (s := ⟨path, bytes⟩)
          (p := ⟨p.diagnostics ++ Source.syntaxErrors ⟨path, bytes⟩ (grammar bytes), p.files ++ [d.resolve path]⟩)
          (hspots.append hnew hread) hlonger
        rw [List.append_assoc, List.singleton_append, ← List.map_cons] at hafter
        exact ⟨path :: reads, _, .read hnew hread hends, hafter⟩

-- Whatever the file is, loading from it ends, and the bound on the depth is enough.
theorem exists_ends (grammar : Grammar) (d : Disk) (path directory : Path) :
    ∃ reads outcome, Ends grammar d (.file path directory) ⟨[], []⟩ reads outcome ∧
      ∀ limit, fileLimit d ≤ limit → (loadFile grammar d limit path directory).run ⟨[], []⟩ = outcome := by
  cases hread : d.read path with
  | error e =>
      have hnew : d.resolve path ∉ ([] : List Location) := List.not_mem_nil
      have hpos : ∀ limit, fileLimit d ≤ limit → ∃ less, limit = less + 1 := by
        intro limit hlimit
        exact Nat.exists_eq_add_one.mpr (Nat.lt_of_lt_of_le (Nat.succ_pos _) hlimit)
      cases he : e.fromSystem with
      | true =>
          refine ⟨[path], _, .unreadable hnew hread he, fun limit hlimit => ?_⟩
          obtain ⟨less, rfl⟩ := hpos limit hlimit
          exact run_loadFile_unreadable (t := ⟨path, directory⟩) hnew hread he
      | false =>
          refine ⟨[path], _, .refused hnew hread he, fun limit hlimit => ?_⟩
          obtain ⟨less, rfl⟩ := hpos limit hlimit
          exact run_loadFile_refused hnew hread he
  | ok bytes =>
      obtain ⟨reads, outcome, hends, hspots⟩ := eachEnds grammar d (fileLimit d) path directory ⟨[], []⟩ ⟨bytes, hread⟩
        ⟨List.nodup_nil, by simp⟩ (by simp [fileLimit])
      have hcount := Folder.length_le_fileCount hspots.1 hspots.2
      rw [List.nil_append, List.length_map] at hcount
      refine ⟨reads, outcome, hends, fun limit hlimit => hends.run_eq ?_⟩
      rw [fileLimit] at hlimit
      omega

-- Loading a crate ends, on any disk and for any grammar, whatever its files lead to. There is just one end, which
-- the bound on the depth does not cut off, and no file is read twice on the way, by whatever paths it is reached.
theorem load_ends (grammar : Grammar) (d : Disk) (entry : Path) :
    (∃ reads, Ends grammar d (.file entry entry.parent) ⟨[], []⟩ reads (load grammar d entry)) ∧
      (∀ limit, fileLimit d ≤ limit →
        (loadFile grammar d limit entry entry.parent).run ⟨[], []⟩ = load grammar d entry) ∧
      ∀ reads outcome, Ends grammar d (.file entry entry.parent) ⟨[], []⟩ reads outcome →
        outcome = load grammar d entry ∧
          reads.Pairwise fun one other => ∀ spot, d.locate one = .ok spot → d.locate other ≠ .ok spot := by
  obtain ⟨reads, outcome, hends, hbound⟩ := exists_ends grammar d entry entry.parent
  have hload : load grammar d entry = outcome := hbound (fileLimit d) (Nat.le_refl _)
  rw [hload]
  refine ⟨⟨reads, hends⟩, hbound, ?_⟩
  intro reads' outcome' hends'
  constructor
  · -- Both are what a bound that is large enough for either gives.
    have hone := hends.run_eq (Nat.lt_succ_of_le (Nat.le_max_left reads.length reads'.length))
    have hother := hends'.run_eq (Nat.lt_succ_of_le (Nat.le_max_right reads.length reads'.length))
    exact hother.symm.trans hone
  · have hnodup := hends'.reads_new.1
    rw [List.Nodup, List.pairwise_map] at hnodup
    refine hnodup.imp ?_
    intro one other hne spot hone hother
    exact hne ((Disk.locate_eq_resolve hone).symm.trans (Disk.locate_eq_resolve hother))

end CrateDocs.Crate
