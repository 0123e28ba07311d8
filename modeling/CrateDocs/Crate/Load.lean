import CrateDocs.Disk.Basic
import CrateDocs.Syntax.Tree

namespace CrateDocs.Crate

open Syntax (Node Source Tree Diagnostic)

-- How the text of a file becomes a syntax tree.
abbrev Grammar := List UInt8 → Node

-- What was found while a crate is loaded: the problems, and the files in the order they were reached.
structure Progress where
  diagnostics : List Diagnostic
  files : List Location

abbrev Loading := StateT Progress (Except DiskError)

namespace Loading

def report (d : Diagnostic) : Loading Unit :=
  modify fun p => { p with diagnostics := p.diagnostics ++ [d] }

end Loading

def skipBlanks (cs : List Char) : List Char :=
  cs.dropWhile Text.isBlank

-- What follows a fixed text, blanks after it left out.
def after? (mark : String) (cs : List Char) : Option (List Char) :=
  if mark.toList.isPrefixOf cs then some (skipBlanks (cs.drop mark.length)) else none

-- The file that an attribute `#[path = "..."]` names.
def pathOfAttribute? (text : String) : Option String := do
  let cs := (Text.trimBlanks text).toList
  let value ← (((after? "#" cs).bind (after? "[")).bind (after? "path")).bind (after? "=")
  match value with
  | '"' :: rest =>
    let target := rest.takeWhile (· != '"')
    let behind ← after? "\"" (rest.dropWhile (· != '"'))
    if target.isEmpty || behind != [']'] then none else some (String.ofList target)
  | _ => none

-- The path in the nearest of the attributes right before a declaration, comments among them. The
-- nodes before it are given nearest first.
def pathBefore? (s : Source) (before : List Node) : Option String :=
  ((before.filter (·.named)).takeWhile fun n => n.kind == "attribute_item" || n.isComment).findSome?
    fun n => if n.kind == "attribute_item" then pathOfAttribute? (s.text n) else none

-- The file of a module, and whether the modules in it are looked for beside it.
def locate (d : Disk) (directory attributeFolder : Path) (attribute? : Option String) (name : String) :
    Except DiskError (Option (Path × Bool)) :=
  match attribute? with
  | some target => do
    let file := attributeFolder.child target
    return if ← d.isFile file then some (file, true) else none
  | none => do
    let flat := directory.child (name ++ ".rs")
    if ← d.isFile flat then return some (flat, false)
    let nested := (directory.child name).child "mod.rs"
    return if ← d.isFile nested then some (nested, true) else none

-- The folder that the modules of a module's file are looked for in.
def childFolder (file : Path) (beside : Bool) : Path :=
  if beside then file.parent else file.parent.child file.stem

-- Loads the file of a module that has no body, for the declaration `n`.
def loadModule (load : Path → Path → Loading (Option Tree)) (d : Disk) (s : Source)
    (directory attributeFolder : Path) (before : List Node) (n : Node) (name : String) :
    Loading (List (Nat × Tree)) := do
  match ← locate d directory attributeFolder (pathBefore? s before) name with
  | none =>
    Loading.report ⟨s.path, s.place n.start, s!"file not found for module `{name}`"⟩
    return []
  | some (file, beside) =>
    return ((← load file (childFolder file beside)).map fun tree => (n.start, tree)).toList

-- Loads the files of the modules that some nodes declare, at any depth of modules with a body. The
-- nodes that came before are given nearest first. Gives every loaded file's tree with the start of
-- its declaration. The start is enough to find the declaration again: what is given is only grafted
-- into the tree of this one file, and no other file is loaded under its path.
mutual
def loadModules (load : Path → Path → Loading (Option Tree)) (d : Disk) (s : Source)
    (directory attributeFolder : Path) (before : List Node) :
    List Node → Loading (List (Nat × Tree))
  | [] => return []
  | n :: rest => do
    let here ← loadDeclared load d s directory attributeFolder before n
    let others ← loadModules load d s directory attributeFolder (n :: before) rest
    return here ++ others
termination_by structural nodes => nodes
def loadDeclared (load : Path → Path → Loading (Option Tree)) (d : Disk) (s : Source)
    (directory attributeFolder : Path) (before : List Node) : Node → Loading (List (Nat × Tree))
  | ⟨kind, start, stop, field, named, missing, children⟩ =>
    let n : Node := ⟨kind, start, stop, field, named, missing, children⟩
    match n.child? "name" with
    | some nameNode =>
      if named && kind == "mod_item" then
        let name := Text.withoutStart "r#" (s.text nameNode)
        loadBody load d s directory attributeFolder before n name children
      else return []
    | none => return []
termination_by structural n => n
def loadBody (load : Path → Path → Loading (Option Tree)) (d : Disk) (s : Source)
    (directory attributeFolder : Path) (before : List Node) (n : Node) (name : String) :
    List Node → Loading (List (Nat × Tree))
  | [] => loadModule load d s directory attributeFolder before n name
  | ⟨_, _, _, field, _, _, children⟩ :: rest =>
    if field == some "body" then
      loadModules load d s (directory.child name) (directory.child name) [] children
    else loadBody load d s directory attributeFolder before n name rest
termination_by structural children => children
end

-- Loads a file with all the modules it declares. The first argument bounds how deep files lead to
-- other files; `fileLimit` is enough, since no file is loaded twice. What a declaration leads to was
-- found as a file and so can be read, hence only the entry of a crate can turn out unreadable.
def loadFile (grammar : Grammar) (d : Disk) : Nat → Path → Path → Loading (Option Tree)
  | 0, _, _ => return none
  | limit + 1, path, directory => do
    let spot := d.resolve path
    if (← get).files.contains spot then
      Loading.report ⟨path, ⟨1, 1⟩, "module file is included more than once"⟩
      return none
    modify fun p => { p with files := p.files ++ [spot] }
    match d.read path with
    | .error e =>
      if e.fromSystem then
        Loading.report ⟨path, ⟨1, 1⟩, s!"cannot read source file: {e.message}"⟩
        return none
      else throw e
    | .ok bytes =>
      let source : Source := ⟨path, bytes⟩
      let root := grammar bytes
      modify fun p => { p with diagnostics := p.diagnostics ++ source.syntaxErrors root }
      let grafts ← loadModules (loadFile grammar d limit) d source directory path.parent [] root.children
      return some (Tree.ofNode source grafts root)

-- One more than the number of files there are to load.
def fileLimit (d : Disk) : Nat :=
  d.root.fileCount + 1

-- Loads a crate from its entry file.
def load (grammar : Grammar) (d : Disk) (entry : Path) : Except DiskError (Option Tree × Progress) :=
  (loadFile grammar d (fileLimit d) entry entry.parent).run ⟨[], []⟩

end CrateDocs.Crate
