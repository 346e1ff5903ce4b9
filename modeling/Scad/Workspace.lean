import Scad.Analysis
import Scad.Candidate
import Scad.Disk
import Scad.Layout
import Scad.Signature

/-!
# Scad.Workspace

The files known to the editor and the questions it asks about them. Registered files have the text
the editor shows; files that those refer to are read from disk once and kept until the path is
registered or forgotten. Paths are compared by their components.

* `Workspace.register`, `Workspace.forget`: the files of the editor.
* `Workspace.scope`: the declarations in scope at an offset, then the outermost declarations of the
  files referred to, one level deep.
* `Workspace.candidates`, `Workspace.definition?`, `Workspace.signature`, `Workspace.reprint?`: the
  questions. Those that follow references give the workspace back, because they may have read files.
-/

namespace Scad

/-- The analysed files: those of the editor and those read from disk. -/
structure Workspace where
  files : Table (List FilePath.Component) Analysis
  library : Table (List FilePath.Component) Analysis

namespace Workspace

open Text

/-- The workspace without files. -/
def empty : Workspace := ⟨Table.empty, Table.empty⟩

/-- The analysis of a registered file. -/
def analysis? (w : Workspace) (file : FilePath) : Option Analysis := w.files.get? file.components

/-- The analysis of a file that was read from disk. -/
def libraryAnalysis? (w : Workspace) (file : FilePath) : Option Analysis :=
  w.library.get? file.components

/-- The workspace in which a file of the editor has the given text. -/
def register (w : Workspace) (file : FilePath) (text : List Char) : Workspace :=
  ⟨w.files.insert file.components (.ofText file text), w.library.erase file.components⟩

/-- The workspace that knows nothing of a file. -/
def forget (w : Workspace) (file : FilePath) : Workspace :=
  ⟨w.files.erase file.components, w.library.erase file.components⟩

/-- The declarations of a registered file. -/
def declarations (w : Workspace) (file : FilePath) : List (Declaration Place) :=
  ((w.analysis? file).map Analysis.declarations).getD []

/-! ## References -/

/-- The path that a reference in a file means. -/
def target? (file : FilePath) (r : Reference) : Option FilePath :=
  file.parent?.map fun directory => directory.join (.ofString r.path)

/-- The file that a path means: the editor's, or the one read before, or the one on disk, which is
then kept. -/
def load (w : Workspace) (disk : Disk) (path : FilePath) : Workspace × Option Analysis :=
  match (w.analysis? path).or (w.libraryAnalysis? path) with
  | some a => (w, some a)
  | none =>
    match disk.readText? path with
    | some text =>
      let a := Analysis.ofText path text
      (⟨w.files, w.library.insert path.components a⟩, some a)
    | none => (w, none)

/-- The outermost declarations of the files that references in `file` mean, in order. -/
def included (disk : Disk) (file : FilePath) (w : Workspace) :
    List Reference → Workspace × List (Declaration Place)
  | [] => (w, [])
  | r :: rs =>
    match target? file r with
    | none => included disk file w rs
    | some path =>
      let (w, found) := w.load disk path
      let (w, others) := included disk file w rs
      (w, (found.elim [] Analysis.declarations) ++ others)

/-- The declarations in scope at an offset of a file. -/
def scope (w : Workspace) (disk : Disk) (a : Analysis) (offset : Nat) :
    Workspace × List (Declaration Place) :=
  let (w, others) := included disk a.file w a.references
  (w, Declaration.visible a.declarations offset ++ others)

/-! ## Suggestions -/

/-- The extension of source files. -/
def sourceExtension : List UInt8 := Utf8.encode "scad".toList

/-- The suggestion of an entry of a directory: directories, and files with the extension of sources.
-/
def entryCandidate? (name : Disk.Name) (e : Disk.Entry) : Option Candidate :=
  let label := String.ofList (Utf8.decodeLossy name)
  match e with
  | .directory => some ⟨label, .directory, none⟩
  | .file _ =>
    if FilePath.nameExtension? name = some sourceExtension then some ⟨label, .file, none⟩ else none

/-- The suggestions for the rest of a path of which `typed` is there, in the order of their labels.
-/
def pathCandidates (disk : Disk) (file : FilePath) (typed : List Char) : List Candidate :=
  let directory := String.ofList (typed.reverse.dropWhile (· != '/')).reverse
  match file.parent?.bind fun parent => disk.list? (parent.join (.ofString directory)) with
  | none => []
  | some entries =>
    let found := entries.filterMap fun (name, e) => entryCandidate? name e
    found.mergeSort fun a b => decide (a.label ≤ b.label)

/-- The suggestions at an offset of a registered file. Inside the path of a reference these are
files, elsewhere the declarations in scope and the words of the language. -/
def candidates (w : Workspace) (disk : Disk) (file : FilePath) (offset : Nat) :
    Workspace × List Candidate :=
  match w.analysis? file with
  | none => (w, [])
  | some a =>
    match a.tokens with
    | none => (w, [])
    | some tokens =>
      let inside (t : Token) :=
        t.kind == .path && decide (t.start < offset) && decide (offset < t.stop)
      match tokens.find? inside with
      | some t => (w, pathCandidates disk a.file ((t.text.take (offset - t.start)).drop 1))
      | none =>
        let (w, ds) := w.scope disk a offset
        let declared := (Candidate.distinct [] ds).map Candidate.ofDeclaration
        (w, declared ++ Candidate.keywords.map Candidate.ofKeyword)

/-! ## Definitions -/

/-- The declaration that a name means among those in scope: the first of the preferred kinds, or
else the first at all. -/
def resolve? (preferred : List Declaration.Kind) (name : String) (ds : List (Declaration Place)) :
    Option (Declaration Place) :=
  let matching := ds.filter fun d => d.name == name
  (matching.find? fun d => preferred.contains d.kind).or matching.head?

/-- The declaration of the name at an offset of a registered file. A name before a parenthesis is a
call and means a module or function if it can. -/
def definition? (w : Workspace) (disk : Disk) (file : FilePath) (offset : Nat) :
    Workspace × Option (Declaration Place) :=
  match (w.analysis? file).bind fun a => (a.tokenAt? offset).map fun found => (a, found) with
  | none => (w, none)
  | some (a, token, after) =>
    let name := String.ofList token.text
    if token.kind ≠ .ident ∨ Candidate.keywords.contains name = true then (w, none)
    else
      let isCall := after.head?.any (Token.is · "(")
      let preferred := if isCall then [.module, .function] else [.variable]
      let (w, ds) := w.scope disk a offset
      (w, resolve? preferred name ds)

/-- The one-line text of a declaration, which is only its kind and name if its file is not known. -/
def signature (w : Workspace) (d : Declaration Place) : String :=
  match (w.analysis? d.file).or (w.libraryAnalysis? d.file) with
  | some a => String.ofList (Signature.render d.kind (a.tokensIn d.span))
  | none => d.kind.keyword ++ " " ++ d.name

/-- A registered file in standard layout, if its text can be read. -/
def reprint? (w : Workspace) (file : FilePath) : Option (List Char) := do
  let a ← w.analysis? file
  let tokens ← a.tokens
  return Layout.reindent a.source tokens

/-! ## The disk

What a program has to look up before it can ask. -/

/-- The parts of a path up to its slashes, the empty one included. -/
def directoriesOf (path : List Char) : List (List Char) :=
  ((List.range (path.length + 1)).map path.take).filter fun s =>
    s.isEmpty || s.getLast? == some '/'

/-- The files that questions about the registered files may read. -/
def consultedFiles (w : Workspace) : List FilePath :=
  w.files.entries.flatMap fun (_, a) => a.references.filterMap (target? a.file)

/-- The directories that questions about the registered files may list. -/
def consultedDirectories (w : Workspace) : List FilePath :=
  w.files.entries.flatMap fun (_, a) =>
    match a.file.parent? with
    | none => []
    | some parent =>
      ((a.tokens.getD []).filter fun t => t.kind == .path).flatMap fun t =>
        (directoriesOf (t.text.drop 1)).map fun d => parent.join (.ofString (String.ofList d))

end Workspace
end Scad
