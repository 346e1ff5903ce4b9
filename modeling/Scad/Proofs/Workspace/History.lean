import Scad.Proofs.FilePath
import Scad.Proofs.Workspace

/-!
# Scad.Proofs.Workspace.History

A workspace is a function of what has happened to its paths.

* `Workspace.run`: the workspace after a sequence of calls, between which the files on disk change.
* `Workspace.Event`: what can happen to a path. A file is registered or forgotten, or a reference to
  the path is followed while the disk has some content for it, or none.
* `Workspace.history`: the events of a sequence of calls, from the calls and the disk alone.
* `Workspace.registered?`, `Workspace.firstRead?`: what the history says of a path.
* `Workspace.Reflects`: the workspace has for every path what the history says. Every call keeps it
  (`reflects_call`), so `state_of_history` holds after every run.
-/

namespace Scad
namespace Workspace

/-! ## Runs -/

/-- A call of the workspace, or a change of the files on disk. -/
inductive Call where
  | register (file : FilePath) (text : List Char)
  | update (file : FilePath) (text : List Char)
  | forget (file : FilePath)
  | candidates (file : FilePath) (offset : Nat)
  | definition (file : FilePath) (offset : Nat)
  | declarations (file : FilePath)
  | signature (d : Declaration Place)
  | reprint (file : FilePath)
  | write (path : FilePath) (entry : Disk.Entry)
  | remove (path : FilePath)

/-- The workspace after a call. An update of a file that is not registered registers it. -/
def Call.workspace (disk : Disk) (w : Workspace) : Call → Workspace
  | .register file text | .update file text => w.register file text
  | .forget file => w.forget file
  | .candidates file offset => (w.candidates disk file offset).1
  | .definition file offset => (w.definition? disk file offset).1
  | .declarations _ | .signature _ | .reprint _ | .write _ _ | .remove _ => w

/-- The disk after a call. -/
def Call.disk (disk : Disk) : Call → Disk
  | .write path entry => disk.write path entry
  | .remove path => disk.remove path
  | _ => disk

/-- The workspace after a sequence of calls. -/
def run (disk : Disk) (w : Workspace) : List Call → Workspace
  | [] => w
  | c :: cs => run (c.disk disk) (c.workspace disk w) cs

/-! ## Histories -/

/-- Something that happened to a path. -/
inductive Event where
  | registered (file : FilePath) (text : List Char)
  | forgotten (file : FilePath)
  /-- A reference to the path was followed; the content is what the path then had on disk. -/
  | followed (path : FilePath) (content : Option (List Char))
  deriving DecidableEq

/-- The event registers the path or forgets it. -/
def Event.settles (p : FilePath) : Event → Bool
  | .registered file _ | .forgotten file => file.same p
  | .followed _ _ => false

/-- The analysis of the path as a reference found it on disk. -/
def Event.read? (p : FilePath) : Event → Option Analysis
  | .followed path (some text) => if path.same p then some (.ofText path text) else none
  | _ => none

/-- The last event of a history that registers the path or forgets it. Histories have the latest
event first. -/
def settled? (p : FilePath) (h : List Event) : Option Event := h.find? (Event.settles p)

/-- The events after that one, or all of them. -/
def since (p : FilePath) (h : List Event) : List Event := h.takeWhile fun e => !e.settles p

/-- The analysis of the text with which the path was registered, if that happened last. -/
def registered? (p : FilePath) (h : List Event) : Option Analysis :=
  match settled? p h with
  | some (.registered file text) => some (.ofText file text)
  | _ => none

/-- The analysis of what the first reference to the path that could be read found on disk, since the
path was registered or forgotten last, or from the beginning. -/
def firstRead? (p : FilePath) (h : List Event) : Option Analysis :=
  (since p h).reverse.findSome? (Event.read? p)

/-- The history in which some paths are followed. -/
def follow (disk : Disk) (h : List Event) (paths : List FilePath) : List Event :=
  paths.foldl (fun h path => .followed path (disk.readText? path) :: h) h

/-- The history after a call. -/
def Call.record (disk : Disk) (h : List Event) : Call → List Event
  | .register file text | .update file text => .registered file text :: h
  | .forget file => .forgotten file :: h
  | .candidates file offset => follow disk h (suggestionPaths (registered? · h) file offset)
  | .definition file offset => follow disk h (definitionPaths (registered? · h) file offset)
  | .declarations _ | .signature _ | .reprint _ | .write _ _ | .remove _ => h

/-- The history after a sequence of calls. -/
def history (disk : Disk) (h : List Event) : List Call → List Event
  | [] => h
  | c :: cs => history (c.disk disk) (c.record disk h) cs

/-! ## One more event -/

theorem registered?_registered (p file : FilePath) (text : List Char) (h : List Event) :
    registered? p (.registered file text :: h) =
      if file.same p then some (.ofText file text) else registered? p h := by
  by_cases hs : file.same p
  · simp [registered?, settled?, Event.settles, hs]
  · simp [registered?, settled?, Event.settles, hs]

theorem registered?_forgotten (p file : FilePath) (h : List Event) :
    registered? p (.forgotten file :: h) = if file.same p then none else registered? p h := by
  by_cases hs : file.same p
  · simp [registered?, settled?, Event.settles, hs]
  · simp [registered?, settled?, Event.settles, hs]

theorem registered?_followed (p path : FilePath) (content : Option (List Char)) (h : List Event) :
    registered? p (.followed path content :: h) = registered? p h := rfl

theorem firstRead?_cons (p : FilePath) (e : Event) (h : List Event) :
    firstRead? p (e :: h) = if e.settles p then none else (firstRead? p h).or (e.read? p) := by
  by_cases he : e.settles p
  · simp [firstRead?, since, he]
  · simp [firstRead?, since, he, List.findSome?_append, List.findSome?_singleton]

theorem firstRead?_registered (p file : FilePath) (text : List Char) (h : List Event) :
    firstRead? p (.registered file text :: h) =
      if file.same p then none else firstRead? p h := by
  simp [firstRead?_cons, Event.read?, Event.settles]

theorem firstRead?_forgotten (p file : FilePath) (h : List Event) :
    firstRead? p (.forgotten file :: h) = if file.same p then none else firstRead? p h := by
  simp [firstRead?_cons, Event.read?, Event.settles]

theorem firstRead?_followed (p path : FilePath) (content : Option (List Char)) (h : List Event) :
    firstRead? p (.followed path content :: h) =
      (firstRead? p h).or (Event.read? p (.followed path content)) := by
  rw [firstRead?_cons, Event.settles, if_neg Bool.false_ne_true]

/-! ## Workspaces with a history -/

/-- The workspace has for every path what the history says: its registered text, or else what was
read from disk first. -/
structure Reflects (w : Workspace) (h : List Event) : Prop where
  files : ∀ p, w.analysis? p = registered? p h
  library : ∀ p, w.libraryAnalysis? p = if (registered? p h).isSome then none else firstRead? p h

theorem reflects_empty : Reflects .empty [] := by
  constructor
  · intro p; rfl
  · intro p; rfl

theorem libraryAnalysis?_register (w : Workspace) (file p : FilePath) (text : List Char) :
    (w.register file text).libraryAnalysis? p =
      if p.components = file.components then none else w.libraryAnalysis? p :=
  Table.get?_erase ..

theorem libraryAnalysis?_forget (w : Workspace) (file p : FilePath) :
    (w.forget file).libraryAnalysis? p =
      if p.components = file.components then none else w.libraryAnalysis? p :=
  Table.get?_erase ..

theorem reflects_register {w : Workspace} {h : List Event} (hw : Reflects w h) (file : FilePath)
    (text : List Char) : Reflects (w.register file text) (.registered file text :: h) := by
  constructor
  · intro p
    rw [registered?_registered, ← hw.files]
    by_cases hs : file.components = p.components
    · rw [if_pos (FilePath.same_iff.2 hs), analysis?, ← hs]
      exact analysis?_register_self w file text
    · rw [if_neg (mt FilePath.same_iff.1 hs)]
      exact analysis?_register_of_ne w text (Ne.symm hs)
  · intro p
    rw [libraryAnalysis?_register, registered?_registered, firstRead?_registered, hw.library]
    by_cases hs : file.components = p.components
    · rw [if_pos hs.symm, if_pos (FilePath.same_iff.2 hs)]
      rfl
    · rw [if_neg (Ne.symm hs), if_neg (mt FilePath.same_iff.1 hs),
        if_neg (mt FilePath.same_iff.1 hs)]

theorem reflects_forget {w : Workspace} {h : List Event} (hw : Reflects w h) (file : FilePath) :
    Reflects (w.forget file) (.forgotten file :: h) := by
  constructor
  · intro p
    rw [registered?_forgotten, ← hw.files, analysis?_forget]
    by_cases hs : file.components = p.components
    · rw [if_pos hs.symm, if_pos (FilePath.same_iff.2 hs)]
    · rw [if_neg (Ne.symm hs), if_neg (mt FilePath.same_iff.1 hs)]
  · intro p
    rw [libraryAnalysis?_forget, registered?_forgotten, firstRead?_forgotten, hw.library]
    by_cases hs : file.components = p.components
    · rw [if_pos hs.symm, if_pos (FilePath.same_iff.2 hs), if_pos (FilePath.same_iff.2 hs)]
      rfl
    · rw [if_neg (Ne.symm hs), if_neg (mt FilePath.same_iff.1 hs),
        if_neg (mt FilePath.same_iff.1 hs)]

theorem read?_followed_of_ne {path p : FilePath} (h : path.components ≠ p.components)
    (content : Option (List Char)) : Event.read? p (.followed path content) = none := by
  cases content with
  | none => rfl
  | some text => exact if_neg (mt FilePath.same_iff.1 h)

/-- Following a reference reads its path from disk if nothing is known of it. -/
theorem libraryAnalysis?_load (w : Workspace) (disk : Disk) (path p : FilePath) :
    (w.load disk path).1.libraryAnalysis? p =
      (w.libraryAnalysis? p).or
        (if (w.analysis? p).isSome then none
          else Event.read? p (.followed path (disk.readText? path))) := by
  by_cases hs : path.components = p.components
  · have hfiles : w.analysis? p = w.analysis? path := by rw [analysis?, analysis?, hs]
    have hlibrary : w.libraryAnalysis? p = w.libraryAnalysis? path := by
      rw [libraryAnalysis?, libraryAnalysis?, hs]
    unfold load
    rw [hfiles, hlibrary]
    cases ha : w.analysis? path with
    | some a => simp [hlibrary]
    | none =>
      cases hl : w.libraryAnalysis? path with
      | some a => simp [hlibrary, hl]
      | none =>
        cases hread : disk.readText? path with
        | none => simp [Event.read?, hlibrary, hl]
        | some text => simp [Event.read?, FilePath.same_iff.2 hs, libraryAnalysis?, hs]
  · have hkeep : (w.load disk path).1.libraryAnalysis? p = w.libraryAnalysis? p := by
      unfold load
      split
      · rfl
      · split
        · exact Table.get?_insert_of_ne _ _ (Ne.symm hs)
        · rfl
    rw [hkeep, read?_followed_of_ne hs, ite_self, Option.or_none]

theorem reflects_load {w : Workspace} {h : List Event} (hw : Reflects w h) (disk : Disk)
    (path : FilePath) :
    Reflects (w.load disk path).1 (.followed path (disk.readText? path) :: h) := by
  constructor
  · intro p
    rw [analysis?_congr (files_load w disk path), registered?_followed, hw.files]
  · intro p
    rw [libraryAnalysis?_load, registered?_followed, firstRead?_followed, hw.library, hw.files]
    split
    · rfl
    · rfl

theorem reflects_loadAll {w : Workspace} {h : List Event} (hw : Reflects w h) (disk : Disk)
    (paths : List FilePath) : Reflects (loadAll disk w paths) (follow disk h paths) := by
  induction paths generalizing w h with
  | nil => exact hw
  | cons path paths ih => exact ih (reflects_load hw disk path)

theorem reflects_call {w : Workspace} {h : List Event} (hw : Reflects w h) (disk : Disk)
    (c : Call) : Reflects (c.workspace disk w) (c.record disk h) := by
  have hfiles : w.analysis? = fun p => registered? p h := funext hw.files
  cases c with
  | register file text => exact reflects_register hw file text
  | update file text => exact reflects_register hw file text
  | forget file => exact reflects_forget hw file
  | candidates file offset =>
    simp only [Call.workspace, Call.record, candidates_fst, hfiles]
    exact reflects_loadAll hw disk _
  | definition file offset =>
    simp only [Call.workspace, Call.record, definition?_fst, hfiles]
    exact reflects_loadAll hw disk _
  | declarations | signature | reprint | write | remove => exact hw

theorem reflects_run {w : Workspace} {h : List Event} (hw : Reflects w h) (disk : Disk)
    (cs : List Call) : Reflects (run disk w cs) (history disk h cs) := by
  induction cs generalizing disk w h with
  | nil => exact hw
  | cons c cs ih => exact ih (reflects_call hw disk c) (c.disk disk)

/-- After every sequence of calls, no path is both registered and kept from disk. A path is
registered if and only if this is what happened to it last, with the analysis of that text. What is
kept of another path is what the first reference that could be read since then found on disk. -/
theorem state_of_history (disk : Disk) (cs : List Call) (p : FilePath) :
    ((run disk .empty cs).analysis? p = none ∨ (run disk .empty cs).libraryAnalysis? p = none) ∧
      (run disk .empty cs).analysis? p = registered? p (history disk [] cs) ∧
      (run disk .empty cs).libraryAnalysis? p =
        if (registered? p (history disk [] cs)).isSome then none
        else firstRead? p (history disk [] cs) := by
  have hw := reflects_run reflects_empty disk cs
  refine ⟨?_, hw.files p, hw.library p⟩
  rw [hw.files, hw.library]
  cases registered? p (history disk [] cs) with
  | none => exact .inl rfl
  | some a => exact .inr rfl

/-- A file that was read for a reference stays as it was read when it changes on disk. -/
example :
    let file := FilePath.ofString "/m"
    let shared := FilePath.ofString "/l"
    let content (s : String) := Disk.Entry.file (Text.Utf8.encode s.toList)
    ((run (Disk.empty.write shared (content "x=1;")) .empty
        [.register file "use <l>".toList, .candidates file 0, .write shared (content "y=1;"),
          .candidates file 0]).libraryAnalysis? shared).map (fun a => String.ofList a.source) =
      some "x=1;" := by
  decide +kernel

end Workspace
end Scad
