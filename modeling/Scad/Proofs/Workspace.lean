import Scad.Workspace

/-!
# Scad.Proofs.Workspace

What the calls of a workspace do to its files. A question about a registered file looks up the paths
that the references of the file mean, one after another, and leaves the registered files as they
are; registering or forgetting a file keeps all others.

* `Workspace.loadAll`: the workspace after some paths have been looked up.
* `Workspace.suggestionPaths`, `Workspace.definitionPaths`: the paths that a question looks up, from
  the analysis of the file it is about.
-/

namespace Scad

namespace Analysis

/-- The paths that the references of a file mean, in order. -/
def targets (a : Analysis) : List FilePath := a.references.filterMap (Workspace.target? a.file)

/-- Suggestions at the offset are names: the text can be read, and the offset is not inside the path
of a reference. -/
def suggestsNames (a : Analysis) (offset : Nat) : Bool :=
  a.tokens.any fun ts => (ts.find? fun t =>
    t.kind == .path && decide (t.start < offset) && decide (offset < t.stop)).isNone

/-- At the offset there is a name that may have been declared. -/
def hasNameAt (a : Analysis) (offset : Nat) : Bool :=
  (a.tokenAt? offset).any fun found =>
    decide (found.1.kind = .ident ∧
      Candidate.keywords.contains (String.ofList found.1.text) = false)

end Analysis

namespace Workspace

/-! ## What the questions look up -/

/-- The workspace after some paths have been looked up, one after another. -/
def loadAll (disk : Disk) (w : Workspace) (paths : List FilePath) : Workspace :=
  paths.foldl (fun w path => (w.load disk path).1) w

/-- The paths that suggestions at an offset of a file look up, from what is registered. -/
def suggestionPaths (registered? : FilePath → Option Analysis) (file : FilePath) (offset : Nat) :
    List FilePath :=
  ((registered? file).filter fun a => a.suggestsNames offset).elim [] Analysis.targets

/-- The paths that the definition at an offset of a file looks up, from what is registered. -/
def definitionPaths (registered? : FilePath → Option Analysis) (file : FilePath) (offset : Nat) :
    List FilePath :=
  ((registered? file).filter fun a => a.hasNameAt offset).elim [] Analysis.targets

theorem included_fst (disk : Disk) (file : FilePath) (w : Workspace) (rs : List Reference) :
    (included disk file w rs).1 = loadAll disk w (rs.filterMap (target? file)) := by
  induction rs generalizing w with
  | nil => rfl
  | cons r rs ih =>
    cases ht : target? file r with
    | none => simp only [included, ht, ih, List.filterMap_cons]
    | some path => simp only [included, ht, ih, List.filterMap_cons, loadAll, List.foldl_cons]

theorem scope_fst (w : Workspace) (disk : Disk) (a : Analysis) (offset : Nat) :
    (w.scope disk a offset).1 = loadAll disk w a.targets :=
  included_fst disk a.file w a.references

theorem candidates_fst (w : Workspace) (disk : Disk) (file : FilePath) (offset : Nat) :
    (w.candidates disk file offset).1 =
      loadAll disk w (suggestionPaths w.analysis? file offset) := by
  unfold candidates suggestionPaths
  cases w.analysis? file with
  | none => rfl
  | some a =>
    cases ht : a.tokens with
    | none => simp [Option.filter, Analysis.suggestsNames, ht, loadAll]
    | some ts =>
      simp only [Option.filter, Analysis.suggestsNames, ht, Option.any_some]
      split
      · rename_i hfind
        simp [hfind, loadAll]
      · rename_i hfind
        simp [hfind, scope_fst]

theorem definition?_fst (w : Workspace) (disk : Disk) (file : FilePath) (offset : Nat) :
    (w.definition? disk file offset).1 =
      loadAll disk w (definitionPaths w.analysis? file offset) := by
  unfold definition? definitionPaths
  cases w.analysis? file with
  | none => rfl
  | some a =>
    cases ht : a.tokenAt? offset with
    | none => simp [Option.filter, Analysis.hasNameAt, ht, loadAll]
    | some found =>
      obtain ⟨t, after⟩ := found
      simp only [Option.bind_some, ht, Option.map_some, Option.filter, Analysis.hasNameAt,
        Option.any_some]
      by_cases hname : t.kind = .ident ∧ Candidate.keywords.contains (String.ofList t.text) = false
      · rw [if_neg (by simp_all), if_pos (decide_eq_true hname)]
        exact scope_fst w disk a offset
      · rw [if_pos (by grind), if_neg fun h => hname (of_decide_eq_true h)]
        rfl

/-! ## The registered files -/

theorem files_load (w : Workspace) (disk : Disk) (path : FilePath) :
    (w.load disk path).1.files = w.files := by
  unfold load
  split
  · rfl
  · split <;> rfl

theorem files_loadAll (disk : Disk) (w : Workspace) (paths : List FilePath) :
    (loadAll disk w paths).files = w.files := by
  induction paths generalizing w with
  | nil => rfl
  | cons path paths ih => exact (ih _).trans (files_load w disk path)

theorem files_candidates (w : Workspace) (disk : Disk) (file : FilePath) (offset : Nat) :
    (w.candidates disk file offset).1.files = w.files := by
  rw [candidates_fst, files_loadAll]

theorem files_definition? (w : Workspace) (disk : Disk) (file : FilePath) (offset : Nat) :
    (w.definition? disk file offset).1.files = w.files := by
  rw [definition?_fst, files_loadAll]

theorem analysis?_congr {w v : Workspace} (h : v.files = w.files) (path : FilePath) :
    v.analysis? path = w.analysis? path := by
  rw [analysis?, analysis?, h]

theorem analysis?_register_self (w : Workspace) (path : FilePath) (text : List Char) :
    (w.register path text).analysis? path = some (.ofText path text) :=
  Table.get?_insert_self ..

theorem analysis?_register_of_ne (w : Workspace) {path other : FilePath} (text : List Char)
    (h : other.components ≠ path.components) :
    (w.register path text).analysis? other = w.analysis? other :=
  Table.get?_insert_of_ne _ _ h

theorem analysis?_forget (w : Workspace) (path other : FilePath) :
    (w.forget path).analysis? other =
      if other.components = path.components then none else w.analysis? other :=
  Table.get?_erase ..

end Workspace
end Scad
