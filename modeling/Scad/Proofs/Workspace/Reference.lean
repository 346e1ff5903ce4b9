import Scad.Proofs.Workspace.History

/-!
# Scad.Proofs.Workspace.Reference

Which file a reference brings into scope. A registered file is preferred to the one on disk, and
files are known by the components of their paths, which are not brought into normal form.

* `Workspace.meant`: the file that each reference means, as the scope of a file finds it.
* `Workspace.meant_registered_iff`: where the normal form of the path of a reference is a registered
  file, the reference means the registered text if and only if the path is in normal form.
* `Workspace.detour_reads_disk`: a path with `..` that leads to a registered file, but brings the
  file on disk into scope.
-/

namespace Scad
namespace Workspace

/-- The file that each reference in `file` means, in order, and none where nothing can be read. -/
def meant (disk : Disk) (file : FilePath) (w : Workspace) : List Reference → List (Option Analysis)
  | [] => []
  | r :: rs =>
    match target? file r with
    | none => none :: meant disk file w rs
    | some path => (w.load disk path).2 :: meant disk file (w.load disk path).1 rs

theorem included_snd (disk : Disk) (file : FilePath) (w : Workspace) (rs : List Reference) :
    (included disk file w rs).2 =
      (meant disk file w rs).flatMap fun m => m.elim [] Analysis.declarations := by
  induction rs generalizing w with
  | nil => rfl
  | cons r rs ih =>
    cases ht : target? file r with
    | none =>
      simp only [included, meant, ht, ih, List.flatMap_cons]
      rfl
    | some path => simp only [included, meant, ht, ih, List.flatMap_cons]

/-! ## Files are found under their own components -/

theorem file_ofText (file : FilePath) (text : List Char) :
    (Analysis.ofText file text).file = file := by
  unfold Analysis.ofText
  dsimp only
  split <;> rfl

theorem registered?_eq_some {p : FilePath} {h : List Event} {a : Analysis}
    (ha : registered? p h = some a) :
    ∃ file text, settled? p h = some (.registered file text) ∧ a = .ofText file text := by
  unfold registered? at ha
  split at ha
  · rename_i file text hs
    exact ⟨file, text, hs, (Option.some.inj ha).symm⟩
  · cases ha

theorem components_of_settled {p file : FilePath} {text : List Char} {h : List Event}
    (hs : settled? p h = some (.registered file text)) : file.components = p.components := by
  have hsettles : Event.settles p (.registered file text) = true := List.find?_some hs
  exact FilePath.same_iff.1 hsettles

theorem components_of_firstRead {p : FilePath} {h : List Event} {a : Analysis}
    (ha : firstRead? p h = some a) : a.file.components = p.components := by
  obtain ⟨e, -, he⟩ := List.exists_of_findSome?_eq_some ha
  cases e with
  | registered file text => cases he
  | forgotten file => cases he
  | followed path content =>
    cases content with
    | none => cases he
    | some text =>
      simp only [Event.read?] at he
      split at he
      · rename_i hs
        obtain rfl := Option.some.inj he
        rw [file_ofText, FilePath.same_iff.1 hs]
      · cases he

theorem load_of_registered {w : Workspace} {path : FilePath} {a : Analysis}
    (ha : w.analysis? path = some a) (disk : Disk) : (w.load disk path).2 = some a := by
  unfold load
  rw [ha, Option.some_or]

theorem components_of_load {w : Workspace} {h : List Event} (hw : Reflects w h) {disk : Disk}
    {path : FilePath} {a : Analysis} (ha : (w.load disk path).2 = some a) :
    a.file.components = path.components := by
  unfold load at ha
  split at ha
  · rename_i b hb
    obtain rfl : b = a := Option.some.inj ha
    rcases Option.or_eq_some_iff.1 hb with hb | ⟨-, hb⟩
    · rw [hw.files] at hb
      obtain ⟨file, text, hs, rfl⟩ := registered?_eq_some hb
      rw [file_ofText, components_of_settled hs]
    · rw [hw.library] at hb
      split at hb
      · cases hb
      · exact components_of_firstRead hb
  · split at ha
    · obtain rfl := Option.some.inj ha
      rw [file_ofText]
    · cases ha

/-! ## References of a file -/

/-- Each reference is looked up in a workspace with the same registered files. -/
theorem exists_load_of_meant (disk : Disk) {file : FilePath} {w : Workspace} {h : List Event}
    (hw : Reflects w h) {rs : List Reference} {i : Nat} {r : Reference} {path : FilePath}
    (hr : rs[i]? = some r) (ht : target? file r = some path) :
    ∃ v h', Reflects v h' ∧ v.files = w.files ∧
      (meant disk file w rs)[i]? = some (v.load disk path).2 := by
  induction rs generalizing w h i with
  | nil => cases hr
  | cons s rs ih =>
    cases i with
    | zero =>
      obtain rfl := Option.some.inj hr
      exact ⟨w, h, hw, rfl, by simp only [meant, ht, List.getElem?_cons_zero]⟩
    | succ i =>
      rw [List.getElem?_cons_succ] at hr
      simp only [meant]
      split
      · exact ih hw hr
      · rename_i other _
        obtain ⟨v, h', hv, hfiles, hmeant⟩ := ih (reflects_load hw disk other) hr
        exact ⟨v, h', hv, hfiles.trans (files_load w disk other), hmeant⟩

/-- After every run, the scope of a file is what it declares and what its references mean. Where the
normal form of the path of a reference is a registered file, the reference means the registered text
if and only if the path is in normal form; for an absolute path, if and only if it has no `..`. -/
theorem meant_registered_iff (start disk : Disk) (cs : List Call) (a : Analysis) (offset : Nat) :
    ((run start .empty cs).scope disk a offset).2 =
        Declaration.visible a.declarations offset ++
          (meant disk a.file (run start .empty cs) a.references).flatMap
            (fun m => m.elim [] Analysis.declarations) ∧
      ∀ (i : Nat) (r : Reference) (path p file : FilePath) (text : List Char),
        a.references[i]? = some r → target? a.file r = some path →
        p.components = FilePath.normal path.components →
        settled? p (history start [] cs) = some (.registered file text) →
        ((meant disk a.file (run start .empty cs) a.references)[i]? =
            some (some (.ofText file text)) ↔
          FilePath.normal path.components = path.components) ∧
        (path.isAbsolute = true →
          ((meant disk a.file (run start .empty cs) a.references)[i]? =
              some (some (.ofText file text)) ↔
            .up ∉ path.components)) := by
  have hw := reflects_run reflects_empty start cs
  refine ⟨?_, ?_⟩
  · rw [← included_snd]
    rfl
  · intro i r path p file text hr ht hp hs
    obtain ⟨v, h', hv, hfiles, hmeant⟩ := exists_load_of_meant disk hw hr ht
    have hiff : (meant disk a.file (run start .empty cs) a.references)[i]? =
        some (some (.ofText file text)) ↔ FilePath.normal path.components = path.components := by
      rw [hmeant, Option.some.injEq]
      constructor
      · intro hload
        have hpath := components_of_load hv hload
        rw [file_ofText, components_of_settled hs, hp] at hpath
        exact hpath
      · intro hnormal
        have hregistered : v.analysis? path = some (.ofText file text) := by
          rw [analysis?, hfiles, ← hnormal, ← hp]
          have hfile := hw.files p
          rwa [registered?, hs] at hfile
        exact load_of_registered hregistered disk
    exact ⟨hiff, fun habsolute => hiff.trans (FilePath.normal_eq_self_iff habsolute)⟩

/-! ## One file by two paths -/

/-- A file that is registered with a text other than the one on disk. -/
def sharedFile : FilePath := .ofString "/l"

/-- A file that refers to the other. -/
def usingFile : FilePath := .ofString "/m"

/-- The disk has the shared file, and a directory beside it. -/
def sharedDisk : Disk :=
  (Disk.empty.write sharedFile (.file (Text.Utf8.encode "x=1;".toList))).write (.ofString "/d")
    .directory

/-- The text of the using file, which refers to the shared one by the given path. -/
def usingText (path : String) : List Char := ("use <" ++ path ++ ">").toList

/-- Both files are registered. -/
def sharedCalls (path : String) : List Call :=
  [.register sharedFile "y=1;".toList, .register usingFile (usingText path)]

/-- The path `.//l` means the registered file. -/
theorem meant_registered_dot :
    (run sharedDisk .empty (sharedCalls ".//l")).analysis? usingFile =
        some (.ofText usingFile (usingText ".//l")) ∧
      (meant sharedDisk usingFile (run sharedDisk .empty (sharedCalls ".//l"))
          (Analysis.ofText usingFile (usingText ".//l")).references)[0]? =
        some (some (.ofText sharedFile "y=1;".toList)) := by
  have hr : (Analysis.ofText usingFile (usingText ".//l")).references[0]? =
      some ⟨".//l", ⟨4, 10⟩⟩ := by decide +kernel
  have ht : target? usingFile ⟨".//l", ⟨4, 10⟩⟩ = some (.ofString "/.//l") := by decide +kernel
  obtain ⟨-, hmeant⟩ := meant_registered_iff sharedDisk sharedDisk (sharedCalls ".//l")
    (.ofText usingFile (usingText ".//l")) 0
  rw [file_ofText] at hmeant
  obtain ⟨hiff, -⟩ := hmeant 0 _ _ sharedFile sharedFile "y=1;".toList hr ht (by decide +kernel)
    (by decide +kernel)
  exact ⟨rfl, hiff.2 (by decide +kernel)⟩

/-- The path `d/../l` has the path of the registered file as its normal form, and brings what the
file on disk declares into scope. -/
theorem detour_reads_disk :
    settled? sharedFile (history sharedDisk [] (sharedCalls "d/../l")) =
        some (.registered sharedFile "y=1;".toList) ∧
      (Analysis.ofText usingFile (usingText "d/../l")).references.map (target? usingFile) =
        [some (.ofString "/d/../l")] ∧
      FilePath.normal (FilePath.ofString "/d/../l").components = sharedFile.components ∧
      (Analysis.ofText sharedFile "y=1;".toList).declarations.map (fun d => d.name) = ["y"] ∧
      ((run sharedDisk .empty (sharedCalls "d/../l")).scope sharedDisk
          (.ofText usingFile (usingText "d/../l")) 0).2.map (fun d => d.name) = ["x"] := by
  decide +kernel

end Workspace
end Scad
