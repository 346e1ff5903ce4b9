import Scad.Proofs.Forest
import Scad.Proofs.Workspace.Reference

/-!
# Scad.Proofs.Workspace.Library

The files that a workspace keeps from disk, and what can be seen of them. A file is kept under the
components of its path, in the spelling of the reference that was followed first, so two workspaces
may know the same file by different paths.

* `Place.known`, `Declaration.known`: a place or declaration, however its file is spelled.
* `Disk.Stable disk paths`: the paths that have the same components are read alike.
* `Workspace.Faithful disk paths w`: what is kept was read from one of the paths.
* `Workspace.known_scope`: up to spelling, the scope of a file depends on the registered files and
  the disk alone.
* `Workspace.signature_congr`: a signature does not depend on the spelling of its file.
-/

namespace Scad

/-- What a place is, however its file is spelled. -/
def Place.known (p : Place) : List FilePath.Component × Nat × Position :=
  (p.file.components, p.offset, p.position)

namespace Declaration

/-- What a declaration is, however its file is spelled. -/
def known (d : Declaration Place) : Declaration (List FilePath.Component × Nat × Position) :=
  d.map Place.known

@[simp] theorem doc_map {P Q : Type} (f : P → Q) (d : Declaration P) : (d.map f).doc = d.doc := by
  cases d; rfl

section Known

variable {d e : Declaration Place}

theorem name_of_known (h : d.known = e.known) : d.name = e.name := by
  simpa [known] using congrArg name h

theorem kind_of_known (h : d.known = e.known) : d.kind = e.kind := by
  simpa [known] using congrArg kind h

theorem doc_of_known (h : d.known = e.known) : d.doc = e.doc := by
  simpa [known] using congrArg doc h

theorem span_of_known (h : d.known = e.known) :
    d.span.start.offset = e.span.start.offset ∧ d.span.stop.offset = e.span.stop.offset := by
  have hspan := congrArg span h
  simp only [known, span_map, Span.map, Place.known, Span.mk.injEq, Prod.mk.injEq] at hspan
  exact ⟨hspan.1.2.1, hspan.2.2.1⟩

theorem nameSpan_of_known (h : d.known = e.known) :
    d.file.components = e.file.components ∧
      d.nameSpan.start.position = e.nameSpan.start.position := by
  have hspan := congrArg nameSpan h
  simp only [known, nameSpan_map, Span.map, Place.known, Span.mk.injEq, Prod.mk.injEq] at hspan
  exact ⟨hspan.1.1, hspan.1.2.2⟩

end Known

end Declaration

namespace Analysis

open Declaration

/-- Up to spelling, what a text declares does not depend on the path of its file. -/
theorem known_ofText {p q : FilePath} (h : p.components = q.components) (text : List Char) :
    (ofText p text).declarations.map known = (ofText q text).declarations.map known := by
  have hplace : Place.known ∘ Place.at p text = Place.known ∘ Place.at q text := by
    funext n
    simp [Place.known, Place.at, h]
  unfold ofText
  dsimp only
  split
  · simp only [mapAll_eq_map, List.map_map]
    refine List.map_congr_left fun d _ => ?_
    simp only [Function.comp_apply, known, map_map, hplace]
  · rfl

theorem tokensIn_ofText (p q : FilePath) (text : List Char) (span : Span Place) :
    (ofText p text).tokensIn span = (ofText q text).tokensIn span := by
  have htokens : (ofText p text).tokens = (ofText q text).tokens := by
    unfold ofText
    dsimp only
    split <;> rfl
  rw [tokensIn, tokensIn, htokens]

end Analysis

/-- The paths that have the same components are read alike. -/
def Disk.Stable (disk : Disk) (paths : List FilePath) : Prop :=
  ∀ p ∈ paths, ∀ q ∈ paths, p.same q = true → disk.readText? p = disk.readText? q

instance (disk : Disk) (paths : List FilePath) : Decidable (disk.Stable paths) :=
  inferInstanceAs (Decidable (∀ p ∈ paths, ∀ q ∈ paths, _ → _))

namespace Workspace

/-! ## What is kept -/

/-- The registered files have absolute paths, and what is kept was read from one of the paths. -/
structure Faithful (disk : Disk) (paths : List FilePath) (w : Workspace) : Prop where
  files : ∀ p a, w.analysis? p = some a → ∃ file text, file.components = p.components ∧
    file.isAbsolute = true ∧ a = .ofText file text
  library : ∀ p a, w.libraryAnalysis? p = some a → ∃ q ∈ paths, ∃ text,
    q.components = p.components ∧ disk.readText? q = some text ∧ a = .ofText q text

theorem faithful_empty (disk : Disk) (paths : List FilePath) : Faithful disk paths .empty :=
  ⟨fun _ _ ha => (by cases ha), fun _ _ ha => (by cases ha)⟩

/-- Something is known of the file. -/
def Knows (w : Workspace) (file : FilePath) : Prop :=
  ((w.analysis? file).or (w.libraryAnalysis? file)).isSome = true

/-- The file that a path means if nothing has been read before: the editor's, or the one on disk. -/
def means (w : Workspace) (disk : Disk) (path : FilePath) : Option Analysis :=
  (w.analysis? path).or ((disk.readText? path).map (.ofText path))

theorem means_congr {w v : Workspace} (h : v.files = w.files) (disk : Disk) (path : FilePath) :
    v.means disk path = w.means disk path := by
  rw [means, means, analysis?_congr h]

section Load

variable {disk : Disk} {paths : List FilePath} {w : Workspace} {path : FilePath}

theorem Faithful.load (hw : Faithful disk paths w) (hp : path ∈ paths) :
    Faithful disk paths (w.load disk path).1 := by
  refine ⟨fun p a ha => ?_, fun p a ha => ?_⟩
  · rw [analysis?_congr (files_load w disk path)] at ha
    exact hw.files p a ha
  · rw [libraryAnalysis?_load] at ha
    rcases Option.or_eq_some_iff.1 ha with ha | ⟨-, ha⟩
    · exact hw.library p a ha
    split at ha
    · cases ha
    · cases hread : disk.readText? path with
      | none =>
        rw [hread] at ha
        cases ha
      | some text =>
        simp only [hread, Event.read?] at ha
        split at ha
        · rename_i hsame
          exact ⟨path, hp, text, FilePath.same_iff.1 hsame, hread, (Option.some.inj ha).symm⟩
        · cases ha

theorem Knows.load {file : FilePath} (h : w.Knows file) (disk : Disk) (path : FilePath) :
    (w.load disk path).1.Knows file := by
  unfold Knows at h ⊢
  rw [analysis?_congr (files_load w disk path), libraryAnalysis?_load]
  cases ha : w.analysis? file with
  | some a => rfl
  | none =>
    rw [ha, Option.none_or] at h
    rw [Option.none_or, Option.isSome_or, h, Bool.true_or]

theorem Knows.loadAll {file : FilePath} (h : w.Knows file) (disk : Disk) (more : List FilePath) :
    (loadAll disk w more).Knows file := by
  induction more generalizing w with
  | nil => exact h
  | cons path more ih => exact ih (h.load disk path)

/-- What a reference means is known after it was followed. -/
theorem knows_load (hw : Faithful disk paths w) {a : Analysis}
    (ha : (w.load disk path).2 = some a) : (w.load disk path).1.Knows a.file := by
  have hkey : ∀ {b : Analysis}, (w.analysis? path).or (w.libraryAnalysis? path) = some b →
      b.file.components = path.components := by
    intro b hb
    rcases Option.or_eq_some_iff.1 hb with hb | ⟨-, hb⟩
    · obtain ⟨file, text, hfile, -, rfl⟩ := hw.files path b hb
      rw [file_ofText, hfile]
    · obtain ⟨q, -, text, hq, -, rfl⟩ := hw.library path b hb
      rw [file_ofText, hq]
  unfold Workspace.load at ha ⊢
  split at ha
  · rename_i b hb
    obtain rfl := Option.some.inj ha
    rw [Knows, analysis?, libraryAnalysis?, hkey hb, ← analysis?, ← libraryAnalysis?, hb]
    rfl
  · split at ha
    · rename_i text hread
      obtain rfl := Option.some.inj ha
      simp only [file_ofText]
      rw [Knows, Option.isSome_or]
      simp [libraryAnalysis?]
    · cases ha

/-- Up to spelling, what a path means does not depend on what was read before. -/
theorem known_load (hw : Faithful disk paths w) (hs : disk.Stable paths) (hp : path ∈ paths) :
    ((w.load disk path).2.elim [] Analysis.declarations).map Declaration.known =
      ((w.means disk path).elim [] Analysis.declarations).map Declaration.known := by
  unfold Workspace.load means
  cases ha : w.analysis? path with
  | some a => rfl
  | none =>
    cases hl : w.libraryAnalysis? path with
    | some a =>
      obtain ⟨q, hq, text, hcomponents, hread, rfl⟩ := hw.library path a hl
      have hsame := hs q hq path hp (FilePath.same_iff.2 hcomponents)
      rw [← hsame, hread]
      exact Analysis.known_ofText hcomponents text
    | none =>
      cases hread : disk.readText? path with
      | some text => rfl
      | none => rfl

/-- Only absolute paths can be read. -/
theorem isAbsolute_of_readText? {text : List Char} (h : disk.readText? path = some text) :
    path.isAbsolute = true := by
  cases hp : path.isAbsolute with
  | true => rfl
  | false => simp [Disk.readText?, Disk.locate?, hp] at h

theorem exists_load (hw : Faithful disk paths w) {a : Analysis}
    (ha : (w.load disk path).2 = some a) :
    ∃ file text, file.isAbsolute = true ∧ a = .ofText file text := by
  unfold Workspace.load at ha
  split at ha
  · rename_i b hb
    obtain rfl := Option.some.inj ha
    rcases Option.or_eq_some_iff.1 hb with hb | ⟨-, hb⟩
    · obtain ⟨file, text, -, habsolute, rfl⟩ := hw.files path b hb
      exact ⟨file, text, habsolute, rfl⟩
    · obtain ⟨q, -, text, -, hread, rfl⟩ := hw.library path b hb
      exact ⟨q, text, isAbsolute_of_readText? hread, rfl⟩
  · split at ha
    · rename_i text hread
      exact ⟨path, text, isAbsolute_of_readText? hread, (Option.some.inj ha).symm⟩
    · cases ha

theorem Faithful.loadAll (hw : Faithful disk paths w) {more : List FilePath} (hm : more ⊆ paths) :
    Faithful disk paths (loadAll disk w more) := by
  induction more generalizing w with
  | nil => exact hw
  | cons path more ih =>
    rw [List.cons_subset] at hm
    exact ih (hw.load hm.1) hm.2

end Load

/-! ## Scopes -/

section Scope

variable {disk : Disk} {paths : List FilePath} {w : Workspace}

/-- Up to spelling, what references bring into scope does not depend on what was read before. -/
theorem known_included (hw : Faithful disk paths w) (hs : disk.Stable paths) {file : FilePath}
    {rs : List Reference} (hr : rs.filterMap (target? file) ⊆ paths) :
    (included disk file w rs).2.map Declaration.known =
      (rs.filterMap (target? file)).flatMap fun path =>
        ((w.means disk path).elim [] Analysis.declarations).map Declaration.known := by
  induction rs generalizing w with
  | nil => rfl
  | cons r rs ih =>
    cases ht : target? file r with
    | none =>
      rw [List.filterMap_cons_none ht] at hr ⊢
      simp only [included, ht]
      exact ih hw hr
    | some path =>
      rw [List.filterMap_cons_some ht] at hr ⊢
      rw [List.cons_subset] at hr
      simp only [included, ht, List.map_append, List.flatMap_cons]
      rw [known_load hw hs hr.1, ih (hw.load hr.1) hr.2]
      simp only [means_congr (files_load w disk path)]

/-- What references bring into scope comes from known files with absolute paths. -/
theorem knows_included (hw : Faithful disk paths w) {file : FilePath} {rs : List Reference}
    (hr : rs.filterMap (target? file) ⊆ paths) :
    ∀ d ∈ (included disk file w rs).2,
      (included disk file w rs).1.Knows d.file ∧ d.file.isAbsolute = true := by
  induction rs generalizing w with
  | nil =>
    intro d hd
    cases hd
  | cons r rs ih =>
    cases ht : target? file r with
    | none =>
      rw [List.filterMap_cons_none ht] at hr
      simp only [included, ht]
      exact ih hw hr
    | some path =>
      rw [List.filterMap_cons_some ht, List.cons_subset] at hr
      simp only [included, ht]
      intro d hd
      rcases List.mem_append.1 hd with hd | hd
      · cases ha : (w.load disk path).2 with
        | none =>
          rw [ha] at hd
          cases hd
        | some a =>
          rw [ha] at hd
          have hknows := knows_load hw ha
          obtain ⟨q, text, habsolute, rfl⟩ := exists_load hw ha
          rw [file_of_occurs (.here hd)]
          rw [file_ofText] at hknows
          refine ⟨?_, habsolute⟩
          -- it stays known while the other references are followed
          rw [included_fst]
          exact hknows.loadAll disk _
      · exact ih (hw.load hr.1) hr.2 d hd

/-- Up to spelling, the scope of a file depends on the registered files and the disk alone. -/
theorem known_scope (hw : Faithful disk paths w) (hs : disk.Stable paths) {a : Analysis}
    (ha : a.targets ⊆ paths) (offset : Nat) :
    (w.scope disk a offset).2.map Declaration.known =
      (Declaration.visible a.declarations offset).map Declaration.known ++
        a.targets.flatMap fun path =>
          ((w.means disk path).elim [] Analysis.declarations).map Declaration.known := by
  rw [scope, List.map_append, known_included hw hs ha]
  rfl

/-- What is in scope in a registered file comes from known files with absolute paths. -/
theorem knows_scope (hw : Faithful disk paths w) {file : FilePath} {a : Analysis}
    (hfile : w.analysis? file = some a) (ha : a.targets ⊆ paths) (offset : Nat) :
    ∀ d ∈ (w.scope disk a offset).2,
      (w.scope disk a offset).1.Knows d.file ∧ d.file.isAbsolute = true := by
  intro d hd
  rcases List.mem_append.1 hd with hd | hd
  · obtain ⟨q, text, hq, habsolute, rfl⟩ := hw.files file a hfile
    rw [file_of_occurs (Declaration.occurs_visible hd)]
    refine ⟨?_, habsolute⟩
    have hknows : w.Knows q := by
      rw [Knows, analysis?, hq, ← analysis?, hfile]
      rfl
    rw [scope_fst]
    exact hknows.loadAll disk _
  · exact knows_included hw ha d hd

/-- Two faithful workspaces with the same registered files print the same signature, whatever the
spelling of the file. -/
theorem signature_congr {v : Workspace} (hw : Faithful disk paths w) (hv : Faithful disk paths v)
    (hfiles : v.files = w.files) (hs : disk.Stable paths) {d e : Declaration Place}
    (h : d.known = e.known) (hd : w.Knows d.file) (he : v.Knows e.file) :
    w.signature d = v.signature e := by
  have hkind := Declaration.kind_of_known h
  obtain ⟨hstart, hstop⟩ := Declaration.span_of_known h
  have hcomponents := (Declaration.nameSpan_of_known h).1
  have hin : ∀ a : Analysis, a.tokensIn d.span = a.tokensIn e.span := by
    intro a
    rw [Analysis.tokensIn, Analysis.tokensIn, hstart, hstop]
  have hanalysis : w.analysis? d.file = v.analysis? e.file := by
    rw [analysis?, analysis?, hfiles, hcomponents]
  unfold Knows at hd he
  rw [signature, signature]
  rw [hanalysis] at hd ⊢
  cases ha : v.analysis? e.file with
  | some a => simp only [Option.some_or, hkind, hin]
  | none =>
    rw [ha, Option.none_or] at hd he
    obtain ⟨b, hb⟩ := Option.isSome_iff_exists.1 hd
    obtain ⟨c, hc⟩ := Option.isSome_iff_exists.1 he
    obtain ⟨p, hp, text, hpc, hread, rfl⟩ := hw.library _ _ hb
    obtain ⟨q, hq, text', hqc, hread', rfl⟩ := hv.library _ _ hc
    have hsame := hs p hp q hq (FilePath.same_iff.2 (by rw [hpc, hqc, hcomponents]))
    rw [hread, hread'] at hsame
    cases hsame
    simp only [Option.none_or, hb, hc, hkind, hin]
    rw [Analysis.tokensIn_ofText p q]

end Scope

end Workspace
end Scad
