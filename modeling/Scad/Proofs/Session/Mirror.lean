import Scad.Proofs.Session.Effect

/-!
# Scad.Proofs.Session.Mirror

The marks that the client shows mirror the state of the server, along every conversation in which
different documents are different files.

* `Session.Mirrors`: for one document, the marks told last are those of its text and version, and a
  document that is not open is unknown and unmarked.
* `Session.mirrors_effect`: every step keeps this for all documents of the conversation.
* `Session.marks_mirror_state`: so every conversation does.
-/

namespace Scad
namespace Session

/-- The marks for a text: one for each problem of its analysis, in order, at the position of the
problem's offset. -/
def marksOf (path : FilePath) (text : List Char) : List Diagnostic :=
  (Analysis.ofText path text).problems.map fun p =>
    ⟨.point (Position.ofOffset text p.place.offset), p.message⟩

/-- The document `uri` as the client shows it mirrors the state of the server. -/
structure Mirrors (s : Server) (sent : List Message) (uri : Uri) : Prop where
  isOpen : ∀ d, s.documents.get? uri = some d → ∃ path, uri.toFilePath? = some path ∧
    s.workspace.analysis? path = some (.ofText path d.text) ∧
    lastPublished uri sent = some (marksOf path d.text, some d.version)
  isClosed : s.documents.get? uri = none →
    (∀ path, uri.toFilePath? = some path → s.workspace.analysis? path = none) ∧
    (lastPublished uri sent = none ∨ lastPublished uri sent = some ([], none))

theorem shown_of_analysis {s : Server} {uri : Uri} {path : FilePath} {d : Document}
    (hd : s.documents.get? uri = some d) (hp : uri.toFilePath? = some path)
    (ha : s.workspace.analysis? path = some (.ofText path d.text)) :
    s.shown uri = some (marksOf path d.text, some d.version) := by
  simp only [Server.shown, Server.problems, hd, hp, Option.bind_some, ha, Option.map_some]
  rfl

theorem mirrors_initial (uri : Uri) : Mirrors .initial [] uri := by
  refine ⟨fun d hd => ?_, fun _ => ⟨fun _ _ => rfl, .inl rfl⟩⟩
  cases hd

/-- A document is mirrored further if it and its file are kept and what is told of it belongs to
the new state. -/
theorem Mirrors.keep {s t : Server} {before sent : List Message} {uri : Uri}
    (h : Mirrors s before uri) (hd : t.documents.get? uri = s.documents.get? uri)
    (ha : ∀ path, uri.toFilePath? = some path →
      t.workspace.analysis? path = s.workspace.analysis? path)
    (ht : ∀ marks, lastPublished uri sent = some marks → t.shown uri = some marks) :
    Mirrors t (before ++ sent) uri := by
  refine ⟨fun d hdoc => ?_, fun hdoc => ?_⟩
  · obtain ⟨path, hp, han, hlast⟩ := h.isOpen d (hd ▸ hdoc)
    have han' := (ha path hp).trans han
    refine ⟨path, hp, han', ?_⟩
    rw [lastPublished_append]
    cases hs : lastPublished uri sent with
    | none => rw [Option.none_or, hlast]
    | some marks => rw [Option.some_or, ← ht marks hs, shown_of_analysis hdoc hp han']
  · obtain ⟨han, hlast⟩ := h.isClosed (hd ▸ hdoc)
    refine ⟨fun path hp => (ha path hp).trans (han path hp), ?_⟩
    have hs : lastPublished uri sent = none := by
      cases hs : lastPublished uri sent with
      | none => rfl
      | some marks =>
        have := ht marks hs
        rw [Server.shown, hdoc] at this
        cases this
    rwa [lastPublished_append, hs, Option.none_or]

/-- The documents have different files. -/
def Apart (uris : Uri → Prop) : Prop :=
  ∀ u v, uris u → uris v → u ≠ v → ∀ p q, u.toFilePath? = some p → v.toFilePath? = some q →
    p.components ≠ q.components

/-- The documents that some steps are about have different files if their paths have different
components. -/
theorem apart_of_differ {xs : List Step}
    (h : ∀ u ∈ xs.filterMap Step.uri?, ∀ v ∈ xs.filterMap Step.uri?, u ≠ v →
      u.toFilePath?.map FilePath.components ≠ v.toFilePath?.map FilePath.components) :
    Apart fun u => ∃ x ∈ xs, x.uri? = some u := by
  intro u v hu hv huv p q hp hq heq
  refine h u (List.mem_filterMap.2 hu) v (List.mem_filterMap.2 hv) huv ?_
  rw [hp, hq, Option.map_some, Option.map_some, heq]

/-- Every step about one of the documents keeps all of them mirrored. -/
theorem mirrors_effect {uris : Uri → Prop} (hap : Apart uris) {x : Step}
    (hx : ∀ u, x.uri? = some u → uris u) {s t : Server} {before sent : List Message}
    (h : ∀ u, uris u → Mirrors s before u) (he : Effect x s t sent) :
    ∀ u, uris u → Mirrors t (before ++ sent) u := by
  intro v hv
  by_cases hedit : x.edited? = some v
  · cases he with
    | kept hsame htells =>
      exact (h v hv).keep (by rw [hsame.documents])
        (fun path _ => Workspace.analysis?_congr hsame.files path) (htells v)
    | put uri path d huri hp hdocs hfiles _ hlast =>
      obtain rfl : uri = v := Option.some.inj (huri.symm.trans hedit)
      have hdoc : t.documents.get? uri = some d := by rw [hdocs, Table.get?_insert_self]
      have han : t.workspace.analysis? path = some (.ofText path d.text) := by
        rw [Workspace.analysis?_congr hfiles, Workspace.analysis?_register_self]
      refine ⟨fun d' hd' => ?_, fun hnone => ?_⟩
      · rw [hdoc] at hd'
        cases hd'
        refine ⟨path, hp, han, ?_⟩
        rw [lastPublished_append, hlast, shown_of_analysis hdoc hp han, Option.some_or]
      · rw [hdoc] at hnone
        cases hnone
    | closed uri path huri hp hdocs hfiles hsent =>
      obtain rfl : uri = v := Option.some.inj (huri.symm.trans hedit)
      have hdoc : t.documents.get? uri = none := by rw [hdocs, Table.get?_erase, if_pos rfl]
      refine ⟨fun d hd => ?_, fun _ => ⟨fun q hq => ?_, .inr ?_⟩⟩
      · rw [hdoc] at hd
        cases hd
      · rw [hp] at hq
        cases hq
        rw [Workspace.analysis?_congr hfiles, Workspace.analysis?_forget, if_pos rfl]
      · rw [lastPublished_append, hsent]
        simp [lastPublished, Message.marks?]
  · -- the step is about another document, which by assumption has another file
    refine (h v hv).keep (he.document_elsewhere hedit) (fun p hp => ?_) (he.marks_elsewhere hedit)
    apply he.analysis_elsewhere
    intro u hu q hq
    have hne : u ≠ v := fun he => hedit (he ▸ hu)
    exact hap u v (hx u (Step.uri?_of_edited? hu)) hv hne q p hq hp

/-- After every step of a conversation in which different documents are different files, the marks
of every document of the conversation mirror the state of the server. -/
theorem marks_mirror_state (disk : Disk) (answer : ClientAnswer) (xs : List Step)
    (hap : Apart fun u => ∃ x ∈ xs, x.uri? = some u) (ys : List Step) (hys : ys <+: xs) (uri : Uri)
    (huri : ∃ x ∈ xs, x.uri? = some uri) :
    Mirrors (run ⟨.initial, disk, answer⟩ ys).1.server
      (messages (run ⟨.initial, disk, answer⟩ ys).2) uri := by
  have hrun := run_induction (fun s sent => ∀ u, (∃ x ∈ xs, x.uri? = some u) → Mirrors s sent u)
    (fun x hx s t before sent hP he =>
      mirrors_effect hap (fun u hu => ⟨x, hys.subset hx, hu⟩) hP he)
    ⟨.initial, disk, answer⟩ (fun u _ => mirrors_initial u)
  exact hrun uri huri

/-- One document is opened with a problem and closed in the end; another is changed before it is
opened. -/
def twoFiles : List Step :=
  [.opened (rootFile 'a') "x=(".toList, .changed (rootFile 'b') 2 [[], "y=1;".toList],
    .configured .null, .changed (rootFile 'a') 3 [], .closed (rootFile 'a')]

theorem apart_twoFiles : Apart fun u => ∃ x ∈ twoFiles, x.uri? = some u :=
  apart_of_differ (by decide +kernel)

theorem marks_mirror_twoFiles :
    (Apart fun u => ∃ x ∈ twoFiles, x.uri? = some u) ∧
      Mirrors (run ⟨.initial, .empty, none⟩ (twoFiles.take 4)).1.server
        (messages (run ⟨.initial, .empty, none⟩ (twoFiles.take 4)).2) (rootFile 'a') :=
  ⟨apart_twoFiles, marks_mirror_state .empty none twoFiles apart_twoFiles (twoFiles.take 4)
    ⟨_, List.take_append_drop 4 twoFiles⟩ (rootFile 'a') ⟨_, List.mem_cons_self, rfl⟩⟩

end Session
end Scad
