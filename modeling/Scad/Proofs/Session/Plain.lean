import Scad.Proofs.Forest
import Scad.Proofs.Session.Effect

/-!
# Scad.Proofs.Session.Plain

Documents whose files refer to no other. What the server answers about such a document is decided by
the document and by the analysis of its file.

* `Session.SameFile`: two uris name one file.
* `Session.Plain`: what is registered for the file of a document refers to no other file. Steps that
  give the file no text with a reference keep this.
* `Session.Alike`: two servers have the same document and the same analysis of its file, and so
  answer every question about it alike.
-/

namespace Scad
namespace Session

/-! ## Files that refer to no other -/

/-- The uris name the same file. -/
def SameFile (u v : Uri) : Prop :=
  ∃ p q, u.toFilePath? = some p ∧ v.toFilePath? = some q ∧ p.components = q.components

/-- The text refers to another file. -/
def Refers (text : List Char) : Prop :=
  ∃ ts, tokenize text = .ok ts ∧ (Outline.ofTokens text.length ts).references ≠ []

/-- The texts that a step gives to a document. -/
def Step.texts : Step → List (List Char)
  | .opened _ text => [text]
  | .changed _ _ texts => texts
  | _ => []

theorem references_ofText {text : List Char} (h : ¬ Refers text) (file : FilePath) :
    (Analysis.ofText file text).references = [] := by
  unfold Analysis.ofText
  dsimp only
  split
  · rename_i ts ht
    exact Classical.byContradiction fun hne => h ⟨ts, ht, hne⟩
  · rfl

/-- What is registered for the file of `v` is the analysis of a text that refers to no file. -/
def Plain (v : Uri) (s : Server) : Prop :=
  ∀ q a, v.toFilePath? = some q → s.workspace.analysis? q = some a →
    ∃ file text, a = .ofText file text ∧ file.components = q.components ∧ a.references = []

theorem plain_same {v : Uri} {s t : Server} (h : Plain v s) (hsame : Server.Same s t) :
    Plain v t := by
  intro q a hq ha
  rw [Workspace.analysis?_congr hsame.files] at ha
  exact h q a hq ha

theorem plain_put {v w : Uri} {s : Server} (h : Plain v s) (answer : ClientAnswer)
    {p : FilePath} (hp : w.toFilePath? = some p) {d : Document}
    (hd : SameFile w v → ¬ Refers d.text) : Plain v (s.put answer w p d).1 := by
  have hsame := Server.same_publish { s with
    documents := s.documents.insert w d
    workspace := s.workspace.register p d.text } answer w
  refine plain_same (fun q a hq ha => ?_) hsame
  by_cases hpq : q.components = p.components
  · have hself := Workspace.analysis?_register_self s.workspace p d.text
    rw [Workspace.analysis?, hpq] at ha
    rw [Workspace.analysis?, ha] at hself
    cases hself
    exact ⟨p, d.text, rfl, hpq.symm, references_ofText (hd ⟨p, q, hp, hq, hpq.symm⟩) p⟩
  · rw [Workspace.analysis?_register_of_ne _ _ hpq] at ha
    exact h q a hq ha

theorem plain_closed {v : Uri} {s : Server} (h : Plain v s) (w : Uri) :
    Plain v (s.closed w).1 := by
  unfold Server.closed
  split
  · exact h
  · split
    · intro q a hq ha
      rw [Workspace.analysis?_forget] at ha
      split at ha
      · cases ha
      · exact h q a hq ha
    · exact h

/-- Steps that give the file of `v` no text that refers to a file keep it so. -/
theorem plain_step {v : Uri} {s : Session} (h : Plain v s.server) {x : Step}
    (hx : ∀ w, x.edited? = some w → SameFile w v → ∀ text ∈ x.texts, ¬ Refers text) :
    Plain v (s.step x).1.server := by
  cases x with
  | opened w text =>
    simp only [step, notify, withServer, Server.opened]
    split
    · exact h
    · rename_i p hp
      split
      · exact h
      · exact plain_put h s.answer hp fun hs => hx w rfl hs text (by simp [Step.texts])
  | changed w version texts =>
    simp only [step]
    split
    · rename_i text hlast
      simp only [notify, withServer, Server.changed]
      split
      · exact h
      · rename_i p hp
        exact plain_put h s.answer hp fun hs => hx w rfl hs text (List.mem_of_getLast? hlast)
    · exact h
  | closed w => exact plain_closed h w
  | start | ready | shutdown | foldersChanged | resolve | symbols | format | answers | write
  | remove => exact h
  | configured payload each =>
    cases step_effect s (.configured payload each) with
    | kept hsame _ => exact plain_same h hsame
    | put _ _ _ hw => cases hw
    | closed _ _ hw => cases hw
  | completion w p => exact plain_same h (Server.same_completion ..)
  | definition w p => exact plain_same h (Server.same_declaration ..)
  | hover w p => exact plain_same h (Server.same_declaration ..)

/-! ## Questions about a file that refers to no other -/

/-- The scope of a file that refers to no other is in the file. -/
theorem scope_of_plain (w : Workspace) (disk : Disk) {a : Analysis} (hr : a.references = [])
    (offset : Nat) : w.scope disk a offset = (w, Declaration.visible a.declarations offset) := by
  simp [Workspace.scope, hr, Workspace.included]

theorem mem_distinct {seen : List (String × Declaration.Kind)} {ds : List (Declaration Place)}
    {d : Declaration Place} (h : d ∈ Candidate.distinct seen ds) : d ∈ ds := by
  induction ds generalizing seen with
  | nil => cases h
  | cons e ds ih =>
    rw [Candidate.distinct] at h
    split at h
    · exact List.mem_cons_of_mem e (ih h)
    · rcases List.mem_cons.1 h with rfl | h
      · exact List.mem_cons_self
      · exact List.mem_cons_of_mem e (ih h)

theorem declaration_pathCandidates {disk : Disk} {file : FilePath} {typed : List Char}
    {c : Candidate} (h : c ∈ Workspace.pathCandidates disk file typed) : c.declaration = none := by
  unfold Workspace.pathCandidates at h
  dsimp only at h
  split at h
  · cases h
  · obtain ⟨⟨name, e⟩, -, he⟩ := List.mem_filterMap.1 (List.mem_mergeSort.1 h)
    cases e with
    | directory => cases he; rfl
    | file content =>
      simp only [Workspace.entryCandidate?] at he
      split at he
      · cases he; rfl
      · cases he

/-- Two workspaces with the same analysis of a file that refers to no other suggest the same there,
and the suggestions come from that file. -/
theorem candidates_of_plain {w w' : Workspace} {q : FilePath} {a : Analysis}
    (ha : w.analysis? q = some a) (ha' : w'.analysis? q = some a) (hr : a.references = [])
    (disk : Disk) (offset : Nat) :
    (w.candidates disk q offset).1 = w ∧
      (w.candidates disk q offset).2 = (w'.candidates disk q offset).2 ∧
      ∀ c ∈ (w.candidates disk q offset).2, ∀ d, c.declaration = some d →
        Occurs Declaration.children d a.declarations := by
  simp only [Workspace.candidates, ha, ha', scope_of_plain _ disk hr]
  split
  · exact ⟨rfl, rfl, by simp⟩
  split
  · refine ⟨rfl, rfl, fun c hc d hd => ?_⟩
    rw [declaration_pathCandidates hc] at hd
    cases hd
  · refine ⟨rfl, rfl, fun c hc d hd => ?_⟩
    rcases List.mem_append.1 hc with hc | hc
    · obtain ⟨e, he, rfl⟩ := List.mem_map.1 hc
      cases hd
      exact Declaration.occurs_visible (mem_distinct he)
    · obtain ⟨word, -, rfl⟩ := List.mem_map.1 hc
      cases hd

theorem mem_of_resolve? {preferred : List Declaration.Kind} {name : String}
    {ds : List (Declaration Place)} {d : Declaration Place}
    (h : Workspace.resolve? preferred name ds = some d) : d ∈ ds := by
  rcases Option.or_eq_some_iff.1 h with h | ⟨-, h⟩
  · exact (List.mem_filter.1 (List.mem_of_find?_eq_some h)).1
  · exact (List.mem_filter.1 (List.mem_of_head? h)).1

theorem definition_of_plain {w w' : Workspace} {q : FilePath} {a : Analysis}
    (ha : w.analysis? q = some a) (ha' : w'.analysis? q = some a) (hr : a.references = [])
    (disk : Disk) (offset : Nat) :
    (w.definition? disk q offset).1 = w ∧
      (w.definition? disk q offset).2 = (w'.definition? disk q offset).2 ∧
      ∀ d, (w.definition? disk q offset).2 = some d →
        Occurs Declaration.children d a.declarations := by
  simp only [Workspace.definition?, ha, ha', Option.bind_some]
  split
  · exact ⟨rfl, rfl, by simp⟩
  · rename_i b token after hb
    cases ht : a.tokenAt? offset with
    | none => simp [ht] at hb
    | some found =>
      obtain ⟨rfl, -⟩ : a = b ∧ _ := by simpa [ht] using hb
      split
      · exact ⟨rfl, rfl, by simp⟩
      · rw [scope_of_plain _ disk hr, scope_of_plain _ disk hr]
        exact ⟨rfl, rfl, fun d hd => Declaration.occurs_visible (mem_of_resolve? hd)⟩

/-- The servers have the same document `v` and the same analysis of its file. -/
structure Alike (v : Uri) (s t : Server) : Prop where
  document : t.documents.get? v = s.documents.get? v
  analysis : ∀ q, v.toFilePath? = some q → t.workspace.analysis? q = s.workspace.analysis? q

section Alike

variable {v : Uri} {s t : Server}

theorem Alike.shown (h : Alike v s t) : t.shown v = s.shown v := by
  simp only [Server.shown, Server.problems, h.document]
  cases hq : v.toFilePath? with
  | none => rfl
  | some q => simp [h.analysis q hq]

/-- An open document of a file is answered from the store and the analysis of the file. -/
theorem Alike.opened (h : Alike v s t) :
    t.document v = s.document v ∧ ∀ d q, s.document v = .ok (d, q) →
      v.toFilePath? = some q ∧ t.readable? q = s.readable? q := by
  simp only [Server.document, h.document]
  refine ⟨trivial, fun d q hd => ?_⟩
  split at hd
  · cases hd
  · split at hd
    · cases hd
    · rename_i hq
      cases hd
      refine ⟨hq, ?_⟩
      rw [Server.readable?, Server.readable?, h.analysis _ hq]

theorem Alike.symbols (h : Alike v s t) : t.symbols v = s.symbols v := by
  obtain ⟨hdoc, hread⟩ := h.opened
  simp only [Server.symbols, hdoc]
  cases hd : s.document v with
  | error e => rfl
  | ok found => simp only [bind, Except.bind, (hread _ _ hd).2]

theorem Alike.format (h : Alike v s t) : t.format v = s.format v := by
  obtain ⟨hdoc, hread⟩ := h.opened
  simp only [Server.format, hdoc]
  cases hd : s.document v with
  | error e => rfl
  | ok found =>
    obtain ⟨hq, hr⟩ := hread _ _ hd
    simp only [bind, Except.bind, hr, Workspace.reprint?, h.analysis _ hq]

theorem analysis_of_readable {q : FilePath} {a : Analysis} (h : s.readable? q = some a) :
    s.workspace.analysis? q = some a :=
  (Option.filter_eq_some_iff.1 h).1

/-- A declaration of the file has the same signature for both servers. -/
theorem Alike.signature (h : Alike v s t) (hp : Plain v s) {q : FilePath} {a : Analysis}
    (hq : v.toFilePath? = some q) (ha : s.workspace.analysis? q = some a) {d : Declaration Place}
    (hd : Occurs Declaration.children d a.declarations) :
    t.workspace.signature d = s.workspace.signature d := by
  obtain ⟨file, text, rfl, hfile, -⟩ := hp q a hq ha
  have hs : s.workspace.analysis? d.file = some (.ofText file text) := by
    rw [file_of_occurs hd, Workspace.analysis?, hfile]
    exact ha
  have ht : t.workspace.analysis? d.file = some (.ofText file text) := by
    rw [file_of_occurs hd, Workspace.analysis?, hfile]
    exact (h.analysis q hq).trans ha
  simp only [Workspace.signature, hs, ht, Option.some_or]

theorem Alike.completion (h : Alike v s t) (hp : Plain v s) (disk : Disk) (p : Position) :
    (t.completion disk v p).2 = (s.completion disk v p).2 := by
  obtain ⟨hdoc, hread⟩ := h.opened
  simp only [Server.completion, hdoc]
  cases hd : s.document v with
  | error e => rfl
  | ok found =>
    obtain ⟨d, q⟩ := found
    obtain ⟨hq, hr⟩ := hread d q hd
    simp only [hr]
    cases ha : s.readable? q with
    | none => rfl
    | some a =>
      have has := analysis_of_readable ha
      have hat := (h.analysis q hq).trans has
      obtain ⟨-, -, -, -, hrefs⟩ := hp q a hq has
      obtain ⟨hw, hfound, hmem⟩ := candidates_of_plain has hat hrefs disk (d.offsetAt p)
      obtain ⟨hw', -⟩ := candidates_of_plain hat has hrefs disk (d.offsetAt p)
      simp only [hw, hw', ← hfound]
      congr 1
      refine List.map_congr_left fun c hc => ?_
      have hc' := hmem c.1 (List.fst_mem_of_mem_zipIdx hc)
      cases hd : c.1.declaration with
      | none => simp [Server.completionItem, hd]
      | some e => simp [Server.completionItem, hd, h.signature hp hq has (hc' e hd)]

/-- The declaration that a name of the document means, with its signature. -/
theorem Alike.declaration (h : Alike v s t) (hp : Plain v s) (disk : Disk) (p : Position) :
    (t.declaration disk v p).2 = (s.declaration disk v p).2 ∧
      ∀ d, (s.declaration disk v p).2 = .ok (some d) →
        (t.declaration disk v p).1.workspace.signature d =
          (s.declaration disk v p).1.workspace.signature d := by
  obtain ⟨hdoc, hread⟩ := h.opened
  simp only [Server.declaration, hdoc]
  cases hd : s.document v with
  | error e => exact ⟨rfl, fun _ he => by cases he⟩
  | ok found =>
    obtain ⟨d, q⟩ := found
    obtain ⟨hq, hr⟩ := hread d q hd
    simp only [hr]
    cases ha : s.readable? q with
    | none => exact ⟨rfl, fun _ he => by cases he⟩
    | some a =>
      have has := analysis_of_readable ha
      have hat := (h.analysis q hq).trans has
      obtain ⟨-, -, -, -, hrefs⟩ := hp q a hq has
      obtain ⟨hw, hfound, hmem⟩ := definition_of_plain has hat hrefs disk (d.offsetAt p)
      obtain ⟨hw', -⟩ := definition_of_plain hat has hrefs disk (d.offsetAt p)
      simp only [hw, hw', ← hfound]
      refine ⟨trivial, fun e he => h.signature hp hq has (hmem e ?_)⟩
      exact Except.ok.inj he

theorem Alike.definition (h : Alike v s t) (hp : Plain v s) (disk : Disk) (p : Position) :
    (t.definition disk v p).2 = (s.definition disk v p).2 := by
  simp only [Server.definition, (h.declaration hp disk p).1]

theorem Alike.hover (h : Alike v s t) (hp : Plain v s) (disk : Disk) (p : Position) :
    (t.hover disk v p).2 = (s.hover disk v p).2 := by
  obtain ⟨hfound, hsig⟩ := h.declaration hp disk p
  simp only [Server.hover, hfound]
  cases hd : (s.declaration disk v p).2 with
  | error e => rfl
  | ok found =>
    cases found with
    | none => rfl
    | some d => simp only [Except.map, Option.map_some, hsig d hd]

end Alike

end Session
end Scad
