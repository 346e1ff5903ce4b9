import Scad.Proofs.Session.Format
import Scad.Proofs.Session.Mirror
import Scad.Proofs.Session.Query

/-!
# Scad.Proofs.Session.Failure

Why a question is refused. It depends on the open documents alone: a document that is not open has
no answers, and one whose text cannot be read has no definitions. No other failure is ever told, and
no question, refused or not, changes what the server knows of its client.

* `Workspace.Rooted`: every file that is known has an absolute path, so every declaration in scope
  has a uri. All steps keep this.
* `Session.Current`: the file of every open document is registered with the document's text.
* `Session.Refuses`: the failures, from the open documents.
* `Session.failed_iff`: in every state of a conversation in which different documents are different
  files, a question fails if and only if it is refused so.
-/

namespace Scad

/-! ## Known files have uris -/

namespace Workspace

/-- Every file that is known was analysed as a whole and has an absolute path. -/
def Rooted (w : Workspace) : Prop :=
  ∀ p a, w.analysis? p = some a ∨ w.libraryAnalysis? p = some a →
    ∃ file text, file.isAbsolute = true ∧ a = .ofText file text

section Rooted

variable {w : Workspace}

theorem rooted_empty : Rooted .empty := by
  intro p a ha
  rcases ha with ha | ha <;> cases ha

theorem Rooted.load (hw : Rooted w) (disk : Disk) (path : FilePath) :
    Rooted (w.load disk path).1 := by
  intro p a ha
  rw [analysis?_congr (files_load w disk path), libraryAnalysis?_load] at ha
  rcases ha with ha | ha
  · exact hw p a (.inl ha)
  · rcases Option.or_eq_some_iff.1 ha with ha | ⟨-, ha⟩
    · exact hw p a (.inr ha)
    · split at ha
      · cases ha
      · cases hread : disk.readText? path with
        | none =>
          rw [hread] at ha
          cases ha
        | some text =>
          simp only [hread, Event.read?] at ha
          split at ha
          · exact ⟨path, text, isAbsolute_of_readText? hread, (Option.some.inj ha).symm⟩
          · cases ha

theorem Rooted.loadAll (hw : Rooted w) (disk : Disk) (paths : List FilePath) :
    Rooted (loadAll disk w paths) := by
  induction paths generalizing w with
  | nil => exact hw
  | cons path paths ih => exact ih (hw.load disk path)

/-- What a reference brings has an absolute path. -/
theorem Rooted.found (hw : Rooted w) {disk : Disk} {path : FilePath} {a : Analysis}
    (ha : (w.load disk path).2 = some a) :
    ∃ file text, file.isAbsolute = true ∧ a = .ofText file text := by
  unfold Workspace.load at ha
  split at ha
  · rename_i b hb
    obtain rfl := Option.some.inj ha
    exact hw path b ((Option.or_eq_some_iff.1 hb).imp id And.right)
  · split at ha
    · rename_i text hread
      exact ⟨path, text, isAbsolute_of_readText? hread, (Option.some.inj ha).symm⟩
    · cases ha

theorem Rooted.included (hw : Rooted w) (disk : Disk) (file : FilePath) (rs : List Reference) :
    ∀ d ∈ (included disk file w rs).2, d.file.isAbsolute = true := by
  induction rs generalizing w with
  | nil =>
    intro d hd
    cases hd
  | cons r rs ih =>
    cases ht : target? file r with
    | none =>
      simp only [Workspace.included, ht]
      exact ih hw
    | some path =>
      simp only [Workspace.included, ht]
      intro d hd
      rcases List.mem_append.1 hd with hd | hd
      · cases ha : (w.load disk path).2 with
        | none =>
          rw [ha] at hd
          cases hd
        | some a =>
          rw [ha] at hd
          obtain ⟨q, text, habsolute, rfl⟩ := hw.found ha
          rw [file_of_occurs (.here hd)]
          exact habsolute
      · exact ih (hw.load disk path) d hd

/-- What is in scope in a registered file is in files with absolute paths. -/
theorem Rooted.scope (hw : Rooted w) (disk : Disk) {file : FilePath} {a : Analysis}
    (hfile : w.analysis? file = some a) (offset : Nat) :
    ∀ d ∈ (w.scope disk a offset).2, d.file.isAbsolute = true := by
  intro d hd
  rcases List.mem_append.1 hd with hd | hd
  · obtain ⟨q, text, habsolute, rfl⟩ := hw file a (.inl hfile)
    rw [file_of_occurs (Declaration.occurs_visible hd)]
    exact habsolute
  · exact hw.included disk a.file a.references d hd

theorem Rooted.definition? (hw : Rooted w) {disk : Disk} {file : FilePath} {offset : Nat}
    {d : Declaration Place} (hd : (w.definition? disk file offset).2 = some d) :
    d.file.isAbsolute = true := by
  unfold Workspace.definition? at hd
  split at hd
  · cases hd
  · rename_i a token after hfound
    obtain ⟨b, hb, hpair⟩ := Option.bind_eq_some_iff.1 hfound
    obtain ⟨found, -, hfound⟩ := Option.map_eq_some_iff.1 hpair
    cases hfound
    dsimp only at hd
    split at hd
    · cases hd
    · exact hw.scope disk hb offset d (Session.mem_of_resolve? hd)

end Rooted

end Workspace

namespace Session

/-- Every step leaves all known files with absolute paths. -/
theorem rooted_step {s : Session} (h : s.server.workspace.Rooted) (x : Step) :
    (s.step x).1.server.workspace.Rooted := by
  intro p a ha
  rcases ha with ha | ha
  · cases step_effect s x with
    | kept hsame _ => exact h p a (.inl (Workspace.analysis?_congr hsame.files p ▸ ha))
    | put uri path d _ hpath _ hfiles _ _ =>
      rw [Workspace.analysis?_congr hfiles] at ha
      by_cases hp : p.components = path.components
      · rw [Workspace.analysis?, hp, ← Workspace.analysis?,
          Workspace.analysis?_register_self] at ha
        exact ⟨path, d.text, Uri.isAbsolute_of_toFilePath? hpath, (Option.some.inj ha).symm⟩
      · rw [Workspace.analysis?_register_of_ne _ _ hp] at ha
        exact h p a (.inl ha)
    | closed uri path _ _ _ hfiles _ =>
      rw [Workspace.analysis?_congr hfiles, Workspace.analysis?_forget] at ha
      split at ha
      · cases ha
      · exact h p a (.inl ha)
  · cases hx : x.isQuery with
    | true =>
      rw [query_state s hx] at ha
      exact h.loadAll s.disk (s.lookups x) p a (.inr ha)
    | false =>
      obtain ⟨dropped, hstep⟩ := step_withLibrary s hx
      have hself : (s.step x).1 = (s.step x).1.withLibrary
          (Workspace.Library.without s.server.workspace.library dropped) :=
        congrArg Prod.fst (hstep s.server.workspace.library)
      rw [hself] at ha
      exact h p a (.inr (Workspace.Library.get?_of_without ha))

theorem rooted_run {s : Session} (h : s.server.workspace.Rooted) (xs : List Step) :
    (s.run xs).1.server.workspace.Rooted := by
  induction xs generalizing s with
  | nil => exact h
  | cons x xs ih => exact ih (rooted_step h x)

/-! ## Open documents are registered -/

/-- The file of every open document is registered with the document's text. -/
def Current (s : Server) : Prop :=
  ∀ uri d, s.documents.get? uri = some d → ∃ path, Holds s uri path d (.ofText path d.text)

/-- Only documents that a conversation is about are open after it. -/
theorem mentioned_of_open (disk : Disk) (answer : ClientAnswer) (xs : List Step) {uri : Uri}
    {d : Document}
    (hd : (run ⟨.initial, disk, answer⟩ xs).1.server.documents.get? uri = some d) :
    ∃ x ∈ xs, x.uri? = some uri := by
  refine Classical.byContradiction fun hnone => ?_
  have hclosed : (run ⟨.initial, disk, answer⟩ xs).1.server.documents.get? uri = none := by
    refine run_induction (fun t _ => t.documents.get? uri = none) (fun x hx s t _ _ h he => ?_)
      ⟨.initial, disk, answer⟩ rfl
    have helse : x.edited? ≠ some uri := fun he => hnone ⟨x, hx, Step.uri?_of_edited? he⟩
    rw [he.document_elsewhere helse, h]
  rw [hclosed] at hd
  cases hd

theorem current_run (disk : Disk) (answer : ClientAnswer) (xs : List Step)
    (hap : Apart fun u => ∃ x ∈ xs, x.uri? = some u) :
    Current (run ⟨.initial, disk, answer⟩ xs).1.server := by
  intro uri d hd
  have hmirror := run_induction
    (fun s sent => ∀ u, (∃ x ∈ xs, x.uri? = some u) → Mirrors s sent u)
    (fun x hx s t before sent h he => mirrors_effect hap (fun u hu => ⟨x, hx, hu⟩) h he)
    ⟨.initial, disk, answer⟩ (fun u _ => mirrors_initial u)
  obtain ⟨path, hpath, ha, -⟩ :=
    (hmirror uri (mentioned_of_open disk answer xs hd)).isOpen d hd
  exact ⟨path, hd, hpath, ha⟩

/-! ## Failures -/

/-- The question is for the meaning of a name. -/
def Step.asksMeaning : Step → Bool
  | .definition _ _ | .hover _ _ => true
  | _ => false

/-- The failures of a question, from the open documents. -/
inductive Refuses (s : Server) (x : Step) : ServerError → Prop where
  | closed (uri : Uri) : x.isQuery = true → x.uri? = some uri → s.isOpen uri = false →
      Refuses s x (.missingDocument uri)
  | unreadable (uri : Uri) (path : FilePath) (d : Document) (e : LexError) :
      x.asksMeaning = true → x.uri? = some uri → s.documents.get? uri = some d →
      uri.toFilePath? = some path → tokenize d.text = .error e →
      Refuses s x (.missingAnalysis path)

/-- What the server knows of its client is the same in both states: the documents, the settings, the
features, and the registered files. -/
structure Unmoved (s t : Server) : Prop extends Server.Same s t where
  settings : t.settings = s.settings
  globalSettings : t.globalSettings = s.globalSettings
  flags : t.flags = s.flags

/-- No question moves the server. -/
theorem unmoved_query (s : Session) {x : Step} (hx : x.isQuery = true) :
    Unmoved s.server (s.step x).1.server := by
  rw [query_state s hx]
  exact ⟨⟨rfl, rfl⟩, rfl, rfl, rfl⟩

theorem failed_ofExcept_iff {α : Type} {f : α → Reply} (hf : ∀ a e, f a ≠ .failed e)
    {r : Except ServerError α} {e : ServerError} :
    Reply.ofExcept f r = .failed e ↔ r = .error e := by
  cases r with
  | ok a => simp [Reply.ofExcept, hf]
  | error e' => simp [Reply.ofExcept]

section Replies

variable {s : Server} {uri : Uri} {path : FilePath} {d : Document}

theorem document_of_closed (h : s.isOpen uri = false) :
    s.document uri = .error (.missingDocument uri) := by
  have hnone : s.documents.get? uri = none := by
    simpa [Server.isOpen, Table.contains] using h
  simp [Server.document, hnone]

theorem document_of_holds {a : Analysis} (h : Holds s uri path d a) :
    s.document uri = .ok (d, path) := by
  simp only [Server.document, h.document, h.named]

theorem isOpen_of_holds {a : Analysis} (h : Holds s uri path d a) : s.isOpen uri = true := by
  simp [Server.isOpen, Table.contains, h.document]

theorem isReadable_ofText_iff (file : FilePath) (text : List Char) :
    (Analysis.ofText file text).isReadable = false ↔ ∃ e, tokenize text = .error e := by
  cases ht : tokenize text with
  | ok ts => simp [Analysis.ofText, ht, Analysis.isReadable]
  | error e => simp [Analysis.ofText, ht, Analysis.isReadable]

theorem readable?_eq_none_iff (h : Holds s uri path d (.ofText path d.text)) :
    s.readable? path = none ↔ ∃ e, tokenize d.text = .error e := by
  rw [← isReadable_ofText_iff path, Server.readable?, h.analysis]
  simp [Option.filter]

end Replies

section Refused

variable {s : Server} {uri : Uri} {e : ServerError}

/-- A document of which the server knows the text is open. -/
theorem open_or_closed (hs : Current s) (uri : Uri) :
    s.isOpen uri = false ∨ ∃ path d, Holds s uri path d (.ofText path d.text) := by
  cases hd : s.documents.get? uri with
  | none => exact .inl (by simp [Server.isOpen, Table.contains, hd])
  | some d =>
    obtain ⟨path, h⟩ := hs uri d hd
    exact .inr ⟨path, d, h⟩

theorem completion_error_iff (hs : Current s) (disk : Disk) (p : Position) :
    (s.completion disk uri p).2 = .error e ↔ s.isOpen uri = false ∧ e = .missingDocument uri := by
  rcases open_or_closed hs uri with hclosed | ⟨path, d, h⟩
  · simp [Server.completion, document_of_closed hclosed, hclosed, eq_comm]
  · simp only [Server.completion, document_of_holds h, isOpen_of_holds h]
    cases s.readable? path <;> simp

theorem symbols_error_iff (hs : Current s) :
    s.symbols uri = .error e ↔ s.isOpen uri = false ∧ e = .missingDocument uri := by
  rcases open_or_closed hs uri with hclosed | ⟨path, d, h⟩
  · simp [Server.symbols, document_of_closed hclosed, hclosed, bind, Except.bind, eq_comm]
  · simp only [Server.symbols, document_of_holds h, isOpen_of_holds h, bind, Except.bind]
    cases s.readable? path <;> simp [pure, Except.pure]

theorem format_error_iff (hs : Current s) :
    s.format uri = .error e ↔ s.isOpen uri = false ∧ e = .missingDocument uri := by
  rcases open_or_closed hs uri with hclosed | ⟨path, d, h⟩
  · simp [Server.format, document_of_closed hclosed, hclosed, bind, Except.bind, eq_comm]
  · simp only [Server.format, document_of_holds h, isOpen_of_holds h, bind, Except.bind]
    cases s.readable? path with
    | none => simp [pure, Except.pure]
    | some a =>
      dsimp only
      split <;> simp [pure, Except.pure]

/-- Why the question for the declaration of a name fails. -/
theorem declaration_error_iff (hs : Current s) (disk : Disk) (p : Position) :
    (s.declaration disk uri p).2 = .error e ↔
      (s.isOpen uri = false ∧ e = .missingDocument uri) ∨
        ∃ path d fault, s.documents.get? uri = some d ∧ uri.toFilePath? = some path ∧
          tokenize d.text = .error fault ∧ e = .missingAnalysis path := by
  rcases open_or_closed hs uri with hclosed | ⟨path, d, h⟩
  · have hnone : s.documents.get? uri = none := by
      simpa [Server.isOpen, Table.contains] using hclosed
    simp [Server.declaration, document_of_closed hclosed, hclosed, hnone, eq_comm]
  · simp only [Server.declaration, document_of_holds h, isOpen_of_holds h, h.document, h.named]
    cases hr : s.readable? path with
    | none =>
      obtain ⟨fault, hfault⟩ := (readable?_eq_none_iff h).1 hr
      simp [hfault, eq_comm]
    | some a =>
      have hread : ¬ ∃ fault, tokenize d.text = .error fault := by
        rw [← readable?_eq_none_iff h, hr]
        simp
      constructor
      · intro h
        cases h
      · rintro (⟨hclosed, -⟩ | ⟨q, d', fault, hd', -, hfault, -⟩)
        · cases hclosed
        · obtain rfl := Option.some.inj hd'
          exact absurd ⟨fault, hfault⟩ hread

/-- The place of a declaration that was found can be told, so the question where a name is declared
fails only with the question for its declaration. -/
theorem definition_error_iff (hw : s.workspace.Rooted) (disk : Disk) (p : Position) :
    (s.definition disk uri p).2 = .error e ↔ (s.declaration disk uri p).2 = .error e := by
  have hroot : ∀ d, (s.declaration disk uri p).2 = .ok (some d) → d.file.isAbsolute = true := by
    intro d hd
    unfold Server.declaration at hd
    split at hd
    · cases hd
    · split at hd
      · cases hd
      · exact hw.definition? (Except.ok.inj hd)
  unfold Server.definition
  rcases hfound : s.declaration disk uri p with ⟨t, e' | _ | d⟩
  · simp
  · simp
  · have habsolute := hroot d (by rw [hfound])
    simp [Location.ofDeclaration?, Uri.ofFilePath?, habsolute]

theorem hover_error_iff (disk : Disk) (p : Position) :
    (s.hover disk uri p).2 = .error e ↔ (s.declaration disk uri p).2 = .error e := by
  unfold Server.hover
  rcases s.declaration disk uri p with ⟨t, e' | found⟩ <;> simp [Except.map]

end Refused

section Refuses

variable {s : Server} {x : Step} {uri : Uri} {e : ServerError}

/-- All questions are refused for closed documents, and most for nothing else. -/
theorem refuses_iff_closed (hx : x.isQuery = true) (huri : x.uri? = some uri)
    (hmeaning : x.asksMeaning = false) :
    Refuses s x e ↔ s.isOpen uri = false ∧ e = .missingDocument uri := by
  constructor
  · rintro (⟨v, -, hv, hclosed⟩ | ⟨_, _, _, _, h⟩)
    · obtain rfl : uri = v := Option.some.inj (huri.symm.trans hv)
      exact ⟨hclosed, rfl⟩
    · rw [hmeaning] at h
      cases h
  · rintro ⟨hclosed, rfl⟩
    exact .closed uri hx huri hclosed

/-- Questions for the meaning of a name are refused when there is no declaration to look for. -/
theorem refuses_iff_declaration (hs : Current s) (hx : x.isQuery = true) (huri : x.uri? = some uri)
    (hmeaning : x.asksMeaning = true) (disk : Disk) (p : Position) :
    Refuses s x e ↔ (s.declaration disk uri p).2 = .error e := by
  rw [declaration_error_iff hs disk p]
  constructor
  · rintro (⟨v, -, hv, hclosed⟩ | ⟨v, path, d, fault, -, hv, hd, hpath, hfault⟩)
    · obtain rfl : uri = v := Option.some.inj (huri.symm.trans hv)
      exact .inl ⟨hclosed, rfl⟩
    · obtain rfl : uri = v := Option.some.inj (huri.symm.trans hv)
      exact .inr ⟨path, d, fault, hd, hpath, hfault, rfl⟩
  · rintro (⟨hclosed, rfl⟩ | ⟨path, d, fault, hd, hpath, hfault, rfl⟩)
    · exact .closed uri hx huri hclosed
    · exact .unreadable uri path d fault hmeaning huri hd hpath hfault

end Refuses

/-- In a state in which open documents are registered and known files have uris, a question fails if
and only if it is refused. -/
theorem failed_iff {s : Session} (hs : Current s.server) (hw : s.server.workspace.Rooted) {x : Step}
    (hx : x.isQuery = true) (e : ServerError) :
    (s.step x).2.1 = .failed e ↔ Refuses s.server x e := by
  cases x with
  | completion uri p =>
    rw [refuses_iff_closed hx rfl rfl, ← completion_error_iff hs s.disk p]
    exact failed_ofExcept_iff (by simp)
  | symbols uri =>
    rw [refuses_iff_closed hx rfl rfl, ← symbols_error_iff hs]
    exact failed_ofExcept_iff (by simp)
  | format uri =>
    rw [refuses_iff_closed hx rfl rfl, ← format_error_iff hs]
    exact failed_ofExcept_iff (by simp)
  | definition uri p =>
    rw [refuses_iff_declaration hs hx rfl rfl s.disk p, ← definition_error_iff hw]
    exact failed_ofExcept_iff (by simp)
  | hover uri p =>
    rw [refuses_iff_declaration hs hx rfl rfl s.disk p, ← hover_error_iff]
    exact failed_ofExcept_iff (by simp)
  | resolve item =>
    constructor
    · intro h
      cases h
    · rintro (⟨_, _, h, _⟩ | ⟨_, _, _, _, h⟩) <;> cases h
  | start | ready | shutdown | opened | changed | closed | configured | foldersChanged | answers
  | write | remove => cases hx

/-- Failures are characterised by the open documents. In every state of a conversation in which
different documents are different files, a question about a document fails if the document is not
open, and one for the meaning of a name also if the text of the document cannot be read. There is no
other failure, and no question moves the server. -/
theorem query_failures (disk : Disk) (answer : ClientAnswer) (xs : List Step)
    (hap : Apart fun u => ∃ x ∈ xs, x.uri? = some u) (x : Step) (hx : x.isQuery = true) :
    (∀ e, ((run ⟨.initial, disk, answer⟩ xs).1.step x).2.1 = .failed e ↔
        Refuses (run ⟨.initial, disk, answer⟩ xs).1.server x e) ∧
      (∀ uri, ((run ⟨.initial, disk, answer⟩ xs).1.step x).2.1 ≠ .failed (.invalidUri uri)) ∧
      (∀ path, ((run ⟨.initial, disk, answer⟩ xs).1.step x).2.1 ≠ .failed (.invalidPath path)) ∧
      Unmoved (run ⟨.initial, disk, answer⟩ xs).1.server
        ((run ⟨.initial, disk, answer⟩ xs).1.step x).1.server := by
  have hfailed := failed_iff (current_run disk answer xs hap)
    (rooted_run (s := ⟨.initial, disk, answer⟩) Workspace.rooted_empty xs) hx
  refine ⟨hfailed, fun uri h => ?_, fun path h => ?_, unmoved_query _ hx⟩
  · cases (hfailed _).1 h
  · cases (hfailed _).1 h

/-- One document has a text that cannot be read, another is closed again. -/
def unreadableBeside : List Step :=
  [.opened (rootFile 'a') ['"'], .opened (rootFile 'b') "x=1;".toList, .closed (rootFile 'b')]

theorem query_failures_unreadable :
    (Apart fun u => ∃ x ∈ unreadableBeside, x.uri? = some u) ∧
      ((run ⟨.initial, .empty, none⟩ unreadableBeside).1.step
        (.hover (rootFile 'a') ⟨0, 1⟩)).2.1 = .failed (.missingAnalysis ⟨[47, 97]⟩) ∧
      ((run ⟨.initial, .empty, none⟩ unreadableBeside).1.step
        (.completion (rootFile 'b') ⟨0, 1⟩)).2.1 = .failed (.missingDocument (rootFile 'b')) := by
  have hap : Apart fun u => ∃ x ∈ unreadableBeside, x.uri? = some u :=
    apart_of_differ (by decide +kernel)
  have hunreadable : tokenize ['"'] = .error ⟨0, .unterminatedString⟩ := by decide +kernel
  refine ⟨hap, ((query_failures .empty none unreadableBeside hap _ rfl).1 _).2 ?_,
    ((query_failures .empty none unreadableBeside hap _ rfl).1 _).2 ?_⟩
  · exact .unreadable (rootFile 'a') ⟨[47, 97]⟩ ⟨['"'], 0⟩ _ rfl rfl (by decide +kernel)
      (by decide +kernel) hunreadable
  · exact .closed (rootFile 'b') rfl rfl (by decide +kernel)

end Session
end Scad
