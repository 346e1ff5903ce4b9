import Scad.Proofs.Session.Plain
import Scad.Proofs.Workspace.Library

/-!
# Scad.Proofs.Session.Query

Questions leave no trace. A question may read files, and what was read is kept, but no later reply
and no message depends on it.

* `Session.withLibrary`: the session with other files kept from disk. A step that is no question
  does the same in both (`Session.step_withLibrary`), a question changes nothing else
  (`Session.query_state`) and gives the same reply (`Session.query_reply`).
* `Session.lookedUp`: the paths that a conversation looks up.
* `Session.queries_pure`: questions can be left out of a conversation without a trace in the rest.
-/

namespace Scad

/-! ## Declarations up to the spelling of their files -/

namespace Declaration

theorem map_of_known {β : Type} {f g : Declaration Place → β} {ds es : List (Declaration Place)}
    (h : ds.map known = es.map known)
    (hfg : ∀ d ∈ ds, ∀ e ∈ es, d.known = e.known → f d = g e) : ds.map f = es.map g := by
  induction ds generalizing es with
  | nil => rw [List.map_eq_nil_iff.1 h.symm]; rfl
  | cons d ds ih =>
    cases es with
    | nil => cases h
    | cons e es =>
      obtain ⟨hhead, htail⟩ := List.cons.inj h
      rw [List.map_cons, List.map_cons, hfg d (by simp) e (by simp) hhead,
        ih htail fun d hd e he => hfg d (by simp [hd]) e (by simp [he])]

theorem distinct_of_known {ds es : List (Declaration Place)} (h : ds.map known = es.map known)
    (seen : List (String × Declaration.Kind)) :
    (Candidate.distinct seen ds).map known = (Candidate.distinct seen es).map known := by
  induction ds generalizing es seen with
  | nil => rw [List.map_eq_nil_iff.1 h.symm]
  | cons d ds ih =>
    cases es with
    | nil => cases h
    | cons e es =>
      obtain ⟨hhead, htail⟩ := List.cons.inj h
      rw [Candidate.distinct, Candidate.distinct, name_of_known hhead, kind_of_known hhead]
      split
      · exact ih htail seen
      · rw [List.map_cons, List.map_cons, hhead, ih htail]

theorem resolve?_of_known {ds es : List (Declaration Place)} (h : ds.map known = es.map known)
    (preferred : List Declaration.Kind) (name : String) :
    (Workspace.resolve? preferred name ds).map known =
      (Workspace.resolve? preferred name es).map known := by
  -- both sides look at names and kinds only, which are those of what is known
  have hview : ∀ cs : List (Declaration Place), (Workspace.resolve? preferred name cs).map known =
      (((cs.map known).filter fun d => d.name == name).find? fun d =>
        preferred.contains d.kind).or ((cs.map known).filter fun d => d.name == name).head? := by
    intro cs
    have hfilter : (cs.map known).filter (fun d => d.name == name) =
        (cs.filter fun d => d.name == name).map known := by
      rw [List.filter_map]
      refine congrArg _ (List.filter_congr fun d _ => ?_)
      simp [known]
    have hfind : (fun d => preferred.contains d.kind) ∘ known =
        fun d => preferred.contains d.kind := by
      funext d
      simp [known]
    rw [Workspace.resolve?, hfilter, List.find?_map, hfind, List.head?_map, Option.map_or]
  rw [hview, hview, h]

end Declaration

/-- What the client is shown of a suggestion. -/
def Candidate.shownBy (w : Workspace) (c : Candidate) :
    String × Candidate.Kind × Option String :=
  (c.label, c.kind, c.declaration.map fun d => Doc.markdown (w.signature d) d.doc)

theorem Candidate.shownBy_of_none {c : Candidate} (h : c.declaration = none) (w v : Workspace) :
    c.shownBy w = c.shownBy v := by
  simp [shownBy, h]

namespace Workspace

/-- The same declaration, up to the spelling of its file, or none. -/
inductive SameAnswer (w v : Workspace) :
    Option (Declaration Place) → Option (Declaration Place) → Prop where
  | none : SameAnswer w v none none
  | some {d e : Declaration Place} : d.known = e.known → d.file.isAbsolute = true →
      e.file.isAbsolute = true → w.signature d = v.signature e → SameAnswer w v (some d) (some e)

section Congr

variable {disk : Disk} {paths : List FilePath} {w v : Workspace}

/-- Two faithful workspaces with the same registered files have the same scopes, up to spelling, and
print the same signatures for what is in scope. -/
theorem scope_congr (hw : Faithful disk paths w) (hv : Faithful disk paths v)
    (hfiles : v.files = w.files) (hs : disk.Stable paths) {file : FilePath} {a : Analysis}
    (hfile : w.analysis? file = some a) (ha : a.targets ⊆ paths) (offset : Nat) :
    (w.scope disk a offset).2.map Declaration.known =
        (v.scope disk a offset).2.map Declaration.known ∧
      ∀ d ∈ (w.scope disk a offset).2, ∀ e ∈ (v.scope disk a offset).2, d.known = e.known →
        (w.scope disk a offset).1.signature d = (v.scope disk a offset).1.signature e := by
  have hfile' : v.analysis? file = some a := by rw [analysis?_congr hfiles, hfile]
  refine ⟨?_, fun d hd e he hde => ?_⟩
  · rw [known_scope hw hs ha, known_scope hv hs ha]
    simp only [means_congr hfiles]
  · have hknows := (knows_scope hw hfile ha offset d hd).1
    have hknows' := (knows_scope hv hfile' ha offset e he).1
    rw [scope_fst] at hknows hknows' ⊢
    rw [scope_fst]
    refine signature_congr (hw.loadAll ha) (hv.loadAll ha) ?_ hs hde hknows hknows'
    rw [files_loadAll, files_loadAll, hfiles]

/-- Suggestions do not depend on what was read before. -/
theorem candidates_congr (hw : Faithful disk paths w) (hv : Faithful disk paths v)
    (hfiles : v.files = w.files) (hs : disk.Stable paths) {file : FilePath} {offset : Nat}
    (hp : suggestionPaths w.analysis? file offset ⊆ paths) :
    (w.candidates disk file offset).2.map (Candidate.shownBy (w.candidates disk file offset).1) =
      (v.candidates disk file offset).2.map
        (Candidate.shownBy (v.candidates disk file offset).1) := by
  unfold candidates
  rw [analysis?_congr hfiles]
  cases ha : w.analysis? file with
  | none => rfl
  | some a =>
    cases ht : a.tokens with
    | none => simp [ht]
    | some ts =>
      simp only [ht]
      split
      · refine List.map_congr_left fun c hc => ?_
        exact Candidate.shownBy_of_none (Session.declaration_pathCandidates hc) w v
      · rename_i hfind
        have htargets : a.targets ⊆ paths := by
          simpa [suggestionPaths, ha, Option.filter, Analysis.suggestsNames, ht, hfind] using hp
        obtain ⟨hknown, hsignature⟩ := scope_congr hw hv hfiles hs ha htargets offset
        simp only [List.map_append, List.map_map]
        congr 1
        refine Declaration.map_of_known (Declaration.distinct_of_known hknown []) ?_
        intro d hd e he hde
        have hsame := hsignature d (Session.mem_distinct hd) e (Session.mem_distinct he) hde
        simp only [Function.comp_apply, Candidate.shownBy, Candidate.ofDeclaration, Option.map_some,
          hsame, Declaration.name_of_known hde, Declaration.kind_of_known hde,
          Declaration.doc_of_known hde]

/-- The declaration of a name does not depend on what was read before. -/
theorem definition?_congr (hw : Faithful disk paths w) (hv : Faithful disk paths v)
    (hfiles : v.files = w.files) (hs : disk.Stable paths) {file : FilePath} {offset : Nat}
    (hp : definitionPaths w.analysis? file offset ⊆ paths) :
    SameAnswer (w.definition? disk file offset).1 (v.definition? disk file offset).1
      (w.definition? disk file offset).2 (v.definition? disk file offset).2 := by
  unfold definition?
  rw [analysis?_congr hfiles]
  cases ha : w.analysis? file with
  | none => exact .none
  | some a =>
    cases ht : a.tokenAt? offset with
    | none =>
      simp only [Option.bind_some, ht, Option.map_none]
      exact .none
    | some found =>
      obtain ⟨t, after⟩ := found
      simp only [Option.bind_some, ht, Option.map_some]
      split
      · exact .none
      · rename_i hname
        have htargets : a.targets ⊆ paths := by
          have hnamed : a.hasNameAt offset = true := by
            simp only [Analysis.hasNameAt, ht, Option.any_some, decide_eq_true_eq]
            simpa using hname
          simpa [definitionPaths, ha, Option.filter, hnamed] using hp
        have ha' : v.analysis? file = some a := by rw [analysis?_congr hfiles, ha]
        obtain ⟨hknown, hsignature⟩ := scope_congr hw hv hfiles hs ha htargets offset
        have hfound := Declaration.resolve?_of_known hknown
          (if after.head?.any (Token.is · "(") then [.module, .function] else [.variable])
          (String.ofList t.text)
        generalize hd : resolve? _ _ (w.scope disk a offset).2 = d at hfound ⊢
        generalize he : resolve? _ _ (v.scope disk a offset).2 = e at hfound ⊢
        cases d with
        | none =>
          obtain rfl : e = none := by simpa using hfound.symm
          exact .none
        | some d =>
          cases e with
          | none => cases hfound
          | some e =>
            have hde : d.known = e.known := Option.some.inj hfound
            have hd' := Session.mem_of_resolve? hd
            have he' := Session.mem_of_resolve? he
            exact .some hde (knows_scope hw ha htargets offset d hd').2
              (knows_scope hv ha' htargets offset e he').2 (hsignature d hd' e he' hde)

end Congr

end Workspace

theorem Uri.isAbsolute_of_toFilePath? {uri : Uri} {path : FilePath}
    (h : uri.toFilePath? = some path) : path.isAbsolute = true := by
  have hdecode : ∀ cs, (decodeText ('/' :: cs)).head? = some FilePath.slash := by
    intro cs
    have hslash : Text.Utf8.encodeChar '/' = [FilePath.slash] := by decide
    unfold decodeText
    split
    · split
      · contradiction
      · rw [hslash]; rfl
    · rw [hslash]; rfl
  unfold toFilePath? at h
  split at h
  · rename_i cs hcs
    split at h
    · obtain rfl := Option.some.inj h
      have hhead := hdecode cs
      rw [FilePath.isAbsolute, hcs]
      dsimp only
      split
      · rw [List.head?_append, hhead]
        rfl
      · rw [hhead]
        rfl
    · cases h
  · cases h

/-! ## Servers with other files kept from disk -/

/-- The files kept from disk. -/
abbrev Workspace.Library := Table (List FilePath.Component) Analysis

namespace Workspace.Library

/-- The files without the one at a path, if a path is given. -/
def without (l : Library) : Option FilePath → Library
  | none => l
  | some path => l.erase path.components

theorem get?_of_without {l : Library} {dropped : Option FilePath} {k : List FilePath.Component}
    {a : Analysis} (h : (without l dropped).get? k = some a) : l.get? k = some a := by
  cases dropped with
  | none => exact h
  | some path =>
    rw [without, Table.get?_erase] at h
    split at h
    · cases h
    · exact h

end Workspace.Library

namespace Server

/-- The server with other files kept from disk. -/
def withLibrary (s : Server) (l : Workspace.Library) : Server :=
  { s with workspace := ⟨s.workspace.files, l⟩ }

theorem learnSettings_withLibrary (s : Server) (l : Workspace.Library) (answer : ClientAnswer)
    (uri : Uri) :
    (s.withLibrary l).learnSettings answer uri =
      ((s.learnSettings answer uri).1.withLibrary l, (s.learnSettings answer uri).2) := by
  show (if s.flags.configuration = true ∧ s.settings.contains uri = false then _ else _) = _
  unfold learnSettings
  split <;> rfl

theorem publish_withLibrary (s : Server) (l : Workspace.Library) (answer : ClientAnswer)
    (uri : Uri) :
    (s.withLibrary l).publish answer uri =
      ((s.publish answer uri).1.withLibrary l, (s.publish answer uri).2) := by
  have hproblems : (s.withLibrary l).problems uri = s.problems uri := rfl
  have hdocuments : ((s.learnSettings answer uri).1.withLibrary l).documents =
      (s.learnSettings answer uri).1.documents := rfl
  simp only [publish, learnSettings_withLibrary, hproblems, hdocuments]
  split <;> rfl

theorem publishAll_withLibrary (s : Server) (l : Workspace.Library) (answers : Uri → ClientAnswer)
    (uris : List Uri) :
    publishAll answers (s.withLibrary l) uris =
      ((publishAll answers s uris).1.withLibrary l, (publishAll answers s uris).2) := by
  induction uris generalizing s with
  | nil => rfl
  | cons uri uris ih => simp only [publishAll, publish_withLibrary, ih]

theorem put_withLibrary (s : Server) (l : Workspace.Library) (answer : ClientAnswer) (uri : Uri)
    (path : FilePath) (document : Document) :
    (s.withLibrary l).put answer uri path document =
      ((s.put answer uri path document).1.withLibrary (l.erase path.components),
        (s.put answer uri path document).2) :=
  publish_withLibrary { s with
    documents := s.documents.insert uri document
    workspace := s.workspace.register path document.text } (l.erase path.components) answer uri

theorem opened_withLibrary (s : Server) (answer : ClientAnswer) (uri : Uri) (text : List Char) :
    ∃ dropped, ∀ l, (s.withLibrary l).opened answer uri text =
      ((s.opened answer uri text).1.withLibrary (Workspace.Library.without l dropped),
        (s.opened answer uri text).2) := by
  have hopen : ∀ l, (s.withLibrary l).isOpen uri = s.isOpen uri := fun _ => rfl
  unfold opened
  cases uri.toFilePath? with
  | none => exact ⟨none, fun l => rfl⟩
  | some path =>
    simp only [hopen]
    split
    · exact ⟨none, fun l => rfl⟩
    · exact ⟨some path, fun l => s.put_withLibrary l answer uri path _⟩

theorem changed_withLibrary (s : Server) (answer : ClientAnswer) (uri : Uri) (text : List Char)
    (version : Int) :
    ∃ dropped, ∀ l, (s.withLibrary l).changed answer uri text version =
      ((s.changed answer uri text version).1.withLibrary (Workspace.Library.without l dropped),
        (s.changed answer uri text version).2) := by
  unfold changed
  cases uri.toFilePath? with
  | none => exact ⟨none, fun l => rfl⟩
  | some path => exact ⟨some path, fun l => s.put_withLibrary l answer uri path _⟩

theorem closed_withLibrary (s : Server) (uri : Uri) :
    ∃ dropped, ∀ l, (s.withLibrary l).closed uri =
      ((s.closed uri).1.withLibrary (Workspace.Library.without l dropped), (s.closed uri).2) := by
  have hopen : ∀ l, (s.withLibrary l).isOpen uri = s.isOpen uri := fun _ => rfl
  unfold closed
  cases uri.toFilePath? with
  | none => exact ⟨none, fun l => rfl⟩
  | some path =>
    simp only [hopen]
    split
    · exact ⟨some path, fun l => rfl⟩
    · exact ⟨none, fun l => rfl⟩

theorem configured_withLibrary (s : Server) (l : Workspace.Library) (answers : Uri → ClientAnswer)
    (payload : Json) :
    (s.withLibrary l).configured answers payload =
      ((s.configured answers payload).1.withLibrary l, (s.configured answers payload).2) := by
  have hflags : (s.withLibrary l).flags = s.flags := rfl
  unfold configured
  rw [hflags]
  dsimp only
  split
  · exact publishAll_withLibrary { s with settings := Table.empty } l answers _
  · exact publishAll_withLibrary
      { s with globalSettings := .ofJson (payload.member Settings.sectionName) } l answers _

/-- The paths that a question about a position of a document looks up. -/
def asked (s : Server)
    (paths : (FilePath → Option Analysis) → FilePath → Nat → List FilePath) (uri : Uri)
    (p : Position) : List FilePath :=
  match s.document uri with
  | .error _ => []
  | .ok (document, path) =>
    match s.readable? path with
    | none => []
    | some _ => paths s.workspace.analysis? path (document.offsetAt p)

/-- Looking up paths changes the files kept from disk alone. -/
theorem withLibrary_loadAll (s : Server) (disk : Disk) (paths : List FilePath) :
    s.withLibrary (Workspace.loadAll disk s.workspace paths).library =
      { s with workspace := Workspace.loadAll disk s.workspace paths } := by
  rw [withLibrary, ← Workspace.files_loadAll disk s.workspace paths]

theorem completion_fst (s : Server) (disk : Disk) (uri : Uri) (p : Position) :
    (s.completion disk uri p).1 = s.withLibrary
      (Workspace.loadAll disk s.workspace (s.asked Workspace.suggestionPaths uri p)).library := by
  unfold completion asked
  cases s.document uri with
  | error e => rfl
  | ok found =>
    dsimp only
    cases s.readable? found.2 with
    | none => rfl
    | some a => rw [withLibrary_loadAll, ← Workspace.candidates_fst]

theorem declaration_fst (s : Server) (disk : Disk) (uri : Uri) (p : Position) :
    (s.declaration disk uri p).1 = s.withLibrary
      (Workspace.loadAll disk s.workspace (s.asked Workspace.definitionPaths uri p)).library := by
  unfold declaration asked
  cases s.document uri with
  | error e => rfl
  | ok found =>
    dsimp only
    cases s.readable? found.2 with
    | none => rfl
    | some a => rw [withLibrary_loadAll, ← Workspace.definition?_fst]

/-! ## Replies -/

theorem items_of_shown (w : Workspace) (found : List Candidate) :
    (found.zipIdx.map fun (c, index) => completionItem w index c) =
      (found.map (Candidate.shownBy w)).zipIdx.map fun (c, index) =>
        CompletionItem.ofCandidate index c.1 c.2.1 c.2.2 := by
  rw [List.zipIdx_map, List.map_map]
  rfl

section Replies

variable {s : Server} {l : Workspace.Library} {disk : Disk} {paths : List FilePath} {uri : Uri}
  {p : Position} (hs : disk.Stable paths) (hw : Workspace.Faithful disk paths s.workspace)
  (hv : Workspace.Faithful disk paths (s.withLibrary l).workspace)

include hs hw hv

theorem completion_withLibrary (hp : s.asked Workspace.suggestionPaths uri p ⊆ paths) :
    ((s.withLibrary l).completion disk uri p).2 = (s.completion disk uri p).2 := by
  have hdocument : (s.withLibrary l).document uri = s.document uri := rfl
  unfold completion
  rw [hdocument]
  cases hd : s.document uri with
  | error e => rfl
  | ok found =>
    obtain ⟨document, path⟩ := found
    have hreadable : (s.withLibrary l).readable? path = s.readable? path := rfl
    dsimp only
    rw [hreadable]
    cases hr : s.readable? path with
    | none => rfl
    | some a =>
      have hpaths : Workspace.suggestionPaths s.workspace.analysis? path (document.offsetAt p) ⊆
          paths := by simpa only [asked, hd, hr] using hp
      simp only [items_of_shown, Workspace.candidates_congr hw hv rfl hs hpaths]

/-- Both servers fail alike or find the same declaration. -/
theorem declaration_withLibrary (hp : s.asked Workspace.definitionPaths uri p ⊆ paths) :
    (∃ e, (s.declaration disk uri p).2 = .error e ∧
        ((s.withLibrary l).declaration disk uri p).2 = .error e) ∨
      ∃ d e, (s.declaration disk uri p).2 = .ok d ∧
        ((s.withLibrary l).declaration disk uri p).2 = .ok e ∧
        Workspace.SameAnswer (s.declaration disk uri p).1.workspace
          ((s.withLibrary l).declaration disk uri p).1.workspace d e := by
  have hdocument : (s.withLibrary l).document uri = s.document uri := rfl
  unfold declaration
  rw [hdocument]
  cases hd : s.document uri with
  | error e => exact .inl ⟨e, rfl, rfl⟩
  | ok found =>
    obtain ⟨document, path⟩ := found
    have hreadable : (s.withLibrary l).readable? path = s.readable? path := rfl
    dsimp only
    rw [hreadable]
    cases hr : s.readable? path with
    | none => exact .inl ⟨_, rfl, rfl⟩
    | some a =>
      have hpaths : Workspace.definitionPaths s.workspace.analysis? path (document.offsetAt p) ⊆
          paths := by simpa only [asked, hd, hr] using hp
      exact .inr ⟨_, _, rfl, rfl, Workspace.definition?_congr hw hv rfl hs hpaths⟩

theorem definition_withLibrary (hp : s.asked Workspace.definitionPaths uri p ⊆ paths) :
    ((s.withLibrary l).definition disk uri p).2 = (s.definition disk uri p).2 := by
  unfold definition
  rcases declaration_withLibrary hs hw hv hp with ⟨e, hd, he⟩ | ⟨d, e, hd, he, hsame⟩
  · simp only [hd, he]
  · simp only [hd, he]
    cases hsame with
    | none => rfl
    | some hknown hroot hroot' _ =>
      obtain ⟨huri, hposition⟩ := Declaration.nameSpan_of_known hknown
      simp only [Location.ofDeclaration?, Uri.ofFilePath?, hroot, hroot', huri, hposition, if_true,
        Option.map_some]

theorem hover_withLibrary (hp : s.asked Workspace.definitionPaths uri p ⊆ paths) :
    ((s.withLibrary l).hover disk uri p).2 = (s.hover disk uri p).2 := by
  unfold hover
  rcases declaration_withLibrary hs hw hv hp with ⟨e, hd, he⟩ | ⟨d, e, hd, he, hsame⟩
  · simp only [hd, he, Except.map]
  · simp only [hd, he]
    cases hsame with
    | none => rfl
    | some hknown _ _ hsignature =>
      simp only [Except.map, Option.map_some, Hover.ofDeclaration, hsignature,
        Declaration.doc_of_known hknown]

end Replies

end Server

namespace Session

/-- The session with other files kept from disk. -/
def withLibrary (s : Session) (l : Workspace.Library) : Session :=
  s.withServer (s.server.withLibrary l)

/-- The steps that are questions. -/
def Step.isQuery : Step → Bool
  | .completion _ _ | .resolve _ | .symbols _ | .definition _ _ | .hover _ _ | .format _ => true
  | .start _ | .ready | .shutdown | .opened _ _ | .changed _ _ _ | .closed _ | .configured _ _
  | .foldersChanged | .answers _ | .write _ _ | .remove _ => false

/-- A step that is no question does the same whatever files are kept from disk, and drops at most
one of them. -/
theorem step_withLibrary (s : Session) {x : Step} (hx : x.isQuery = false) :
    ∃ dropped, ∀ l, (s.withLibrary l).step x =
      ((s.step x).1.withLibrary (Workspace.Library.without l dropped), (s.step x).2) := by
  cases x with
  | completion | resolve | symbols | definition | hover | format => cases hx
  | start | ready | shutdown | foldersChanged | answers | write | remove =>
    exact ⟨none, fun l => rfl⟩
  | opened uri text =>
    obtain ⟨dropped, h⟩ := s.server.opened_withLibrary s.answer uri text
    exact ⟨dropped, fun l => congrArg s.notify (h l)⟩
  | changed uri version texts =>
    simp only [step]
    split
    · rename_i text _
      obtain ⟨dropped, h⟩ := s.server.changed_withLibrary s.answer uri text version
      exact ⟨dropped, fun l => congrArg s.notify (h l)⟩
    · exact ⟨none, fun l => rfl⟩
  | closed uri =>
    obtain ⟨dropped, h⟩ := s.server.closed_withLibrary uri
    exact ⟨dropped, fun l => congrArg s.notify (h l)⟩
  | configured payload each =>
    exact ⟨none, fun l => congrArg s.notify (s.server.configured_withLibrary l _ payload)⟩

/-! ## What questions look up -/

/-- The paths that a step looks up. -/
def lookups (s : Session) : Step → List FilePath
  | .completion uri p => s.server.asked Workspace.suggestionPaths uri p
  | .definition uri p | .hover uri p => s.server.asked Workspace.definitionPaths uri p
  | _ => []

/-- The paths that a conversation looks up. -/
def lookedUp (s : Session) : List Step → List FilePath
  | [] => []
  | x :: xs => s.lookups x ++ (s.step x).1.lookedUp xs

/-- A question changes nothing but the files kept from disk. -/
theorem query_state (s : Session) {x : Step} (hx : x.isQuery = true) :
    (s.step x).1 =
      s.withLibrary (Workspace.loadAll s.disk s.server.workspace (s.lookups x)).library := by
  cases x with
  | completion uri p => exact congrArg s.withServer (Server.completion_fst s.server s.disk uri p)
  | definition uri p => exact congrArg s.withServer (Server.declaration_fst s.server s.disk uri p)
  | hover uri p => exact congrArg s.withServer (Server.declaration_fst s.server s.disk uri p)
  | resolve | symbols | format => rfl
  | start | ready | shutdown | opened | changed | closed | configured | foldersChanged | answers
  | write | remove => cases hx

/-- The reply to a question does not depend on the files kept from disk. -/
theorem query_reply {s : Session} {l : Workspace.Library} {paths : List FilePath}
    (hs : s.disk.Stable paths) (hw : Workspace.Faithful s.disk paths s.server.workspace)
    (hv : Workspace.Faithful s.disk paths (s.withLibrary l).server.workspace) {x : Step}
    (hx : x.isQuery = true) (hp : s.lookups x ⊆ paths) :
    ((s.withLibrary l).step x).2 = (s.step x).2 := by
  cases x with
  | completion uri p =>
    exact congrArg (fun r => (Reply.ofExcept .items r, []))
      (Server.completion_withLibrary hs hw hv hp)
  | definition uri p =>
    exact congrArg (fun r => (Reply.ofExcept .location r, []))
      (Server.definition_withLibrary hs hw hv hp)
  | hover uri p =>
    exact congrArg (fun r => (Reply.ofExcept .hover r, [])) (Server.hover_withLibrary hs hw hv hp)
  | resolve | symbols | format => rfl
  | start | ready | shutdown | opened | changed | closed | configured | foldersChanged | answers
  | write | remove => cases hx

/-! ## What is kept stays faithful -/

/-- A step leaves the registered files with absolute paths. -/
theorem faithful_files {paths : List FilePath} {s : Session}
    (h : Workspace.Faithful s.disk paths s.server.workspace) (x : Step) (p : FilePath)
    (a : Analysis) (ha : (s.step x).1.server.workspace.analysis? p = some a) :
    ∃ file text, file.components = p.components ∧ file.isAbsolute = true ∧
      a = .ofText file text := by
  cases step_effect s x with
  | kept hsame _ =>
    rw [Workspace.analysis?_congr hsame.files] at ha
    exact h.files p a ha
  | put uri path d _ hpath _ hfiles _ _ =>
    rw [Workspace.analysis?_congr hfiles] at ha
    by_cases hp : p.components = path.components
    · rw [Workspace.analysis?, hp, ← Workspace.analysis?, Workspace.analysis?_register_self] at ha
      exact ⟨path, d.text, hp.symm, Uri.isAbsolute_of_toFilePath? hpath, (Option.some.inj ha).symm⟩
    · rw [Workspace.analysis?_register_of_ne _ _ hp] at ha
      exact h.files p a ha
  | closed uri path _ _ _ hfiles _ =>
    rw [Workspace.analysis?_congr hfiles, Workspace.analysis?_forget] at ha
    split at ha
    · cases ha
    · exact h.files p a ha

theorem faithful_step {paths : List FilePath} {s : Session}
    (h : Workspace.Faithful s.disk paths s.server.workspace) {x : Step}
    (hp : s.lookups x ⊆ paths) :
    Workspace.Faithful s.disk paths (s.step x).1.server.workspace := by
  refine ⟨faithful_files h x, ?_⟩
  cases hx : x.isQuery with
  | true =>
    rw [query_state s hx]
    exact (h.loadAll hp).library
  | false =>
    obtain ⟨dropped, hstep⟩ := step_withLibrary s hx
    have hself : (s.step x).1 = (s.step x).1.withLibrary
        (Workspace.Library.without s.server.workspace.library dropped) :=
      congrArg Prod.fst (hstep s.server.workspace.library)
    intro p a ha
    rw [hself] at ha
    exact h.library p a (Workspace.Library.get?_of_without ha)

/-! ## Conversations without some of their questions -/

/-- A step does the same in two faithful sessions that differ in the files kept from disk alone, and
they differ in no more after it. -/
theorem step_apart {s : Session} {l : Workspace.Library} {paths : List FilePath}
    (hs : s.disk.Stable paths) (hw : Workspace.Faithful s.disk paths s.server.workspace)
    (hv : Workspace.Faithful s.disk paths (s.withLibrary l).server.workspace) {x : Step}
    (hp : s.lookups x ⊆ paths) :
    ∃ m, (s.withLibrary l).step x = ((s.step x).1.withLibrary m, (s.step x).2) := by
  cases hx : x.isQuery with
  | true =>
    refine ⟨(Workspace.loadAll s.disk (s.withLibrary l).server.workspace
      ((s.withLibrary l).lookups x)).library, Prod.ext ?_ (query_reply hs hw hv hx hp)⟩
    rw [query_state _ hx, query_state s hx]
    rfl
  | false =>
    obtain ⟨dropped, hstep⟩ := step_withLibrary s hx
    exact ⟨_, hstep l⟩

theorem lookups_withLibrary (s : Session) (l : Workspace.Library) (x : Step) :
    (s.withLibrary l).lookups x = s.lookups x := by
  cases x <;> rfl

/-- The steps that are not left out. -/
def kept (xs : List (Step × Bool)) : List Step := (xs.filter Prod.snd).map Prod.fst

/-- What the steps that are not left out brought in the whole conversation. -/
def keptOutcome (s : Session) (xs : List (Step × Bool)) : List (Reply × List Message) :=
  ((xs.zip (s.run (xs.map Prod.fst)).2).filter fun e => e.1.2).map Prod.snd

theorem run_kept {paths : List FilePath} {xs : List (Step × Bool)} {s : Session}
    (hs : s.disk.Stable paths) (hdisk : ∀ x ∈ xs, x.1.diskAfter s.disk = s.disk)
    (hquery : ∀ x ∈ xs, x.2 = false → x.1.isQuery = true)
    (hp : s.lookedUp (xs.map Prod.fst) ⊆ paths)
    (hw : Workspace.Faithful s.disk paths s.server.workspace) {l : Workspace.Library}
    (hv : Workspace.Faithful s.disk paths (s.withLibrary l).server.workspace) :
    ((s.withLibrary l).run (kept xs)).2 = s.keptOutcome xs := by
  -- the two states differ in the files kept from disk alone, and both are faithful
  induction xs generalizing s l with
  | nil => rfl
  | cons x xs ih =>
    obtain ⟨x, keep⟩ := x
    have hdisk' : (s.step x).1.disk = s.disk := by rw [disk_step, hdisk _ List.mem_cons_self]
    obtain ⟨hx, hxs⟩ := List.append_subset.1 hp
    have hw' : Workspace.Faithful (s.step x).1.disk paths (s.step x).1.server.workspace := by
      rw [hdisk']
      exact faithful_step hw hx
    have hrest : ∀ {m : Workspace.Library},
        Workspace.Faithful (s.step x).1.disk paths ((s.step x).1.withLibrary m).server.workspace →
        (((s.step x).1.withLibrary m).run (kept xs)).2 = (s.step x).1.keptOutcome xs := by
      intro m hm
      refine ih (by rwa [hdisk']) (fun y hy => ?_)
        (fun y hy => hquery y (List.mem_cons_of_mem _ hy)) hxs hw' hm
      rw [hdisk']
      exact hdisk y (List.mem_cons_of_mem _ hy)
    cases keep with
    | false =>
      have hstate := query_state s (hquery _ List.mem_cons_self rfl)
      have hsame : (s.step x).1.withLibrary l = s.withLibrary l := by
        rw [hstate]
        rfl
      rw [← hsame] at hv ⊢
      rw [← hdisk'] at hv
      exact hrest hv
    | true =>
      obtain ⟨m, hstep⟩ := step_apart hs hw hv hx
      have hm : Workspace.Faithful s.disk paths
          ((s.withLibrary l).step x).1.server.workspace :=
        faithful_step (s := s.withLibrary l) hv (by rwa [lookups_withLibrary])
      rw [hstep, ← hdisk'] at hm
      have houtcome : ((s.withLibrary l).run (kept ((x, true) :: xs))).2 =
          ((s.withLibrary l).step x).2 ::
            ((((s.withLibrary l).step x).1).run (kept xs)).2 := rfl
      rw [houtcome, hstep, hrest hm]
      rfl

/-- Questions leave no trace. In a conversation that does not change the disk, and in which the
paths that are looked up are read alike in all their spellings, any questions can be left out: the
other steps bring the same replies and messages. -/
theorem queries_pure (disk : Disk) (answer : ClientAnswer) (xs : List (Step × Bool))
    (hdisk : ∀ x ∈ xs, x.1.diskAfter disk = disk)
    (hread : disk.Stable (lookedUp ⟨.initial, disk, answer⟩ (xs.map Prod.fst)))
    (hquery : ∀ x ∈ xs, x.2 = false → x.1.isQuery = true) :
    (run ⟨.initial, disk, answer⟩ (kept xs)).2 = keptOutcome ⟨.initial, disk, answer⟩ xs :=
  run_kept (s := ⟨.initial, disk, answer⟩) (l := Workspace.empty.library) hread hdisk hquery
    (List.Subset.refl _) (Workspace.faithful_empty disk _) (Workspace.faithful_empty disk _)

/-- Two documents refer to one file by different paths. The question about the first is left out. -/
def twoSpellings : List (Step × Bool) :=
  [(.opened (rootFile 'm') (Workspace.usingText "l" ++ "y=x;".toList), true),
    (.opened (rootFile 'n') (Workspace.usingText ".//l" ++ "y=x;".toList), true),
    (.hover (rootFile 'm') ⟨0, 9⟩, false),
    (.hover (rootFile 'n') ⟨0, 12⟩, true),
    (.definition (rootFile 'n') ⟨0, 12⟩, true),
    (.completion (rootFile 'm') ⟨0, 7⟩, true)]

/-- The file is kept in different spellings with and without the question, and the other steps
bring the same. -/
theorem queries_pure_spellings :
    (((run ⟨.initial, Workspace.sharedDisk, none⟩
        (twoSpellings.map Prod.fst)).1.server.workspace.libraryAnalysis?
          Workspace.sharedFile).map Analysis.file = some (.ofString "/l") ∧
      ((run ⟨.initial, Workspace.sharedDisk, none⟩
        (kept twoSpellings)).1.server.workspace.libraryAnalysis?
          Workspace.sharedFile).map Analysis.file = some (.ofString "/.//l")) ∧
      (run ⟨.initial, Workspace.sharedDisk, none⟩ (kept twoSpellings)).2 =
        keptOutcome ⟨.initial, Workspace.sharedDisk, none⟩ twoSpellings := by
  refine ⟨by decide +kernel, queries_pure Workspace.sharedDisk none twoSpellings ?_ ?_ ?_⟩
  · simp [twoSpellings, Step.diskAfter]
  · decide +kernel
  · decide +kernel

end Session

end Scad
