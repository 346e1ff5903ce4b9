import Scad.Proofs.Workspace
import Scad.Session

/-!
# Scad.Proofs.Session.Effect

What a step of a conversation can do to the open documents, to the registered files and to the marks
the client shows. Everything else the server keeps is no part of it.

* `Session.lastPublished`: the marks of a document that the client was told last.
* `Server.shown`: the marks that belong to the state of the server.
* `Session.Effect`: a step keeps documents and files, puts one document or closes one; what it
  publishes besides belongs to the new state. `Session.step_effect` says that this is all.
* `Effect.document_elsewhere`, `Effect.analysis_elsewhere`, `Effect.marks_elsewhere`: what a step
  does to the documents and files it is not about.
-/

namespace Scad

namespace Server

/-- The two states have the same documents and the same registered files. -/
structure Same (s t : Server) : Prop where
  documents : t.documents = s.documents
  files : t.workspace.files = s.workspace.files

theorem Same.refl (s : Server) : Same s s := ⟨rfl, rfl⟩

theorem Same.trans {s t r : Server} (h : Same s t) (h' : Same t r) : Same s r :=
  ⟨h'.documents.trans h.documents, h'.files.trans h.files⟩

theorem same_learnSettings (s : Server) (answer : ClientAnswer) (uri : Uri) :
    Same s (s.learnSettings answer uri).1 := by
  unfold learnSettings
  split
  · exact ⟨rfl, rfl⟩
  · exact .refl s

theorem same_publish (s : Server) (answer : ClientAnswer) (uri : Uri) :
    Same s (s.publish answer uri).1 := by
  unfold publish
  dsimp only
  split
  · exact same_learnSettings s answer uri
  · exact same_learnSettings s answer uri

theorem same_completion (s : Server) (disk : Disk) (uri : Uri) (p : Position) :
    Same s (s.completion disk uri p).1 := by
  unfold completion
  split
  · exact .refl s
  · split
    · exact .refl s
    · exact ⟨rfl, Workspace.files_candidates ..⟩

theorem same_declaration (s : Server) (disk : Disk) (uri : Uri) (p : Position) :
    Same s (s.declaration disk uri p).1 := by
  unfold declaration
  split
  · exact .refl s
  · split
    · exact .refl s
    · exact ⟨rfl, Workspace.files_definition? ..⟩

/-- The marks that belong to the state of a document, and its version; none if it is not open. -/
def shown (s : Server) (uri : Uri) : Option (List Diagnostic × Option Int) :=
  (s.documents.get? uri).map fun d =>
    ((s.problems uri).map (Diagnostic.ofProblem d), some d.version)

theorem Same.shown {s t : Server} (h : Same s t) (uri : Uri) : t.shown uri = s.shown uri := by
  have ha : t.workspace.analysis? = s.workspace.analysis? :=
    funext fun path => Workspace.analysis?_congr h.files path
  simp only [Server.shown, Server.problems, h.documents, ha]

end Server

/-! ## Marks the client was told -/

/-- The marks of the document `uri` that a message tells, and their version. -/
def Message.marks? (uri : Uri) : Message → Option (List Diagnostic × Option Int)
  | .publish u diagnostics version => if u = uri then some (diagnostics, version) else none
  | .register | .configuration _ => none

namespace Session

/-- The marks of a document that were told last. -/
def lastPublished (uri : Uri) (sent : List Message) : Option (List Diagnostic × Option Int) :=
  (sent.filterMap (Message.marks? uri)).getLast?

theorem lastPublished_append (uri : Uri) (sent more : List Message) :
    lastPublished uri (sent ++ more) = (lastPublished uri more).or (lastPublished uri sent) := by
  rw [lastPublished, List.filterMap_append, List.getLast?_append]
  rfl

/-- Requests for settings tell nothing. -/
theorem lastPublished_learnSettings (s : Server) (answer : ClientAnswer) (uri v : Uri) :
    lastPublished v (s.learnSettings answer uri).2 = none := by
  unfold Server.learnSettings
  split <;> rfl

/-- Publishing a document tells its marks and nothing of other documents. -/
theorem lastPublished_publish (s : Server) (answer : ClientAnswer) (uri v : Uri) :
    lastPublished v (s.publish answer uri).2 = if v = uri then s.shown uri else none := by
  have hdoc := (Server.same_learnSettings s answer uri).documents
  have hset := lastPublished_learnSettings s answer uri v
  unfold Server.publish
  dsimp only
  rw [hdoc]
  cases hd : s.documents.get? uri with
  | none => simp [Server.shown, hd, hset]
  | some d =>
    rw [lastPublished_append, hset]
    by_cases hv : v = uri
    · simp [lastPublished, Message.marks?, Server.shown, hd, hv]
    · simp [lastPublished, Message.marks?, hv, Ne.symm hv]

/-- What is told belongs to the state `t`. -/
def Tells (t : Server) (sent : List Message) : Prop :=
  ∀ uri marks, lastPublished uri sent = some marks → t.shown uri = some marks

theorem tells_of_silent {t : Server} {sent : List Message}
    (h : ∀ uri, lastPublished uri sent = none) : Tells t sent := by
  intro uri marks hm
  rw [h uri] at hm
  cases hm

theorem tells_publishAll (answers : Uri → ClientAnswer) (s : Server) (uris : List Uri) :
    Server.Same s (Server.publishAll answers s uris).1 ∧
      Tells s (Server.publishAll answers s uris).2 := by
  induction uris generalizing s with
  | nil => exact ⟨.refl s, tells_of_silent fun _ => rfl⟩
  | cons uri uris ih =>
    have hsame := Server.same_publish s (answers uri) uri
    obtain ⟨h1, h2⟩ := ih (s.publish (answers uri) uri).1
    refine ⟨hsame.trans h1, fun v marks hm => ?_⟩
    simp only [Server.publishAll] at hm
    rw [lastPublished_append] at hm
    cases hl : lastPublished v
        (Server.publishAll answers (s.publish (answers uri) uri).1 uris).2 with
    | some m =>
      rw [hl] at hm
      cases hm
      rw [← hsame.shown]
      exact h2 v _ hl
    | none =>
      rw [hl, Option.none_or, lastPublished_publish] at hm
      split at hm
      · rename_i hv
        subst hv
        exact hm
      · cases hm

/-! ## Steps -/

/-- The document that a step opens, changes or closes. -/
def Step.edited? : Step → Option Uri
  | .opened uri _ | .changed uri _ _ | .closed uri => some uri
  | _ => none

/-- The document that a step is about. -/
def Step.uri? : Step → Option Uri
  | .opened uri _ | .changed uri _ _ | .closed uri | .completion uri _ | .symbols uri
  | .definition uri _ | .hover uri _ | .format uri => some uri
  | _ => none

/-- The document of a file in the root directory with a name of one letter. -/
def rootFile (c : Char) : Uri := ⟨"file".toList, true, [], none, none, ['/', c], none, none⟩

theorem Step.uri?_of_edited? {x : Step} {uri : Uri} (h : x.edited? = some uri) :
    x.uri? = some uri := by
  cases x <;> first | exact h | cases h

/-- What the step `x` does to the server state `s`, if `t` is the state after it. -/
inductive Effect (x : Step) (s t : Server) (sent : List Message) : Prop where
  | kept : Server.Same s t → Tells t sent → Effect x s t sent
  | put (uri : Uri) (path : FilePath) (d : Document) : x.edited? = some uri →
      uri.toFilePath? = some path → t.documents = s.documents.insert uri d →
      t.workspace.files = (s.workspace.register path d.text).files → Tells t sent →
      lastPublished uri sent = t.shown uri → Effect x s t sent
  | closed (uri : Uri) (path : FilePath) : x.edited? = some uri → uri.toFilePath? = some path →
      t.documents = s.documents.erase uri → t.workspace.files = (s.workspace.forget path).files →
      sent = [.publish uri [] none] → Effect x s t sent

namespace Effect

variable {x : Step} {s t : Server} {sent : List Message}

theorem document_elsewhere (he : Effect x s t sent) {uri : Uri} (hx : x.edited? ≠ some uri) :
    t.documents.get? uri = s.documents.get? uri := by
  cases he with
  | kept hsame _ => rw [hsame.documents]
  | put v _ _ hv _ hdocs _ _ _ =>
    have hne : uri ≠ v := fun he => hx (he ▸ hv)
    rw [hdocs, Table.get?_insert_of_ne _ _ hne]
  | closed v _ hv _ hdocs _ _ =>
    have hne : uri ≠ v := fun he => hx (he ▸ hv)
    rw [hdocs, Table.get?_erase, if_neg hne]

theorem analysis_elsewhere (he : Effect x s t sent) {path : FilePath}
    (hx : ∀ v, x.edited? = some v → ∀ q, v.toFilePath? = some q → q.components ≠ path.components) :
    t.workspace.analysis? path = s.workspace.analysis? path := by
  cases he with
  | kept hsame _ => exact Workspace.analysis?_congr hsame.files path
  | put v q _ hv hq _ hfiles _ _ =>
    rw [Workspace.analysis?_congr hfiles]
    exact Workspace.analysis?_register_of_ne _ _ (hx v hv q hq).symm
  | closed v q hv hq _ hfiles _ =>
    rw [Workspace.analysis?_congr hfiles, Workspace.analysis?_forget, if_neg (hx v hv q hq).symm]

theorem marks_elsewhere (he : Effect x s t sent) {uri : Uri} (hx : x.edited? ≠ some uri)
    (marks : List Diagnostic × Option Int) (hm : lastPublished uri sent = some marks) :
    t.shown uri = some marks := by
  cases he with
  | kept _ htells => exact htells uri marks hm
  | put _ _ _ _ _ _ _ htells _ => exact htells uri marks hm
  | closed v _ hv _ _ _ hsent =>
    have hne : v ≠ uri := fun he => hx (he ▸ hv)
    rw [hsent] at hm
    simp [lastPublished, Message.marks?, hne] at hm

end Effect

/-- A step that keeps documents and files and tells nothing. -/
theorem quiet_effect {x : Step} {s t : Server} (h : Server.Same s t) : Effect x s t [] :=
  .kept h (tells_of_silent fun _ => rfl)

theorem put_effect {x : Step} (s : Server) (answer : ClientAnswer) {uri : Uri} {path : FilePath}
    (d : Document) (hx : x.edited? = some uri) (hp : uri.toFilePath? = some path) :
    Effect x s (s.put answer uri path d).1 (s.put answer uri path d).2 := by
  let r : Server := { s with
    documents := s.documents.insert uri d
    workspace := s.workspace.register path d.text }
  have hput : s.put answer uri path d = r.publish answer uri := rfl
  have hsame := Server.same_publish r answer uri
  rw [hput]
  refine .put uri path d hx hp hsame.documents hsame.files (fun v marks hm => ?_) ?_
  · rw [lastPublished_publish] at hm
    split at hm
    · rename_i hv
      rw [hsame.shown, hv]
      exact hm
    · cases hm
  · rw [lastPublished_publish, if_pos rfl, hsame.shown]

theorem opened_effect (s : Server) (answer : ClientAnswer) (uri : Uri) (text : List Char) :
    Effect (.opened uri text) s (s.opened answer uri text).1 (s.opened answer uri text).2 := by
  unfold Server.opened
  split
  · exact quiet_effect (.refl s)
  · rename_i hp
    split
    · exact quiet_effect (.refl s)
    · exact put_effect s answer _ rfl hp

theorem changed_effect (s : Server) (answer : ClientAnswer) (uri : Uri) (text : List Char)
    (version : Int) (texts : List (List Char)) :
    Effect (.changed uri version texts) s (s.changed answer uri text version).1
      (s.changed answer uri text version).2 := by
  unfold Server.changed
  split
  · exact quiet_effect (.refl s)
  · rename_i hp
    exact put_effect s answer _ rfl hp

theorem closed_effect (s : Server) (uri : Uri) :
    Effect (.closed uri) s (s.closed uri).1 (s.closed uri).2 := by
  unfold Server.closed
  split
  · exact quiet_effect (.refl s)
  · rename_i path hp
    split
    · exact .closed uri path rfl hp rfl rfl rfl
    · exact quiet_effect (.refl s)

/-- Documents are published again from a state that differs in its settings at most. -/
theorem publishAll_effect {x : Step} {s t : Server} (h : Server.Same s t)
    (answers : Uri → ClientAnswer) (uris : List Uri) :
    Effect x s (Server.publishAll answers t uris).1 (Server.publishAll answers t uris).2 := by
  obtain ⟨hsame, htold⟩ := tells_publishAll answers t uris
  exact .kept (h.trans hsame) fun uri marks hm => (hsame.shown uri).trans (htold uri marks hm)

theorem configured_effect {x : Step} (s : Server) (answers : Uri → ClientAnswer) (payload : Json) :
    Effect x s (s.configured answers payload).1 (s.configured answers payload).2 := by
  unfold Server.configured
  dsimp only
  split
  · refine publishAll_effect ?_ answers _
    exact ⟨rfl, rfl⟩
  · refine publishAll_effect ?_ answers _
    exact ⟨rfl, rfl⟩

/-- Every step keeps documents and files, puts one document or closes one. -/
theorem step_effect (s : Session) (x : Step) :
    Effect x s.server (s.step x).1.server (s.step x).2.2 := by
  cases x with
  | start flags => exact quiet_effect ⟨rfl, rfl⟩
  | ready =>
    refine .kept (.refl _) (tells_of_silent fun uri => ?_)
    simp only [step]
    split <;> rfl
  | opened uri text => exact opened_effect s.server s.answer uri text
  | changed uri version texts =>
    simp only [step]
    split
    · exact changed_effect s.server s.answer uri _ version texts
    · exact quiet_effect (.refl _)
  | closed uri => exact closed_effect s.server uri
  | configured payload each => exact configured_effect s.server _ payload
  | completion uri p => exact quiet_effect (Server.same_completion ..)
  | definition uri p => exact quiet_effect (Server.same_declaration ..)
  | hover uri p => exact quiet_effect (Server.same_declaration ..)
  | shutdown | foldersChanged | resolve | symbols | format | answers | write | remove =>
    exact quiet_effect (.refl _)

/-- The disk after a step. -/
def Step.diskAfter (disk : Disk) : Step → Disk
  | .write path entry => disk.write path entry
  | .remove path => disk.remove path
  | _ => disk

theorem disk_step (s : Session) (x : Step) : (s.step x).1.disk = x.diskAfter s.disk := by
  cases x with
  | changed =>
    simp only [step]
    split <;> rfl
  | _ => rfl

/-! ## Runs -/

theorem run_append (s : Session) (xs ys : List Step) :
    (s.run (xs ++ ys)).1 = ((s.run xs).1.run ys).1 := by
  induction xs generalizing s with
  | nil => rfl
  | cons x xs ih => exact ih (s.step x).1

/-- All messages that the steps of a run sent. -/
def messages (outcome : List (Reply × List Message)) : List Message := outcome.flatMap Prod.snd

/-- A property of the server and the messages sent so far that every step of `xs` keeps holds after
the run of `xs`. -/
theorem run_induction (P : Server → List Message → Prop) {xs : List Step}
    (hstep : ∀ x ∈ xs, ∀ s t before sent, P s before → Effect x s t sent → P t (before ++ sent))
    (s : Session) (h : P s.server []) : P (s.run xs).1.server (messages (s.run xs).2) := by
  -- the messages sent before the run are carried along
  have hall : ∀ before, P s.server before →
      P (s.run xs).1.server (before ++ messages (s.run xs).2) := by
    clear h
    induction xs generalizing s with
    | nil =>
      intro before h
      simpa [run, messages] using h
    | cons x xs ih =>
      intro before h
      have h1 := hstep x (by simp) _ _ _ _ h (step_effect s x)
      have h2 := ih (fun y hy => hstep y (by simp [hy])) (s.step x).1 _ h1
      simpa [run, messages] using h2
  simpa using hall [] h

end Session
end Scad
