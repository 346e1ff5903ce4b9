import Scad.Proofs.Session.Plain

/-!
# Scad.Proofs.Session.Independent

Documents that are different files do not disturb each other.

* `Session.told`: the marks of a document that some messages tell, all of them in order.
* `Session.Agree`: two states that cannot be told apart by looking at one document, although another
  document was edited in only one of them.
* `Session.documents_independent`: the steps that edit a document can be left out of a conversation
  without a trace in what the client learns of a document that is another file.

The store of documents goes by uris and the workspace by files, so two uris of one file do disturb
each other: `Session.alias_disturbs`.
-/

namespace Scad

namespace Table

variable {κ α : Type} [DecidableEq κ]

theorem mem_keys_iff {t : Table κ α} {k : κ} : k ∈ t.keys ↔ (t.get? k).isSome = true := by
  simp [keys, get?]

theorem keys_erase (t : Table κ α) (k : κ) : (t.erase k).keys = t.keys.filter (· ≠ k) := by
  simp only [keys, erase, List.filter_map]
  rfl

theorem nodup_keys_erase {t : Table κ α} (h : t.keys.Nodup) (k : κ) : (t.erase k).keys.Nodup := by
  rw [keys_erase]
  exact h.filter _

theorem nodup_keys_insert {t : Table κ α} (h : t.keys.Nodup) (k : κ) (a : α) :
    (t.insert k a).keys.Nodup := by
  have hkeys : (t.insert k a).keys = k :: (t.erase k).keys := rfl
  rw [hkeys, List.nodup_cons]
  refine ⟨?_, nodup_keys_erase h k⟩
  simp [keys_erase]

end Table

namespace Session

/-! ## All that is told of a document -/

/-- The marks of a document that the messages tell, in order. -/
def told (uri : Uri) (sent : List Message) : List (List Diagnostic × Option Int) :=
  sent.filterMap (Message.marks? uri)

theorem told_append (uri : Uri) (sent more : List Message) :
    told uri (sent ++ more) = told uri sent ++ told uri more :=
  List.filterMap_append

theorem told_learnSettings (s : Server) (answer : ClientAnswer) (w v : Uri) :
    told v (s.learnSettings answer w).2 = [] := by
  unfold Server.learnSettings
  split <;> rfl

theorem told_publish (s : Server) (answer : ClientAnswer) (w v : Uri) :
    told v (s.publish answer w).2 = if w = v then (s.shown w).toList else [] := by
  have hdoc := (Server.same_learnSettings s answer w).documents
  have hset := told_learnSettings s answer w v
  unfold Server.publish
  dsimp only
  rw [hdoc]
  cases hd : s.documents.get? w with
  | none => simp [Server.shown, hd, hset]
  | some d =>
    rw [told_append, hset]
    by_cases hv : w = v
    · subst hv
      simp [told, Message.marks?, Server.shown, hd]
    · simp [told, Message.marks?, hv]

theorem told_publishAll (answers : Uri → ClientAnswer) (s : Server) (uris : List Uri) (v : Uri) :
    told v (Server.publishAll answers s uris).2 =
      (uris.filter (· = v)).flatMap fun _ => (s.shown v).toList := by
  induction uris generalizing s with
  | nil => rfl
  | cons w uris ih =>
    have hshown := (Server.same_publish s (answers w) w).shown v
    simp only [Server.publishAll, told_append, told_publish, ih, hshown]
    by_cases hv : w = v
    · simp [hv]
    · simp [hv]

/-- When the settings change, every open document is told once. -/
theorem told_configured {s : Server} (h : s.documents.keys.Nodup) (answers : Uri → ClientAnswer)
    (payload : Json) (v : Uri) :
    told v (s.configured answers payload).2 = (s.shown v).toList := by
  have hall : ∀ t : Server, Server.Same s t →
      told v (Server.publishAll answers t t.openUris).2 = (s.shown v).toList := by
    intro t hsame
    have hperm : t.openUris.Perm s.documents.keys := by
      rw [Server.openUris, hsame.documents]
      exact List.mergeSort_perm _ _
    have hnodup : t.openUris.Nodup := hperm.nodup_iff.2 h
    rw [told_publishAll, hsame.shown]
    by_cases hv : v ∈ t.openUris
    · have hone : t.openUris.filter (· = v) = [v] := by
        rw [List.filter_eq, hnodup.count, if_pos hv]
        rfl
      simp [hone]
    · have hclosed : s.documents.get? v = none := by
        rw [hperm.mem_iff, Table.mem_keys_iff] at hv
        simpa using hv
      simp [Server.shown, hclosed]
  unfold Server.configured
  dsimp only
  split
  · exact hall _ ⟨rfl, rfl⟩
  · exact hall _ ⟨rfl, rfl⟩

/-! ## Two conversations -/

/-- The states agree in all but the document `u` and in the file of `v`. -/
structure Agree (u v : Uri) (s t : Session) : Prop where
  disk : t.disk = s.disk
  documents : ∀ w, w ≠ u → t.server.documents.get? w = s.server.documents.get? w
  analysis : ∀ q, v.toFilePath? = some q →
    t.server.workspace.analysis? q = s.server.workspace.analysis? q

section Agree

variable {u v : Uri} {s t : Session}

theorem Agree.alike (h : Agree u v s t) (hne : u ≠ v) : Alike v s.server t.server :=
  ⟨h.documents v hne.symm, h.analysis⟩

theorem Agree.isOpen (h : Agree u v s t) {w : Uri} (hw : w ≠ u) :
    t.server.isOpen w = s.server.isOpen w := by
  rw [Server.isOpen, Server.isOpen, Table.contains, Table.contains, h.documents w hw]

theorem Agree.put (h : Agree u v s t) (w : Uri) (p : FilePath) (d : Document) :
    Agree u v (s.withServer (s.server.put s.answer w p d).1)
      (t.withServer (t.server.put t.answer w p d).1) := by
  have hs := Server.same_publish { s.server with
    documents := s.server.documents.insert w d
    workspace := s.server.workspace.register p d.text } s.answer w
  have ht := Server.same_publish { t.server with
    documents := t.server.documents.insert w d
    workspace := t.server.workspace.register p d.text } t.answer w
  refine ⟨h.disk, fun x hx => ?_, fun q hq => ?_⟩
  · simp only [withServer, Server.put, hs.documents, ht.documents]
    by_cases hw : x = w
    · rw [hw, Table.get?_insert_self, Table.get?_insert_self]
    · rw [Table.get?_insert_of_ne _ _ hw, Table.get?_insert_of_ne _ _ hw, h.documents x hx]
  · simp only [withServer, Server.put]
    rw [Workspace.analysis?_congr hs.files, Workspace.analysis?_congr ht.files]
    by_cases hp : q.components = p.components
    · simp only [Workspace.analysis?, Workspace.register, hp, Table.get?_insert_self]
    · rw [Workspace.analysis?_register_of_ne _ _ hp, Workspace.analysis?_register_of_ne _ _ hp,
        h.analysis q hq]

theorem Agree.opened (h : Agree u v s t) {w : Uri} (hw : w ≠ u) (text : List Char) :
    Agree u v (s.withServer (s.server.opened s.answer w text).1)
      (t.withServer (t.server.opened t.answer w text).1) := by
  simp only [Server.opened, h.isOpen hw]
  split
  · exact h
  · split
    · exact h
    · exact h.put w _ _

theorem Agree.changed (h : Agree u v s t) (w : Uri) (text : List Char) (version : Int) :
    Agree u v (s.withServer (s.server.changed s.answer w text version).1)
      (t.withServer (t.server.changed t.answer w text version).1) := by
  simp only [Server.changed]
  split
  · exact h
  · exact h.put w _ _

theorem Agree.closed (h : Agree u v s t) {w : Uri} (hw : w ≠ u) :
    Agree u v (s.withServer (s.server.closed w).1) (t.withServer (t.server.closed w).1) := by
  simp only [Server.closed, h.isOpen hw]
  split
  · exact h
  · rename_i p hp
    split
    · refine ⟨h.disk, fun x hx => ?_, fun q hq => ?_⟩
      · simp only [withServer, Table.get?_erase, h.documents x hx]
      · simp only [withServer, Workspace.analysis?_forget, h.analysis q hq]
    · exact h

theorem disk_of_edited {x : Step} {w : Uri} (hx : x.edited? = some w) (s : Session) :
    (s.step x).1.disk = s.disk := by
  rw [disk_step]
  cases x with
  | opened | changed | closed => rfl
  | _ => cases hx

/-- A step that edits `u` in only one of two states leaves them in agreement. -/
theorem Agree.left (h : Agree u v s t) (hfile : ¬ SameFile u v) {x : Step}
    (hx : x.edited? = some u) : Agree u v (s.step x).1 t := by
  have heffect := step_effect s x
  refine ⟨h.disk.trans (disk_of_edited hx s).symm, fun w hw => ?_, fun q hq => ?_⟩
  · have helse : x.edited? ≠ some w := fun he => hw (Option.some.inj (he.symm.trans hx))
    exact (h.documents w hw).trans (heffect.document_elsewhere helse).symm
  · refine (h.analysis q hq).trans (heffect.analysis_elsewhere fun w hw p hp he => ?_).symm
    obtain rfl : u = w := Option.some.inj (hx.symm.trans hw)
    exact hfile ⟨p, q, hp, hq, he⟩

/-- Steps that edit no document leave two states in agreement. -/
theorem Agree.both (h : Agree u v s t) {x : Step} (hx : x.edited? = none)
    (hdisk : (t.step x).1.disk = (s.step x).1.disk) : Agree u v (s.step x).1 (t.step x).1 := by
  have hs := step_effect s x
  have ht := step_effect t x
  have helse : ∀ w, x.edited? ≠ some w := by simp [hx]
  refine ⟨hdisk, fun w hw => ?_, fun q hq => ?_⟩
  · rw [ht.document_elsewhere (helse w), hs.document_elsewhere (helse w), h.documents w hw]
  · rw [ht.analysis_elsewhere fun w hw => absurd hw (helse w),
      hs.analysis_elsewhere fun w hw => absurd hw (helse w), h.analysis q hq]

/-- A step that does not edit `u` leaves two states in agreement. -/
theorem Agree.step (h : Agree u v s t) {x : Step} (hx : x.edited? ≠ some u) :
    Agree u v (s.step x).1 (t.step x).1 := by
  cases x with
  | opened w text => exact h.opened (fun he => hx (congrArg some he)) text
  | changed w version texts =>
    simp only [Session.step]
    split
    · exact h.changed w _ version
    · exact h
  | closed w => exact h.closed fun he => hx (congrArg some he)
  | write path entry => exact h.both rfl (by simp only [Session.step, h.disk])
  | remove path => exact h.both rfl (by simp only [Session.step, h.disk])
  | _ => exact h.both rfl h.disk

end Agree

/-! ## What is learnt of a document -/

/-- What a step of a conversation shows of the document `v`: the reply, if the step is about it, and
the marks told. -/
def view (v : Uri) (e : Step × Reply × List Message) :
    Option Reply × List (List Diagnostic × Option Int) :=
  (if e.1.uri? = some v then some e.2.1 else none, told v e.2.2)

/-- Only a step about `v` shows its reply. -/
theorem view_congr {v : Uri} {x : Step} {r r' : Reply} {sent sent' : List Message}
    (hr : x.uri? = some v → r = r') (hsent : told v sent = told v sent') :
    view v (x, r, sent) = view v (x, r', sent') := by
  unfold view
  rw [hsent]
  split
  · rename_i hv
    rw [hr hv]
  · rfl

theorem told_put (s : Server) (answer : ClientAnswer) (w v : Uri) (p : FilePath) (d : Document) :
    told v (s.put answer w p d).2 =
      if w = v then ((s.put answer w p d).1.shown v).toList else [] := by
  have hsame := Server.same_publish { s with
    documents := s.documents.insert w d
    workspace := s.workspace.register p d.text } answer w
  rw [Server.put, told_publish]
  split
  · rename_i hw
    rw [hsame.shown, hw]
  · rfl

/-- A step that edits one document tells nothing of another. -/
theorem told_of_edited {u v : Uri} (hne : u ≠ v) {x : Step} (hx : x.edited? = some u)
    (s : Session) : told v (s.step x).2.2 = [] := by
  cases x with
  | opened w text =>
    cases hx
    simp only [step, notify, Server.opened]
    split
    · rfl
    · split
      · rfl
      · rw [told_put, if_neg hne]
  | changed w version texts =>
    cases hx
    simp only [step]
    split
    · simp only [notify, Server.changed]
      split
      · rfl
      · rw [told_put, if_neg hne]
    · rfl
  | closed w =>
    cases hx
    simp only [step, notify, Server.closed]
    split
    · rfl
    · split
      · simp [told, Message.marks?, hne]
      · rfl
  | _ => cases hx

section Views

variable {u v : Uri} {s t : Session}

theorem Agree.told_put (h : Agree u v s t) (hne : u ≠ v) (w : Uri) (p : FilePath) (d : Document) :
    told v (t.server.put t.answer w p d).2 = told v (s.server.put s.answer w p d).2 := by
  have hshown : (t.server.put t.answer w p d).1.shown v = (s.server.put s.answer w p d).1.shown v :=
    ((h.put w p d).alike hne).shown
  rw [Session.told_put, Session.told_put, hshown]

theorem Agree.told_opened (h : Agree u v s t) (hne : u ≠ v) {w : Uri} (hw : w ≠ u)
    (text : List Char) :
    told v (t.server.opened t.answer w text).2 = told v (s.server.opened s.answer w text).2 := by
  simp only [Server.opened, h.isOpen hw]
  split
  · rfl
  · split
    · rfl
    · exact h.told_put hne w _ _

theorem Agree.told_changed (h : Agree u v s t) (hne : u ≠ v) (w : Uri) (text : List Char)
    (version : Int) :
    told v (t.server.changed t.answer w text version).2 =
      told v (s.server.changed s.answer w text version).2 := by
  simp only [Server.changed]
  split
  · rfl
  · exact h.told_put hne w _ _

theorem Agree.told_closed (h : Agree u v s t) {w : Uri} (hw : w ≠ u) :
    told v (t.server.closed w).2 = told v (s.server.closed w).2 := by
  simp only [Server.closed, h.isOpen hw]
  split
  · rfl
  · split <;> rfl

/-- A step that does not edit `u` shows the same of `v` in two states that agree. -/
theorem Agree.view_step (h : Agree u v s t) (hne : u ≠ v) (hp : Plain v s.server)
    (hs : s.server.documents.keys.Nodup) (ht : t.server.documents.keys.Nodup) {x : Step}
    (hx : x.edited? ≠ some u) : view v (x, (t.step x).2) = view v (x, (s.step x).2) := by
  have halike := h.alike hne
  cases x with
  | opened w text =>
    exact congrArg (Prod.mk _) (h.told_opened hne (fun he => hx (congrArg some he)) text)
  | changed w version texts =>
    simp only [Session.step]
    split
    · exact congrArg (Prod.mk _) (h.told_changed hne w _ version)
    · rfl
  | closed w => exact congrArg (Prod.mk _) (h.told_closed fun he => hx (congrArg some he))
  | configured payload each =>
    refine congrArg (Prod.mk _) ?_
    simp only [Session.step, notify, told_configured hs, told_configured ht, halike.shown]
  | completion w p =>
    refine view_congr (fun hw => ?_) rfl
    cases hw
    simp only [h.disk, halike.completion hp]
  | definition w p =>
    refine view_congr (fun hw => ?_) rfl
    cases hw
    simp only [h.disk, halike.definition hp]
  | hover w p =>
    refine view_congr (fun hw => ?_) rfl
    cases hw
    simp only [h.disk, halike.hover hp]
  | symbols w =>
    refine view_congr (fun hw => ?_) rfl
    cases hw
    simp only [halike.symbols]
  | format w =>
    refine view_congr (fun hw => ?_) rfl
    cases hw
    simp only [halike.format]
  | ready =>
    refine congrArg (Prod.mk _) ?_
    have hsilent : ∀ b : Bool, told v (if b then [Message.register] else []) = [] := by
      intro b
      cases b <;> rfl
    exact (hsilent _).trans (hsilent _).symm
  | start | shutdown | foldersChanged | resolve | answers | write | remove => rfl

end Views

theorem nodup_step {s : Session} (h : s.server.documents.keys.Nodup) (x : Step) :
    (s.step x).1.server.documents.keys.Nodup := by
  cases step_effect s x with
  | kept hsame _ => rwa [hsame.documents]
  | put uri _ d _ _ hdocs _ _ _ =>
    rw [hdocs]
    exact Table.nodup_keys_insert h uri d
  | closed uri _ _ _ hdocs _ _ =>
    rw [hdocs]
    exact Table.nodup_keys_erase h uri

/-- The steps of a conversation with what each of them brought. -/
def trace (s : Session) (xs : List Step) : List (Step × Reply × List Message) :=
  xs.zip (s.run xs).2

theorem trace_cons (s : Session) (x : Step) (xs : List Step) :
    s.trace (x :: xs) = (x, (s.step x).2) :: (s.step x).1.trace xs := rfl

/-- Whether a step does something other than edit the document `u`. -/
def Step.spares (u : Uri) (x : Step) : Bool := x.edited? ≠ some u

/-- Two conversations from states that agree, one with and one without the steps that edit `u`. -/
theorem view_trace {u v : Uri} (hne : u ≠ v) (hfile : ¬ SameFile u v) {xs : List Step}
    (hxs : ∀ x ∈ xs, ∀ w, x.edited? = some w → SameFile w v → ∀ text ∈ x.texts, ¬ Refers text)
    {s t : Session} (h : Agree u v s t) (hp : Plain v s.server)
    (hs : s.server.documents.keys.Nodup) (ht : t.server.documents.keys.Nodup) :
    (t.trace (xs.filter (Step.spares u))).map (view v) =
        ((s.trace xs).filter fun e => e.1.spares u).map (view v) ∧
      ∀ e ∈ s.trace xs, e.1.edited? = some u → told v e.2.2 = [] := by
  -- a step on `u` moves one of the two states, every other step both; they agree throughout
  induction xs generalizing s t with
  | nil => exact ⟨rfl, fun e he => by cases he⟩
  | cons x xs ih =>
    have hxs' : ∀ y ∈ xs, ∀ w, y.edited? = some w → SameFile w v → ∀ text ∈ y.texts,
        ¬ Refers text := fun y hy => hxs y (List.mem_cons_of_mem x hy)
    have hp' := plain_step hp (hxs x List.mem_cons_self)
    by_cases hx : x.edited? = some u
    · have hspares : x.spares u = false := by simp [Step.spares, hx]
      obtain ⟨h1, h2⟩ := ih hxs' (h.left hfile hx) hp' (nodup_step hs x) ht
      refine ⟨?_, ?_⟩
      · rw [trace_cons, List.filter_cons_of_neg (by simp [hspares]),
          List.filter_cons_of_neg (by simp [hspares]), h1]
      · intro e he heu
        rw [trace_cons] at he
        rcases List.mem_cons.1 he with rfl | he
        · exact told_of_edited hne hx s
        · exact h2 e he heu
    · have hspares : x.spares u = true := by simp [Step.spares, hx]
      obtain ⟨h1, h2⟩ := ih hxs' (h.step hx) hp' (nodup_step hs x) (nodup_step ht x)
      refine ⟨?_, ?_⟩
      · rw [trace_cons, List.filter_cons_of_pos (by simp [hspares]), trace_cons,
          List.filter_cons_of_pos (by simp [hspares]), List.map_cons, List.map_cons, h1,
          h.view_step hne hp hs ht hx]
      · intro e he heu
        rw [trace_cons] at he
        rcases List.mem_cons.1 he with rfl | he
        · exact absurd heu hx
        · exact h2 e he heu

/-- Documents that are different files are independent. In every conversation in which the file of
`v` is given no text that refers to another file, the steps that edit a document `u` of another file
can be left out: every other step replies the same about `v` and tells the same marks of it, and the
steps left out told none. -/
theorem documents_independent (disk : Disk) (answer : ClientAnswer) (xs : List Step) (u v : Uri)
    (hne : u ≠ v) (hfile : ¬ SameFile u v)
    (hxs : ∀ x ∈ xs, ∀ w, x.edited? = some w → SameFile w v → ∀ text ∈ x.texts, ¬ Refers text) :
    (trace ⟨.initial, disk, answer⟩ (xs.filter (Step.spares u))).map (view v) =
        ((trace ⟨.initial, disk, answer⟩ xs).filter fun e => e.1.spares u).map (view v) ∧
      ∀ e ∈ trace ⟨.initial, disk, answer⟩ xs, e.1.edited? = some u → told v e.2.2 = [] := by
  refine view_trace hne hfile hxs ⟨rfl, fun _ _ => rfl, fun _ _ => rfl⟩ ?_ .nil .nil
  intro q a _ ha
  cases ha

theorem not_sameFile {u v : Uri}
    (h : u.toFilePath?.map FilePath.components ≠ v.toFilePath?.map FilePath.components) :
    ¬ SameFile u v := by
  rintro ⟨p, q, hp, hq, hpq⟩
  exact h (by rw [hp, hq, Option.map_some, Option.map_some, hpq])

theorem not_refers {text : List Char} {file : FilePath}
    (h : (Analysis.ofText file text).references = []) : ¬ Refers text := by
  rintro ⟨ts, ht, hr⟩
  exact hr (by simpa [Analysis.ofText, ht] using h)

/-- A text with an open bracket. -/
def openBracket : List Char := ['(']

/-- One file is edited and closed while another is open, marked and asked about. -/
def editedBeside : List Step :=
  [.opened (rootFile 'a') [], .opened (rootFile 'b') openBracket,
    .changed (rootFile 'a') 2 [openBracket, []], .configured .null,
    .completion (rootFile 'b') ⟨0, 1⟩, .closed (rootFile 'a'), .format (rootFile 'b')]

theorem documents_independent_editedBeside :
    rootFile 'a' ≠ rootFile 'b' ∧ ¬ SameFile (rootFile 'a') (rootFile 'b') ∧
      (∀ x ∈ editedBeside, ∀ text ∈ x.texts, ¬ Refers text) ∧
      (trace ⟨.initial, .empty, none⟩
          (editedBeside.filter (Step.spares (rootFile 'a')))).map (view (rootFile 'b')) =
        ((trace ⟨.initial, .empty, none⟩ editedBeside).filter
          fun e => e.1.spares (rootFile 'a')).map (view (rootFile 'b')) := by
  have hne : rootFile 'a' ≠ rootFile 'b' := by decide
  have hfile : ¬ SameFile (rootFile 'a') (rootFile 'b') := not_sameFile (by decide +kernel)
  have htexts : ∀ x ∈ editedBeside, ∀ text ∈ x.texts, ¬ Refers text := by
    have h : ∀ x ∈ editedBeside, ∀ text ∈ x.texts,
        (Analysis.ofText ⟨[]⟩ text).references = [] := by decide +kernel
    exact fun x hx text ht => not_refers (h x hx text ht)
  exact ⟨hne, hfile, htexts, (documents_independent .empty none editedBeside _ _ hne hfile
    fun x hx _ _ _ => htexts x hx).1⟩

/-! ## Two uris of one file -/

/-- Another uri of the file of `rootFile c`, as an editor uses it for an older version. -/
def oldRootFile (c : Char) : Uri := ⟨"git".toList, false, [], none, none, ['/', c], none, none⟩

/-- A document without problems is open, another uri of its file is opened with an open bracket, and
the layout of the first document is asked for. -/
def openedTwice : List Step :=
  [.opened (rootFile 'a') "x=1;".toList, .opened (oldRootFile 'a') openBracket,
    .format (rootFile 'a')]

/-- The number of changes in a reply, if it is one that holds changes. -/
def Reply.editCount : Reply → Nat
  | .edits es => es.length
  | _ => 0

/-- A document is refused its layout for the problems of another that has the same file. -/
theorem alias_disturbs :
    oldRootFile 'a' ≠ rootFile 'a' ∧
      (∀ x ∈ openedTwice, x.edited? = some (rootFile 'a') → ∀ text ∈ x.texts, ¬ Refers text) ∧
      (trace ⟨.initial, .empty, none⟩
          (openedTwice.filter (Step.spares (oldRootFile 'a')))).map (view (rootFile 'a')) ≠
        ((trace ⟨.initial, .empty, none⟩ openedTwice).filter
          fun e => e.1.spares (oldRootFile 'a')).map (view (rootFile 'a')) := by
  refine ⟨by decide, ?_, fun h => ?_⟩
  · have h : ∀ x ∈ openedTwice, ∀ text ∈ x.texts,
        (Analysis.ofText ⟨[]⟩ text).references = [] := by decide +kernel
    exact fun x hx _ text ht => not_refers (h x hx text ht)
  · have hcounts := congrArg (List.map fun e => e.1.map Reply.editCount) h
    revert hcounts
    decide +kernel

end Session
end Scad
