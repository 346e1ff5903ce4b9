import Scad.Proofs.Session.Failure
import Scad.Proofs.Session.Independent

/-!
# Scad.Proofs.Session.Settings

The settings of a document are asked for once in its life and once for every change of the settings
while it is open, whatever the client answers, for all documents alike or for each in its own way.

* `Server.lacks`: the settings of a document have to be asked for when it is published.
* `Session.Cached`: the settings of exactly the open documents are known. All steps but another
  announcement of features keep this.
* `Session.accounted_step`: what one step asks for.
* `Session.tally`: the number of steps of a conversation at which something happens.
* `Session.settings_requested_once`: the requests of a whole conversation.
-/

namespace Scad

namespace Table

variable {κ α : Type} [DecidableEq κ]

@[simp] theorem contains_empty (k : κ) : (empty : Table κ α).contains k = false := rfl

theorem contains_insert (t : Table κ α) (k j : κ) (a : α) :
    (t.insert k a).contains j = (decide (j = k) || t.contains j) := by
  by_cases h : j = k
  · subst h
    simp [contains]
  · simp [contains, get?_insert_of_ne t a h, h]

theorem contains_erase (t : Table κ α) (k j : κ) :
    (t.erase k).contains j = (!decide (j = k) && t.contains j) := by
  by_cases h : j = k
  · simp [contains, get?_erase, h]
  · simp [contains, get?_erase, h]

end Table

namespace Server

/-! ## One publication -/

/-- The settings of the document have to be asked for: the client tells documents apart, and they
are not known. -/
def lacks (s : Server) (uri : Uri) : Bool := s.flags.configuration && !s.settings.contains uri

section Publish

variable (s : Server) (answer : ClientAnswer) (uri v : Uri)

theorem learnSettings_of_lacks (h : s.lacks uri = true) :
    s.learnSettings answer uri =
      ({ s with
          settings :=
            if s.isOpen uri then s.settings.insert uri (answered answer) else s.settings },
        [.configuration uri]) := by
  simp only [lacks, Bool.and_eq_true, Bool.not_eq_true'] at h
  rw [learnSettings, if_pos h]

theorem learnSettings_of_not_lacks (h : s.lacks uri = false) :
    s.learnSettings answer uri = (s, []) := by
  simp only [lacks, Bool.and_eq_false_iff, Bool.not_eq_false'] at h
  rw [learnSettings, if_neg]
  rintro ⟨hflag, hunknown⟩
  rcases h with h | h
  · rw [hflag] at h
    cases h
  · rw [hunknown] at h
    cases h

/-- Publishing goes on from the state in which the settings are known. -/
theorem publish_fst : (s.publish answer uri).1 = (s.learnSettings answer uri).1 := by
  unfold publish
  dsimp only
  split <;> rfl

/-- Publishing asks for the settings that the document lacks, and for no others. -/
theorem requests_publish :
    (s.publish answer uri).2.count (.configuration v) =
      if v = uri ∧ s.lacks uri = true then 1 else 0 := by
  have hasked : (s.publish answer uri).2.count (.configuration v) =
      (s.learnSettings answer uri).2.count (.configuration v) := by
    unfold publish
    dsimp only
    split
    · rfl
    · rw [List.count_append, List.count_singleton, if_neg (by simp), Nat.add_zero]
  rw [hasked]
  cases hl : s.lacks uri with
  | true =>
    rw [learnSettings_of_lacks s answer uri hl, List.count_singleton]
    by_cases hv : v = uri
    · simp [hv]
    · simp [hv, Ne.symm hv]
  | false =>
    rw [learnSettings_of_not_lacks s answer uri hl]
    simp

theorem flags_publish : (s.publish answer uri).1.flags = s.flags := by
  rw [publish_fst]
  unfold learnSettings
  split <;> rfl

/-- After publishing an open document its settings are known, if the client tells documents apart.
-/
theorem contains_publish :
    (s.publish answer uri).1.settings.contains v =
      (s.settings.contains v || (decide (v = uri) && s.lacks uri && s.isOpen uri)) := by
  rw [publish_fst]
  cases hl : s.lacks uri with
  | true =>
    rw [learnSettings_of_lacks s answer uri hl]
    dsimp only
    split
    · rename_i hopen
      rw [Table.contains_insert, hopen]
      simp [Bool.or_comm]
    · rename_i hclosed
      simp [hclosed]
  | false =>
    rw [learnSettings_of_not_lacks s answer uri hl]
    simp

/-- What a document lacks after another was published, or after it was published itself. -/
theorem lacks_publish :
    (s.publish answer uri).1.lacks v = (s.lacks v && !(decide (v = uri) && s.isOpen uri)) := by
  rw [lacks, lacks, flags_publish, contains_publish]
  by_cases hv : v = uri
  · subst hv
    cases hflag : s.flags.configuration with
    | false => simp
    | true =>
      rw [lacks, hflag]
      cases s.settings.contains v <;> simp
  · simp [hv]

theorem isOpen_publish : (s.publish answer uri).1.isOpen v = s.isOpen v := by
  rw [isOpen, isOpen, (same_publish s answer uri).documents]

end Publish

/-- Publishing several documents asks once for each that lacks its settings. -/
theorem requests_publishAll (answers : Uri → ClientAnswer) (s : Server) {uris : List Uri}
    (hnodup : uris.Nodup) (v : Uri) :
    (publishAll answers s uris).2.count (.configuration v) =
      if v ∈ uris ∧ s.lacks v = true then 1 else 0 := by
  induction uris generalizing s with
  | nil => simp [publishAll]
  | cons uri uris ih =>
    obtain ⟨hfresh, hnodup⟩ := List.nodup_cons.1 hnodup
    simp only [publishAll, List.count_append, requests_publish, ih _ hnodup]
    by_cases hv : v = uri
    · subst hv
      simp [hfresh]
    · simp [hv, lacks_publish]

theorem contains_publishAll (answers : Uri → ClientAnswer) (s : Server) (uris : List Uri)
    (v : Uri) :
    (publishAll answers s uris).1.settings.contains v =
      (s.settings.contains v || (decide (v ∈ uris) && s.lacks v && s.isOpen v)) := by
  induction uris generalizing s with
  | nil => simp [publishAll]
  | cons uri uris ih =>
    simp only [publishAll, ih, contains_publish, lacks_publish, isOpen_publish]
    by_cases hv : v = uri
    · subst hv
      cases s.isOpen v <;> simp
    · simp [hv]

theorem flags_publishAll (answers : Uri → ClientAnswer) (s : Server) (uris : List Uri) :
    (publishAll answers s uris).1.flags = s.flags := by
  induction uris generalizing s with
  | nil => rfl
  | cons uri uris ih =>
    simp only [publishAll]
    rw [ih, flags_publish]

end Server

namespace Session

/-! ## One step -/

/-- The step announces the features of the client. -/
def Step.isStart : Step → Bool
  | .start _ => true
  | _ => false

/-- The step says that the settings have changed. -/
def Step.isConfigured : Step → Bool
  | .configured _ _ => true
  | _ => false

/-- The step opens the document: it was not open before and is open afterwards. -/
def opens (uri : Uri) (s : Session) (x : Step) : Bool :=
  !s.server.isOpen uri && (s.step x).1.server.isOpen uri

/-- The step changes the settings while the document is open. -/
def reconfigures (uri : Uri) (s : Session) (x : Step) : Bool :=
  x.isConfigured && s.server.isOpen uri

/-- The client tells documents apart, and the settings of exactly the open documents are known. -/
structure Cached (s : Server) : Prop where
  flag : s.flags.configuration = true
  nodup : s.documents.keys.Nodup
  known : ∀ uri, s.settings.contains uri = s.isOpen uri

theorem Cached.unmoved {s t : Server} (h : Cached s) (ht : Unmoved s t) : Cached t := by
  refine ⟨?_, ?_, fun uri => ?_⟩
  · rw [ht.flags, h.flag]
  · rw [ht.documents]
    exact h.nodup
  · rw [ht.settings, h.known, Server.isOpen, Server.isOpen, ht.documents]

section Put

variable {s : Server} (h : Cached s) (answer : ClientAnswer) (uri v : Uri) (path : FilePath)
  (d : Document)

theorem isOpen_put : (s.put answer uri path d).1.isOpen v = (decide (v = uri) || s.isOpen v) := by
  rw [Server.put, Server.isOpen_publish]
  exact Table.contains_insert ..

include h

/-- The settings of a document are asked for when it is opened. -/
theorem requests_put :
    (s.put answer uri path d).2.count (.configuration v) =
      if v = uri ∧ s.isOpen uri = false then 1 else 0 := by
  rw [Server.put, Server.requests_publish]
  simp [Server.lacks, h.flag, h.known]

theorem cached_put : Cached (s.put answer uri path d).1 := by
  refine ⟨?_, ?_, fun w => ?_⟩
  · rw [Server.put, Server.flags_publish, h.flag]
  · have hsame := Server.same_publish { s with
      documents := s.documents.insert uri d
      workspace := s.workspace.register path d.text } answer uri
    rw [Server.put, hsame.documents]
    exact Table.nodup_keys_insert h.nodup uri d
  · rw [isOpen_put, Server.put, Server.contains_publish, h.known]
    by_cases hw : w = uri
    · subst hw
      cases hopen : s.documents.contains w <;>
        simp [Server.lacks, Server.isOpen, Table.contains_insert, h.flag, h.known, hopen]
    · simp [hw]

end Put

theorem mem_openUris {s : Server} {uri : Uri} : uri ∈ s.openUris ↔ s.isOpen uri = true := by
  rw [Server.openUris, List.mem_mergeSort, Table.mem_keys_iff]
  rfl

section Configured

variable {s : Server} (h : Cached s) (answers : Uri → ClientAnswer) (payload : Json)

include h

/-- When the settings change, all of them are forgotten and every open document is published. -/
theorem configured_eq :
    s.configured answers payload =
      Server.publishAll answers { s with settings := Table.empty } s.openUris := by
  simp only [Server.configured, h.flag, if_true]
  rfl

/-- When the settings change, those of every open document are asked for. -/
theorem requests_configured (uri : Uri) :
    (s.configured answers payload).2.count (.configuration uri) = (s.isOpen uri).toNat := by
  have hnodup : s.openUris.Nodup := (List.mergeSort_perm _ _).nodup_iff.2 h.nodup
  rw [configured_eq h, Server.requests_publishAll answers _ hnodup]
  simp only [mem_openUris, Server.lacks, h.flag, Table.contains_empty]
  cases s.isOpen uri <;> simp

theorem cached_configured : Cached (s.configured answers payload).1 := by
  have hsame := (tells_publishAll answers { s with settings := Table.empty } s.openUris).1
  rw [configured_eq h]
  refine ⟨?_, ?_, fun uri => ?_⟩
  · rw [Server.flags_publishAll, h.flag]
  · rw [hsame.documents]
    exact h.nodup
  · have hbefore : Server.isOpen { s with settings := Table.empty } uri = s.isOpen uri := rfl
    have hafter : (Server.publishAll answers { s with settings := Table.empty }
        s.openUris).1.isOpen uri = s.isOpen uri :=
      congrArg (Table.contains · uri) hsame.documents
    rw [Server.contains_publishAll, hbefore, hafter]
    simp only [mem_openUris, Server.lacks, h.flag, Table.contains_empty]
    cases s.isOpen uri <;> simp

end Configured

theorem cached_closed {s : Server} (h : Cached s) (uri : Uri) : Cached (s.closed uri).1 := by
  unfold Server.closed
  split
  · exact h
  · split
    · refine ⟨h.flag, Table.nodup_keys_erase h.nodup uri, fun v => ?_⟩
      simp only [Server.isOpen, Table.contains_erase]
      rw [h.known, Server.isOpen]
    · exact h

/-- The step leaves the settings of exactly the open documents known. It asks for those of the
documents that it opens, and if it changes the settings for those of the open documents. -/
structure Accounted (s : Session) (x : Step) : Prop where
  cached : Cached (s.step x).1.server
  requests : ∀ uri, (s.step x).2.2.count (.configuration uri) =
    (s.opens uri x).toNat + (s.reconfigures uri x).toNat

/-- A step that opens nothing and asks for nothing. -/
theorem accounted_of_silent {s : Session} {x : Step} (hx : x.isConfigured = false)
    (hcached : Cached (s.step x).1.server)
    (hopen : ∀ uri, (s.step x).1.server.isOpen uri = true → s.server.isOpen uri = true)
    (hsent : ∀ uri, (s.step x).2.2.count (.configuration uri) = 0) : Accounted s x := by
  refine ⟨hcached, fun uri => ?_⟩
  have hnone : s.opens uri x = false := by
    rw [opens]
    cases hafter : (s.step x).1.server.isOpen uri with
    | false => simp
    | true => simp [hopen uri hafter]
  rw [hsent, hnone, reconfigures, hx]
  rfl

theorem accounted_idle {s : Session} (h : Cached s.server) {x : Step} (hx : x.isConfigured = false)
    (hstep : s.step x = (s, .silent, [])) : Accounted s x := by
  refine accounted_of_silent hx ?_ (fun uri => ?_) fun uri => ?_
  · rw [hstep]
    exact h
  · rw [hstep]
    exact id
  · rw [hstep]
    rfl

theorem accounted_put {s : Session} (h : Cached s.server) {x : Step} (hx : x.isConfigured = false)
    {w : Uri} {path : FilePath} {d : Document}
    (hstep : s.step x = s.notify (s.server.put s.answer w path d)) : Accounted s x := by
  refine ⟨?_, fun uri => ?_⟩
  · rw [hstep]
    exact cached_put h s.answer w path d
  · rw [opens, reconfigures, hx, hstep]
    simp only [notify, withServer, isOpen_put, requests_put h]
    by_cases hw : uri = w
    · subst hw
      cases s.server.isOpen uri <;> simp
    · cases s.server.isOpen uri <;> simp [hw]

theorem accounted_opened {s : Session} (h : Cached s.server) (w : Uri) (text : List Char) :
    Accounted s (.opened w text) := by
  cases hp : w.toFilePath? with
  | none => exact accounted_idle h rfl (by simp [step, notify, withServer, Server.opened, hp])
  | some path =>
    cases hopen : s.server.isOpen w with
    | true =>
      exact accounted_idle h rfl (by simp [step, notify, withServer, Server.opened, hp, hopen])
    | false => exact accounted_put h rfl (by simp only [step, Server.opened, hp, hopen]; rfl)

theorem accounted_changed {s : Session} (h : Cached s.server) (w : Uri) (version : Int)
    (texts : List (List Char)) : Accounted s (.changed w version texts) := by
  cases hlast : texts.getLast? with
  | none => exact accounted_idle h rfl (by simp [step, hlast])
  | some text =>
    cases hp : w.toFilePath? with
    | none =>
      exact accounted_idle h rfl (by simp [step, notify, withServer, Server.changed, hlast, hp])
    | some path => exact accounted_put h rfl (by simp only [step, Server.changed, hlast, hp]; rfl)

theorem accounted_closed {s : Session} (h : Cached s.server) (w : Uri) :
    Accounted s (.closed w) := by
  refine accounted_of_silent rfl (cached_closed h w) (fun uri => ?_) fun uri => ?_
  · simp only [step, notify, withServer, Server.closed]
    split
    · exact id
    · split
      · simp only [Server.isOpen, Table.contains_erase, Bool.and_eq_true]
        exact And.right
      · exact id
  · simp only [step, notify, Server.closed]
    split
    · rfl
    · split <;> rfl

theorem accounted_configured {s : Session} (h : Cached s.server) (payload : Json)
    (each : Option (Uri → ClientAnswer)) : Accounted s (.configured payload each) := by
  refine ⟨cached_configured h _ payload, fun uri => ?_⟩
  have hopen : (s.step (.configured payload each)).1.server.isOpen uri = s.server.isOpen uri := by
    have hedited : (Step.configured payload each).edited? ≠ some uri := by simp [Step.edited?]
    have hkept := (step_effect s (.configured payload each)).document_elsewhere hedited
    rw [Server.isOpen, Table.contains, hkept]
    rfl
  rw [opens, reconfigures, hopen]
  simp [step, notify, requests_configured h, Step.isConfigured]

theorem accounted_query {s : Session} (h : Cached s.server) {x : Step} (hx : x.isQuery = true) :
    Accounted s x := by
  have hmoved := unmoved_query s hx
  refine accounted_of_silent ?_ (h.unmoved hmoved) (fun uri => ?_) fun uri => ?_
  · cases x <;> first | rfl | cases hx
  · rw [Server.isOpen, hmoved.documents, ← Server.isOpen]
    exact id
  · cases x <;> first | rfl | cases hx

/-- Every step but an announcement of features is accounted for. -/
theorem accounted_step {s : Session} (h : Cached s.server) {x : Step} (hx : x.isStart = false) :
    Accounted s x := by
  cases x with
  | start => cases hx
  | ready =>
    refine accounted_of_silent rfl h (fun _ => id) fun uri => ?_
    simp only [step]
    split <;> simp
  | shutdown | foldersChanged | answers | write | remove =>
    exact accounted_of_silent rfl h (fun _ => id) fun _ => rfl
  | opened w text => exact accounted_opened h w text
  | changed w version texts => exact accounted_changed h w version texts
  | closed w => exact accounted_closed h w
  | configured payload each => exact accounted_configured h payload each
  | completion | resolve | symbols | definition | hover | format => exact accounted_query h rfl

/-- Only an open or a change of a document opens it. -/
theorem edited_of_opens {s : Session} {x : Step} {uri : Uri} (h : s.opens uri x = true) :
    (∃ text, x = .opened uri text) ∨ ∃ version texts, x = .changed uri version texts := by
  simp only [opens, Bool.and_eq_true, Bool.not_eq_true'] at h
  obtain ⟨hbefore, hafter⟩ := h
  have hedited : x.edited? = some uri := by
    refine Classical.byContradiction fun hne => ?_
    rw [Server.isOpen, Table.contains, (step_effect s x).document_elsewhere hne] at hafter
    rw [Server.isOpen, Table.contains, hafter] at hbefore
    cases hbefore
  cases x with
  | opened w text =>
    cases hedited
    exact .inl ⟨text, rfl⟩
  | changed w version texts =>
    cases hedited
    exact .inr ⟨version, texts, rfl⟩
  | closed w =>
    cases hedited
    simp only [step, notify, withServer, Server.closed] at hafter
    split at hafter
    · rw [hbefore] at hafter
      cases hafter
    · split at hafter
      · simp [Server.isOpen, Table.contains_erase] at hafter
      · rw [hbefore] at hafter
        cases hafter
  | _ => cases hedited

/-! ## Conversations -/

/-- The number of steps of a conversation at which something happens. -/
def tally (p : Session → Step → Bool) (s : Session) : List Step → Nat
  | [] => 0
  | x :: xs => (p s x).toNat + tally p (s.step x).1 xs

theorem requests_run {s : Session} (h : Cached s.server) {xs : List Step}
    (hxs : ∀ x ∈ xs, x.isStart = false) :
    Cached (s.run xs).1.server ∧ ∀ uri, (messages (s.run xs).2).count (.configuration uri) =
      tally (opens uri) s xs + tally (reconfigures uri) s xs := by
  induction xs generalizing s with
  | nil => exact ⟨h, fun _ => rfl⟩
  | cons x xs ih =>
    rw [List.forall_mem_cons] at hxs
    have hx := accounted_step h hxs.1
    obtain ⟨hcached, hcount⟩ := ih hx.cached hxs.2
    refine ⟨hcached, fun uri => ?_⟩
    have hsplit : messages (s.run (x :: xs)).2 =
        (s.step x).2.2 ++ messages ((s.step x).1.run xs).2 := rfl
    rw [hsplit, List.count_append, hx.requests, hcount, tally, tally]
    omega

theorem cached_start (disk : Disk) (answer : ClientAnswer) {flags : ClientFlags}
    (h : flags.configuration = true) :
    Cached ((Session.mk .initial disk answer).step (.start flags)).1.server :=
  ⟨h, .nil, fun _ => rfl⟩

/-- Settings are asked for exactly when they are needed. In a conversation that begins with the
announcement that the client tells documents apart, and has no other announcement, after every step
the settings of exactly the open documents are known, and those of a document have been asked for
once for each time it was opened and once for each change of the settings while it was open. Every
single step asks so, and only an open or a change opens a document. -/
theorem settings_requested_once (disk : Disk) (answer : ClientAnswer) (flags : ClientFlags)
    (hflags : flags.configuration = true) (xs : List Step) (hxs : ∀ x ∈ xs, x.isStart = false)
    (ys : List Step) (hys : ys <+: xs) (uri : Uri) :
    (run ⟨.initial, disk, answer⟩ (.start flags :: ys)).1.server.settings.contains uri =
        (run ⟨.initial, disk, answer⟩ (.start flags :: ys)).1.server.documents.contains uri ∧
      (messages (run ⟨.initial, disk, answer⟩ (.start flags :: ys)).2).count (.configuration uri) =
        tally (opens uri) ⟨.initial, disk, answer⟩ (.start flags :: ys) +
          tally (reconfigures uri) ⟨.initial, disk, answer⟩ (.start flags :: ys) ∧
      ∀ x, ys ++ [x] <+: xs →
        ((run ⟨.initial, disk, answer⟩ (.start flags :: ys)).1.step x).2.2.count
            (.configuration uri) =
          (opens uri (run ⟨.initial, disk, answer⟩ (.start flags :: ys)).1 x).toNat +
            (reconfigures uri (run ⟨.initial, disk, answer⟩ (.start flags :: ys)).1 x).toNat ∧
        (opens uri (run ⟨.initial, disk, answer⟩ (.start flags :: ys)).1 x = true →
          (∃ text, x = .opened uri text) ∨ ∃ version texts, x = .changed uri version texts) := by
  obtain ⟨hcached, hcount⟩ := requests_run (cached_start disk answer hflags)
    fun y hy => hxs y (hys.subset hy)
  refine ⟨hcached.known uri, ?_, fun x hx => ⟨?_, edited_of_opens⟩⟩
  · -- the announcement itself neither opens a document nor changes the settings
    have hopens : opens uri ⟨.initial, disk, answer⟩ (.start flags) = false := rfl
    rw [tally, tally, hopens, Bool.toNat_false, Nat.zero_add]
    exact (hcount uri).trans (congrArg _ (Nat.zero_add _).symm)
  · exact (accounted_step hcached (hxs x (hx.subset (by simp)))).requests uri

/-- A document is opened twice, closed and opened again by a change, and the settings change while
it is open and while it is not. The client refuses at first, then answers with nothing for this
document and refuses for others, then answers with a wrong shape for all. -/
def reopened : List Step :=
  [.opened (rootFile 'a') [], .opened (rootFile 'a') ['x'],
    .configured .null (some fun uri => if uri = rootFile 'a' then some [] else none),
    .closed (rootFile 'a'), .answers (some [.arr [.null]]), .changed (rootFile 'b') 1 [[]],
    .configured .null, .changed (rootFile 'a') 2 [[]]]

theorem settings_requested_once_reopened :
    (∀ x ∈ reopened, x.isStart = false) ∧
      (messages (run ⟨.initial, .empty, none⟩ (.start ⟨true, false, false⟩ :: reopened)).2).count
        (.configuration (rootFile 'a')) = 3 := by
  have hxs : ∀ x ∈ reopened, x.isStart = false := by decide
  have hrun := settings_requested_once .empty none ⟨true, false, false⟩ rfl reopened hxs reopened
    (List.prefix_refl _) (rootFile 'a')
  refine ⟨hxs, hrun.2.1.trans ?_⟩
  decide +kernel

end Session
end Scad
