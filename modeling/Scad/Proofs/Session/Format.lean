import Scad.Proofs.Outline.Format
import Scad.Proofs.Position
import Scad.Proofs.Session.Effect

/-!
# Scad.Proofs.Session.Format

Formatting a document twice. A client that applies the change it was answered and asks again is
answered the text it has.

* `TextEdit.apply`: the text after a change, as a client makes it.
* `Session.Analysed`: every registered file was analysed as a whole; all steps keep this.
* `Session.format_settles`: standard layout is reached with the first change.
-/

namespace Scad

/-! ## Applying a change -/

namespace Position

/-- Only the end of a text has the position of its end. -/
theorem ofOffset_eq_endOf {text : List Char} {n : Nat} (hn : n ≤ text.length)
    (h : ofOffset text n = endOf text) : n = text.length := by
  have hsplit : endOf text = advance (ofOffset text n) (text.drop n) := by
    rw [ofOffset, ← advance_append, List.take_append_drop, endOf]
  have hb := advance_bounds (ofOffset text n) (text.drop n)
  rw [← hsplit, ← h, List.length_drop] at hb
  omega

/-- The number of characters before a position, as a client counts them: the end of the text if
there is no such position. -/
def index (text : List Char) (p : Position) : Nat :=
  ((List.range text.length).find? fun n => ofOffset text n = p).getD text.length

theorem index_start (text : List Char) : index text ⟨0, 0⟩ = 0 := by
  cases text with
  | nil => rfl
  | cons c cs =>
    have hrange : List.range (c :: cs).length = 0 :: (List.range cs.length).map Nat.succ :=
      List.range_succ_eq_map
    rw [index, hrange, List.find?_cons_of_pos (by simp [ofOffset, advance])]
    rfl

theorem index_endOf (text : List Char) : index text (endOf text) = text.length := by
  have hnone : ((List.range text.length).find? fun n => ofOffset text n = endOf text) = none := by
    rw [List.find?_eq_none]
    intro n hn
    have hlt := List.mem_range.1 hn
    simp only [decide_eq_true_eq]
    intro he
    have := ofOffset_eq_endOf (Nat.le_of_lt hlt) he
    omega
  rw [index, hnone]
  rfl

end Position

/-- The text after a change: what stands in the range is replaced. -/
def TextEdit.apply (e : TextEdit) (text : List Char) : List Char :=
  text.take (Position.index text e.range.start) ++ e.newText ++
    text.drop (Position.index text e.range.stop)

theorem TextEdit.apply_whole (d : Document) (newText : List Char) :
    (TextEdit.whole d newText).apply d.text = newText := by
  have hstart : Position.index d.text (TextEdit.whole d newText).range.start = 0 :=
    Position.index_start d.text
  have hstop : Position.index d.text (TextEdit.whole d newText).range.stop = d.text.length :=
    Position.index_endOf d.text
  rw [apply, hstart, hstop]
  simp [TextEdit.whole]

/-! ## Formatting -/

namespace Session

/-- Every registered file has the analysis of some text. -/
def Analysed (s : Server) : Prop :=
  ∀ path a, s.workspace.analysis? path = some a → ∃ file text, a = .ofText file text

theorem analysed_effect {x : Step} {s t : Server} {sent : List Message} (h : Analysed s)
    (he : Effect x s t sent) : Analysed t := by
  intro q a ha
  cases he with
  | kept hsame _ => exact h q a (Workspace.analysis?_congr hsame.files q ▸ ha)
  | put uri path d _ _ _ hfiles _ _ =>
    rw [Workspace.analysis?_congr hfiles] at ha
    by_cases hq : q.components = path.components
    · have hself := Workspace.analysis?_register_self s.workspace path d.text
      rw [Workspace.analysis?, hq] at ha
      rw [Workspace.analysis?, ha] at hself
      cases hself
      exact ⟨path, d.text, rfl⟩
    · rw [Workspace.analysis?_register_of_ne _ _ hq] at ha
      exact h q a ha
  | closed uri path _ _ _ hfiles _ =>
    rw [Workspace.analysis?_congr hfiles, Workspace.analysis?_forget] at ha
    split at ha
    · cases ha
    · exact h q a ha

theorem analysed_run (disk : Disk) (answer : ClientAnswer) (xs : List Step) :
    Analysed (run ⟨.initial, disk, answer⟩ xs).1.server := by
  refine run_induction (fun s _ => Analysed s) (fun x _ s t _ _ h he => analysed_effect h he)
    ⟨.initial, disk, answer⟩ fun path a ha => ?_
  cases ha

/-- The document `uri` has the text and version of `d`, and its file `path` the analysis `a`. -/
structure Holds (s : Server) (uri : Uri) (path : FilePath) (d : Document) (a : Analysis) :
    Prop where
  document : s.documents.get? uri = some d
  named : uri.toFilePath? = some path
  analysis : s.workspace.analysis? path = some a

/-- A document without problems is answered the change to its standard layout. -/
theorem format_of_holds {s : Server} {uri : Uri} {path file : FilePath} {d : Document}
    {text : List Char} {ts : List Token} (h : Holds s uri path d (.ofText file text))
    (ht : tokenize text = .ok ts) (hn : (Analysis.ofText file text).problems = []) :
    s.format uri = .ok [TextEdit.whole d (Layout.reindent text ts)] := by
  have hdoc : s.document uri = .ok (d, path) := by simp only [Server.document, h.document, h.named]
  have htokens : (Analysis.ofText file text).tokens = some ts := by simp [Analysis.ofText, ht]
  have hsource : (Analysis.ofText file text).source = text := by simp [Analysis.ofText, ht]
  have hread : s.readable? path = some (.ofText file text) := by
    simp [Server.readable?, h.analysis, Analysis.isReadable, htokens]
  have hprint : s.workspace.reprint? path = some (Layout.reindent text ts) := by
    simp [Workspace.reprint?, h.analysis, htokens, hsource]
  simp only [Server.format, hdoc, bind, Except.bind, hread, hn, hprint]
  rfl

/-- A file without problems has none in standard layout. -/
theorem problems_reindent {file path : FilePath} {text : List Char} {ts : List Token}
    (ht : tokenize text = .ok ts) (hn : (Analysis.ofText file text).problems = []) :
    (Analysis.ofText path (Layout.reindent text ts)).problems = [] := by
  have hfaults := (Layout.outline_reindent ht).faults
  have hnone : (Outline.ofTokens text.length ts).faults = [] := by
    simpa [Analysis.ofText, ht] using hn
  rw [hnone, List.map_nil, List.map_eq_nil_iff] at hfaults
  simp [Analysis.ofText, Layout.tokenize_reindent ht, hfaults]

/-- Steps that touch no document with the file `path` keep document and analysis. -/
theorem holds_effect {x : Step} {s t : Server} {sent : List Message} {uri : Uri} {path : FilePath}
    {d : Document} {a : Analysis} (h : Holds s uri path d a)
    (hx : ∀ v, x.edited? = some v → ∀ q, v.toFilePath? = some q → q.components ≠ path.components)
    (he : Effect x s t sent) : Holds t uri path d a := by
  have hedit : x.edited? ≠ some uri := fun hu => hx uri hu path h.named rfl
  exact ⟨(he.document_elsewhere hedit).trans h.document, h.named,
    (he.analysis_elsewhere hx).trans h.analysis⟩

theorem holds_changed (s : Session) {uri : Uri} {path : FilePath}
    (hp : uri.toFilePath? = some path) (version : Int) (text : List Char) :
    Holds (s.step (.changed uri version [text])).1.server uri path ⟨text, version⟩
      (.ofText path text) := by
  have hstep : (s.step (.changed uri version [text])).1.server =
      (s.server.put s.answer uri path ⟨text, version⟩).1 := by
    simp [step, notify, withServer, Server.changed, hp]
  rw [hstep]
  have hsame := Server.same_publish { s.server with
    documents := s.server.documents.insert uri ⟨text, version⟩
    workspace := s.server.workspace.register path text } s.answer uri
  refine ⟨?_, hp, ?_⟩
  · rw [Server.put, hsame.documents, Table.get?_insert_self]
  · rw [Server.put, Workspace.analysis?_congr hsame.files, Workspace.analysis?_register_self]

theorem holds_run {s : Session} {uri : Uri} {path : FilePath} {d : Document} {a : Analysis}
    (h : Holds s.server uri path d a) {zs : List Step}
    (hz : ∀ z ∈ zs, ∀ v, z.edited? = some v → ∀ q, v.toFilePath? = some q →
      q.components ≠ path.components) : Holds (s.run zs).1.server uri path d a :=
  run_induction (fun t _ => Holds t uri path d a)
    (fun z hmem _ _ _ _ hs he => holds_effect hs (hz z hmem) he) s h

/-- Standard layout is reached at once. For every source that can be read, its standard layout can
be read and is its own standard layout. So in every state of a conversation, an open document
without problems is answered one change, and once the client has applied it and sent the new text,
the next answer is a change to the text the document has, whatever steps about other files come
between. -/
theorem format_settles :
    (∀ source ts, tokenize source = .ok ts → ∃ ts',
      tokenize (Layout.reindent source ts) = .ok ts' ∧
        Layout.reindent (Layout.reindent source ts) ts' = Layout.reindent source ts) ∧
    ∀ (disk : Disk) (answer : ClientAnswer) (xs : List Step) (uri : Uri) (path : FilePath)
      (d : Document) (a : Analysis),
      Holds (run ⟨.initial, disk, answer⟩ xs).1.server uri path d a → a.isReadable = true →
      a.problems = [] →
      ∃ e, ((run ⟨.initial, disk, answer⟩ xs).1.step (.format uri)).2.1 = .edits [e] ∧
        ∀ (version : Int) (zs : List Step),
          (∀ z ∈ zs, ∀ v, z.edited? = some v → ∀ q, v.toFilePath? = some q →
            q.components ≠ path.components) →
          ∃ s', s' = (run ⟨.initial, disk, answer⟩
              (xs ++ .changed uri version [e.apply d.text] :: zs)).1 ∧
            s'.server.documents.get? uri = some ⟨e.apply d.text, version⟩ ∧
            ∃ e', (s'.step (.format uri)).2.1 = .edits [e'] ∧ e'.newText = e.apply d.text := by
  refine ⟨fun source ts h => ⟨Layout.relaid ts, Layout.tokenize_reindent h,
    Layout.reindent_relaid h⟩, ?_⟩
  intro disk answer xs uri path d a h hr hn
  obtain ⟨file, text, rfl⟩ := analysed_run disk answer xs path a h.analysis
  obtain ⟨ts, ht⟩ : ∃ ts, tokenize text = .ok ts := by
    cases ht : tokenize text with
    | ok ts => exact ⟨ts, rfl⟩
    | error e => simp [Analysis.ofText, ht, Analysis.isReadable] at hr
  refine ⟨TextEdit.whole d (Layout.reindent text ts), ?_, fun version zs hz => ?_⟩
  · simp only [step, format_of_holds h ht hn, Reply.ofExcept]
  · rw [TextEdit.apply_whole, run_append]
    have hheld := holds_run (holds_changed (run ⟨.initial, disk, answer⟩ xs).1 h.named version
      (Layout.reindent text ts)) hz
    have hformat := format_of_holds hheld (Layout.tokenize_reindent ht) (problems_reindent ht hn)
    rw [Layout.reindent_relaid ht] at hformat
    refine ⟨_, rfl, hheld.document, TextEdit.whole ⟨Layout.reindent text ts, version⟩
      (Layout.reindent text ts), ?_, rfl⟩
    exact congrArg (Reply.ofExcept Reply.edits) hformat

/-- A variable over two lines with the blanks at the wrong places. -/
def looseVariable : List Char := "x=(\n1 \n);".toList

theorem format_settles_looseVariable :
    Holds (run ⟨.initial, .empty, none⟩ [.changed (rootFile 'a') 1 [looseVariable]]).1.server
        (rootFile 'a') ⟨[47, 97]⟩ ⟨looseVariable, 1⟩ (.ofText ⟨[47, 97]⟩ looseVariable) ∧
      ∃ e, ((run ⟨.initial, .empty, none⟩ [.changed (rootFile 'a') 1 [looseVariable]]).1.step
          (.format (rootFile 'a'))).2.1 = .edits [e] ∧
        ∃ e', ((run ⟨.initial, .empty, none⟩ [.changed (rootFile 'a') 1 [looseVariable],
            .changed (rootFile 'a') 2 [e.apply looseVariable]]).1.step
            (.format (rootFile 'a'))).2.1 = .edits [e'] ∧ e'.newText = e.apply looseVariable := by
  have hpath : (rootFile 'a').toFilePath? = some ⟨[47, 97]⟩ := by decide +kernel
  have hholds := holds_changed ⟨.initial, .empty, none⟩ hpath 1 looseVariable
  obtain ⟨e, he, hsettled⟩ := format_settles.2 .empty none
    [.changed (rootFile 'a') 1 [looseVariable]] (rootFile 'a') ⟨[47, 97]⟩ ⟨looseVariable, 1⟩
    (.ofText ⟨[47, 97]⟩ looseVariable) hholds (by decide +kernel) (by decide +kernel)
  obtain ⟨_, rfl, _, e', he', htext⟩ := hsettled 2 [] (by simp)
  exact ⟨hholds, e, he, e', he', htext⟩

end Session
end Scad
