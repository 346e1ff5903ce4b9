import Scad.Proofs.Checked.Analysis
import Scad.Proofs.Workspace.History

/-!
# Scad.Proofs.Checked.Workspace

The workspace with records in place of analyses. Every look-up in a source, in the tokens of a file
or in the tables of its lines is one that can fail.

* `Checked.Engine`: the records of the files of the editor and of those read from disk.
* `Checked.Engine.call`: one call, with its answer.
* `Workspace.engine`: the records of a workspace. While its analyses come from texts
  (`Workspace.Sound`), a call gives the records and the answer of the workspace (`call_engine`), and
  so does every sequence of calls (`run_engine`).
* `Checked.no_misuse`: no text and no sequence of calls makes a look-up fail.
-/

namespace Scad

namespace Table

variable {κ α β : Type} [DecidableEq κ]

def map (f : α → β) (t : Table κ α) : Table κ β := ⟨t.entries.map fun e => (e.1, f e.2)⟩

@[simp] theorem get?_map (f : α → β) (t : Table κ α) (k : κ) :
    (t.map f).get? k = (t.get? k).map f := by
  simp only [get?, map, List.find?_map, Option.map_map]
  rfl

theorem map_erase (f : α → β) (t : Table κ α) (k : κ) : (t.erase k).map f = (t.map f).erase k := by
  simp only [erase, map, List.filter_map]
  rfl

theorem map_insert (f : α → β) (t : Table κ α) (k : κ) (a : α) :
    (t.insert k a).map f = (t.map f).insert k (f a) := by
  have herase := congrArg Table.entries (map_erase f t k)
  simp only [map] at herase
  simp only [insert, map, List.map_cons, herase]

theorem forall_erase {P : α → Prop} {t : Table κ α} {k : κ} (ht : ∀ j, ∀ a ∈ t.get? j, P a) :
    ∀ j, ∀ a ∈ (t.erase k).get? j, P a := by
  intro j a ha
  rw [get?_erase] at ha
  split at ha
  · cases ha
  · exact ht j a ha

theorem forall_insert {P : α → Prop} {t : Table κ α} {k : κ} {b : α}
    (ht : ∀ j, ∀ a ∈ t.get? j, P a) (hb : P b) : ∀ j, ∀ a ∈ (t.insert k b).get? j, P a := by
  intro j a ha
  by_cases hj : j = k
  · rw [hj, get?_insert_self] at ha
    cases ha
    exact hb
  · rw [get?_insert_of_ne _ _ hj] at ha
    exact ht j a ha

end Table

namespace Workspace

inductive Answer where
  | done
  | candidates (found : List Candidate)
  | definition (found : Option (Declaration Place))
  | declarations (found : List (Declaration Place))
  | signature (text : String)
  | reprint (text : Option (List Char))

def Call.answer (disk : Disk) (w : Workspace) : Call → Answer
  | .register _ _ | .update _ _ | .forget _ | .write _ _ | .remove _ => .done
  | .candidates file offset => .candidates (w.candidates disk file offset).2
  | .definition file offset => .definition (w.definition? disk file offset).2
  | .declarations file => .declarations (w.declarations file)
  | .signature d => .signature (w.signature d)
  | .reprint file => .reprint (w.reprint? file)

def answers (disk : Disk) (w : Workspace) : List Call → List Answer
  | [] => []
  | c :: cs => c.answer disk w :: answers (c.disk disk) (c.workspace disk w) cs

end Workspace

namespace Checked

/-! ## The directory of a path -/

/-- The number of bytes before the last slash of a text. -/
def lastSlash : List Char → Option Nat
  | [] => none
  | c :: cs =>
    match lastSlash cs with
    | some n => some (c.utf8Size + n)
    | none => if c = '/' then some 0 else none

/-- The characters that take the first `n` bytes of a text, none of them in part. -/
def cutBytes : List Char → Nat → Checked (List Char)
  | _, 0 => return []
  | [], n + 1 => .error (.slice 0 (n + 1) 0)
  | c :: cs, n + 1 =>
    if c.utf8Size ≤ n + 1 then do
      return c :: (← cutBytes cs (n + 1 - c.utf8Size))
    else
      .error (.slice 0 (n + 1) c.utf8Size)

/-- The part of a path up to its last slash. -/
def directoryOf (typed : List Char) : Checked (List Char) :=
  match lastSlash typed with
  | none => return []
  | some slash => cutBytes typed (slash + 1)

def byteLength : List Char → Nat
  | [] => 0
  | c :: cs => c.utf8Size + byteLength cs

theorem byteLength_append (s t : List Char) :
    byteLength (s ++ t) = byteLength s + byteLength t := by
  induction s with
  | nil => exact (Nat.zero_add _).symm
  | cons c s ih => rw [List.cons_append, byteLength, byteLength, ih, Nat.add_assoc]

theorem lastSlash_of_none {s : List Char} (h : '/' ∉ s) : lastSlash s = none := by
  induction s with
  | nil => rfl
  | cons c s ih =>
    obtain ⟨hc, hs⟩ := not_or.1 (List.mem_cons.not.1 h)
    rw [lastSlash, ih hs]
    exact if_neg (Ne.symm hc)

theorem lastSlash_append (s : List Char) {t : List Char} (h : '/' ∉ t) :
    lastSlash (s ++ '/' :: t) = some (byteLength s) := by
  induction s with
  | nil =>
    rw [List.nil_append, lastSlash, lastSlash_of_none h]
    rfl
  | cons c s ih =>
    rw [List.cons_append, lastSlash, ih]
    rfl

theorem cutBytes_append (s t : List Char) : cutBytes (s ++ t) (byteLength s) = .ok s := by
  induction s with
  | nil =>
    rw [byteLength, cutBytes]
    rfl
  | cons c s ih =>
    have hpos := Char.utf8Size_pos c
    obtain ⟨n, hn⟩ : ∃ n, c.utf8Size + byteLength s = n + 1 :=
      ⟨c.utf8Size + byteLength s - 1, by omega⟩
    have hrest : n + 1 - c.utf8Size = byteLength s := by omega
    rw [byteLength, hn, List.cons_append, cutBytes, if_pos (by omega), hrest, ih]
    rfl

theorem directoryOf_eq (typed : List Char) :
    directoryOf typed = .ok (typed.reverse.dropWhile (· != '/')).reverse := by
  by_cases h : '/' ∈ typed
  · obtain ⟨t, s, hsplit, ht⟩ := List.eq_append_cons_of_mem (List.mem_reverse.2 h)
    have htyped : typed = s.reverse ++ '/' :: t.reverse := by
      rw [← List.reverse_reverse typed, hsplit]
      simp
    have hslash : byteLength s.reverse + 1 = byteLength (s.reverse ++ ['/']) := by
      rw [byteLength_append]
      rfl
    have hdrop : (t ++ '/' :: s).dropWhile (· != '/') = '/' :: s := by
      rw [List.dropWhile_append_of_pos fun c hc => by
        rw [bne_iff_ne]
        rintro rfl
        exact ht hc]
      rfl
    rw [directoryOf, htyped, lastSlash_append _ (by simpa using ht)]
    dsimp only
    rw [hslash, List.append_cons, cutBytes_append]
    simp [hdrop]
  · have hnil : typed.reverse.dropWhile (· != '/') = [] := by
      refine List.dropWhile_eq_nil_iff.2 fun c hc => ?_
      rw [bne_iff_ne]
      rintro rfl
      exact h (List.mem_reverse.1 hc)
    rw [directoryOf, lastSlash_of_none h, hnil]
    rfl

/-- The suggestions for the rest of a path of which `typed` is there. -/
def pathCandidates (disk : Disk) (file : FilePath) (typed : List Char) :
    Checked (List Candidate) := do
  let directory := FilePath.ofString (String.ofList (← directoryOf typed))
  match file.parent?.bind fun parent => disk.list? (parent.join directory) with
  | none => return []
  | some entries =>
    let found := entries.filterMap fun (name, e) => Workspace.entryCandidate? name e
    return found.mergeSort fun a b => decide (a.label ≤ b.label)

theorem pathCandidates_eq (disk : Disk) (file : FilePath) (typed : List Char) :
    pathCandidates disk file typed = .ok (Workspace.pathCandidates disk file typed) := by
  rw [pathCandidates, directoryOf_eq, ok_bind, Workspace.pathCandidates]
  dsimp only
  generalize (file.parent?.bind fun parent => disk.list? (parent.join
    (.ofString (String.ofList (typed.reverse.dropWhile (· != '/')).reverse)))) = found
  cases found with
  | none => rfl
  | some entries => rfl

/-! ## The engine

The functions have the names of those of `Workspace`, and do the same with records. -/

/-- The records of the files of the editor and of those read from disk. -/
structure Engine where
  files : Table (List FilePath.Component) Record
  library : Table (List FilePath.Component) Record

namespace Engine

def empty : Engine := ⟨Table.empty, Table.empty⟩

def analysis? (e : Engine) (file : FilePath) : Option Record := e.files.get? file.components

def libraryAnalysis? (e : Engine) (file : FilePath) : Option Record :=
  e.library.get? file.components

def register (e : Engine) (file : FilePath) (text : List Char) : Checked Engine := do
  let r ← Record.ofText file text
  return ⟨e.files.insert file.components r, e.library.erase file.components⟩

def forget (e : Engine) (file : FilePath) : Engine :=
  ⟨e.files.erase file.components, e.library.erase file.components⟩

def load (e : Engine) (disk : Disk) (path : FilePath) : Checked (Engine × Option Record) :=
  match (e.analysis? path).or (e.libraryAnalysis? path) with
  | some r => return (e, some r)
  | none =>
    match disk.readText? path with
    | some text => do
      let r ← Record.ofText path text
      return (⟨e.files, e.library.insert path.components r⟩, some r)
    | none => return (e, none)

def included (disk : Disk) (file : FilePath) (e : Engine) :
    List Reference → Checked (Engine × List (Declaration Place))
  | [] => return (e, [])
  | r :: rs =>
    match Workspace.target? file r with
    | none => included disk file e rs
    | some path => do
      let (e, found) ← e.load disk path
      let (e, others) ← included disk file e rs
      return (e, (found.elim [] Record.declarations) ++ others)

def scope (e : Engine) (disk : Disk) (r : Record) (offset : Nat) :
    Checked (Engine × List (Declaration Place)) := do
  let (e, others) ← included disk r.file e r.references
  return (e, Declaration.visible r.declarations offset ++ others)

/-- The suggestions at an offset of a registered file with the given tokens. -/
def suggest (e : Engine) (disk : Disk) (r : Record) (ms : List Mark) (offset : Nat) :
    Checked (Engine × List Candidate) := do
  let inside (m : Mark) := m.kind == .path && decide (m.start < offset) && decide (offset < m.stop)
  match ms.find? inside with
  | some m =>
    let typed ← slice r.source (m.start + 1) offset
    return (e, ← pathCandidates disk r.file typed)
  | none =>
    let (e, ds) ← e.scope disk r offset
    let declared := (Candidate.distinct [] ds).map Candidate.ofDeclaration
    return (e, declared ++ Candidate.keywords.map Candidate.ofKeyword)

def candidates (e : Engine) (disk : Disk) (file : FilePath) (offset : Nat) :
    Checked (Engine × List Candidate) :=
  match e.analysis? file with
  | none => return (e, [])
  | some r =>
    match r.tokens with
    | none => return (e, [])
    | some ms => e.suggest disk r ms offset

/-- The declaration of the name with index `i` among the tokens of a registered file. -/
def resolve (e : Engine) (disk : Disk) (r : Record) (offset i : Nat) (m : Mark) :
    Checked (Engine × Option (Declaration Place)) := do
  if m.kind ≠ .ident then
    return (e, none)
  else
    let name := String.ofList (← m.text r.source)
    if Candidate.keywords.contains name then
      return (e, none)
    else
      let preferred := if ← r.isCall i then [.module, .function] else [.variable]
      let (e, ds) ← e.scope disk r offset
      return (e, Workspace.resolve? preferred name ds)

def definition (e : Engine) (disk : Disk) (file : FilePath) (offset : Nat) :
    Checked (Engine × Option (Declaration Place)) :=
  match e.analysis? file with
  | none => return (e, none)
  | some r =>
    match r.tokenAt offset with
    | none => return (e, none)
    | some (i, m) => e.resolve disk r offset i m

def signature (e : Engine) (d : Declaration Place) : Checked String :=
  match (e.analysis? d.file).or (e.libraryAnalysis? d.file) with
  | some r => do
    return String.ofList (← signatureOf r.source d.kind (r.tokensIn d.span))
  | none => return d.kind.keyword ++ " " ++ d.name

def reprint (e : Engine) (file : FilePath) : Checked (Option (List Char)) :=
  match e.analysis? file with
  | none => return none
  | some r =>
    match r.tokens with
    | none => return none
    | some ms => do
      return some (← reindent r.source ms)

/-- The engine after a call, and the answer. -/
def call (disk : Disk) (e : Engine) : Workspace.Call → Checked (Engine × Workspace.Answer)
  | .register file text | .update file text => do
    return (← e.register file text, .done)
  | .forget file => return (e.forget file, .done)
  | .candidates file offset => do
    let (e, found) ← e.candidates disk file offset
    return (e, .candidates found)
  | .definition file offset => do
    let (e, found) ← e.definition disk file offset
    return (e, .definition found)
  | .declarations file =>
    return (e, .declarations (((e.analysis? file).map Record.declarations).getD []))
  | .signature d => do
    return (e, .signature (← e.signature d))
  | .reprint file => do
    return (e, .reprint (← e.reprint file))
  | .write _ _ | .remove _ => return (e, .done)

def run (disk : Disk) (e : Engine) :
    List Workspace.Call → Checked (Engine × List Workspace.Answer)
  | [] => return (e, [])
  | c :: cs => do
    let (e, answer) ← e.call disk c
    let (e, answers) ← run (c.disk disk) e cs
    return (e, answer :: answers)

end Engine
end Checked

/-- The text of an analysis has the tokens of the analysis. -/
def Analysis.Sound (a : Analysis) : Prop := ∀ ts, a.tokens = some ts → Reads false 0 a.source ts

theorem Analysis.sound_ofText (file : FilePath) (text : List Char) :
    (Analysis.ofText file text).Sound := by
  intro ts hts
  rw [Analysis.ofText] at hts ⊢
  cases h : tokenize text with
  | ok us =>
    simp only [h] at hts ⊢
    cases hts
    exact tokenizeFrom_eq_ok_iff.1 h
  | error e =>
    simp only [h] at hts
    cases hts

theorem Analysis.Sound.stands {a : Analysis} (h : a.Sound) {ts : List Token}
    (hts : a.tokens = some ts) : ∀ t ∈ ts, t.Stands a.source := by
  obtain ⟨tail, hsource, hw⟩ := (h ts hts).written
  rw [hsource]
  exact fun t ht => Token.stands_of_written hw ht

theorem Analysis.tokensIn_record (a : Analysis) (span : Span Place) :
    a.record.tokensIn span = (a.tokensIn span).map Token.mark := by
  rw [Checked.Record.tokensIn, tokensIn, tokens_record]
  cases a.tokens with
  | none => rfl
  | some ts => exact List.filter_map

theorem Analysis.Sound.stands_tokensIn {a : Analysis} (h : a.Sound) (span : Span Place) :
    ∀ t ∈ a.tokensIn span, t.Stands a.source := by
  intro t ht
  rw [Analysis.tokensIn] at ht
  cases hts : a.tokens with
  | none =>
    rw [hts] at ht
    cases ht
  | some ts =>
    rw [hts] at ht
    exact h.stands hts t (List.mem_filter.1 ht).1

namespace Workspace

open Checked

/-- The records of a workspace. -/
def engine (w : Workspace) : Engine := ⟨w.files.map Analysis.record, w.library.map Analysis.record⟩

/-- All analyses come from the texts of their files. -/
structure Sound (w : Workspace) : Prop where
  files : ∀ k, ∀ a ∈ w.files.get? k, a.Sound
  library : ∀ k, ∀ a ∈ w.library.get? k, a.Sound

theorem sound_empty : Sound empty := by
  constructor
  · intro k a h
    cases h
  · intro k a h
    cases h

theorem sound_register {w : Workspace} (hw : w.Sound) (file : FilePath) (text : List Char) :
    (w.register file text).Sound :=
  ⟨Table.forall_insert hw.files (Analysis.sound_ofText file text), Table.forall_erase hw.library⟩

theorem sound_forget {w : Workspace} (hw : w.Sound) (file : FilePath) : (w.forget file).Sound :=
  ⟨Table.forall_erase hw.files, Table.forall_erase hw.library⟩

theorem sound_load {w : Workspace} (hw : w.Sound) (disk : Disk) (path : FilePath) :
    (w.load disk path).1.Sound := by
  unfold load
  split
  · exact hw
  · split
    · rename_i text _
      exact ⟨hw.files, Table.forall_insert hw.library (Analysis.sound_ofText path text)⟩
    · exact hw

theorem sound_loadAll {w : Workspace} (hw : w.Sound) (disk : Disk) (paths : List FilePath) :
    (loadAll disk w paths).Sound := by
  induction paths generalizing w with
  | nil => exact hw
  | cons path paths ih => exact ih (sound_load hw disk path)

/-- Every call leaves analyses of texts only. -/
theorem sound_call {w : Workspace} (hw : w.Sound) (disk : Disk) (c : Call) :
    (c.workspace disk w).Sound := by
  cases c with
  | register file text => exact sound_register hw file text
  | update file text => exact sound_register hw file text
  | forget file => exact sound_forget hw file
  | candidates file offset =>
    rw [Call.workspace, candidates_fst]
    exact sound_loadAll hw disk _
  | definition file offset =>
    rw [Call.workspace, definition?_fst]
    exact sound_loadAll hw disk _
  | declarations | signature | reprint | write | remove => exact hw

/-! ## Calls and their answers -/

@[simp] theorem analysis?_engine (w : Workspace) (file : FilePath) :
    w.engine.analysis? file = (w.analysis? file).map Analysis.record :=
  Table.get?_map ..

@[simp] theorem libraryAnalysis?_engine (w : Workspace) (file : FilePath) :
    w.engine.libraryAnalysis? file = (w.libraryAnalysis? file).map Analysis.record :=
  Table.get?_map ..

theorem register_engine (w : Workspace) (file : FilePath) (text : List Char) :
    w.engine.register file text = .ok (w.register file text).engine := by
  rw [Engine.register, Record.ofText_eq, ok_bind, pure_eq_ok, register, engine, engine,
    Table.map_insert, Table.map_erase]

theorem forget_engine (w : Workspace) (file : FilePath) :
    w.engine.forget file = (w.forget file).engine := by
  rw [Engine.forget, forget, engine, engine, Table.map_erase, Table.map_erase]

theorem load_engine (w : Workspace) (disk : Disk) (path : FilePath) :
    w.engine.load disk path =
      .ok ((w.load disk path).1.engine, (w.load disk path).2.map Analysis.record) := by
  rw [Engine.load, analysis?_engine, libraryAnalysis?_engine, ← Option.map_or, load]
  cases (w.analysis? path).or (w.libraryAnalysis? path) with
  | some a => rfl
  | none =>
    cases disk.readText? path with
    | none => rfl
    | some text =>
      simp only [Option.map_none, Record.ofText_eq, ok_bind, pure_eq_ok, engine, Table.map_insert,
        Option.map_some]

theorem included_engine (disk : Disk) (file : FilePath) (w : Workspace) (rs : List Reference) :
    Engine.included disk file w.engine rs =
      .ok ((included disk file w rs).1.engine, (included disk file w rs).2) := by
  induction rs generalizing w with
  | nil => rfl
  | cons r rs ih =>
    rw [Engine.included, included]
    cases target? file r with
    | none => exact ih w
    | some path =>
      simp only [load_engine, ok_bind, ih, pure_eq_ok]
      cases (w.load disk path).2 with
      | none => rfl
      | some a => rfl

theorem scope_engine (w : Workspace) (disk : Disk) (a : Analysis) (offset : Nat) :
    w.engine.scope disk a.record offset =
      .ok ((w.scope disk a offset).1.engine, (w.scope disk a offset).2) := by
  rw [Engine.scope, Analysis.file_record, Analysis.references_record, included_engine]
  rfl

/-- The typed part of a path is found. -/
theorem slice_typed {source : List Char} {t : Token} {offset : Nat} (ht : t.Stands source)
    (hstart : t.start < offset) (hstop : offset < t.stop) :
    slice source (t.start + 1) offset = .ok ((t.text.take (offset - t.start)).drop 1) := by
  have hlength : t.stop = t.start + t.text.length := rfl
  obtain ⟨n, hn⟩ : ∃ n, offset - t.start = n + 1 := ⟨offset - t.start - 1, by omega⟩
  have hsplit : t.text = t.text.take 1 ++ (t.text.take (n + 1)).drop 1 ++ t.text.drop (n + 1) := by
    have hfirst : t.text.take 1 = (t.text.take (n + 1)).take 1 := by
      rw [List.take_take, Nat.min_eq_left (by omega)]
    rw [hfirst, List.take_append_drop, List.take_append_drop]
  rw [hn]
  refine ht.slice hsplit ?_ ?_
  · rw [List.length_take]
    omega
  · rw [List.length_drop, List.length_take]
    omega

theorem candidates_engine {w : Workspace} (hw : w.Sound) (disk : Disk) (file : FilePath)
    (offset : Nat) :
    w.engine.candidates disk file offset =
      .ok ((w.candidates disk file offset).1.engine, (w.candidates disk file offset).2) := by
  rw [Engine.candidates, analysis?_engine, candidates]
  cases ha : w.analysis? file with
  | none => rfl
  | some a =>
    simp only [Option.map_some, Analysis.tokens_record]
    cases hts : a.tokens with
    | none => rfl
    | some ts =>
      have hfind : (ts.map Token.mark).find? (fun m =>
            m.kind == .path && decide (m.start < offset) && decide (offset < m.stop)) =
          (ts.find? fun t =>
            t.kind == .path && decide (t.start < offset) && decide (offset < t.stop)).map
              Token.mark :=
        List.find?_map
      simp only [Option.map_some, Engine.suggest, hfind]
      cases hpath : ts.find? fun t =>
          t.kind == .path && decide (t.start < offset) && decide (offset < t.stop) with
      | none =>
        simp only [Option.map_none, scope_engine, ok_bind, pure_eq_ok]
      | some t =>
        have hinside := List.find?_some hpath
        simp only [Bool.and_eq_true, decide_eq_true_eq] at hinside
        have hstands := (hw.files _ a ha).stands hts t (List.mem_of_find?_eq_some hpath)
        simp only [Option.map_some, Token.start_mark, Analysis.source_record, Analysis.file_record,
          slice_typed hstands hinside.1.2 hinside.2, ok_bind, pathCandidates_eq, pure_eq_ok]

theorem definition_engine {w : Workspace} (hw : w.Sound) (disk : Disk) (file : FilePath)
    (offset : Nat) :
    w.engine.definition disk file offset =
      .ok ((w.definition? disk file offset).1.engine, (w.definition? disk file offset).2) := by
  rw [Engine.definition, analysis?_engine, definition?]
  cases ha : w.analysis? file with
  | none => rfl
  | some a =>
    simp only [Option.map_some, Option.bind_some]
    rcases tokenAt_eq a offset with ⟨hnone, hmark⟩ | ⟨before, t, rest, hts, hsome, hmark⟩
    · rw [hnone, hmark]
      rfl
    have hstands := (hw.files _ a ha).stands hts
    have ht : t.Stands a.source := hstands t (by simp)
    have hcall := isCall_eq hts fun u hu => hstands u (by simp [hu])
    simp only [hsome, hmark, Option.map_some, Engine.resolve, Token.kind_mark,
      Analysis.source_record, Token.text_mark ht, ok_bind]
    by_cases hkind : t.kind = .ident
    · by_cases hword : Candidate.keywords.contains (String.ofList t.text) = true
      · rw [if_neg (not_not.2 hkind), if_pos hword, if_pos (.inr hword)]
        rfl
      · have hname : ¬ (t.kind ≠ .ident ∨
            Candidate.keywords.contains (String.ofList t.text) = true) :=
          fun h => h.elim (· hkind) hword
        rw [if_neg (not_not.2 hkind), if_neg hword, if_neg hname, hcall]
        simp only [ok_bind, scope_engine, pure_eq_ok]
    · rw [if_pos hkind, if_pos (.inl hkind)]
      rfl

theorem signature_engine {w : Workspace} (hw : w.Sound) (d : Declaration Place) :
    w.engine.signature d = .ok (w.signature d) := by
  rw [Engine.signature, analysis?_engine, libraryAnalysis?_engine, ← Option.map_or, signature]
  cases ha : (w.analysis? d.file).or (w.libraryAnalysis? d.file) with
  | none => rfl
  | some a =>
    have hsound : a.Sound := by
      rcases Option.or_eq_some_iff.1 ha with h | ⟨_, h⟩
      · exact hw.files _ a h
      · exact hw.library _ a h
    rw [Option.map_some]
    dsimp only
    rw [Analysis.tokensIn_record, Analysis.source_record,
      signatureOf_eq (hsound.stands_tokensIn d.span)]
    rfl

theorem reprint_engine {w : Workspace} (hw : w.Sound) (file : FilePath) :
    w.engine.reprint file = .ok (w.reprint? file) := by
  rw [Engine.reprint, analysis?_engine, reprint?]
  cases ha : w.analysis? file with
  | none => rfl
  | some a =>
    simp only [Option.map_some, Analysis.tokens_record]
    cases hts : a.tokens with
    | none => simp [hts]
    | some ts =>
      have hreads := hw.files _ a ha ts hts
      simp only [Option.map_some, Analysis.source_record, reindent_eq hreads, ok_bind]
      simp [hts]

theorem call_engine {w : Workspace} (hw : w.Sound) (disk : Disk) (c : Call) :
    w.engine.call disk c = .ok ((c.workspace disk w).engine, c.answer disk w) := by
  cases c with
  | register file text | update file text =>
    rw [Engine.call, register_engine]
    rfl
  | forget file =>
    rw [Engine.call, forget_engine]
    rfl
  | candidates file offset =>
    rw [Engine.call, candidates_engine hw]
    rfl
  | definition file offset =>
    rw [Engine.call, definition_engine hw]
    rfl
  | declarations file =>
    rw [Engine.call, analysis?_engine, Option.map_map]
    rfl
  | signature d =>
    rw [Engine.call, signature_engine hw]
    rfl
  | reprint file =>
    rw [Engine.call, reprint_engine hw]
    rfl
  | write | remove => rfl

theorem run_engine {w : Workspace} (hw : w.Sound) (disk : Disk) (cs : List Call) :
    w.engine.run disk cs = .ok ((run disk w cs).engine, answers disk w cs) := by
  induction cs generalizing disk w with
  | nil => rfl
  | cons c cs ih =>
    rw [Engine.run, call_engine hw, ok_bind]
    dsimp only
    rw [ih (sound_call hw disk c), ok_bind]
    rfl

end Workspace

/-- Nothing that is looked up is missing. The record of every text is found and is that of its
analysis, and every sequence of calls, between which the files on disk change, leaves the records of
the workspace after these calls and gives its answers. -/
theorem Checked.no_misuse :
    (∀ file text, Record.ofText file text = .ok (Analysis.ofText file text).record) ∧
      ∀ disk calls, Engine.run disk .empty calls =
        .ok ((Workspace.run disk .empty calls).engine, Workspace.answers disk .empty calls) :=
  ⟨Record.ofText_eq, fun disk calls => Workspace.run_engine Workspace.sound_empty disk calls⟩

end Scad
