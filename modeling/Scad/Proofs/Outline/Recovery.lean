import Scad.Proofs.Outline.Core
import Scad.Proofs.Outline.Grammar

/-!
# Scad.Proofs.Outline.Recovery

Recovery from missing semicolons.

* `Program.Cut p ls lasts`: the leaves of the program without the semicolons of some functions and
  variables, each at the end of its block or before a module or a function. Those semicolons stood
  right after the leaves `lasts`.
* `Outline.State.Adds`: what reading some leaves adds to an outline, but for the documentation and
  the ends of declarations. `Outline.State.adds_cut`: leaves without semicolons add what the program
  adds, and one fault for each missing semicolon.
* `Outline.ofTokens_cut`: the outline of a program with missing semicolons.
-/

namespace Scad

open Scad.Bracket Leaf Declaration

/-- The fault of an expression that lacks its semicolon after the leaf. -/
def Leaf.unterminated (l : Leaf) : Fault := ⟨l.token.stop, .missingSemicolon⟩

/-- The leaves halt an expression before them: they begin with a closing brace or with the keyword
of a declaration, if with anything. -/
def Leaf.Halt (rest : List Leaf) : Prop :=
  ∀ l ∈ rest.head?, l.isAny [Token.braceClose, "module", "function"] = true

namespace Program

/-- The definition without its semicolon. -/
def Definition.body (d : Definition) : List Leaf := d.equals.leaf :: d.value.leaves

/-- The leaf before the semicolon. -/
def Definition.last (d : Definition) : Leaf := d.value.leaves.getLast?.getD d.equals.leaf

/-- An expression before the program ends without a semicolon: nothing comes in its block any more,
or a module or a function does. -/
def Resumes : Program → Prop
  | .nil | .moduleLine _ _ _ _ | .moduleBlock _ _ _ _ _ _ | .function _ _ _ => True
  | .assignment _ _ _ | .reference _ _ _ _ | .line _ _ _ | .block _ _ _ _ _ => False

/-- A definition before the program `rest`, with or without its semicolon. -/
inductive Definition.Cut (d : Definition) (rest : Program) : List Leaf → List Leaf → Prop where
  | kept : Cut d rest d.leaves []
  | dropped : rest.Resumes → Cut d rest d.body [d.last]

/-- The leaves of a program where some functions and variables lack their semicolons, and the leaves
that those semicolons stood right after. -/
inductive Cut : Program → List Leaf → List Leaf → Prop where
  | nil : Cut .nil [] []
  | moduleLine {h : Head "module"} {s : Simple} {semicolon : Mark ";"} {rest : Program}
      {ls lasts : List Leaf} : Cut rest ls lasts →
      Cut (.moduleLine h s semicolon rest) (h.leaves ++ (s.leaves ++ semicolon.leaf :: ls)) lasts
  | moduleBlock {h : Head "module"} {s : Simple} {opener : Mark Token.braceOpen} {inner : Program}
      {closer : Mark Token.braceClose} {rest : Program} {ks ls inside lasts : List Leaf} :
      Cut inner ks inside → Cut rest ls lasts →
      Cut (.moduleBlock h s opener inner closer rest)
        (h.leaves ++ (s.leaves ++ opener.leaf :: (ks ++ closer.leaf :: ls))) (inside ++ lasts)
  | function {h : Head "function"} {d : Definition} {rest : Program}
      {ks ls last lasts : List Leaf} : d.Cut rest ks last → Cut rest ls lasts →
      Cut (.function h d rest) (h.leaves ++ (ks ++ ls)) (last ++ lasts)
  | assignment {name : VariableName} {d : Definition} {rest : Program}
      {ks ls last lasts : List Leaf} : d.Cut rest ks last → Cut rest ls lasts →
      Cut (.assignment name d rest) (name.leaf :: (ks ++ ls)) (last ++ lasts)
  | reference {word : ReferenceWord} {path : Path} {semicolon : Option (Mark ";")} {rest : Program}
      {ls lasts : List Leaf} : Cut rest ls lasts →
      Cut (.reference word path semicolon rest)
        (word.leaf :: path.leaf :: (semicolon.toList.map Mark.leaf ++ ls)) lasts
  | line {s : Statement} {semicolon : Mark ";"} {rest : Program} {ls lasts : List Leaf} :
      Cut rest ls lasts →
      Cut (.line s semicolon rest) (s.leaves ++ semicolon.leaf :: ls) lasts
  | block {s : Statement} {opener : Mark Token.braceOpen} {inner : Program}
      {closer : Mark Token.braceClose} {rest : Program} {ks ls inside lasts : List Leaf} :
      Cut inner ks inside → Cut rest ls lasts →
      Cut (.block s opener inner closer rest)
        (s.leaves ++ opener.leaf :: (ks ++ closer.leaf :: ls)) (inside ++ lasts)

theorem Definition.last_mem_body (d : Definition) : d.last ∈ d.body := by
  rw [Definition.last, Definition.body]
  cases h : d.value.leaves.getLast? with
  | none => exact List.mem_cons_self
  | some l => exact List.mem_cons_of_mem _ (List.mem_of_getLast? h)

namespace Definition.Cut

variable {d : Definition} {rest : Program} {ks last : List Leaf}

theorem last_sublist (h : d.Cut rest ks last) : last.Sublist ks := by
  cases h with
  | kept => exact List.nil_sublist _
  | dropped _ => exact List.singleton_sublist.2 d.last_mem_body

/-- A semicolon is no bracket. -/
theorem filter_role (h : d.Cut rest ks last) :
    (ks.filter fun l => l.role ≠ .plain) = d.leaves.filter fun l => l.role ≠ .plain := by
  cases h with
  | kept => rfl
  | dropped _ =>
    have hrole : d.semicolon.leaf.role = .plain := role_of_is d.semicolon.reads
    simp [Definition.body, Definition.leaves, List.filter_cons, hrole]

end Definition.Cut

section Cut

variable {p : Program} {ls lasts : List Leaf}

/-- The leaves before missing semicolons stand in the order of the source. -/
theorem Cut.lasts_sublist (h : p.Cut ls lasts) : lasts.Sublist ls := by
  induction h with
  | nil => exact .slnil
  | moduleLine _ ih =>
    exact ((ih.cons _).trans (List.sublist_append_right _ _)).trans (List.sublist_append_right _ _)
  | moduleBlock _ _ ihi ih =>
    exact (((ihi.append (ih.cons _)).cons _).trans (List.sublist_append_right _ _)).trans
      (List.sublist_append_right _ _)
  | function hd _ ih => exact (hd.last_sublist.append ih).trans (List.sublist_append_right _ _)
  | assignment hd _ ih => exact (hd.last_sublist.append ih).cons _
  | reference _ ih => exact ((ih.trans (List.sublist_append_right _ _)).cons _).cons _
  | line _ ih => exact (ih.cons _).trans (List.sublist_append_right _ _)
  | block _ _ ihi ih =>
    exact ((ihi.append (ih.cons _)).cons _).trans (List.sublist_append_right _ _)

/-- No item loses its first leaf. -/
theorem Cut.head?_append (h : p.Cut ls lasts) (rest : List Leaf) :
    (ls ++ rest).head? = (p.leaves ++ rest).head? := by
  cases h with
  | nil => rfl
  | moduleLine _ => rfl
  | moduleBlock _ _ => rfl
  | function _ _ => rfl
  | assignment _ _ => rfl
  | @reference _ _ semicolon _ _ _ _ => cases semicolon <;> rfl
  | @line s _ _ _ _ _ => simp [Program.leaves]
  | @block s _ _ _ _ _ _ _ _ _ _ => simp [Program.leaves]

theorem Cut.halt (h : p.Cut ls lasts) (hp : p.Resumes) {rest : List Leaf}
    (hrest : ∀ l ∈ rest.head?, l.is Token.braceClose = true) : Halt (ls ++ rest) := by
  intro l hl
  rw [h.head?_append] at hl
  cases p with
  | nil => exact isAny_of_is (hrest l hl) (by simp)
  | moduleLine head _ _ _ =>
    cases hl
    exact isAny_of_is head.keyword.reads (by simp)
  | moduleBlock head _ _ _ _ _ =>
    cases hl
    exact isAny_of_is head.keyword.reads (by simp)
  | function head _ _ =>
    cases hl
    exact isAny_of_is head.keyword.reads (by simp)
  | assignment _ _ _ => exact hp.elim
  | reference _ _ _ _ => exact hp.elim
  | line _ _ _ => exact hp.elim
  | block _ _ _ _ _ => exact hp.elim

end Cut
end Program

open Program

/-! ## Reading -/

/-- An expression without its semicolon ends before a closing brace or a keyword. -/
theorem Item.definition_body (d : Definition) {rest : List Leaf} (hrest : Halt rest) :
    definition d.equals.leaf.token.stop (d.value.leaves ++ rest) =
      (⟨false, d.value.leaves, rest⟩, [d.last.unterminated]) := by
  have hend : expression 0 rest = ⟨false, [], rest⟩ := by
    cases rest with
    | nil => rfl
    | cons l rest =>
      have hl := hrest l rfl
      rw [expression, is_of_isAny hl (by decide), if_neg (fun h => Bool.false_ne_true h.2),
        if_pos ⟨rfl, hl⟩]
  have he := expression_of_leads d.value.nested rest
  have hlast : (d.value.leaves.getLast?.map fun l => l.token.stop).getD d.equals.leaf.token.stop =
      d.last.token.stop := by
    rw [Definition.last]
    cases d.value.leaves.getLast? <;> rfl
  rw [List.length_nil, hend, Stretch.prepend, List.append_nil] at he
  rw [definition, he, hlast]
  rfl

namespace Outline.State

/-- The state after more faults. -/
def fail (st : State) (fs : List Fault) : State := { st with faults := st.faults ++ fs }

theorem fail_nil (st : State) : st.fail [] = st := by
  rw [fail, List.append_nil]

theorem fail_fail (st : State) (fs gs : List Fault) :
    (st.fail fs).fail gs = st.fail (fs ++ gs) := by
  simp [fail]

theorem add_fail (st : State) (ds : List (Declaration Nat)) (rs : List Reference) (stop : Nat)
    (fs : List Fault) : (st.add ds rs stop).fail fs = (st.fail fs).add ds rs stop := rfl

theorem enter_fail (st : State) (owner : Option (Leaf × Token)) (stop : Nat) (fs : List Fault) :
    (st.enter owner stop).fail fs = (st.fail fs).enter owner stop := rfl

theorem step_declared_fail {it : Item} {kind : Declaration.Kind} {name : Token} (st : State)
    (hs : it.shape = .declared kind name) :
    st.step it = (st.add [declare kind it.first name it.stop []] [] it.stop).fail it.faults := by
  simp [step, place, add, fail, reference?, hs]

/-- Reading `ls` before `rest` adds declarations with the sketches `ds`, and the references and
faults given. -/
def Adds (eof : Nat) (ls rest : List Leaf) (ds : List Sketch) (rs : List Reference)
    (fs : List Fault) : Prop :=
  ∀ st : State, ∃ es stop, sketches es = ds ∧
    st.read eof (ls ++ rest) = ((st.add es rs stop).fail fs).read eof rest

section Adds

variable {eof : Nat} {ls ms rest : List Leaf} {ds es : List Sketch} {rs qs : List Reference}
  {fs gs : List Fault}

theorem adds_nil : Adds eof [] rest [] [] [] := by
  intro st
  refine ⟨[], st.stop, rfl, ?_⟩
  simp [add, fail]

theorem Adds.append (h : Adds eof ls (ms ++ rest) ds rs fs) (h' : Adds eof ms rest es qs gs) :
    Adds eof (ls ++ ms) rest (ds ++ es) (rs ++ qs) (fs ++ gs) := by
  intro st
  obtain ⟨as, stop, rfl, hls⟩ := h st
  obtain ⟨bs, stop', rfl, hms⟩ := h' ((st.add as rs stop).fail fs)
  refine ⟨as ++ bs, stop', sketches_append as bs, ?_⟩
  rw [List.append_assoc, hls, hms, ← add_fail, add_add, fail_fail]

/-- A block adds what is left of what its inside adds. -/
theorem Adds.block {opening : List Leaf} {owner : Option (Leaf × Token)} {stop : Nat}
    (hopen : ∀ (st : State) (ls : List Leaf),
      st.read eof (opening ++ ls) = (st.enter owner stop).read eof ls)
    {closer : Mark Token.braceClose} (h : Adds eof ls (closer.leaf :: rest) ds rs fs)
    (hclose : ∀ inner, sketches inner = ds →
      sketches (Frame.close ⟨owner, []⟩ inner closer.leaf.token.stop) = es) :
    Adds eof (opening ++ (ls ++ [closer.leaf])) rest es rs fs := by
  intro st
  obtain ⟨as, stop', has, hls⟩ := h (st.enter owner stop)
  refine ⟨Frame.close ⟨owner, []⟩ as closer.leaf.token.stop, closer.leaf.token.stop,
    hclose as has, ?_⟩
  rw [List.append_assoc, List.append_assoc, List.singleton_append, hopen, hls, add_fail, enter_fail,
    read_closer, ← add_fail]

variable (eof)

/-- A declaration that is complete adds its sketch and its faults, wherever it ends. -/
theorem adds_declared {it : Item} {kind : Declaration.Kind} {name : Token} {l : Leaf}
    (hnext : Item.next eof l ms = (it, rest)) (hms : ms = ls ++ rest)
    (hs : it.shape = .declared kind name) (stop : Nat) :
    Adds eof (l :: ls) rest [(declare kind it.first name stop []).sketch] [] it.faults := by
  intro st
  refine ⟨[declare kind it.first name it.stop []], it.stop, rfl, ?_⟩
  rw [List.cons_append, ← hms, read_cons, hnext, step_declared_fail st hs]

theorem adds_function (h : Head "function") {d : Definition} {more : Program} {ks last : List Leaf}
    (hd : d.Cut more ks last) (hrest : more.Resumes → Halt rest) (stop : Nat) :
    Adds eof (h.leaves ++ ks) rest
      [(declare .function h.keyword.leaf h.name.leaf.token stop []).sketch] []
      (last.map unterminated) := by
  cases hd with
  | kept => exact adds_declared eof (Item.next_function eof h d rest) (by simp) rfl stop
  | dropped hmore =>
    have hd := Item.definition_body d (hrest hmore)
    exact adds_declared eof (Item.next_function_of_definition eof h d.equals hd)
      (by simp [Definition.body]) rfl stop

theorem adds_assignment (name : VariableName) {d : Definition} {more : Program}
    {ks last : List Leaf} (hd : d.Cut more ks last) (hrest : more.Resumes → Halt rest)
    (stop : Nat) :
    Adds eof (name.leaf :: ks) rest [(declare .variable name.leaf name.leaf.token stop []).sketch]
      [] (last.map unterminated) := by
  cases hd with
  | kept => exact adds_declared eof (Item.next_variable eof name d rest) rfl rfl stop
  | dropped hmore =>
    have hd := Item.definition_body d (hrest hmore)
    exact adds_declared eof (Item.next_variable_of_definition eof name d.equals hd) rfl rfl stop

/-- Where no semicolon is missing nothing is added but what the program declares and refers to. -/
theorem adds_program (p : Program)
    (hrest : ∀ l ∈ rest.head?, l.is ";" = true → l.token.kind = .punct) :
    Adds eof p.leaves rest (sketches p.declarations) p.references [] := by
  intro st
  refine ⟨p.declarations, p.stop st.stop, rfl, ?_⟩
  rw [read_program eof p st hrest, fail_nil]

theorem adds_moduleBlock (h : Head "module") (s : Simple) (opener : Mark Token.braceOpen)
    {closer : Mark Token.braceClose} {inner : List (Declaration Nat)}
    (hinner : Adds eof ls (closer.leaf :: rest) (sketches inner) rs fs) :
    Adds eof (h.leaves ++ (s.leaves ++ opener.leaf :: (ls ++ [closer.leaf]))) rest
      [(declare .module h.keyword.leaf h.name.leaf.token closer.leaf.token.stop inner).sketch]
      rs fs := by
  have hopen : ∀ (st : State) (ls : List Leaf),
      st.read eof (h.leaves ++ (s.leaves ++ [opener.leaf]) ++ ls) =
        (st.enter (some (h.keyword.leaf, h.name.leaf.token)) opener.leaf.token.stop).read eof
          ls := by
    intro st ls
    simpa using read_moduleOpener eof st h s.bare opener ls
  have hclose : ∀ ds, sketches ds = sketches inner →
      sketches (Frame.close ⟨some (h.keyword.leaf, h.name.leaf.token), []⟩ ds
        closer.leaf.token.stop) =
      [(declare .module h.keyword.leaf h.name.leaf.token closer.leaf.token.stop inner).sketch] := by
    intro ds hds
    simp [Frame.close, sketch_declare, hds]
  simpa using hinner.block hopen hclose

theorem adds_block (s : Statement) (opener : Mark Token.braceOpen)
    {closer : Mark Token.braceClose} (hinner : Adds eof ls (closer.leaf :: rest) ds rs fs) :
    Adds eof (s.leaves ++ opener.leaf :: (ls ++ [closer.leaf])) rest ds rs fs := by
  have hopen : ∀ (st : State) (ls : List Leaf),
      st.read eof (s.leaves ++ [opener.leaf] ++ ls) =
        (st.enter none opener.leaf.token.stop).read eof ls := by
    intro st ls
    simpa using read_opener eof st s opener ls
  simpa using hinner.block hopen fun _ hds => hds

/-- What reads like a semicolon after the leaves of an item is one. -/
theorem punct_of_head_cut {p : Program} {lasts : List Leaf} (h : p.Cut ls lasts)
    (hrest : ∀ l ∈ rest.head?, l.is Token.braceClose = true) :
    ∀ l ∈ (ls ++ rest).head?, l.is ";" = true → l.token.kind = .punct := by
  intro l hl
  rw [h.head?_append] at hl
  refine punct_of_head (fun l hl hs => ?_) l hl
  rw [is_of_is (hrest l hl)] at hs
  cases hs

/-- Reading a program without some of its semicolons adds its declarations but for their ends, its
references, and a fault for each missing semicolon. -/
theorem adds_cut {p : Program} {lasts : List Leaf} (h : p.Cut ls lasts)
    (hrest : ∀ l ∈ rest.head?, l.is Token.braceClose = true) :
    Adds eof ls rest (sketches p.declarations) p.references (lasts.map unterminated) := by
  have hcloser : ∀ (closer : Mark Token.braceClose) (ls : List Leaf),
      ∀ l ∈ (closer.leaf :: ls).head?, l.is Token.braceClose = true := by
    intro closer ls l hl
    cases hl
    exact closer.reads
  induction h generalizing rest with
  | nil => exact adds_nil
  | @moduleLine h s semicolon more ls lasts hmore ih =>
    have hitem := adds_program eof (.moduleLine h s semicolon .nil) (punct_of_head_cut hmore hrest)
    simpa [Program.leaves, Program.declarations, Program.references] using hitem.append (ih hrest)
  | @moduleBlock h s opener inner closer more ks ls inside lasts _ _ ihi ih =>
    -- the block is read as a program of its own, in a frame that its brace closes
    have hitem := adds_moduleBlock eof h s opener (ihi (hcloser closer (ls ++ rest)))
    simpa [Program.declarations, Program.references] using hitem.append (ih hrest)
  | @function h d more ks ls last lasts hd hmore ih =>
    have hitem := adds_function eof h hd (fun hp => hmore.halt hp hrest)
      d.semicolon.leaf.token.stop
    simpa [Program.declarations, Program.references] using hitem.append (ih hrest)
  | @assignment name d more ks ls last lasts hd hmore ih =>
    have hitem := adds_assignment eof name hd (fun hp => hmore.halt hp hrest)
      d.semicolon.leaf.token.stop
    simpa [Program.declarations, Program.references] using hitem.append (ih hrest)
  | @reference word path semicolon more ls lasts hmore ih =>
    have hitem := adds_program eof (.reference word path semicolon .nil)
      (punct_of_head_cut hmore hrest)
    cases semicolon <;>
      simpa [Program.leaves, Program.declarations, Program.references] using
        hitem.append (ih hrest)
  | @line s semicolon more ls lasts hmore ih =>
    have hitem := adds_program eof (.line s semicolon .nil) (punct_of_head_cut hmore hrest)
    simpa [Program.leaves, Program.declarations, Program.references] using hitem.append (ih hrest)
  | @block s opener inner closer more ks ls inside lasts _ _ ihi ih =>
    have hitem := adds_block eof s opener (ihi (hcloser closer (ls ++ rest)))
    simpa [Program.declarations, Program.references] using hitem.append (ih hrest)

end Adds

end Outline.State

/-! ## Brackets -/

namespace Leaf

theorem leads_core_iff {σ τ : List Bracket.Kind} {ls : List Leaf} :
    Leads (fun _ _ => True) σ (ls.map core) τ ↔ Leads (fun _ _ => True) σ ls τ := by
  have hnest : ∀ (σ : List Bracket.Kind) (l : Leaf), l.core.nest σ = l.nest σ := fun _ _ => rfl
  induction ls generalizing σ with
  | nil => rfl
  | cons l ls ih => simp only [List.map_cons, leads_cons_iff, hnest, ih]

end Leaf

/-- No bracket is missing. -/
theorem Program.Cut.filter_role {p : Program} {ls lasts : List Leaf} (h : p.Cut ls lasts) :
    (ls.filter fun l => l.role ≠ .plain) = p.leaves.filter fun l => l.role ≠ .plain := by
  induction h with
  | nil => rfl
  | function hd _ ih | assignment hd _ ih =>
    simp only [Program.leaves, List.filter_append, List.filter_cons, hd.filter_role, ih]
  | @reference _ _ semicolon _ _ _ _ ih =>
    cases semicolon <;>
      simp only [Program.leaves, Option.toList, List.map_cons, List.map_nil, List.cons_append,
        List.nil_append, List.filter_cons, ih]
  | moduleLine _ ih | line _ ih =>
    simp only [Program.leaves, List.filter_append, List.filter_cons, ih]
  | moduleBlock _ _ ihi ih | block _ _ ihi ih =>
    simp only [Program.leaves, List.filter_append, List.filter_cons, ihi, ih]

/-! ## Outlines -/

namespace Outline

/-- A missing semicolon is no fault of brackets. -/
theorem bracketFaults_cut {p : Program} {ls lasts : List Leaf} (h : p.Cut ls lasts)
    {ts : List Token}
    (hts : (Token.significant ts).map Token.core = ls.map fun l => l.token.core) :
    Bracket.faults ts = [] := by
  have hleads : Leads (fun _ _ => True) [] (Leaf.ofTokens ts) [] := by
    rw [← leads_core_iff, map_core_ofTokens hts, leads_core_iff, ← leads_filter_iff, h.filter_role,
      leads_filter_iff]
    exact p.leads []
  exact (faultsFrom_eq_nil_iff rfl hleads.punct).2 hleads

/-- The outline of a program without some of its semicolons, with comments anywhere between the
tokens that are left. It has the declarations of the program, but for documentation and ends, its
references, and exactly one fault for each missing semicolon: at the end of the token before it, and
in the order of the source. -/
theorem ofTokens_cut (length : Nat) {p : Program} {ls lasts : List Leaf} (h : p.Cut ls lasts)
    {ts : List Token}
    (hts : (Token.significant ts).map Token.core = ls.map fun l => l.token.core) :
    sketches (ofTokens length ts).declarations = sketches p.declarations ∧
      (ofTokens length ts).references = p.references ∧
      (ofTokens length ts).faults =
        (lasts.map unterminated).mergeSort (fun f g => decide (f.offset ≤ g.offset)) ∧
      (ts.Pairwise (fun t u => t.stop ≤ u.stop) →
        (ofTokens length ts).faults = lasts.map unterminated) := by
  have hend : ∀ l ∈ ([] : List Leaf).head?, l.is Token.braceClose = true := by simp
  obtain ⟨ds, stop, hds, hread⟩ := State.adds_cut length h hend State.init
  rw [List.append_nil, State.read_nil] at hread
  have hdeclarations : nest (Item.ofLeaves length ls) = ds := by
    have := State.declarations_foldl State.init (Item.ofLeaves length ls)
    rw [← State.read, hread] at this
    exact this.symm
  have hreferences : (Item.ofLeaves length ls).filterMap reference? = p.references := by
    have := State.references_foldl State.init (Item.ofLeaves length ls)
    rw [← State.read, hread] at this
    exact this.symm
  have hfaults : (Item.ofLeaves length ls).flatMap Item.faults = lasts.map unterminated := by
    have := State.faults_foldl State.init (Item.ofLeaves length ls)
    rw [← State.read, hread] at this
    exact this.symm
  obtain ⟨hd, hr, hf⟩ := ofTokens_core length hts
  rw [hdeclarations, hds] at hd
  rw [hreferences] at hr
  rw [bracketFaults_cut h hts, hfaults, List.nil_append] at hf
  refine ⟨hd, hr, hf, fun horder => ?_⟩
  have hstops : (Token.significant ts).map Token.stop = ls.map fun l => l.token.stop := by
    have := congrArg (List.map Token.stop) hts
    rwa [List.map_map, List.map_map] at this
  have hls : (ls.map fun l => l.token.stop).Pairwise (· ≤ ·) := by
    rw [← hstops, List.pairwise_map]
    exact horder.filter _
  have hlasts : (lasts.map unterminated).Pairwise fun f g => decide (f.offset ≤ g.offset) := by
    rw [List.pairwise_map] at hls ⊢
    exact (hls.sublist h.lasts_sublist).imp fun hle => decide_eq_true hle
  rw [hf, List.mergeSort_of_pairwise hlasts]

end Outline

namespace Program

/-- The definition of a value with its semicolon at `stop`. -/
def definitionAt (start : Nat) (value : Expression) (stop : Nat) : Definition where
  equals := ⟨leafAt .punct start "=", rfl, rfl⟩
  value := value
  semicolon := ⟨leafAt .punct stop ";", rfl, rfl⟩

/-- The program `a=100;module p(){function f()=[2];}c=;`, at the offsets it has without three of its
semicolons and with a comment instead of the first. -/
def sampleTerminated : Program :=
  .assignment ⟨⟨leafAt .ident 0 "a", rfl, by decide⟩, rfl⟩
    (definitionAt 1 ⟨[leafAt .number 2 "100"], .one (by decide) rfl⟩ 5) <|
  .moduleBlock
    { keyword := ⟨leafAt .ident 9 "module", rfl, rfl⟩
      name := ⟨⟨[], .ident, 16, [' '], ['p']⟩, rfl, by decide⟩
      opener := ⟨leafAt .punct 17 "(", rfl, rfl⟩
      parameters := ⟨[], .done []⟩
      closer := ⟨leafAt .punct 18 ")", rfl, rfl⟩ }
    ⟨[], .done []⟩
    ⟨leafAt .punct 19 Token.braceOpen, rfl, rfl⟩
    (.function
      { keyword := ⟨leafAt .ident 20 "function", rfl, rfl⟩
        name := ⟨⟨[], .ident, 29, [' '], ['f']⟩, rfl, by decide⟩
        opener := ⟨leafAt .punct 30 "(", rfl, rfl⟩
        parameters := ⟨[], .done []⟩
        closer := ⟨leafAt .punct 31 ")", rfl, rfl⟩ }
      (definitionAt 32
        ⟨[leafAt .punct 33 "[", leafAt .number 34 "2", leafAt .punct 35 "]"],
          .next (by decide) rfl (.next (by decide) rfl (.one (by decide) rfl))⟩ 36)
      .nil)
    ⟨leafAt .punct 36 Token.braceClose, rfl, rfl⟩ <|
  .assignment ⟨⟨leafAt .ident 37 "c", rfl, by decide⟩, rfl⟩ (definitionAt 38 ⟨[], .done []⟩ 39) .nil

end Program

/-- The tokens of `a=100/**/module p(){function f()=[2]}c=`. -/
def Outline.sampleTokens : List Token :=
  [⟨.ident, 0, [], ['a']⟩, ⟨.punct, 1, [], ['=']⟩, ⟨.number, 2, [], "100".toList⟩,
    ⟨.blockComment, 5, [], "/**/".toList⟩, ⟨.ident, 9, [], "module".toList⟩,
    ⟨.ident, 16, [' '], ['p']⟩, ⟨.punct, 17, [], ['(']⟩, ⟨.punct, 18, [], [')']⟩,
    ⟨.punct, 19, [], ['\x7b']⟩, ⟨.ident, 20, [], "function".toList⟩, ⟨.ident, 29, [' '], ['f']⟩,
    ⟨.punct, 30, [], ['(']⟩, ⟨.punct, 31, [], [')']⟩, ⟨.punct, 32, [], ['=']⟩,
    ⟨.punct, 33, [], ['[']⟩, ⟨.number, 34, [], ['2']⟩, ⟨.punct, 35, [], [']']⟩,
    ⟨.punct, 36, [], ['\x7d']⟩, ⟨.ident, 37, [], ['c']⟩, ⟨.punct, 38, [], ['=']⟩]

/-- Three semicolons are missing: before a module, at the end of a block and at the end of the
source. -/
theorem Outline.ofTokens_sampleTokens :
    ∃ ls lasts, sampleTerminated.Cut ls lasts ∧
      (Token.significant sampleTokens).map Token.core = ls.map (fun l => l.token.core) ∧
      sampleTokens.Pairwise (fun t u => t.stop ≤ u.stop) ∧
      sketches (Outline.ofTokens 39 sampleTokens).declarations =
        [⟨"a", .variable, 0, ⟨0, 1⟩, []⟩,
          ⟨"p", .module, 9, ⟨16, 17⟩, [⟨"f", .function, 20, ⟨29, 30⟩, []⟩]⟩,
          ⟨"c", .variable, 37, ⟨37, 38⟩, []⟩] ∧
      (Outline.ofTokens 39 sampleTokens).references = [] ∧
      (Outline.ofTokens 39 sampleTokens).faults =
        [⟨5, .missingSemicolon⟩, ⟨36, .missingSemicolon⟩, ⟨39, .missingSemicolon⟩] := by
  have hcut : ∃ ls, sampleTerminated.Cut ls
      [leafAt .number 2 "100", leafAt .punct 35 "]", leafAt .punct 38 "="] ∧
      (Token.significant sampleTokens).map Token.core = ls.map (fun l => l.token.core) := by
    refine ⟨_, .assignment (.dropped ?_) (.moduleBlock (.function (.dropped ?_) .nil)
      (.assignment (.dropped ?_) .nil)), rfl⟩ <;> exact trivial
  obtain ⟨ls, hls, hts⟩ := hcut
  have horder : sampleTokens.Pairwise (fun t u => t.stop ≤ u.stop) := by decide
  obtain ⟨hd, hr, -, hf⟩ := ofTokens_cut 39 hls hts
  exact ⟨ls, _, hls, hts, horder, hd, hr, hf horder⟩

end Scad
