import Scad.Outline
import Scad.Proofs.Forest

/-!
# Scad.Proofs.Outline.State

The outline as a machine that takes items one after another.

* `Outline.State.step`: the state after one more item.
* `Outline.State.read`: the state after all items of some leaves.
* `Outline.ofTokens_eq_read`: the outline of a source is read off the state at its end.
* `Outline.State.Holds.occurs_foldl`: a declaration that was found stays found.
* `Outline.State.exists_of_open`: an open module becomes a declaration, at a later item or at the
  end.
* `Outline.State.exists_of_module`: the module of an item becomes a declaration.
* `Outline.State.occurs_foldl_source`: every declaration comes from an item, and begins with it.
-/

namespace Scad

/-- The number of blocks that an item of the shape opens. -/
def Item.Shape.opened : Item.Shape → Nat
  | .openedModule _ | .openedBlock => 1
  | .skipped | .included _ | .declared _ _ | .closed => 0

theorem Item.stop_of_leaves {it : Item} {as bs : List Leaf} {l : Leaf}
    (h : it.leaves = as ++ l :: bs) : it.stop = (bs.getLast?.getD l).token.stop := by
  have hlast := congrArg List.getLast? h
  rw [leaves, List.getLast?_append, List.getLast?_cons, List.getLast?_cons, Option.some_or,
    Option.some.injEq] at hlast
  rw [stop, hlast]

namespace Outline

/-- The outline of the part of a source that has been read: the open blocks, innermost first, the
declarations of the innermost block so far, the end of the part, and its references and faults. -/
structure State where
  frames : List Frame
  found : List (Declaration Nat)
  stop : Nat
  references : List Reference
  faults : List Fault
  deriving Repr

namespace State

def init : State := ⟨[], [], 0, [], []⟩

/-- The open blocks and the declarations of the innermost one after one more item. -/
def place (frames : List Frame) (found : List (Declaration Nat)) (it : Item) :
    List Frame × List (Declaration Nat) :=
  match it.shape with
  | .skipped | .included _ => (frames, found)
  | .declared kind name => (frames, found ++ [declare kind it.first name it.stop []])
  | .openedModule name => (⟨some (it.first, name), found⟩ :: frames, [])
  | .openedBlock => (⟨none, found⟩ :: frames, [])
  | .closed =>
    match frames with
    | [] => ([], found)
    | f :: frames => (frames, f.close found it.stop)

/-- The state after one more item. -/
def step (st : State) (it : Item) : State where
  frames := (place st.frames st.found it).1
  found := (place st.frames st.found it).2
  stop := it.stop
  references := st.references ++ (reference? it).toList
  faults := st.faults ++ it.faults

/-- The declarations of a source that ends here. -/
def declarations (st : State) : List (Declaration Nat) :=
  st.frames.foldl (fun inner f => f.close inner st.stop) st.found

/-- Steps nest blocks as the outline does. -/
theorem declarations_foldl (st : State) (its : List Item) :
    (its.foldl step st).declarations = nestFrom st.frames st.found st.stop its := by
  induction its generalizing st with
  | nil => rfl
  | cons it its ih =>
    rw [List.foldl_cons, ih]
    cases hs : it.shape with
    | closed =>
      cases hf : st.frames with
      | nil => simp only [step, place, hs, hf, nestFrom]
      | cons f fs => simp only [step, place, hs, hf, nestFrom]
    | skipped => simp only [step, place, hs, nestFrom]
    | included path => simp only [step, place, hs, nestFrom]
    | declared kind name => simp only [step, place, hs, nestFrom]
    | openedModule name => simp only [step, place, hs, nestFrom]
    | openedBlock => simp only [step, place, hs, nestFrom]

theorem references_foldl (st : State) (its : List Item) :
    (its.foldl step st).references = st.references ++ its.filterMap reference? := by
  induction its generalizing st with
  | nil => simp
  | cons it its ih =>
    rw [List.foldl_cons, ih, step, List.append_assoc]
    cases h : reference? it <;> simp [h]

theorem faults_foldl (st : State) (its : List Item) :
    (its.foldl step st).faults = st.faults ++ its.flatMap Item.faults := by
  induction its generalizing st with
  | nil => simp
  | cons it its ih =>
    rw [List.foldl_cons, ih, step, List.append_assoc, List.flatMap_cons]

/-- The state after the items of some leaves. -/
def read (eof : Nat) (st : State) (ls : List Leaf) : State := (Item.ofLeaves eof ls).foldl step st

theorem read_nil (eof : Nat) (st : State) : st.read eof [] = st := by
  rw [read, Item.ofLeaves, List.foldl_nil]

theorem read_cons (eof : Nat) (st : State) (l : Leaf) (ls : List Leaf) :
    st.read eof (l :: ls) = (st.step (Item.next eof l ls).1).read eof (Item.next eof l ls).2 := by
  rw [read, Item.ofLeaves, List.foldl_cons, read]

/-! ## What a run keeps -/

open Declaration

theorem occurs_close_inner {f : Frame} {e : Declaration Nat} {inner : List (Declaration Nat)}
    (h : Occurs children e inner) (stop : Nat) : Occurs children e (f.close inner stop) := by
  unfold Frame.close
  split
  · exact .under (List.mem_append_right _ List.mem_cons_self) h
  · exact h.mono (List.subset_append_right _ _)

theorem occurs_close_before {f : Frame} {e : Declaration Nat} (h : Occurs children e f.before)
    (inner : List (Declaration Nat)) (stop : Nat) : Occurs children e (f.close inner stop) := by
  unfold Frame.close
  split
  · exact h.mono (List.subset_append_left _ _)
  · exact h.mono (List.subset_append_left _ _)

/-- The declaration has been found: it stands in one of the open blocks. -/
def Holds (st : State) (e : Declaration Nat) : Prop :=
  Occurs children e st.found ∨ ∃ f ∈ st.frames, Occurs children e f.before

theorem Holds.occurs {st : State} {e : Declaration Nat} (h : st.Holds e) :
    Occurs children e st.declarations := by
  obtain ⟨frames, found, stop, references, faults⟩ := st
  show Occurs children e (frames.foldl (fun inner f => f.close inner stop) found)
  replace h : Occurs children e found ∨ ∃ f ∈ frames, Occurs children e f.before := h
  induction frames generalizing found with
  | nil =>
    rcases h with h | ⟨f, hf, -⟩
    · exact h
    · cases hf
  | cons f frames ih =>
    apply ih
    rcases h with h | ⟨g, hg, h⟩
    · exact .inl (occurs_close_inner h stop)
    · rcases List.mem_cons.1 hg with rfl | hg
      · exact .inl (occurs_close_before h found stop)
      · exact .inr ⟨g, hg, h⟩

theorem Holds.step {st : State} {e : Declaration Nat} (h : st.Holds e) (it : Item) :
    (st.step it).Holds e := by
  obtain ⟨frames, found, stop, references, faults⟩ := st
  unfold Holds at h ⊢
  simp only [State.step, place] at h ⊢
  cases it.shape with
  | skipped => exact h
  | included path => exact h
  | declared kind name => exact h.imp (Occurs.mono · (List.subset_append_left _ _)) id
  | openedModule name =>
    rcases h with h | ⟨f, hf, h⟩
    · exact .inr ⟨_, List.mem_cons_self, h⟩
    · exact .inr ⟨f, List.mem_cons_of_mem _ hf, h⟩
  | openedBlock =>
    rcases h with h | ⟨f, hf, h⟩
    · exact .inr ⟨_, List.mem_cons_self, h⟩
    · exact .inr ⟨f, List.mem_cons_of_mem _ hf, h⟩
  | closed =>
    cases frames with
    | nil => exact h
    | cons f frames =>
      rcases h with h | ⟨g, hg, h⟩
      · exact .inl (occurs_close_inner h it.stop)
      · rcases List.mem_cons.1 hg with rfl | hg
        · exact .inl (occurs_close_before h found it.stop)
        · exact .inr ⟨g, hg, h⟩

theorem Holds.occurs_foldl {st : State} {e : Declaration Nat} (h : st.Holds e) (its : List Item) :
    Occurs children e (its.foldl State.step st).declarations := by
  induction its generalizing st with
  | nil => exact h.occurs
  | cons it its ih => exact ih (h.step it)

/-- Only a closing brace ends a block. -/
theorem frames_step {it : Item} (h : it.shape ≠ .closed) (st : State) :
    ∃ new, (st.step it).frames = new ++ st.frames ∧ new.length = it.shape.opened := by
  simp only [State.step, place]
  cases hs : it.shape with
  | closed => exact absurd hs h
  | skipped => exact ⟨[], rfl, rfl⟩
  | included path => exact ⟨[], rfl, rfl⟩
  | declared kind name => exact ⟨[], rfl, rfl⟩
  | openedModule name => exact ⟨[_], rfl, rfl⟩
  | openedBlock => exact ⟨[_], rfl, rfl⟩

theorem step_closed {it : Item} (h : it.shape = .closed) {st : State} {f : Frame}
    {fs : List Frame} (hf : st.frames = f :: fs) :
    (st.step it).frames = fs ∧ (st.step it).found = f.close st.found it.stop := by
  simp [State.step, place, h, hf]

/-- A module that is open becomes a declaration where its block ends: at an item to come, or at the
end of the source. -/
theorem exists_of_open {st : State} {inside outside : List Frame} {first : Leaf} {name : Token}
    {before : List (Declaration Nat)}
    (h : st.frames = inside ++ ⟨some (first, name), before⟩ :: outside) (its : List Item) :
    ∃ stop inner, Occurs children (declare .module first name stop inner)
        (its.foldl State.step st).declarations ∧
      (its = [] ∧ stop = st.stop ∨ ∃ it ∈ its, stop = it.stop) := by
  induction its generalizing st inside with
  | nil =>
    -- the end of the source closes the blocks inside the module first
    let inner := inside.foldl (fun inner f => f.close inner st.stop) st.found
    let closed : State :=
      { st with
        frames := outside
        found := Frame.close ⟨some (first, name), before⟩ inner st.stop }
    have hclosed : closed.Holds (declare .module first name st.stop inner) :=
      .inl (.here (List.mem_append_right _ List.mem_cons_self))
    have hdeclarations : st.declarations = closed.declarations := by
      rw [declarations, h, List.foldl_append, List.foldl_cons, declarations]
    refine ⟨st.stop, inner, ?_, .inl ⟨rfl, rfl⟩⟩
    rw [List.foldl_nil, hdeclarations]
    exact hclosed.occurs
  | cons it its ih =>
    have hlater : ∀ {inside'}, (st.step it).frames =
        inside' ++ ⟨some (first, name), before⟩ :: outside →
        ∃ stop inner, Occurs children (declare .module first name stop inner)
            ((it :: its).foldl State.step st).declarations ∧
          (it :: its = [] ∧ stop = st.stop ∨ ∃ jt ∈ it :: its, stop = jt.stop) := by
      intro inside' hframes
      obtain ⟨stop, inner, he, hstop⟩ := ih hframes
      refine ⟨stop, inner, he, .inr ?_⟩
      rcases hstop with ⟨-, hstop⟩ | ⟨jt, hjt, hstop⟩
      · exact ⟨it, List.mem_cons_self, hstop⟩
      · exact ⟨jt, List.mem_cons_of_mem it hjt, hstop⟩
    by_cases hs : it.shape = .closed
    · cases inside with
      | nil =>
        obtain ⟨-, hfound⟩ := step_closed hs h
        have hholds : (st.step it).Holds (declare .module first name it.stop st.found) := by
          refine .inl (.here ?_)
          rw [hfound]
          exact List.mem_append_right _ List.mem_cons_self
        exact ⟨_, _, hholds.occurs_foldl its, .inr ⟨it, List.mem_cons_self, rfl⟩⟩
      | cons f inside => exact hlater (step_closed hs h).1
    · obtain ⟨new, hnew, -⟩ := frames_step hs st
      rw [h, ← List.append_assoc] at hnew
      exact hlater hnew

/-- A module that an item declares or opens is found. -/
theorem exists_of_module {its : List Item} {it : Item} (hit : it ∈ its) {name : Token}
    (hs : it.shape = .declared .module name ∨ it.shape = .openedModule name) (st : State) :
    ∃ stop inner, Occurs children (declare .module it.first name stop inner)
      (its.foldl State.step st).declarations := by
  obtain ⟨as, bs, rfl⟩ := List.append_of_mem hit
  rw [List.foldl_append, List.foldl_cons]
  generalize as.foldl State.step st = st
  rcases hs with hs | hs
  · have hholds : (st.step it).Holds (declare .module it.first name it.stop []) := by
      refine .inl (.here ?_)
      simp [State.step, place, hs]
    exact ⟨it.stop, [], hholds.occurs_foldl bs⟩
  · have hframes : (st.step it).frames = [] ++ ⟨some (it.first, name), st.found⟩ :: st.frames := by
      simp [State.step, place, hs]
    obtain ⟨stop, inner, he, -⟩ := exists_of_open hframes bs
    exact ⟨stop, inner, he⟩

/-! ## Where declarations come from -/

/-- The item gives the outline the declaration. That of an open module ends with the item or with
one that comes later. -/
inductive Declares (it : Item) (later : List Item) : Declaration Nat → Prop where
  | whole {kind : Declaration.Kind} {name : Token} : it.shape = .declared kind name →
      Declares it later (declare kind it.first name it.stop [])
  | block {name : Token} {jt : Item} {inner : List (Declaration Nat)} :
      it.shape = .openedModule name → jt ∈ it :: later →
      Declares it later (declare .module it.first name jt.stop inner)

/-- One of the items gives the outline the declaration. -/
def Sourced (its : List Item) (e : Declaration Nat) : Prop :=
  ∃ as it bs, its = as ++ it :: bs ∧ Declares it bs e

/-- One of the items opened the module with the first leaf and the name. -/
def Opened (its : List Item) (o : Leaf × Token) : Prop :=
  ∃ as it bs, its = as ++ it :: bs ∧ it.first = o.1 ∧ it.shape = .openedModule o.2

theorem Sourced.snoc {its : List Item} {e : Declaration Nat} (h : Sourced its e) (jt : Item) :
    Sourced (its ++ [jt]) e := by
  obtain ⟨as, it, bs, rfl, hd⟩ := h
  refine ⟨as, it, bs ++ [jt], by simp, ?_⟩
  cases hd with
  | whole hs => exact .whole hs
  | block hs hm =>
    refine .block hs ?_
    rw [← List.cons_append]
    exact List.mem_append_left _ hm

theorem Opened.snoc {its : List Item} {o : Leaf × Token} (h : Opened its o) (jt : Item) :
    Opened (its ++ [jt]) o := by
  obtain ⟨as, it, bs, rfl, ho⟩ := h
  exact ⟨as, it, bs ++ [jt], by simp, ho⟩

/-- A module whose block ends with the last item. -/
theorem Opened.sourced {its : List Item} {o : Leaf × Token} (h : Opened its o) {jt : Item}
    (hjt : jt ∈ its.getLast?) (inner : List (Declaration Nat)) :
    Sourced its (declare .module o.1 o.2 jt.stop inner) := by
  obtain ⟨as, it, bs, rfl, hfirst, hs⟩ := h
  have hmem : jt ∈ it :: bs := by
    rw [List.getLast?_append, List.getLast?_cons, Option.some_or, ← List.getLast?_cons] at hjt
    exact List.mem_of_getLast? hjt
  exact ⟨as, it, bs, rfl, hfirst ▸ .block hs hmem⟩

/-- All declarations found, and the modules of all open blocks, come from the items. -/
structure Traced (its : List Item) (st : State) : Prop where
  found : ∀ e, Occurs children e st.found → Sourced its e
  before : ∀ f ∈ st.frames, ∀ e, Occurs children e f.before → Sourced its e
  owner : ∀ f ∈ st.frames, ∀ o ∈ f.owner, Opened its o
  stop : st.frames ≠ [] → ∃ it ∈ its.getLast?, st.stop = it.stop

theorem forall_close {P : Declaration Nat → Prop} {f : Frame} {inner : List (Declaration Nat)}
    {stop : Nat} (hbefore : ∀ e, Occurs children e f.before → P e)
    (howner : ∀ o ∈ f.owner, P (declare .module o.1 o.2 stop inner))
    (hinner : ∀ e, Occurs children e inner → P e) :
    ∀ e, Occurs children e (f.close inner stop) → P e := by
  intro e he
  unfold Frame.close at he
  split at he
  · rename_i first name ho
    rcases he.append with he | he
    · exact hbefore e he
    · rcases he.singleton with rfl | he
      · exact howner (first, name) ho
      · exact hinner e he
  · rcases he.append with he | he
    · exact hbefore e he
    · exact hinner e he

theorem Traced.occurs {its : List Item} {st : State} (h : st.Traced its) :
    ∀ e, Occurs children e st.declarations → Sourced its e := by
  obtain ⟨frames, found, stop, references, faults⟩ := st
  obtain ⟨hfound, hbefore, howner, hstop⟩ := h
  show ∀ e, Occurs children e (frames.foldl (fun inner f => f.close inner stop) found) → _
  simp only at hfound hbefore howner hstop
  induction frames generalizing found with
  | nil => exact hfound
  | cons f frames ih =>
    obtain ⟨it, hit, hstop⟩ := hstop (by simp)
    simp only [List.forall_mem_cons] at hbefore howner
    refine ih _ (forall_close hbefore.1 (fun o ho => ?_) hfound) hbefore.2 howner.2
      fun _ => ⟨it, hit, hstop⟩
    rw [hstop]
    exact (howner.1 o ho).sourced hit found

theorem Traced.step {its : List Item} {st : State} (h : st.Traced its) (it : Item) :
    (st.step it).Traced (its ++ [it]) := by
  obtain ⟨frames, found, stop, references, faults⟩ := st
  obtain ⟨hfound, hbefore, howner, -⟩ := h
  replace hfound := fun e he => (hfound e he).snoc it
  replace hbefore := fun f hf e he => (hbefore f hf e he).snoc it
  replace howner := fun f hf o ho => (howner f hf o ho).snoc it
  have hnil : ∀ e, Occurs children e [] → Sourced (its ++ [it]) e :=
    fun e he => absurd he Occurs.nil
  have hlast : it ∈ (its ++ [it]).getLast? := by simp
  have hstop : ∀ fs : List Frame, fs ≠ [] → ∃ jt ∈ (its ++ [it]).getLast?, it.stop = jt.stop :=
    fun _ _ => ⟨it, hlast, rfl⟩
  simp only [State.step, place] at hfound hbefore howner ⊢
  cases hs : it.shape with
  | skipped => exact ⟨hfound, hbefore, howner, hstop _⟩
  | included path => exact ⟨hfound, hbefore, howner, hstop _⟩
  | declared kind name =>
    refine ⟨fun e he => ?_, hbefore, howner, hstop _⟩
    rcases he.append with he | he
    · exact hfound e he
    · rcases he.singleton with rfl | he
      · exact ⟨its, it, [], rfl, .whole hs⟩
      · exact hnil e he
  | openedModule name =>
    refine ⟨hnil, List.forall_mem_cons.2 ⟨hfound, hbefore⟩, List.forall_mem_cons.2 ⟨?_, howner⟩,
      hstop _⟩
    intro o ho
    cases ho
    exact ⟨its, it, [], rfl, rfl, hs⟩
  | openedBlock =>
    refine ⟨hnil, List.forall_mem_cons.2 ⟨hfound, hbefore⟩, List.forall_mem_cons.2 ⟨?_, howner⟩,
      hstop _⟩
    intro o ho
    cases ho
  | closed =>
    cases frames with
    | nil => exact ⟨hfound, hbefore, howner, hstop _⟩
    | cons f frames =>
      simp only [List.forall_mem_cons] at hbefore howner
      exact ⟨forall_close hbefore.1 (fun o ho => (howner.1 o ho).sourced hlast found) hfound,
        hbefore.2, howner.2, hstop _⟩

/-- Every declaration comes from an item. -/
theorem occurs_foldl_source {its : List Item} {e : Declaration Nat}
    (h : Occurs children e (its.foldl State.step init).declarations) : Sourced its e := by
  have hrun : ∀ (its read : List Item) (st : State), st.Traced read →
      (its.foldl State.step st).Traced (read ++ its) := by
    intro its
    induction its with
    | nil =>
      intro read st h
      rwa [List.append_nil]
    | cons it its ih =>
      intro read st h
      have hrest := ih (read ++ [it]) _ (h.step it)
      rwa [List.append_assoc] at hrest
  have hinit : Traced [] init :=
    ⟨fun e he => absurd he Occurs.nil, by simp [init], by simp [init], by simp [init]⟩
  exact (hrun its [] init hinit).occurs e h

/-- Every declaration begins where an item begins. -/
theorem occurs_foldl_start {its : List Item} {e : Declaration Nat}
    (h : Occurs children e (its.foldl State.step init).declarations) :
    ∃ it ∈ its, it.first.token.start = e.span.start := by
  obtain ⟨as, it, bs, rfl, hd⟩ := occurs_foldl_source h
  refine ⟨it, by simp, ?_⟩
  cases hd with
  | whole => rfl
  | block => rfl

end State

/-- The outline of a source is read off the state at its end. -/
theorem ofTokens_eq_read (length : Nat) (ts : List Token) :
    ofTokens length ts =
      { declarations := (State.init.read length (Leaf.ofTokens ts)).declarations
        references := (State.init.read length (Leaf.ofTokens ts)).references
        faults :=
          (Bracket.faults ts ++ (State.init.read length (Leaf.ofTokens ts)).faults).mergeSort
            fun a b => decide (a.offset ≤ b.offset) } := by
  rw [State.read, State.declarations_foldl, State.references_foldl, State.faults_foldl]
  rfl

end Outline
end Scad
