import Scad.Proofs.Checked.Outline
import Scad.Proofs.Descent.Scan
import Scad.Proofs.Outline.Extent

/-!
# Scad.Proofs.Descent.Outline

Recursive descent finds the outline. The items of `Item.next` are what a round of a block reads, up
to the brace that opens another block.

* `Tape.take`: the tape behind an item, with what the item adds.
* `Descent.result`: what an item leads to: its declaration, or a call for the block that it opens.
* `Descent.runs_iteration`: a round of a block comes to the result of the next item.
* `Descent.runs_block`: descent and `Reader.block` read the same of a block.
-/

namespace Scad

open Checked Outline

theorem Checked.of_bind_eq_ok {α β : Type} {x : Checked α} {f : α → Checked β} {b : β}
    (h : (x >>= f) = .ok b) : ∃ a, x = .ok a ∧ f a = .ok b := by
  cases x with
  | error e => cases h
  | ok a => exact ⟨a, rfl, h⟩

/-! ## Tapes behind leaves -/

namespace Tape

def add (t : Tape) (fs : List Fault) : Tape := { t with faults := t.faults ++ fs }

/-- The tape behind a stretch of leaves. -/
def past (t : Tape) (s : Item.Stretch) : Tape :=
  { t with read := t.read ++ s.taken, unread := s.rest }

/-- The tape behind an expression, with the fault that it has no end. -/
def pass (t : Tape) (e : Item.Stretch) : Tape :=
  if e.ended then t.past e else (t.past e).fault (t.past e).stop .missingSemicolon

/-- The tape behind an item, where the leaves after the item are given with it. -/
def take (t : Tape) (it : Item × List Leaf) : Tape where
  read := t.read ++ it.1.leaves
  unread := it.2
  references := t.references ++ (reference? it.1).toList
  faults := t.faults ++ it.1.faults

/-- The cursor that stands where the tape has been read to. -/
def cursor (t : Tape) : Checked.Cursor := ⟨t.read.length, t.stop, t.references, t.faults⟩

variable {t : Tape} {l : Leaf} {ls : List Leaf}

theorem unread_next (h : t.unread = l :: ls) : t.next.unread = ls := by
  rw [next_of_cons h]

theorem stop_next (h : t.unread = l :: ls) : t.next.stop = l.token.stop := by
  rw [next_of_cons h, stop, List.getLast?_concat]
  rfl

theorem next_next {m : Leaf} (h : t.unread = l :: m :: ls) :
    t.next.next = { t with read := t.read ++ [l, m], unread := ls } := by
  rw [next_of_cons (unread_next h), next_of_cons h, List.append_assoc]
  rfl

theorem next_past (h : t.unread = l :: ls) (s : Item.Stretch) :
    t.next.past s = t.past (s.cons l) := by
  rw [next_of_cons h, past, past]
  simp

theorem past_nil (h : t.unread = ls) (ended : Bool) : t.past ⟨ended, [], ls⟩ = t := by
  subst h
  rw [past, List.append_nil]

theorem past_next (h : t.unread = l :: ls) (ended : Bool) : t.past ⟨ended, [l], ls⟩ = t.next := by
  rw [next_of_cons h]
  rfl

theorem stop_append (t : Tape) (taken rest : List Leaf) (rs : List Reference) (fs : List Fault) :
    (Tape.mk (t.read ++ taken) rest rs fs).stop =
      (taken.getLast?.map fun l => l.token.stop).getD t.stop := by
  rw [stop, List.getLast?_append]
  cases taken.getLast? with
  | none => rfl
  | some l => rfl

theorem cursor_next (h : t.unread = l :: ls) : t.next.cursor = t.cursor.step l := by
  rw [cursor, stop_next h, next_of_cons h]
  simp [Checked.Cursor.step, cursor]

theorem cursor_take (t : Tape) (it : Item × List Leaf) :
    (t.take it).cursor = t.cursor.take it.1 := by
  rw [cursor, take, stop_append, Checked.Cursor.take, Checked.Cursor.skip_eq, List.length_append]
  rfl

end Tape

namespace Descent

/-! ## What is read without a call -/

section Stretch

variable (t : Tape)

theorem parameters_eq (depth : Nat) :
    parameters depth t = t.past (Item.parameters depth t.unread) := by
  fun_induction parameters depth t with
  | case1 depth t h =>
    rw [h, Item.parameters, Tape.past_nil h]
  | case2 depth t l ls h hopen ih =>
    rw [ih, Tape.next_past h, Tape.unread_next h, h, Item.parameters, if_pos hopen]
  | case3 depth t l ls h hopen hclose hdepth =>
    rw [h, Item.parameters, if_neg hopen, if_pos hclose, if_pos hdepth, Tape.past_next h]
  | case4 depth t l ls h hopen hclose hdepth ih =>
    rw [ih, Tape.next_past h, Tape.unread_next h, h, Item.parameters, if_neg hopen, if_pos hclose,
      if_neg hdepth]
  | case5 depth t l ls h hopen hclose ih =>
    rw [ih, Tape.next_past h, Tape.unread_next h, h, Item.parameters, if_neg hopen, if_neg hclose]

theorem expression_eq (depth : Nat) :
    expression depth t = t.pass (Item.expression depth t.unread) := by
  have hnext : ∀ {t : Tape} {l : Leaf} {ls : List Leaf}, t.unread = l :: ls → ∀ e,
      t.next.pass e = t.pass (e.cons l) := by
    intro t l ls h e
    rw [Tape.pass, Tape.pass, Tape.next_past h]
    rfl
  fun_induction expression depth t with
  | case1 depth t h =>
    rw [h, Item.expression, Tape.pass, Tape.past_nil h]
    rfl
  | case2 depth t l ls h hend =>
    rw [h, Item.expression, if_pos hend, Tape.pass, Tape.past_next h]
    rfl
  | case3 depth t l ls h hend hearly =>
    rw [h, Item.expression, if_neg hend, if_pos hearly, Tape.pass, Tape.past_nil h]
    rfl
  | case4 depth t l ls h hend hearly hopen ih =>
    rw [ih, hnext h, Tape.unread_next h, h, Item.expression, if_neg hend, if_neg hearly,
      if_pos hopen]
  | case5 depth t l ls h hend hearly hopen hclose ih =>
    rw [ih, hnext h, Tape.unread_next h, h, Item.expression, if_neg hend, if_neg hearly,
      if_neg hopen, if_pos hclose]
  | case6 depth t l ls h hend hearly hopen hclose ih =>
    rw [ih, hnext h, Tape.unread_next h, h, Item.expression, if_neg hend, if_neg hearly,
      if_neg hopen, if_neg hclose]

theorem expression_eq_definition :
    expression 0 t =
      (t.past (Item.definition t.stop t.unread).1).add (Item.definition t.stop t.unread).2 := by
  rw [expression_eq, Tape.pass, Item.definition]
  dsimp only
  split
  · rw [Tape.add, List.append_nil]
  · rw [Tape.fault, Tape.add, Tape.past, Tape.stop_append]

theorem parameterList_eq (eof : Nat) (kind : Declaration.Kind) :
    parameterList eof kind t =
      (t.past (Item.parameterList eof kind t.unread).1).add
        (Item.parameterList eof kind t.unread).2 := by
  rw [parameterList, Item.parameterList, Tape.peekIs]
  split
  · rw [parameters_eq, Tape.add, List.append_nil]
  · rw [Tape.past_nil rfl]
    rfl

variable {t} {l : Leaf} {ls : List Leaf}

theorem definition_of_equals (h : t.unread = l :: ls) (hl : l.is "=" = true) (eof : Nat) :
    definition eof t =
      (t.past ((Item.definition l.token.stop ls).1.cons l)).add
        (Item.definition l.token.stop ls).2 := by
  have hequals : t.peekIs "=" = true := by
    rw [Tape.peekIs, h]
    exact hl
  rw [definition, if_pos hequals, expression_eq_definition, Tape.stop_next h, Tape.unread_next h,
    Tape.next_past h]

theorem definition_of_none (h : t.peekIs "=" = false) (eof : Nat) :
    definition eof t = t.add [⟨t.here eof, .missingDefinition⟩] := by
  rw [definition, if_neg (by simp [h])]
  rfl

theorem declaredName_none (h : ∀ l ∈ t.unread.head?, l.token.kind ≠ .ident) (eof : Nat)
    (kind : Declaration.Kind) :
    declaredName eof kind t = (none, t.fault (t.here eof) (.missingName kind)) := by
  unfold declaredName
  split
  · rfl
  · rename_i name ls hunread
    rw [hunread] at h
    exact if_neg (h name rfl)

theorem declaredName_cons (h : t.unread = l :: ls) (hl : l.token.kind = .ident) (eof : Nat)
    (kind : Declaration.Kind) : declaredName eof kind t = (some l, t.next) := by
  unfold declaredName
  rw [h]
  exact if_pos hl

end Stretch

/-! ## Items -/

/-- What an item leads to that begins where the tape stands: its declaration, or a call for the
block that it opens. -/
def result (t : Tape) (it : Item × List Leaf) : Plan Call Answer Answer :=
  match it.1.shape with
  | .skipped | .included _ | .closed => .done ([], t.take it)
  | .declared kind name =>
    .done ([declare kind it.1.first name (max (t.take it).stop name.stop) []], t.take it)
  | .openedModule name => do
    let ans ← call (.block true) (t.take it)
    return ([declare .module it.1.first name (max ans.2.stop name.stop) ans.1], ans.2)
  | .openedBlock => call (.block true) (t.take it)

/-- What a stretch of a statement leads to: the block it opens, or nothing. -/
def follow (t : Tape) (s : Item.Stretch) : Plan Call Answer Answer :=
  if s.ended then call (.block true) (t.past s) else .done ([], t.past s)

section Items

variable {eof : Nat} {t : Tape} {l : Leaf} {ls : List Leaf} {ans : Answer}

theorem runs_call {p : Procedure} (h : (body eof ⟨p, t⟩).Runs (body eof) ans) :
    (call p t).Runs (body eof) ans := .ask h (.done ans)

theorem result_keyword_none {kind : Declaration.Kind} (h : t.unread = l :: ls)
    (hls : ∀ m ∈ ls.head?, m.token.kind ≠ .ident) :
    result t (Item.keywordDeclaration eof kind l ls) =
      .done ([], t.next.fault (t.next.here eof) (.missingName kind)) := by
  rw [Reader.keywordDeclaration_none hls, Tape.here, Tape.unread_next h, Tape.next_of_cons h]
  simp [result, Tape.take, Tape.fault, Item.leaves, reference?]

/-- An item that is a whole declaration. -/
theorem result_declared {it : Item × List Leaf} {kind : Declaration.Kind} {first name : Leaf}
    {t' : Tape} (hshape : it.1.shape = .declared kind name.token) (hfirst : it.1.first = first)
    (htape : t.take it = t') :
    result t it = .done ([declaration kind first name [] t'], t') := by
  subst hfirst htape
  simp only [result, hshape, declaration]

theorem result_function (h : t.unread = l :: ls) :
    result t (Item.keywordDeclaration eof .function l ls) = .done (function eof t) := by
  have hnext := Tape.unread_next h
  rcases Reader.name_or_none ls with hls | ⟨name, rest, rfl, hname⟩
  · rw [result_keyword_none h hls]
    simp only [function, h, declaredName_none (by rwa [hnext])]
  · have hitem : Item.keywordDeclaration eof .function l (name :: rest) =
        Item.functionItem eof l name rest := by
      simp only [Item.keywordDeclaration, if_pos hname]
    simp only [function, h, declaredName_cons hnext hname]
    have hrest := Tape.unread_next hnext
    have hparameters := parameterList_eq t.next.next eof .function
    rw [hrest] at hparameters
    rw [hitem, hparameters, Item.functionItem]
    generalize Item.parameterList eof .function rest = ps
    obtain ⟨⟨ended, taken, unread⟩, faults⟩ := ps
    cases unread with
    | nil =>
      rw [definition_of_none rfl]
      refine result_declared rfl rfl ?_
      simp [Tape.take, Tape.past, Tape.add, Tape.next_next h, Item.leaves, reference?, Tape.here,
        Item.here]
    | cons m ms =>
      cases hm : m.is "=" with
      | false =>
        have hpeek : ((t.next.next.past ⟨ended, taken, m :: ms⟩).add faults).peekIs "=" = false :=
          hm
        rw [definition_of_none hpeek]
        simp only [hm, Bool.false_eq_true, if_false]
        refine result_declared rfl rfl ?_
        simp [Tape.take, Tape.past, Tape.add, Tape.next_next h, Item.leaves, reference?, Tape.here,
          Item.here]
      | true =>
        rw [definition_of_equals rfl hm]
        simp only [hm, if_true]
        refine result_declared rfl rfl ?_
        simp [Tape.take, Tape.past, Tape.add, Tape.next_next h, Item.leaves, reference?]

theorem result_assignment {equals : Leaf} (h : t.unread = l :: equals :: ls) :
    result t (Item.variableItem l equals ls) = .done (assignment t) := by
  have hnext := Tape.unread_next h
  simp only [assignment, h]
  rw [expression_eq_definition, Tape.stop_next hnext, Tape.unread_next hnext, Tape.next_past hnext,
    Tape.next_past h]
  refine result_declared rfl rfl ?_
  simp [Tape.take, Tape.past, Tape.add, Item.variableItem, Item.leaves, reference?]

theorem result_reference {path : Leaf} (h : t.unread = l :: path :: ls) :
    result t (Item.reference l path ls) = .done ([], reference t) := by
  have hnext := Tape.unread_next h
  have hrest : (t.next.next.refer path.token).unread = ls := Tape.unread_next hnext
  have hpath : reference t =
      if (t.next.next.refer path.token).peekIs ";" then (t.next.next.refer path.token).next
      else t.next.next.refer path.token := by
    unfold reference
    rw [hnext]
  rw [hpath, Tape.peekIs, hrest]
  cases ls with
  | nil =>
    rw [Tape.next_next h, Item.reference]
    simp [result, Tape.take, Tape.refer, Item.leaves, reference?]
  | cons m ms =>
    rw [Tape.next_of_cons hrest, Tape.next_next h, Item.reference]
    cases hm : m.is ";" with
    | false =>
      simp [hm, result, Tape.take, Tape.refer, Item.leaves, reference?]
    | true =>
      simp [hm, result, Tape.take, Tape.refer, Item.leaves, reference?]

/-! ## Calls -/

theorem follow_next (hls : t.unread = l :: ls) (s : Item.Stretch) :
    follow t.next s = follow t (s.cons l) := by
  simp only [follow, Tape.next_past hls]
  rfl

/-- A statement comes to what its stretch leads to. -/
theorem runs_statementRest {depth : Nat} (hls : t.unread = ls)
    (h : (follow t (Item.statementRest depth ls)).Runs (body eof) ans) :
    (statement false depth t).Runs (body eof) ans := by
  fun_induction Item.statementRest depth ls generalizing t with
  | case1 depth =>
    rw [follow, Tape.past_nil hls] at h
    simp only [statement, hls]
    exact h
  | case2 depth l ls hopen =>
    rw [follow, Tape.past_next hls] at h
    simp only [statement, hls, hopen, if_true]
    exact h
  | case3 depth l ls hopen hclosed =>
    rw [follow, Tape.past_nil hls] at h
    simp only [statement, hls, if_neg hopen, true_and, if_pos hclosed]
    exact h
  | case4 depth l ls hopen hclosed hbracket ih =>
    rw [← follow_next hls] at h
    simp only [statement, hls, if_neg hopen, true_and, if_neg hclosed, if_pos hbracket]
    exact runs_call (ih (Tape.unread_next hls) h)
  | case5 depth l ls hopen hclosed hbracket hcloser ih =>
    rw [← follow_next hls] at h
    simp only [statement, hls, if_neg hopen, true_and, if_neg hclosed, if_neg hbracket,
      if_pos hcloser]
    exact runs_call (ih (Tape.unread_next hls) h)
  | case6 depth l ls hopen hclosed hbracket hcloser hend =>
    rw [follow, Tape.past_next hls] at h
    simp only [statement, hls, if_neg hopen, true_and, if_neg hclosed, if_neg hbracket,
      if_neg hcloser, if_pos hend]
    exact h
  | case7 depth l ls hopen hclosed hbracket hcloser hend ih =>
    rw [← follow_next hls] at h
    simp only [statement, hls, if_neg hopen, true_and, if_neg hclosed, if_neg hbracket,
      if_neg hcloser, if_neg hend]
    exact runs_call (ih (Tape.unread_next hls) h)

theorem runs_statement (hls : t.unread = ls)
    (h : (follow t (Item.statement ls)).Runs (body eof) ans) :
    (statement true 0 t).Runs (body eof) ans := by
  revert h
  fun_cases Item.statement ls with
  | case1 =>
    intro h
    rw [follow, Tape.past_nil hls] at h
    simp only [statement, hls]
    exact h
  | case2 l ls hopen =>
    intro h
    rw [follow, Tape.past_next hls] at h
    simp only [statement, hls, if_pos hopen]
    exact h
  | case3 l ls hopen hbracket =>
    intro h
    rw [← follow_next hls] at h
    simp only [statement, hls, if_neg hopen, Bool.true_eq_false, false_and, if_false,
      if_pos hbracket]
    exact runs_call (runs_statementRest (Tape.unread_next hls) h)
  | case4 l ls hopen hbracket hend =>
    intro h
    have hcloses := Reader.isAny_eq_false hend [")", "]"] (by decide)
    rw [follow, Tape.past_next hls] at h
    simp only [statement, hls, if_neg hopen, Bool.true_eq_false, false_and, if_false,
      if_neg hbracket, hcloses, true_and, if_pos hend]
    exact h
  | case5 l ls hopen hbracket hend =>
    intro h
    rw [← follow_next hls] at h
    simp only [statement, hls, if_neg hopen, Bool.true_eq_false, false_and, if_false,
      if_neg hbracket, true_and, if_neg hend, ite_self]
    exact runs_call (runs_statementRest (Tape.unread_next hls) h)

/-- The block, semicolon or statement of a module is read as a statement. -/
theorem runs_moduleBody (h : (follow t (Item.statement t.unread)).Runs (body eof) ans) :
    (moduleBody t).Runs (body eof) ans := by
  unfold moduleBody
  cases hls : t.unread with
  | nil =>
    rw [hls, Item.statement, follow, Tape.past_nil hls] at h
    simpa [Tape.peekIs, hls] using h
  | cons l ls =>
    have hpeek : ∀ s, t.peekIs s = l.is s := by
      intro s
      rw [Tape.peekIs, hls]
      rfl
    rw [hpeek, hpeek]
    split
    · rename_i hopen
      rw [hls, Item.statement, if_pos hopen, follow, Tape.past_next hls] at h
      exact h
    split
    · rename_i hend
      rw [hls, Reader.statement_of_semicolon hend, follow, Tape.past_next hls] at h
      exact h
    · exact runs_call (runs_statement rfl h)

/-- A module with a name goes on behind its parameters as a statement. -/
theorem result_module {name : Leaf} (h : t.unread = l :: name :: ls) :
    result t (Item.moduleItem eof l name ls) =
      (follow (parameterList eof .module t.next.next)
          (Item.statement (parameterList eof .module t.next.next).unread) >>= fun ans =>
        return ([declaration .module l name ans.1 ans.2], ans.2)) := by
  rw [parameterList_eq, Tape.next_next h, Item.moduleItem]
  dsimp only
  generalize Item.parameterList eof .module ls = ps
  obtain ⟨⟨ended, taken, unread⟩, faults⟩ := ps
  have hunread : ((Tape.past ⟨t.read ++ [l, name], ls, t.references, t.faults⟩
      ⟨ended, taken, unread⟩).add faults).unread = unread := rfl
  rw [hunread]
  generalize Item.statement unread = s
  obtain ⟨opened, taken', rest⟩ := s
  cases opened with
  | true => simp [result, follow, call, declaration, Tape.take, Tape.past, Tape.add, Item.leaves,
      reference?]
  | false => simp [result, follow, declaration, Tape.take, Tape.past, Tape.add, Item.leaves,
      reference?]

theorem runs_module (h : t.unread = l :: ls)
    (hrun : (result t (Item.keywordDeclaration eof .module l ls)).Runs (body eof) ans) :
    (module eof t).Runs (body eof) ans := by
  have hnext := Tape.unread_next h
  rcases Reader.name_or_none ls with hls | ⟨name, rest, rfl, hname⟩
  · rw [result_keyword_none h hls] at hrun
    simp only [module, h, declaredName_none (by rwa [hnext])]
    exact hrun
  · have hitem : Item.keywordDeclaration eof .module l (name :: rest) =
        Item.moduleItem eof l name rest := by
      simp only [Item.keywordDeclaration, if_pos hname]
    rw [hitem, result_module h, Plan.runs_bind] at hrun
    obtain ⟨inner, hinner, hdone⟩ := hrun
    simp only [module, h, declaredName_cons hnext hname]
    exact Plan.runs_bind.2 ⟨inner, runs_moduleBody hinner, hdone⟩

theorem result_other (l : Leaf) (ls : List Leaf) :
    result t (Item.other l ls) = follow t (Item.statement (l :: ls)) := by
  have hleaves := Item.statement_taken l ls
  rw [Item.other]
  generalize Item.statement (l :: ls) = s at hleaves
  obtain ⟨opened, taken, rest⟩ := s
  cases opened with
  | true => simp [result, follow, Tape.take, Tape.past, Item.leaves, hleaves, reference?]
  | false => simp [result, follow, Tape.take, Tape.past, Item.leaves, hleaves, reference?]

/-- A round of a block comes to the result of the next item. -/
theorem runs_iteration (h : t.unread = l :: ls) (hl : l.is Token.braceClose = false)
    (nested : Bool) (hrun : (result t (Item.next eof l ls)).Runs (body eof) ans) :
    (iteration eof nested l t).Runs (body eof) (.more ans) := by
  have hdone : ∀ ans' : Answer, (Plan.done ans').Runs (body eof) ans →
      (Plan.done (Round.more ans')).Runs (body eof) (.more ans) := by
    intro ans' hrun
    rw [Plan.runs_done.1 hrun]
    exact .done _
  have hother : ∀ ms, t.unread = l :: ms → (result t (Item.other l ms)).Runs (body eof) ans →
      (if l.is ";" then .done (.more ([], t.next))
        else do return .more (← call (.statement true 0) t) : Plan Call Answer Round).Runs
          (body eof) (.more ans) := by
    intro ms hms hrun
    rw [result_other] at hrun
    split
    · rename_i hend
      rw [Reader.statement_of_semicolon hend, follow, Tape.past_next hms] at hrun
      exact hdone _ hrun
    · exact Plan.runs_bind.2 ⟨ans, runs_call (runs_statement hms hrun), .done _⟩
  unfold Item.next at hrun
  unfold iteration
  rw [if_neg (by simp [hl])] at hrun ⊢
  split at hrun
  · rename_i hmodule
    rw [if_pos hmodule]
    exact Plan.runs_bind.2 ⟨ans, runs_call (runs_module h hrun), .done _⟩
  rename_i hmodule
  rw [if_neg hmodule]
  split at hrun
  · rename_i hfunction
    rw [if_pos hfunction]
    rw [result_function h] at hrun
    exact hdone _ hrun
  rename_i hfunction
  rw [if_neg hfunction, Tape.peekIs, Tape.unread_next h]
  cases ls with
  | nil =>
    rw [if_neg (by simp), if_neg (by simp)]
    exact hother [] h hrun
  | cons m ms =>
    dsimp only at hrun
    split at hrun
    · rename_i hreference
      rw [if_pos (by simpa using hreference)]
      rw [result_reference h] at hrun
      exact hdone _ hrun
    rename_i hreference
    rw [if_neg (by simpa using hreference)]
    split at hrun
    · rename_i hassignment
      rw [if_pos (by simpa using hassignment)]
      rw [result_assignment h] at hrun
      exact hdone _ hrun
    · rename_i hassignment
      rw [if_neg (by simpa using hassignment)]
      exact hother (m :: ms) h hrun

end Items

/-! ## Blocks -/

section Blocks

variable {r : Reader} {tail : List Char} {ts : List Token} {t : Tape} {ls : List Leaf}

/-- The tape shows the leaves that the reader finds from its place on. -/
def Shown (r : Reader) (tail : List Char) (ts : List Token) (t : Tape) : Prop :=
  r.Shows tail ts t.cursor.pos t.unread

theorem shown_next {l : Leaf} (h : Shown r tail ts t) (hls : t.unread = l :: ls) :
    Shown r tail ts t.next := by
  rw [Shown, hls] at h
  rw [Shown, Tape.cursor_next hls, Tape.unread_next hls]
  exact h.next

theorem shown_take {l : Leaf} (h : Shown r tail ts t) (hls : t.unread = l :: ls) :
    Shown r tail ts (t.take (Item.next r.source.length l ls)) := by
  rw [Shown, hls, ← Item.next_append r.source.length] at h
  rw [Shown, Tape.cursor_take]
  exact Reader.Shows.skip h

/-- The answer is what a reader gives back, and the tape is read to where the cursor of the reader
stands. -/
structure Agrees (r : Reader) (tail : List Char) (ts : List Token)
    (found : List (Declaration Nat) × Checked.Cursor) (ans : Answer) : Prop where
  declarations : ans.1 = found.1
  cursor : ans.2.cursor = found.2
  shown : Shown r tail ts ans.2

/-- An item comes to what a reader finds, if the block that it opens does. -/
theorem runs_result {inner : Checked.Cursor → Reader.Read} {eof : Nat}
    (hinner : ∀ {t found}, Shown r tail ts t → inner t.cursor = .ok found →
      ∃ ans, (block eof true t).Runs (body eof) ans ∧ Agrees r tail ts found ans)
    {it : Item × List Leaf} (h : Shown r tail ts (t.take it))
    {found : List (Declaration Nat) × Checked.Cursor}
    (hfinish : Reader.finish inner it.1 (t.take it).cursor = .ok found) :
    ∃ ans, (result t it).Runs (body eof) ans ∧ Agrees r tail ts found ans := by
  unfold Reader.finish at hfinish
  unfold result
  cases hshape : it.1.shape with
  | skipped | included path | closed =>
    rw [hshape] at hfinish
    cases hfinish
    exact ⟨_, .done _, rfl, rfl, h⟩
  | declared kind name =>
    rw [hshape] at hfinish
    cases hfinish
    exact ⟨_, .done _, rfl, rfl, h⟩
  | openedModule name =>
    rw [hshape] at hfinish
    obtain ⟨children, hread, hchildren⟩ := of_bind_eq_ok hfinish
    cases hchildren
    obtain ⟨ans, hruns, hagrees⟩ := hinner h hread
    refine ⟨_, Plan.runs_bind.2 ⟨ans, runs_call hruns, .done _⟩, ?_, hagrees.cursor, hagrees.shown⟩
    dsimp only
    rw [hagrees.declarations, ← hagrees.cursor]
    rfl
  | openedBlock =>
    rw [hshape] at hfinish
    obtain ⟨ans, hruns, hagrees⟩ := hinner h hfinish
    exact ⟨ans, runs_call hruns, hagrees⟩

theorem runs_block_nil {eof : Nat} (nested : Bool) (hls : t.unread = []) :
    (block eof nested t).Runs (body eof) ([], t) := by
  unfold block
  rw [hls]
  exact .done _

/-- The loop of a block ends with its last round. -/
theorem runs_block_ended {eof : Nat} {nested : Bool} {l : Leaf} (hls : t.unread = l :: ls)
    {round : Round} (hended : round.ended = true)
    (hround : (iteration eof nested l t).Runs (body eof) round) :
    (block eof nested t).Runs (body eof) (round.found, round.tape) := by
  unfold block
  rw [hls]
  refine Plan.runs_bind.2 ⟨round, hround, ?_⟩
  rw [if_pos hended]
  exact .done _

/-- The loop of a block goes on behind any other round. -/
theorem runs_block_more {eof : Nat} {nested : Bool} {l : Leaf} (hls : t.unread = l :: ls)
    {ans others : Answer} (hround : (iteration eof nested l t).Runs (body eof) (.more ans))
    (hothers : (block eof nested ans.2).Runs (body eof) others) :
    (block eof nested t).Runs (body eof) (ans.1 ++ others.1, others.2) := by
  unfold block
  rw [hls]
  refine Plan.runs_bind.2 ⟨_, hround, ?_⟩
  exact Plan.runs_bind.2 ⟨others, runs_call hothers, .done _⟩

/-- A closing brace is a round of its own. -/
theorem runs_brace {eof : Nat} {nested : Bool} {l : Leaf} (hl : l.is Token.braceClose = true) :
    (iteration eof nested l t).Runs (body eof) ⟨nested, [], t.next⟩ := by
  rw [iteration, if_pos hl]
  exact .done _

/-- Descent comes to what a reader finds in a block. -/
theorem runs_block {fuel : Nat} {nested : Bool} (h : Shown r tail ts t)
    {found : List (Declaration Nat) × Checked.Cursor}
    (hblock : r.block fuel nested t.cursor = .ok found) :
    ∃ ans, (block r.source.length nested t).Runs (body r.source.length) ans ∧
      Agrees r tail ts found ans := by
  induction fuel generalizing nested t found with
  | zero => cases hblock
  | succ fuel ih =>
    rw [Reader.block, Reader.Shows.peek h, ok_bind] at hblock
    cases hls : t.unread with
    | nil =>
      rw [hls] at hblock
      cases hblock
      exact ⟨_, runs_block_nil nested hls, rfl, rfl, h⟩
    | cons l ls =>
      have hshows : r.Shows tail ts t.cursor.pos (l :: ls) := hls ▸ h
      rw [hls] at hblock
      simp only [List.head?_cons, Option.map_some, hshows.is, ok_bind, hshows.advance] at hblock
      cases hl : l.is Token.braceClose with
      | true =>
        have hnext := shown_next h hls
        rw [hl, if_pos rfl, ← Tape.cursor_next hls] at hblock
        cases nested with
        | true =>
          cases hblock
          exact ⟨_, runs_block_ended hls rfl (runs_brace hl), rfl, rfl, hnext⟩
        | false =>
          obtain ⟨ans, hruns, hagrees⟩ := ih hnext hblock
          have hround : (iteration r.source.length false l t).Runs (body r.source.length)
              (.more ([], t.next)) := runs_brace hl
          exact ⟨_, runs_block_more hls hround hruns, hagrees.declarations, hagrees.cursor,
            hagrees.shown⟩
      | false =>
        rw [hl, if_neg Bool.false_ne_true, Reader.item_eq _ hshows hl,
          ← Tape.cursor_take t (Item.next r.source.length l ls)] at hblock
        obtain ⟨first, hfirst, hrest⟩ := of_bind_eq_ok hblock
        obtain ⟨ans, hruns, hagrees⟩ :=
          runs_result (fun h hread => ih h hread) (shown_take h hls) hfirst
        obtain ⟨others, hothers, hfound⟩ := of_bind_eq_ok hrest
        cases hfound
        rw [← hagrees.cursor] at hothers
        obtain ⟨rest, hmore, hagrees'⟩ := ih hagrees.shown hothers
        refine ⟨_, runs_block_more hls (runs_iteration hls hl nested hruns) hmore, ?_,
          hagrees'.cursor, hagrees'.shown⟩
        rw [hagrees.declarations, hagrees'.declarations]

/-- A reader comes to the outline by a block that it reads from the beginning. -/
theorem exists_block {source : List Char} (h : Reads false 0 source ts) :
    ∃ r tail found, r.source = source ∧
      Shown r tail ts (Tape.start (Leaf.ofTokens ts)) ∧
      r.block r.rounds false (Tape.start (Leaf.ofTokens ts)).cursor = .ok found ∧
      ofTokens source.length ts =
        { declarations := found.1
          references := found.2.references
          faults := (Bracket.faults ts ++ found.2.faults).mergeSort fun a b =>
            decide (a.offset ≤ b.offset) } := by
  have houtline := Checked.outline_eq h
  obtain ⟨tail, rfl, hw⟩ := h.written
  obtain ⟨r, hr, hshows⟩ := Reader.shows_ofMarks hw h.path_length
  have hfaults : bracketFaults (Token.spell ts ++ tail) [] (ts.map Token.mark) =
      .ok (Bracket.faults ts) :=
    bracketFaults_eq (fun t ht => Token.stands_of_written hw ht)
      (fun t ht => (Token.sound_of_written hw ht).text_ne_nil) []
  rw [outline, hfaults, ok_bind, hr, ok_bind] at houtline
  obtain ⟨found, hblock, hfound⟩ := of_bind_eq_ok houtline
  exact ⟨r, tail, found, hshows.source, hshows, hblock, (Except.ok.inj hfound).symm⟩

end Blocks

/-- Descent comes to an end and reads all of a source. Every round of a block at a next leaf comes
to one result, and has read a leaf; every call makes only calls that come before it in a
well-founded order; and the outermost block gives the outline after it has read every token that is
no comment, once and in order. -/
theorem reads_all {source : List Char} {ts : List Token} (h : tokenize source = .ok ts) :
    (∀ (nested : Bool) (t : Tape) (l : Leaf) (ls : List Leaf), t.unread = l :: ls →
      (∃! round, (iteration source.length nested l t).Runs (body source.length) round) ∧
      ∀ round, (iteration source.length nested l t).Runs (body source.length) round →
        t.Advances round.tape) ∧
    (WellFounded Before ∧
      ∀ c d, (body source.length d).Asks (body source.length) c → Before c d) ∧
    ∃ ds t,
      (∀ ans, (block source.length false (Tape.start (Leaf.ofTokens ts))).Runs
        (body source.length) ans ↔ ans = (ds, t)) ∧
      t.unread = [] ∧ t.read.map Leaf.token = Token.significant ts ∧
      ofTokens source.length ts =
        { declarations := ds
          references := t.references
          faults := (Bracket.faults ts ++ t.faults).mergeSort fun a b =>
            decide (a.offset ≤ b.offset) } := by
  have hbody := safe_body source.length
  refine ⟨fun nested t l ls hls => ⟨?_, fun round hround => ?_⟩, ⟨wellFounded_before, ?_⟩, ?_⟩
  · exact Plan.existsUnique_runs wellFounded_before hbody (safe_iteration hls nested)
  · exact (hround.good hbody (safe_iteration hls nested)).1
  · exact fun c d hasks => hasks.allowed hbody (hbody d)
  · have hreads : Reads false 0 source ts := tokenizeFrom_eq_ok_iff.1 h
    obtain ⟨r, tail, found, rfl, hshown, hblock, houtline⟩ := exists_block hreads
    obtain ⟨⟨ds, t⟩, hruns, hagrees⟩ := runs_block hshown hblock
    have hmeets := hruns.good hbody (safe_block false)
    obtain ⟨taken, hpasses⟩ := hmeets.reaches
    have hunread : t.unread = [] := hmeets.all rfl
    have hread : t.read = Leaf.ofTokens ts := by
      have htaken := hpasses.unread
      rw [hunread, List.append_nil] at htaken
      rw [hpasses.read, ← htaken]
      rfl
    refine ⟨ds, t, fun ans => ⟨fun hans => hans.unique hruns, ?_⟩, hunread, ?_, ?_⟩
    · rintro rfl
      exact hruns
    · rw [hread]
      exact Leaf.map_token_ofTokensFrom [] ts
    · rw [houtline, ← hagrees.declarations, ← hagrees.cursor]
      rfl

/-- The tokens of a source in which a module and a function have no names, a block has no end, and
an expression stops before its first leaf. -/
def brokenTokens : List Token :=
  [⟨.ident, 0, [], "module".toList⟩, ⟨.punct, 7, [' '], [')']⟩, ⟨.punct, 8, [], ['{']⟩,
    ⟨.ident, 10, [' '], ['x']⟩, ⟨.punct, 11, [], ['=']⟩, ⟨.ident, 12, [], "function".toList⟩]

theorem reads_all_broken :
    ∃ t, (∀ ans, (block 20 false (Tape.start (Leaf.ofTokens brokenTokens))).Runs (body 20) ans ↔
        ans = ([⟨"x", .variable, ⟨10, 12⟩, ⟨10, 11⟩, none, []⟩], t)) ∧
      t.unread = [] ∧ t.read.map Leaf.token = brokenTokens := by
  have ht : tokenize "module )\x7b x=function".toList = .ok brokenTokens := by decide +kernel
  have hds : (ofTokens 20 brokenTokens).declarations =
      [⟨"x", .variable, ⟨10, 12⟩, ⟨10, 11⟩, none, []⟩] := by with_unfolding_all rfl
  obtain ⟨-, -, ds, t, hruns, hunread, hread, houtline⟩ := reads_all ht
  have hlength : "module )\x7b x=function".toList.length = 20 := by decide
  rw [hlength] at hruns houtline
  rw [houtline] at hds
  obtain rfl : ds = _ := hds
  exact ⟨t, hruns, hunread, hread⟩

end Descent
end Scad
