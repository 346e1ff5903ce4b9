import Scad.Outline
import Scad.Proofs.Descent.Plan

/-!
# Scad.Proofs.Descent.Scan

The leaves of a source read by recursive descent. A block reads one thing after another in a loop,
a module reads its body, and a statement reads on to the block that it may open; these three call
each other.

* `Tape`: the leaves that have been read and those that have not. Only `Tape.next` reads a leaf.
* `Descent.iteration`: one round of the loop of a block.
* `Descent.body`: what a call does. The loops of blocks and of statements go on by a call; those
  over parameters and over expressions make none.
* `Descent.Before`: the order of calls, by the number of unread leaves. A block may leave a leaf to
  the module or to the statement that begins with it; all other calls come after a leaf was read.
* `Descent.safe_iteration`: every round reads a leaf.
* `Descent.safe_body`: every call that is made comes before the one that makes it.
-/

namespace Scad

open Outline

/-- The leaves of a source on both sides of the place that has been reached, and the references and
the faults found so far. -/
structure Tape where
  read : List Leaf
  unread : List Leaf
  references : List Reference
  faults : List Fault
  deriving Repr

namespace Tape

def start (ls : List Leaf) : Tape := ⟨[], ls, [], []⟩

/-- The tape behind the next leaf, if there is one. -/
def next (t : Tape) : Tape :=
  match t.unread with
  | [] => t
  | l :: ls => { t with read := t.read ++ [l], unread := ls }

def peekIs (t : Tape) (s : String) : Bool := t.unread.head?.any (Leaf.is · s)

/-- Where the next leaf starts, or the end of the source. -/
def here (eof : Nat) (t : Tape) : Nat := Item.here eof t.unread

/-- Where the last leaf that was read stops. -/
def stop (t : Tape) : Nat := (t.read.getLast?.map fun l => l.token.stop).getD 0

def fault (t : Tape) (offset : Nat) (cause : Fault.Cause) : Tape :=
  { t with faults := t.faults ++ [⟨offset, cause⟩] }

def refer (t : Tape) (path : Token) : Tape :=
  { t with
    references := t.references ++ [⟨String.ofList path.text.tail.dropLast, spanOf path⟩] }

theorem next_of_cons {t : Tape} {l : Leaf} {ls : List Leaf} (h : t.unread = l :: ls) :
    t.next = { t with read := t.read ++ [l], unread := ls } := by
  unfold next
  rw [h]

theorem length_next {t : Tape} {l : Leaf} {ls : List Leaf} (h : t.unread = l :: ls) :
    t.next.unread.length < t.unread.length := by
  rw [next_of_cons h, h]
  exact Nat.lt_succ_self _

/-! ## The way over a tape -/

/-- From `t` to `t'` the leaves `taken` have been read, each once and in order. -/
structure Passes (t : Tape) (taken : List Leaf) (t' : Tape) : Prop where
  read : t'.read = t.read ++ taken
  unread : t.unread = taken ++ t'.unread

def Reaches (t t' : Tape) : Prop := ∃ taken, t.Passes taken t'

/-- At least one leaf has been read. -/
def Advances (t t' : Tape) : Prop := ∃ taken, taken ≠ [] ∧ t.Passes taken t'

section Ways

variable {t t' t'' : Tape}

theorem Passes.trans {taken taken' : List Leaf} (h : t.Passes taken t')
    (h' : t'.Passes taken' t'') : t.Passes (taken ++ taken') t'' where
  read := by rw [h'.read, h.read, List.append_assoc]
  unread := by rw [h.unread, h'.unread, List.append_assoc]

theorem Reaches.refl (t : Tape) : t.Reaches t := ⟨[], (List.append_nil _).symm, rfl⟩

theorem Reaches.trans (h : t.Reaches t') (h' : t'.Reaches t'') : t.Reaches t'' := by
  obtain ⟨taken, h⟩ := h
  obtain ⟨taken', h'⟩ := h'
  exact ⟨taken ++ taken', h.trans h'⟩

theorem Advances.trans (h : t.Advances t') (h' : t'.Reaches t'') : t.Advances t'' := by
  obtain ⟨taken, hne, h⟩ := h
  obtain ⟨taken', h'⟩ := h'
  exact ⟨taken ++ taken', List.append_ne_nil_of_left_ne_nil hne taken', h.trans h'⟩

theorem Advances.reaches (h : t.Advances t') : t.Reaches t' := by
  obtain ⟨taken, -, h⟩ := h
  exact ⟨taken, h⟩

theorem Advances.length_lt (h : t.Advances t') : t'.unread.length < t.unread.length := by
  obtain ⟨taken, hne, h⟩ := h
  rw [h.unread, List.length_append]
  exact Nat.lt_add_of_pos_left (List.length_pos_iff.2 hne)

theorem advances_next {l : Leaf} {ls : List Leaf} (h : t.unread = l :: ls) :
    t.Advances t.next := by
  refine ⟨[l], List.cons_ne_nil l [], ?_⟩
  rw [next_of_cons h]
  exact ⟨rfl, h⟩

theorem reaches_next (t : Tape) : t.Reaches t.next := by
  cases h : t.unread with
  | nil =>
    have hnext : t.next = t := by
      unfold next
      rw [h]
    rw [hnext]
    exact .refl t
  | cons l ls => exact (advances_next h).reaches

theorem reaches_fault (t : Tape) (offset : Nat) (cause : Fault.Cause) :
    t.Reaches (t.fault offset cause) := ⟨[], (List.append_nil _).symm, rfl⟩

theorem reaches_refer (t : Tape) (path : Token) : t.Reaches (t.refer path) :=
  ⟨[], (List.append_nil _).symm, rfl⟩

end Ways
end Tape

namespace Descent

/-! ## What is read without a call -/

/-- A parameter list, its opening parenthesis included. -/
def parameters (depth : Nat) (t : Tape) : Tape :=
  match _h : t.unread with
  | [] => t
  | l :: _ =>
    if l.is "(" then parameters (depth + 1) t.next
    else if l.is ")" then
      if depth - 1 = 0 then t.next else parameters (depth - 1) t.next
    else parameters depth t.next
termination_by t.unread.length
decreasing_by all_goals exact Tape.length_next _h

/-- An expression with its semicolon. -/
def expression (depth : Nat) (t : Tape) : Tape :=
  match _h : t.unread with
  | [] => t.fault t.stop .missingSemicolon
  | l :: _ =>
    if depth = 0 ∧ l.is ";" = true then t.next
    else if depth = 0 ∧ l.isAny [Token.braceClose, "module", "function"] = true then
      t.fault t.stop .missingSemicolon
    else if l.isAny ["(", "[", Token.braceOpen] then expression (depth + 1) t.next
    else if l.isAny [")", "]", Token.braceClose] then expression (depth - 1) t.next
    else expression depth t.next
termination_by t.unread.length
decreasing_by all_goals exact Tape.length_next _h

/-- The name of a declaration of some kind, which must come next. -/
def declaredName (eof : Nat) (kind : Declaration.Kind) (t : Tape) : Option Leaf × Tape :=
  match t.unread with
  | [] => (none, t.fault (t.here eof) (.missingName kind))
  | name :: _ =>
    if name.token.kind = .ident then (some name, t.next)
    else (none, t.fault (t.here eof) (.missingName kind))

/-- The parameter list of a declaration, whose parenthesis must come next. -/
def parameterList (eof : Nat) (kind : Declaration.Kind) (t : Tape) : Tape :=
  if t.peekIs "(" then parameters 0 t else t.fault (t.here eof) (.missingParameters kind)

/-- The equals sign of a function and the expression behind it. -/
def definition (eof : Nat) (t : Tape) : Tape :=
  if t.peekIs "=" then expression 0 t.next else t.fault (t.here eof) .missingDefinition

def declaration (kind : Declaration.Kind) (first name : Leaf) (children : List (Declaration Nat))
    (t : Tape) : Declaration Nat :=
  declare kind first name.token (max t.stop name.token.stop) children

/-- What a call gives back: declarations, and the tape behind what was read. -/
abbrev Answer := List (Declaration Nat) × Tape

def function (eof : Nat) (t : Tape) : Answer :=
  match t.unread with
  | [] => ([], t)
  | keyword :: _ =>
    match declaredName eof .function t.next with
    | (none, t) => ([], t)
    | (some name, t) =>
      let t := definition eof (parameterList eof .function t)
      ([declaration .function keyword name [] t], t)

def assignment (t : Tape) : Answer :=
  match t.unread with
  | [] => ([], t)
  | name :: _ =>
    let t := expression 0 t.next.next
    ([declaration .variable name name [] t], t)

/-- A reference to another file with the semicolon that may follow it. -/
def reference (t : Tape) : Tape :=
  match t.next.unread with
  | [] => t.next
  | path :: _ =>
    let t := t.next.next.refer path.token
    if t.peekIs ";" then t.next else t

section Reaches

variable (t : Tape)

theorem reaches_parameters (depth : Nat) : t.Reaches (parameters depth t) := by
  fun_induction parameters depth t with
  | case1 depth t => exact .refl t
  | case2 depth t l ls hls hopen ih => exact t.reaches_next.trans ih
  | case3 depth t l ls hls hopen hclose hdepth => exact t.reaches_next
  | case4 depth t l ls hls hopen hclose hdepth ih => exact t.reaches_next.trans ih
  | case5 depth t l ls hls hopen hclose ih => exact t.reaches_next.trans ih

theorem reaches_expression (depth : Nat) : t.Reaches (expression depth t) := by
  fun_induction expression depth t with
  | case1 depth t => exact t.reaches_fault _ _
  | case2 depth t l ls hls hend => exact t.reaches_next
  | case3 depth t l ls hls hend hearly => exact t.reaches_fault _ _
  | case4 depth t l ls hls hend hearly hopen ih => exact t.reaches_next.trans ih
  | case5 depth t l ls hls hend hearly hopen hclose ih => exact t.reaches_next.trans ih
  | case6 depth t l ls hls hend hearly hopen hclose ih => exact t.reaches_next.trans ih

theorem reaches_declaredName (eof : Nat) (kind : Declaration.Kind) :
    t.Reaches (declaredName eof kind t).2 := by
  unfold declaredName
  split
  · exact t.reaches_fault _ _
  split
  · exact t.reaches_next
  · exact t.reaches_fault _ _

theorem reaches_parameterList (eof : Nat) (kind : Declaration.Kind) :
    t.Reaches (parameterList eof kind t) := by
  unfold parameterList
  split
  · exact reaches_parameters t 0
  · exact t.reaches_fault _ _

theorem reaches_definition (eof : Nat) : t.Reaches (definition eof t) := by
  unfold definition
  split
  · exact t.reaches_next.trans (reaches_expression t.next 0)
  · exact t.reaches_fault _ _

variable {t} {l : Leaf} {ls : List Leaf}

/-- A function without a name is left after its keyword. -/
theorem advances_function (h : t.unread = l :: ls) (eof : Nat) :
    t.Advances (function eof t).2 := by
  have hname := (t.advances_next h).trans (reaches_declaredName t.next eof .function)
  simp only [function, h]
  split
  · rename_i t' hnone
    rw [hnone] at hname
    exact hname
  · rename_i name t' hsome
    rw [hsome] at hname
    exact hname.trans ((reaches_parameterList t' eof .function).trans (reaches_definition _ eof))

theorem advances_assignment (h : t.unread = l :: ls) : t.Advances (assignment t).2 := by
  simp only [assignment, h]
  exact (t.advances_next h).trans (t.next.reaches_next.trans (reaches_expression t.next.next 0))

theorem advances_reference (h : t.unread = l :: ls) : t.Advances (reference t) := by
  have hword := t.advances_next h
  unfold reference
  split
  · exact hword
  · rename_i path rest hpath
    have hrefer := hword.trans (t.next.reaches_next.trans (t.next.next.reaches_refer path.token))
    dsimp only
    split
    · exact hrefer.trans (Tape.reaches_next _)
    · exact hrefer

end Reaches

/-! ## Procedures -/

/-- The procedures that call each other. -/
inductive Procedure where
  /-- The rest of a block, up to its closing brace if it is nested and up to the end of the source
  otherwise. -/
  | block (nested : Bool)
  /-- The rest of a statement: whether it is all of it, and how many brackets are open. -/
  | statement (first : Bool) (depth : Nat)
  /-- A module. -/
  | module
  deriving DecidableEq, Repr

structure Call where
  procedure : Procedure
  tape : Tape
  deriving Repr

def call (procedure : Procedure) (t : Tape) : Plan Call Answer Answer :=
  .ask ⟨procedure, t⟩ .done

/-- The block, semicolon or statement after the parameter list of a module. -/
def moduleBody (t : Tape) : Plan Call Answer Answer :=
  if t.peekIs Token.braceOpen then call (.block true) t.next
  else if t.peekIs ";" then .done ([], t.next)
  else if t.unread.isEmpty then .done ([], t)
  else call (.statement true 0) t

def module (eof : Nat) (t : Tape) : Plan Call Answer Answer :=
  match t.unread with
  | [] => .done ([], t)
  | keyword :: _ =>
    match declaredName eof .module t.next with
    | (none, t) => .done ([], t)
    | (some name, t) => do
      let ans ← moduleBody (parameterList eof .module t)
      return ([declaration .module keyword name ans.1 ans.2], ans.2)

def statement (first : Bool) (depth : Nat) (t : Tape) : Plan Call Answer Answer :=
  match t.unread with
  | [] => .done ([], t)
  | l :: _ =>
    if l.is Token.braceOpen then call (.block true) t.next
    else if first = false ∧ depth = 0 ∧ l.is Token.braceClose = true then .done ([], t)
    else if l.isAny ["(", "["] then call (.statement false (depth + 1)) t.next
    else if l.isAny [")", "]"] then call (.statement false (depth - 1)) t.next
    else if depth = 0 ∧ l.is ";" = true then .done ([], t.next)
    else call (.statement false depth) t.next

/-- What a round of a loop comes to: whether it was the last one, and what it gives. -/
structure Round where
  ended : Bool
  found : List (Declaration Nat)
  tape : Tape
  deriving Repr

/-- A round that gives what was read, after which the loop goes on. -/
def Round.more (ans : Answer) : Round := ⟨false, ans.1, ans.2⟩

/-- A round of the loop of a block, where `l` is the next leaf. -/
def iteration (eof : Nat) (nested : Bool) (l : Leaf) (t : Tape) : Plan Call Answer Round :=
  if l.is Token.braceClose then .done ⟨nested, [], t.next⟩
  else if l.token.kind = .ident ∧ l.is "module" = true then do
    return .more (← call .module t)
  else if l.token.kind = .ident ∧ l.is "function" = true then .done (.more (function eof t))
  else if l.token.kind = .ident ∧ l.isAny ["include", "use"] = true ∧
      t.next.unread.head?.any (fun m => m.token.kind == .path) = true then
    .done (.more ([], reference t))
  else if l.token.kind = .ident ∧ t.next.peekIs "=" = true then .done (.more (assignment t))
  else if l.is ";" then .done (.more ([], t.next))
  else do
    return .more (← call (.statement true 0) t)

def block (eof : Nat) (nested : Bool) (t : Tape) : Plan Call Answer Answer :=
  match t.unread with
  | [] => .done ([], t)
  | l :: _ => do
    let round ← iteration eof nested l t
    if round.ended then return (round.found, round.tape)
    else
      let others ← call (.block nested) round.tape
      return (round.found ++ others.1, others.2)

/-- What a call does. `eof` is the length of the source. -/
def body (eof : Nat) (c : Call) : Plan Call Answer Answer :=
  match c.procedure with
  | .block nested => block eof nested c.tape
  | .statement first depth => statement first depth c.tape
  | .module => module eof c.tape

/-! ## The order of calls -/

/-- Blocks come after the modules and the statements that begin where they stand. -/
def Procedure.rank : Procedure → Nat
  | .block _ => 1
  | .statement _ _ | .module => 0

/-- The call `c` has less to read than the call `d`, or has as much but is made by a block. -/
def Before (c d : Call) : Prop :=
  c.tape.unread.length < d.tape.unread.length ∨
    c.tape.unread.length = d.tape.unread.length ∧ c.procedure.rank < d.procedure.rank

theorem wellFounded_before : WellFounded Before := by
  refine Subrelation.wf (fun {c d} h => ?_)
    (measure fun c : Call => 2 * c.tape.unread.length + c.procedure.rank).wf
  have hrank : c.procedure.rank ≤ 1 := by
    cases c.procedure <;> simp [Procedure.rank]
  show 2 * c.tape.unread.length + c.procedure.rank < 2 * d.tape.unread.length + d.procedure.rank
  unfold Before at h
  omega

theorem before_of_advances {p q : Procedure} {t t' : Tape} (h : t.Advances t') :
    Before ⟨q, t'⟩ ⟨p, t⟩ := .inl h.length_lt

theorem before_of_rank {p q : Procedure} {t : Tape} (h : q.rank < p.rank) :
    Before ⟨q, t⟩ ⟨p, t⟩ := .inr ⟨rfl, h⟩

/-! ## What calls do -/

/-- The procedures that read the next leaf whatever it is. -/
def Procedure.advances : Procedure → Bool
  | .statement first _ => first
  | .module => true
  | .block _ => false

/-- What is promised of the answer to a call. -/
structure Meets (c : Call) (ans : Answer) : Prop where
  reaches : c.tape.Reaches ans.2
  advances : c.procedure.advances = true → c.tape.unread ≠ [] → c.tape.Advances ans.2
  all : c.procedure = .block false → ans.2.unread = []

/-- An answer that has advanced is enough for all procedures but an outermost block. -/
theorem Meets.of_advances {p : Procedure} {t : Tape} {ans : Answer} (hp : p ≠ .block false)
    (h : t.Advances ans.2) : Meets ⟨p, t⟩ ans :=
  ⟨h.reaches, fun _ _ => h, fun hblock => absurd hblock hp⟩

theorem Meets.of_nil {p : Procedure} {t : Tape} (h : t.unread = []) (ds : List (Declaration Nat)) :
    Meets ⟨p, t⟩ (ds, t) :=
  ⟨.refl t, fun _ hne => absurd h hne, fun _ => h⟩

section Safe

variable {eof : Nat} {t : Tape} {l : Leaf} {ls : List Leaf} {allowed : Call → Prop}
  {good : Answer → Prop}

theorem safe_call {p : Procedure} (hallowed : allowed ⟨p, t⟩)
    (hgood : ∀ ans, Meets ⟨p, t⟩ ans → good ans) : (call p t).Safe allowed Meets good :=
  ⟨hallowed, hgood⟩

/-- Every round of a block reads a leaf, and only a nested block ends before the source does. -/
theorem safe_iteration (h : t.unread = l :: ls) (nested : Bool) :
    (iteration eof nested l t).Safe (Before · ⟨.block nested, t⟩) Meets fun round =>
      t.Advances round.tape ∧ (round.ended = true → nested = true) := by
  have hne : t.unread ≠ [] := by simp [h]
  -- a module and a statement begin with a leaf that nobody has looked at but the block
  have hcall : ∀ p : Procedure, p.advances = true → p.rank = 0 →
      (do return Round.more (← call p t) : Plan Call Answer Round).Safe
        (Before · ⟨.block nested, t⟩) Meets fun round =>
          t.Advances round.tape ∧ (round.ended = true → nested = true) := by
    intro p hp hrank
    refine Plan.Safe.bind (safe_call (before_of_rank ?_) fun ans hans => ?_)
    · rw [hrank]
      exact Nat.one_pos
    · exact ⟨hans.advances hp hne, fun hended => by cases hended⟩
  unfold iteration
  split
  · exact ⟨Tape.advances_next h, id⟩
  split
  · exact hcall .module rfl rfl
  split
  · exact ⟨advances_function h eof, fun hended => by cases hended⟩
  split
  · exact ⟨advances_reference h, fun hended => by cases hended⟩
  split
  · exact ⟨advances_assignment h, fun hended => by cases hended⟩
  split
  · exact ⟨Tape.advances_next h, fun hended => by cases hended⟩
  · exact hcall (.statement true 0) rfl rfl

theorem safe_block (nested : Bool) :
    (block eof nested t).Safe (Before · ⟨.block nested, t⟩) Meets (Meets ⟨.block nested, t⟩) := by
  unfold block
  split
  · rename_i h
    exact .of_nil h []
  · rename_i l ls h
    refine Plan.Safe.bind ((safe_iteration h nested).mono ?_)
    rintro round ⟨hadvances, hended⟩
    split
    · rename_i hround
      refine .of_advances ?_ hadvances
      rw [hended hround]
      simp
    · refine Plan.Safe.bind (safe_call (before_of_advances hadvances) fun ans hans => ?_)
      have hreaches := hadvances.trans hans.reaches
      exact ⟨hreaches.reaches, fun _ _ => hreaches, hans.all⟩

theorem safe_statement (first : Bool) (depth : Nat) :
    (statement first depth t).Safe (Before · ⟨.statement first depth, t⟩) Meets
      (Meets ⟨.statement first depth, t⟩) := by
  unfold statement
  split
  · rename_i h
    exact .of_nil h []
  · rename_i l ls h
    have hnext := Tape.advances_next h
    have hcall : ∀ p : Procedure, (call p t.next).Safe (Before · ⟨.statement first depth, t⟩) Meets
        (Meets ⟨.statement first depth, t⟩) := fun p =>
      safe_call (before_of_advances hnext) fun ans hans =>
        .of_advances (by simp) (hnext.trans hans.reaches)
    split
    · exact hcall (.block true)
    split
    · rename_i hclosed
      -- the statement has read something before, so it need not read the brace
      refine ⟨.refl t, fun hfirst _ => ?_, by simp⟩
      simp [Procedure.advances, hclosed.1] at hfirst
    split
    · exact hcall _
    split
    · exact hcall _
    split
    · exact .of_advances (by simp) hnext
    · exact hcall _

theorem safe_moduleBody {p : Procedure} {t' : Tape} (h : t.Advances t')
    (hgood : ∀ ans : Answer, t.Advances ans.2 → good ans) :
    (moduleBody t').Safe (Before · ⟨p, t⟩) Meets good := by
  have hnext := h.trans t'.reaches_next
  unfold moduleBody
  split
  · exact safe_call (before_of_advances hnext) fun ans hans => hgood ans (hnext.trans hans.reaches)
  split
  · exact hgood _ hnext
  split
  · exact hgood _ h
  · exact safe_call (before_of_advances h) fun ans hans => hgood ans (h.trans hans.reaches)

/-- A module without a name is left after its keyword. -/
theorem safe_module :
    (module eof t).Safe (Before · ⟨.module, t⟩) Meets (Meets ⟨.module, t⟩) := by
  unfold module
  split
  · rename_i h
    exact .of_nil h []
  · rename_i keyword ls h
    have hname := (Tape.advances_next h).trans (reaches_declaredName t.next eof .module)
    split
    · rename_i t' hnone
      rw [hnone] at hname
      exact .of_advances (by simp) hname
    · rename_i name t' hsome
      rw [hsome] at hname
      exact Plan.Safe.bind (safe_moduleBody (hname.trans (reaches_parameterList t' eof .module))
        fun ans hans => .of_advances (by simp) hans)

/-- Every call makes only calls that come before it, and its answer is as promised. -/
theorem safe_body (eof : Nat) (c : Call) : (body eof c).Safe (Before · c) Meets (Meets c) := by
  obtain ⟨procedure, t⟩ := c
  cases procedure with
  | block nested => exact safe_block nested
  | statement first depth => exact safe_statement first depth
  | module => exact safe_module

end Safe
end Descent
end Scad
