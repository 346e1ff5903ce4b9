import Scad.Proofs.Checked.Leaf

/-!
# Scad.Proofs.Checked.Item

Items read by a cursor that moves over the leaves. The cursor remembers where the last leaf stopped
and collects references and faults; declarations are given back. A block that an item opens is read
by a function that is passed in.

* `Reader.parameters`, `Reader.expression`, `Reader.statement`: the loops over leaves.
* `Reader.item`: one item, with the block it opens.
* `Reader.item_eq`: no look-up fails, and the item is the one of `Item.next`.
-/

namespace Scad

open Checked Outline

/-- The number of the next leaf, where the leaf before it stopped, and what was found so far. -/
structure Checked.Cursor where
  pos : Nat
  stop : Nat
  references : List Reference
  faults : List Fault
  deriving Repr

namespace Checked.Cursor

def add (k : Cursor) (fs : List Fault) : Cursor := { k with faults := k.faults ++ fs }

def fault (k : Cursor) (offset : Nat) (cause : Fault.Cause) : Cursor := k.add [⟨offset, cause⟩]

def refer (k : Cursor) (ref : Reference) : Cursor :=
  { k with references := k.references ++ [ref] }

/-- The cursor behind the next leaf. -/
def step (k : Cursor) (l : Leaf) : Cursor := { k with pos := k.pos + 1, stop := l.token.stop }

/-- The cursor behind some leaves. -/
def skip (k : Cursor) (ls : List Leaf) : Cursor := ls.foldl step k

@[simp] theorem skip_cons (k : Cursor) (l : Leaf) (ls : List Leaf) :
    k.skip (l :: ls) = (k.step l).skip ls := rfl

theorem skip_append (k : Cursor) (ls ms : List Leaf) : k.skip (ls ++ ms) = (k.skip ls).skip ms :=
  List.foldl_append

theorem skip_eq (k : Cursor) (ls : List Leaf) :
    k.skip ls =
      ⟨k.pos + ls.length, (ls.getLast?.map fun l => l.token.stop).getD k.stop, k.references,
        k.faults⟩ := by
  induction ls generalizing k with
  | nil => rfl
  | cons l ls ih =>
    rw [skip_cons, ih, List.length_cons, List.getLast?_cons]
    cases ls.getLast? with
    | none =>
      simp only [step, Option.map_none, Option.getD_none, Option.map_some, Option.getD_some]
      congr 1
      omega
    | some m =>
      simp only [step, Option.map_some, Option.getD_some]
      congr 1
      omega

theorem add_nil (k : Cursor) : k.add [] = k := by
  simp only [add, List.append_nil]

theorem skip_add (k : Cursor) (fs : List Fault) (ls : List Leaf) :
    (k.add fs).skip ls = (k.skip ls).add fs := by
  simp only [skip_eq, add]

@[simp] theorem skip_references (k : Cursor) (ls : List Leaf) :
    (k.skip ls).references = k.references := by
  rw [skip_eq]

theorem add_add (k : Cursor) (fs gs : List Fault) : (k.add fs).add gs = k.add (fs ++ gs) := by
  simp only [add, List.append_assoc]

/-- The cursor behind an expression, with the fault that it has no end. -/
def pass (k : Cursor) (e : Item.Stretch) : Cursor :=
  if e.ended then k.skip e.taken
  else (k.skip e.taken).fault (k.skip e.taken).stop .missingSemicolon

/-- The cursor behind an item, with what the item adds. -/
def take (k : Cursor) (it : Item) : Cursor :=
  { (k.skip it.leaves).add it.faults with
    references := k.references ++ (reference? it).toList }

theorem take_of_none {it : Item} (h : reference? it = none) (k : Cursor) :
    k.take it = (k.skip it.leaves).add it.faults := by
  simp only [take, h, add, Option.toList_none, List.append_nil, skip_references]

theorem take_of_some {it : Item} {ref : Reference} (h : reference? it = some ref) (k : Cursor) :
    k.take it = ((k.skip it.leaves).add it.faults).refer ref := by
  simp only [take, h, add, refer, Option.toList_some, skip_references]

end Checked.Cursor

namespace Reader

/-- What is read of a block: its declarations, and the cursor behind it. -/
abbrev Read := Checked (List (Declaration Nat) × Cursor)

/-- A bound for the rounds of a loop over the leaves. -/
def rounds (r : Reader) : Nat := r.significant.length + 1

/-- The next leaf, if there is one, and the cursor behind it. -/
def advance (r : Reader) (k : Cursor) : Checked (Option Mark × Cursor) := do
  match ← r.peekAt k.pos 0 with
  | none => return (none, k)
  | some m => return (some m, { k with pos := k.pos + 1, stop := m.stop })

/-- The result of a test, which is made only outside all brackets. -/
def outside (depth : Nat) (test : Checked Bool) : Checked Bool :=
  if depth = 0 then test else return false

/-- A parameter list, its opening parenthesis included. -/
def parameters (r : Reader) : Nat → Nat → Cursor → Checked Cursor
  | 0, _, _ => .error .endless
  | fuel + 1, depth, k => do
    match ← r.advance k with
    | (none, k) => return k
    | (some m, k) =>
      if ← m.is r.source "(" then
        r.parameters fuel (depth + 1) k
      else if ← m.is r.source ")" then
        if depth - 1 = 0 then return k else r.parameters fuel (depth - 1) k
      else
        r.parameters fuel depth k

def depthAfter (source : List Char) (openers closers : List String) (depth : Nat) (m : Mark) :
    Checked Nat := do
  if ← m.isAny source openers then
    return depth + 1
  else if ← m.isAny source closers then
    return depth - 1
  else
    return depth

/-- An expression with its semicolon. -/
def expression (r : Reader) : Nat → Nat → Cursor → Checked Cursor
  | 0, _, _ => .error .endless
  | fuel + 1, depth, k => do
    match ← r.peekAt k.pos 0 with
    | none => return k.fault k.stop .missingSemicolon
    | some m =>
      if ← outside depth (m.is r.source ";") then
        return (← r.advance k).2
      else if ← outside depth (m.isAny r.source [Token.braceClose, "module", "function"]) then
        return k.fault k.stop .missingSemicolon
      else
        let depth ← depthAfter r.source ["(", "[", Token.braceOpen] [")", "]", Token.braceClose]
          depth m
        r.expression fuel depth (← r.advance k).2

/-- Whether a statement has ended before a leaf, which cannot be its first one. -/
def closes (source : List Char) (first : Bool) (depth : Nat) (m : Mark) : Checked Bool :=
  if first then return false else outside depth (m.is source Token.braceClose)

/-- A statement that declares nothing, with the block it may open. -/
def statement (r : Reader) (inner : Cursor → Read) : Nat → Bool → Nat → Cursor → Read
  | 0, _, _, _ => .error .endless
  | fuel + 1, first, depth, k => do
    match ← r.peekAt k.pos 0 with
    | none => return ([], k)
    | some m =>
      if ← m.is r.source Token.braceOpen then
        inner (← r.advance k).2
      else if ← closes r.source first depth m then
        return ([], k)
      else
        let (_, k) ← r.advance k
        if ← m.isAny r.source ["(", "["] then
          r.statement inner fuel false (depth + 1) k
        else if ← m.isAny r.source [")", "]"] then
          r.statement inner fuel false (depth - 1) k
        else if ← outside depth (m.is r.source ";") then
          return ([], k)
        else
          r.statement inner fuel false depth k

/-- The name of a declaration of some kind, which must come next. -/
def declaredName (r : Reader) (kind : Declaration.Kind) (k : Cursor) :
    Checked (Option Mark × Cursor) := do
  match ← r.peekAt k.pos 0 with
  | some m =>
    if m.kind = .ident then
      return (some m, (← r.advance k).2)
    else
      return (none, k.fault (← r.here k.pos) (.missingName kind))
  | none => return (none, k.fault (← r.here k.pos) (.missingName kind))

/-- The parameter list of a declaration, whose parenthesis must come next. -/
def parameterList (r : Reader) (kind : Declaration.Kind) (k : Cursor) : Checked Cursor := do
  if ← r.peekIs k.pos 0 "(" then
    r.parameters r.rounds 0 k
  else
    return k.fault (← r.here k.pos) (.missingParameters kind)

/-- The block, semicolon or statement after the parameter list of a module. -/
def body (r : Reader) (inner : Cursor → Read) (k : Cursor) : Read := do
  if ← r.peekIs k.pos 0 Token.braceOpen then
    inner (← r.advance k).2
  else if ← r.peekIs k.pos 0 ";" then
    return ([], (← r.advance k).2)
  else
    match ← r.peekAt k.pos 0 with
    | some _ => r.statement inner r.rounds true 0 k
    | none => return ([], k)

/-- The equals sign of a function and the expression behind it. -/
def definition (r : Reader) (k : Cursor) : Checked Cursor := do
  if ← r.peekIs k.pos 0 "=" then
    r.expression r.rounds 0 (← r.advance k).2
  else
    return k.fault (← r.here k.pos) .missingDefinition

def declaration (r : Reader) (kind : Declaration.Kind) (first name : Mark) (doc : Option Doc)
    (children : List (Declaration Nat)) (k : Cursor) : Checked (Declaration Nat) := do
  let text ← name.text r.source
  return ⟨String.ofList text, kind, ⟨first.start, max k.stop name.stop⟩, ⟨name.start, name.stop⟩,
    doc, children⟩

/-- A declaration of some kind with its keyword, name and parameter list, where `rest` reads what
follows these. -/
def keyword (r : Reader) (kind : Declaration.Kind) (rest : Mark → Mark → Option Doc → Cursor → Read)
    (k : Cursor) : Read := do
  let doc ← r.docBefore k.pos
  match ← r.advance k with
  | (none, k) => return ([], k)
  | (some first, k) =>
    match ← r.declaredName kind k with
    | (none, k) => return ([], k)
    | (some name, k) => rest first name doc (← r.parameterList kind k)

def module (r : Reader) (inner : Cursor → Read) (k : Cursor) : Read :=
  r.keyword .module (fun first name doc k => do
    let (children, k) ← r.body inner k
    return ([← r.declaration .module first name doc children k], k)) k

def function (r : Reader) (k : Cursor) : Read :=
  r.keyword .function (fun first name doc k => do
    let k ← r.definition k
    return ([← r.declaration .function first name doc [] k], k)) k

def assignment (r : Reader) (k : Cursor) : Read := do
  let doc ← r.docBefore k.pos
  match ← r.advance k with
  | (none, k) => return ([], k)
  | (some name, k) =>
    let k ← r.expression r.rounds 0 (← r.advance k).2
    return ([← r.declaration .variable name name doc [] k], k)

/-- The cursor with the reference whose path is given. -/
def referTo (r : Reader) (path : Mark) (k : Cursor) : Checked Cursor := do
  let stop ← minus path.stop 1
  let text ← slice r.source (path.start + 1) stop
  return k.refer ⟨String.ofList text, ⟨path.start, path.stop⟩⟩

def reference (r : Reader) (k : Cursor) : Checked Cursor := do
  match ← r.advance (← r.advance k).2 with
  | (none, k) => return k
  | (some path, k) =>
    let k ← r.referTo path k
    if ← r.peekIs k.pos 0 ";" then
      return (← r.advance k).2
    else
      return k

/-- Whether a reference begins with the leaf `m`. -/
def opensReference (r : Reader) (m : Mark) (k : Cursor) : Checked Bool := do
  if ← m.isAny r.source ["include", "use"] then
    match ← r.peekAt k.pos 1 with
    | none => return false
    | some path => return path.kind == .path
  else
    return false

def other (r : Reader) (inner : Cursor → Read) (m : Mark) (k : Cursor) : Read := do
  if ← m.is r.source ";" then
    return ([], (← r.advance k).2)
  else
    r.statement inner r.rounds true 0 k

/-- The item that begins with the leaf `m`, which does not close a block. -/
def item (r : Reader) (inner : Cursor → Read) (m : Mark) (k : Cursor) : Read := do
  if m.kind = .ident then
    if ← m.is r.source "module" then
      r.module inner k
    else if ← m.is r.source "function" then
      r.function k
    else if ← r.opensReference m k then
      return ([], ← r.reference k)
    else if ← r.peekIs k.pos 1 "=" then
      r.assignment k
    else
      r.other inner m k
  else
    r.other inner m k

/-! ## Loops over leaves -/

section Loops

variable {r : Reader} {tail : List Char} {ts : List Token} {k : Cursor} {ls : List Leaf} {l : Leaf}

theorem Shows.length_lt (h : r.Shows tail ts k.pos ls) : ls.length < r.rounds := by
  have hlength := h.leaves.length_eq
  rw [List.length_drop] at hlength
  rw [rounds]
  omega

theorem Shows.advance (h : r.Shows tail ts k.pos (l :: ls)) :
    r.advance k = .ok (some l.token.mark, k.step l) := by
  rw [Reader.advance, h.peek]
  rfl

theorem Shows.advance_nil (h : r.Shows tail ts k.pos []) : r.advance k = .ok (none, k) := by
  rw [Reader.advance, h.peek]
  rfl

theorem Shows.skip {taken : List Leaf} (h : r.Shows tail ts k.pos (taken ++ ls)) :
    r.Shows tail ts (k.skip taken).pos ls := by
  induction taken generalizing k with
  | nil => exact h
  | cons l taken ih =>
    have hnext : r.Shows tail ts (k.step l).pos (taken ++ ls) := h.next
    exact ih hnext

theorem Shows.is (h : r.Shows tail ts k.pos (l :: ls)) (s : String) :
    l.token.mark.is r.source s = .ok (l.is s) := Token.is_mark h.stands s

theorem Shows.isAny (h : r.Shows tail ts k.pos (l :: ls)) (ss : List String) :
    l.token.mark.isAny r.source ss = .ok (l.isAny ss) := Token.isAny_mark h.stands ss

theorem outside_eq (depth : Nat) (b : Bool) :
    outside depth (.ok b) = .ok (decide (depth = 0 ∧ b = true)) := by
  unfold outside
  split
  · rename_i h
    simp [h]
  · rename_i h
    simp [h]

theorem parameters_eq (h : r.Shows tail ts k.pos ls) {fuel : Nat} (hfuel : ls.length < fuel)
    (depth : Nat) :
    r.parameters fuel depth k = .ok (k.skip (Item.parameters depth ls).taken) := by
  induction ls generalizing k fuel depth with
  | nil =>
    obtain ⟨n, rfl⟩ := Nat.exists_eq_succ_of_ne_zero (Nat.ne_of_gt hfuel)
    rw [parameters, h.advance_nil]
    rfl
  | cons l ls ih =>
    obtain ⟨n, rfl⟩ := Nat.exists_eq_succ_of_ne_zero (Nat.ne_of_gt (Nat.zero_lt_of_lt hfuel))
    have hnext : r.Shows tail ts (k.step l).pos ls := h.next
    have hn : ls.length < n := Nat.lt_of_succ_lt_succ hfuel
    rw [parameters, h.advance, ok_bind]
    simp only [h.is, ok_bind, ih hnext hn]
    rw [Item.parameters]
    split
    · rfl
    split
    · split
      · rfl
      · rfl
    · rfl

theorem Shows.depthAfter (h : r.Shows tail ts k.pos (l :: ls)) (openers closers : List String)
    (depth : Nat) :
    depthAfter r.source openers closers depth l.token.mark =
      .ok (if l.isAny openers then depth + 1
        else if l.isAny closers then depth - 1 else depth) := by
  simp only [Reader.depthAfter, h.isAny, ok_bind]
  split
  · rfl
  split
  · rfl
  · rfl

theorem expression_eq (h : r.Shows tail ts k.pos ls) {fuel : Nat} (hfuel : ls.length < fuel)
    (depth : Nat) :
    r.expression fuel depth k = .ok (k.pass (Item.expression depth ls)) := by
  induction ls generalizing k fuel depth with
  | nil =>
    obtain ⟨n, rfl⟩ := Nat.exists_eq_succ_of_ne_zero (Nat.ne_of_gt hfuel)
    rw [expression, h.peek]
    rfl
  | cons l ls ih =>
    obtain ⟨n, rfl⟩ := Nat.exists_eq_succ_of_ne_zero (Nat.ne_of_gt (Nat.zero_lt_of_lt hfuel))
    have hnext : r.Shows tail ts (k.step l).pos ls := h.next
    have hn : ls.length < n := Nat.lt_of_succ_lt_succ hfuel
    rw [expression, h.peek]
    simp only [List.head?_cons, Option.map_some, ok_bind, h.is, h.isAny, outside_eq, h.depthAfter,
      h.advance, ih hnext hn, decide_eq_true_eq]
    rw [Item.expression]
    split
    · rfl
    split
    · rfl
    split
    · rfl
    split
    · rfl
    · rfl

theorem expression_eq_definition (h : r.Shows tail ts k.pos ls) :
    r.expression r.rounds 0 k =
      .ok ((k.skip (Item.definition k.stop ls).1.taken).add (Item.definition k.stop ls).2) := by
  rw [expression_eq h h.length_lt, Cursor.pass, Item.definition]
  dsimp only
  split
  · rw [Cursor.add_nil]
  · rw [Cursor.fault, Cursor.skip_eq]

/-- What a stretch of a statement leads to: the block it opens, or nothing. -/
def follow (inner : Cursor → Read) (k : Cursor) (s : Item.Stretch) : Read :=
  if s.ended then inner (k.skip s.taken) else .ok ([], k.skip s.taken)

theorem statementRest_eq (inner : Cursor → Read) (h : r.Shows tail ts k.pos ls) {fuel : Nat}
    (hfuel : ls.length < fuel) (depth : Nat) :
    r.statement inner fuel false depth k = follow inner k (Item.statementRest depth ls) := by
  induction ls generalizing k fuel depth with
  | nil =>
    obtain ⟨n, rfl⟩ := Nat.exists_eq_succ_of_ne_zero (Nat.ne_of_gt hfuel)
    rw [statement, h.peek]
    rfl
  | cons l ls ih =>
    obtain ⟨n, rfl⟩ := Nat.exists_eq_succ_of_ne_zero (Nat.ne_of_gt (Nat.zero_lt_of_lt hfuel))
    have hnext : r.Shows tail ts (k.step l).pos ls := h.next
    have hn : ls.length < n := Nat.lt_of_succ_lt_succ hfuel
    rw [statement, h.peek]
    simp only [List.head?_cons, Option.map_some, ok_bind, h.is, h.isAny, closes, outside_eq,
      h.advance, ih hnext hn, decide_eq_true_eq, Bool.false_eq_true, if_false]
    rw [Item.statementRest]
    split
    · rfl
    split
    · rfl
    split
    · rfl
    split
    · rfl
    split
    · rfl
    · rfl

/-- A leaf that reads one text does not read another. -/
theorem isAny_eq_false {s : String} (h : l.is s = true) (ss : List String) (hs : s ∉ ss) :
    l.isAny ss = false := by
  refine List.any_eq_false.2 fun s' hs' hother => hs ?_
  have htext : l.token.text = s.toList := eq_of_beq h
  have htext' : l.token.text = s'.toList := eq_of_beq hother
  rwa [String.toList_inj.1 (htext.symm.trans htext')]

theorem statement_of_semicolon (h : l.is ";" = true) (ls : List Leaf) :
    Item.statement (l :: ls) = ⟨false, [l], ls⟩ := by
  have hopens := isAny_eq_false h [Token.braceOpen] (by decide)
  have hbrackets := isAny_eq_false h ["(", "["] (by decide)
  have hbrace : l.is Token.braceOpen = false := by
    simpa [Leaf.is, Leaf.isAny, Token.isAny] using hopens
  rw [Item.statement, if_neg (by simp [hbrace]), if_neg (by simp [hbrackets]), if_pos h]

theorem statement_eq (inner : Cursor → Read) (h : r.Shows tail ts k.pos ls) {fuel : Nat}
    (hfuel : ls.length < fuel) :
    r.statement inner fuel true 0 k = follow inner k (Item.statement ls) := by
  cases ls with
  | nil =>
    obtain ⟨n, rfl⟩ := Nat.exists_eq_succ_of_ne_zero (Nat.ne_of_gt hfuel)
    rw [statement, h.peek]
    rfl
  | cons l ls =>
    obtain ⟨n, rfl⟩ := Nat.exists_eq_succ_of_ne_zero (Nat.ne_of_gt (Nat.zero_lt_of_lt hfuel))
    have hnext : r.Shows tail ts (k.step l).pos ls := h.next
    have hn : ls.length < n := Nat.lt_of_succ_lt_succ hfuel
    rw [statement, h.peek]
    simp only [List.head?_cons, Option.map_some, ok_bind, h.is, h.isAny, closes, outside_eq,
      h.advance, statementRest_eq inner hnext hn, if_true, pure_eq_ok, Bool.false_eq_true, if_false,
      true_and, decide_eq_true_eq, Nat.zero_add, Nat.zero_sub]
    rw [Item.statement]
    split
    · rfl
    split
    · rfl
    by_cases hsemicolon : l.is ";" = true
    · have hcloses := isAny_eq_false hsemicolon [")", "]"] (by decide)
      rw [if_neg (by simp [hcloses]), if_pos hsemicolon, if_pos hsemicolon]
      rfl
    · rw [if_neg hsemicolon, if_neg hsemicolon, ite_self]
      rfl

/-! ## Items -/

theorem body_eq (inner : Cursor → Read) (h : r.Shows tail ts k.pos ls) :
    r.body inner k = follow inner k (Item.statement ls) := by
  unfold body
  simp only [h.peekIs, h.peek, ok_bind, statement_eq inner h h.length_lt]
  cases ls with
  | nil => rfl
  | cons l ls =>
    simp only [List.head?_cons, Option.any_some, Option.map_some, h.advance, ok_bind, pure_eq_ok]
    split
    · rename_i hopen
      rw [Item.statement, if_pos hopen]
      rfl
    split
    · rename_i hsemicolon
      rw [statement_of_semicolon hsemicolon]
      rfl
    · rfl

theorem other_eq (inner : Cursor → Read) (h : r.Shows tail ts k.pos (l :: ls)) :
    r.other inner l.token.mark k = follow inner k (Item.statement (l :: ls)) := by
  rw [other, h.is, ok_bind, h.advance, ok_bind, statement_eq inner h h.length_lt]
  split
  · rename_i hsemicolon
    rw [statement_of_semicolon hsemicolon]
    rfl
  · rfl

theorem parameterList_eq (kind : Declaration.Kind) (h : r.Shows tail ts k.pos ls) :
    r.parameterList kind k =
      .ok ((k.skip (Item.parameterList r.source.length kind ls).1.taken).add
        (Item.parameterList r.source.length kind ls).2) := by
  rw [parameterList, h.peekIs, ok_bind, parameters_eq h h.length_lt, h.here, ok_bind,
    Item.parameterList]
  split
  · rw [Cursor.add_nil]
  · rfl

theorem declaredName_cons (kind : Declaration.Kind) (h : r.Shows tail ts k.pos (l :: ls))
    (hl : l.token.kind = .ident) : r.declaredName kind k = .ok (some l.token.mark, k.step l) := by
  rw [declaredName, h.peek, ok_bind, h.advance]
  simp only [List.head?_cons, Option.map_some, ok_bind, pure_eq_ok]
  exact if_pos hl

theorem declaredName_none (kind : Declaration.Kind) (h : r.Shows tail ts k.pos ls)
    (hls : ∀ l ∈ ls.head?, l.token.kind ≠ .ident) :
    r.declaredName kind k =
      .ok (none, k.fault (Item.here r.source.length ls) (.missingName kind)) := by
  rw [declaredName, h.peek, ok_bind, h.here]
  cases ls with
  | nil => rfl
  | cons l ls => exact if_neg (hls l rfl)

theorem declaration_eq (kind : Declaration.Kind) (first : Leaf) {name : Token}
    (h : name.Stands r.source) (children : List (Declaration Nat)) (k : Cursor) :
    r.declaration kind first.token.mark name.mark first.doc children k =
      .ok (declare kind first name (max k.stop name.stop) children) := by
  rw [declaration, Token.text_mark h]
  rfl

/-- What an item gives that has been read up to the brace that may open its block. -/
def finish (inner : Cursor → Read) (it : Item) (k : Cursor) : Read :=
  match it.shape with
  | .skipped | .included _ | .closed => .ok ([], k)
  | .declared kind name => .ok ([declare kind it.first name (max k.stop name.stop) []], k)
  | .openedModule name => do
    let (children, k) ← inner k
    return ([declare .module it.first name (max k.stop name.stop) children], k)
  | .openedBlock => inner k

theorem keywordDeclaration_none {eof : Nat} {kind : Declaration.Kind}
    (hls : ∀ l ∈ ls.head?, l.token.kind ≠ .ident) :
    Item.keywordDeclaration eof kind l ls =
      (⟨.skipped, l, [], [⟨Item.here eof ls, .missingName kind⟩]⟩, ls) := by
  cases ls with
  | nil => rfl
  | cons name ls => simp only [Item.keywordDeclaration, if_neg (hls name rfl), Item.here,
      List.head?_cons, Option.elim_some]

/-- A declaration has its name behind its keyword, or something else stands there. -/
theorem name_or_none (ls : List Leaf) :
    (∀ m ∈ ls.head?, m.token.kind ≠ .ident) ∨
      ∃ name rest, ls = name :: rest ∧ name.token.kind = .ident := by
  cases ls with
  | nil => exact .inl (by simp)
  | cons name rest =>
    by_cases hname : name.token.kind = .ident
    · exact .inr ⟨name, rest, rfl, hname⟩
    · exact .inl (by simpa using hname)

theorem keyword_none (kind : Declaration.Kind) (rest : Mark → Mark → Option Doc → Cursor → Read)
    (inner : Cursor → Read) (h : r.Shows tail ts k.pos (l :: ls))
    (hls : ∀ m ∈ ls.head?, m.token.kind ≠ .ident) :
    r.keyword kind rest k =
      finish inner (Item.keywordDeclaration r.source.length kind l ls).1
        (k.take (Item.keywordDeclaration r.source.length kind l ls).1) := by
  have hnext : r.Shows tail ts (k.step l).pos ls := h.next
  rw [keyword, h.docBefore, ok_bind, h.advance, ok_bind]
  dsimp only
  rw [declaredName_none kind hnext hls, keywordDeclaration_none hls, Cursor.take_of_none rfl]
  rfl

theorem keyword_cons {kind : Declaration.Kind} {rest : Mark → Mark → Option Doc → Cursor → Read}
    {name : Leaf} (h : r.Shows tail ts k.pos (l :: name :: ls)) (hname : name.token.kind = .ident) :
    r.keyword kind rest k =
      rest l.token.mark name.token.mark l.doc
        ((k.skip (l :: name :: (Item.parameterList r.source.length kind ls).1.taken)).add
          (Item.parameterList r.source.length kind ls).2) := by
  have hnext : r.Shows tail ts (k.step l).pos (name :: ls) := h.next
  have hparameters : r.Shows tail ts ((k.step l).step name).pos ls := hnext.next
  rw [keyword, h.docBefore, ok_bind, h.advance, ok_bind]
  dsimp only
  rw [declaredName_cons kind hnext hname, ok_bind]
  dsimp only
  rw [parameterList_eq kind hparameters]
  rfl

/-- What follows the parameter list of a declaration. -/
theorem Shows.afterParameters {name : Leaf} (h : r.Shows tail ts k.pos (l :: name :: ls))
    (kind : Declaration.Kind) (fs : List Fault) :
    r.Shows tail ts
      ((k.skip (l :: name :: (Item.parameterList r.source.length kind ls).1.taken)).add fs).pos
      (Item.parameterList r.source.length kind ls).1.rest := by
  refine Shows.skip (k := k) ?_
  rwa [List.cons_append, List.cons_append, Item.parameterList_append]

theorem module_eq (inner : Cursor → Read) (h : r.Shows tail ts k.pos (l :: ls)) :
    r.module inner k =
      finish inner (Item.keywordDeclaration r.source.length .module l ls).1
        (k.take (Item.keywordDeclaration r.source.length .module l ls).1) := by
  rcases name_or_none ls with hls | ⟨name, rest, rfl, hname⟩
  · exact keyword_none .module _ inner h hls
  · have hitem : Item.keywordDeclaration r.source.length .module l (name :: rest) =
        Item.moduleItem r.source.length l name rest := by
      simp only [Item.keywordDeclaration, if_pos hname]
    rw [module, keyword_cons h hname, body_eq inner (h.afterParameters .module _), hitem,
      Item.moduleItem]
    have hstands : name.token.Stands r.source := h.next.stands
    have hskip : ∀ fs taken, ((k.skip (l :: name ::
        (Item.parameterList r.source.length .module rest).1.taken)).add fs).skip taken = _ :=
      fun fs taken => by rw [Cursor.skip_add, ← Cursor.skip_append]
    simp only [follow, declaration_eq .module l hstands, hskip]
    generalize Item.statement (Item.parameterList r.source.length .module rest).1.rest = s
    cases s.ended with
    | true =>
      rw [Cursor.take_of_none rfl]
      rfl
    | false =>
      rw [Cursor.take_of_none rfl]
      rfl

theorem definition_eq (h : r.Shows tail ts k.pos (l :: ls)) (hl : l.is "=" = true) :
    r.definition k =
      .ok ((k.skip (l :: (Item.definition l.token.stop ls).1.taken)).add
        (Item.definition l.token.stop ls).2) := by
  have hnext : r.Shows tail ts (k.step l).pos ls := h.next
  have hequals : (List.head? (l :: ls)).any (Leaf.is · "=") = true := hl
  rw [definition, h.peekIs, ok_bind, if_pos hequals, h.advance, ok_bind]
  exact expression_eq_definition hnext

theorem definition_none (h : r.Shows tail ts k.pos ls)
    (hls : ls.head?.any (Leaf.is · "=") = false) :
    r.definition k = .ok (k.add [⟨Item.here r.source.length ls, .missingDefinition⟩]) := by
  rw [definition, h.peekIs, ok_bind, if_neg (by simp [hls]), h.here]
  rfl

theorem function_eq (inner : Cursor → Read) (h : r.Shows tail ts k.pos (l :: ls)) :
    r.function k =
      finish inner (Item.keywordDeclaration r.source.length .function l ls).1
        (k.take (Item.keywordDeclaration r.source.length .function l ls).1) := by
  rcases name_or_none ls with hls | ⟨name, rest, rfl, hname⟩
  · exact keyword_none .function _ inner h hls
  · have hitem : Item.keywordDeclaration r.source.length .function l (name :: rest) =
        Item.functionItem r.source.length l name rest := by
      simp only [Item.keywordDeclaration, if_pos hname]
    have hstands : name.token.Stands r.source := h.next.stands
    have hafter := h.afterParameters .function
      (Item.parameterList r.source.length .function rest).2
    rw [function, keyword_cons h hname, hitem, Item.functionItem]
    dsimp only
    cases hrest : (Item.parameterList r.source.length .function rest).1.rest with
    | nil =>
      rw [hrest] at hafter
      rw [definition_none hafter rfl, ok_bind, declaration_eq .function l hstands,
        Cursor.take_of_none rfl, Cursor.add_add]
      rfl
    | cons m ms =>
      rw [hrest] at hafter
      cases hm : m.is "=" with
      | false =>
        rw [definition_none hafter hm, ok_bind, declaration_eq .function l hstands, Cursor.add_add]
        simp only [hm, Bool.false_eq_true, if_false]
        rw [Cursor.take_of_none rfl]
        rfl
      | true =>
        rw [definition_eq hafter hm, ok_bind, declaration_eq .function l hstands, Cursor.skip_add,
          ← Cursor.skip_append, Cursor.add_add]
        simp only [hm, if_true]
        rw [Cursor.take_of_none rfl]
        rfl

theorem assignment_eq (inner : Cursor → Read) {equals : Leaf}
    (h : r.Shows tail ts k.pos (l :: equals :: ls)) :
    r.assignment k =
      finish inner (Item.variableItem l equals ls).1
        (k.take (Item.variableItem l equals ls).1) := by
  have hequals : r.Shows tail ts (k.step l).pos (equals :: ls) := h.next
  have hnext : r.Shows tail ts ((k.step l).step equals).pos ls := hequals.next
  rw [assignment, h.docBefore, ok_bind, h.advance, ok_bind]
  dsimp only
  rw [hequals.advance, ok_bind, expression_eq_definition hnext, ok_bind,
    declaration_eq .variable l h.stands, Cursor.take_of_none rfl]
  rfl

theorem referTo_eq (h : r.Shows tail ts k.pos (l :: ls)) (hkind : l.token.kind = .path)
    (k' : Cursor) :
    r.referTo l.token.mark k' =
      .ok (k'.refer ⟨String.ofList l.token.text.tail.dropLast, spanOf l.token⟩) := by
  have hstop : 1 ≤ l.token.stop := by
    have hlt := h.sound.start_lt_stop
    omega
  rw [referTo, Token.stop_mark, minus_of_le hstop, ok_bind,
    Token.start_mark, h.slice_path hkind]
  rfl

theorem reference_eq (inner : Cursor → Read) {path : Leaf}
    (h : r.Shows tail ts k.pos (l :: path :: ls)) (hkind : path.token.kind = .path) :
    (do return ([], ← r.reference k)) =
      finish inner (Item.reference l path ls).1 (k.take (Item.reference l path ls).1) := by
  have hpath : r.Shows tail ts (k.step l).pos (path :: ls) := h.next
  have hnext : r.Shows tail ts (((k.step l).step path).refer
      ⟨String.ofList path.token.text.tail.dropLast, spanOf path.token⟩).pos ls := hpath.next
  rw [reference, h.advance, ok_bind, hpath.advance, ok_bind]
  dsimp only
  rw [referTo_eq hpath hkind, ok_bind, hnext.peekIs, ok_bind]
  cases ls with
  | nil =>
    rw [Item.reference, Cursor.take_of_some rfl, Cursor.add_nil]
    rfl
  | cons m ms =>
    rw [hnext.advance, Item.reference]
    cases hm : m.is ";" with
    | false =>
      simp only [List.head?_cons, Option.any_some, hm, Bool.false_eq_true, if_false]
      rw [Cursor.take_of_some rfl, Cursor.add_nil]
      rfl
    | true =>
      simp only [List.head?_cons, Option.any_some, hm, if_true]
      rw [Cursor.take_of_some rfl, Cursor.add_nil]
      rfl

theorem opensReference_eq (h : r.Shows tail ts k.pos (l :: ls)) :
    r.opensReference l.token.mark k =
      .ok (l.isAny ["include", "use"] && ls.head?.any fun m => m.token.kind == .path) := by
  rw [opensReference, h.isAny, ok_bind, h.peek_second]
  cases l.isAny ["include", "use"] with
  | false => rfl
  | true =>
    cases ls with
    | nil => rfl
    | cons m ms => rfl

theorem other_item (inner : Cursor → Read) (h : r.Shows tail ts k.pos (l :: ls)) :
    r.other inner l.token.mark k =
      finish inner (Item.other l ls).1 (k.take (Item.other l ls).1) := by
  have hleaves := Item.statement_taken l ls
  rw [other_eq inner h, follow, Item.other]
  cases hended : (Item.statement (l :: ls)).ended with
  | true =>
    simp only [if_true]
    rw [Cursor.take_of_none rfl, Cursor.add_nil, Item.leaves, hleaves]
    rfl
  | false =>
    simp only [Bool.false_eq_true, if_false]
    rw [Cursor.take_of_none rfl, Cursor.add_nil, Item.leaves, hleaves]
    rfl

/-- Reading an item does not fail, and gives what the item gives to the outline. -/
theorem item_eq (inner : Cursor → Read) (h : r.Shows tail ts k.pos (l :: ls))
    (hl : l.is Token.braceClose = false) :
    r.item inner l.token.mark k =
      finish inner (Item.next r.source.length l ls).1
        (k.take (Item.next r.source.length l ls).1) := by
  have hpeek : r.peekIs k.pos 1 "=" = .ok (ls.head?.any (Leaf.is · "=")) := h.next.peekIs "="
  rw [item, h.is, h.is, opensReference_eq h, hpeek, module_eq inner h, function_eq inner h,
    other_item inner h]
  unfold Item.next
  simp only [ok_bind, hl, Bool.false_eq_true, if_false]
  by_cases hident : l.token.kind = .ident
  · rw [if_pos (show l.token.mark.kind = .ident from hident)]
    simp only [hident, true_and]
    split
    · rfl
    split
    · rfl
    cases ls with
    | nil => simp
    | cons m ms =>
      simp only [List.head?_cons, Option.any_some, Bool.and_eq_true, beq_iff_eq]
      split
      · rename_i hreference
        exact reference_eq inner h hreference.2
      by_cases hequals : m.is "=" = true
      · simp only [hequals, if_true]
        exact assignment_eq inner h
      · simp only [hequals, Bool.false_eq_true, if_false]
  · rw [if_neg (show ¬ l.token.mark.kind = .ident from hident)]
    simp only [hident, false_and, if_false]
    cases ls with
    | nil => rfl
    | cons m ms => rfl

end Loops
end Reader
end Scad
