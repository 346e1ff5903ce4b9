import Scad.Analysis
import Scad.Proofs.Checked.Layout
import Scad.Proofs.Checked.Token
import Scad.Proofs.Position.Inverse
import Scad.Signature

/-!
# Scad.Proofs.Checked.Analysis

What is known of a file, with its tokens by their extents only.

* `Checked.place`: the place of an offset, from the number of its line and the UTF-16 units before
  it and before its line.
* `Checked.Record`: an analysis without the texts of its tokens. `Record.ofText_eq` says that the
  record of every text is found and is that of `Analysis.ofText`.
* `Record.tokenAt`, `Record.isCall`, `Checked.signatureOf`: the questions about a record.
-/

namespace Scad
namespace Checked

open Text

/-! ## Places -/

def lineNumber (source : List Char) (offset : Nat) : Checked Nat := do
  return (← slice source 0 offset).count '\n'

def unitsBefore (source : List Char) (offset : Nat) : Checked Nat := do
  return Position.width (← slice source 0 offset)

/-- The place of an offset in a file, an offset past the end meaning the end. -/
def place (file : FilePath) (source : List Char) (offset : Nat) : Checked Place := do
  let offset := min offset source.length
  let line ← lineNumber source offset
  let start ← index (lineStarts 0 source) line
  let column ← minus (← unitsBefore source offset) (← unitsBefore source start)
  return ⟨file, offset, ⟨line, column⟩⟩

theorem length_newlineStarts (i : Nat) (s : List Char) :
    (newlineStarts i s).length = s.count '\n' := by
  induction s generalizing i with
  | nil => rfl
  | cons c s ih =>
    rw [newlineStarts]
    split
    · rename_i hc
      rw [hc, List.length_cons, ih, List.count_cons_self]
    · rename_i hc
      rw [ih, List.count_cons_of_ne hc]

/-- The line behind some whole lines starts there. -/
theorem index_lineStarts {s : List Char} (h : Position.WholeLines s) (t : List Char) :
    index (lineStarts 0 (s ++ t)) (s.count '\n') = .ok s.length := by
  obtain rfl | ⟨s, rfl⟩ := h.eq_nil_or
  · rfl
  · refine index_of_getElem? ?_
    have hlast : lineStarts 0 (s ++ ['\n'] ++ t) =
        (0 :: newlineStarts 0 s) ++ (s.length + 1) :: newlineStarts (s.length + 1) t := by
      rw [lineStarts, List.append_assoc, List.singleton_append, newlineStarts_append, newlineStarts,
        if_pos rfl, Nat.zero_add]
      rfl
    rw [hlast, getElem?_append_cons, List.length_append, List.length_singleton]
    rw [List.length_cons, length_newlineStarts, List.count_append, List.count_singleton_self]

theorem place_eq (file : FilePath) (source : List Char) (offset : Nat) :
    place file source offset = .ok (Place.at file source offset) := by
  have hle : min offset source.length ≤ source.length := Nat.min_le_right _ _
  rw [place, Place.at]
  generalize min offset source.length = n at hle
  -- the lines before the offset, and the part of its own line before it
  obtain ⟨before, here, hsplit, hbefore, hcount⟩ :=
    Position.exists_wholeLines (Nat.le_refl ((source.take n).count '\n'))
  have hhere : '\n' ∉ here := by
    rw [hsplit, List.count_append] at hcount
    exact List.count_eq_zero.1 (by omega)
  have hsource : source = before ++ (here ++ source.drop n) := by
    rw [← List.append_assoc, ← hsplit, List.take_append_drop]
  have hposition : Position.ofOffset source n = ⟨before.count '\n', Position.width here⟩ := by
    rw [Position.ofOffset, hsplit, Position.advance_append,
      Position.advance_of_wholeLines hbefore, Position.advance_of_no_newline _ hhere, Nat.zero_add]
  have hline : lineNumber source n = .ok (before.count '\n') := by
    rw [lineNumber, slice_take source hle, ok_bind, pure_eq_ok, hcount]
  have hstart : index (lineStarts 0 source) (before.count '\n') = .ok before.length := by
    rw [hsource]
    exact index_lineStarts hbefore _
  have hunits : unitsBefore source n = .ok (Position.width before + Position.width here) := by
    rw [unitsBefore, slice_take source hle, ok_bind, pure_eq_ok, hsplit, Position.width_append]
  have hunits' : unitsBefore source before.length = .ok (Position.width before) := by
    have hlength : before.length ≤ source.length := by
      rw [hsource, List.length_append]
      omega
    rw [unitsBefore, slice_take source hlength, ok_bind, pure_eq_ok, hsource, List.take_left]
  simp only [hline, hstart, hunits, hunits', ok_bind, minus_of_le (Nat.le_add_right _ _),
    pure_eq_ok, Nat.add_sub_cancel_left, hposition]

mutual

/-- The declaration with a place for every offset, nested ones included. -/
def locate (file : FilePath) (source : List Char) :
    Declaration Nat → Checked (Declaration Place)
  | ⟨name, kind, span, nameSpan, doc, children⟩ => do
    let start ← place file source span.start
    let stop ← place file source span.stop
    let nameStart ← place file source nameSpan.start
    let nameStop ← place file source nameSpan.stop
    let children ← locateAll file source children
    return ⟨name, kind, ⟨start, stop⟩, ⟨nameStart, nameStop⟩, doc, children⟩

def locateAll (file : FilePath) (source : List Char) :
    List (Declaration Nat) → Checked (List (Declaration Place))
  | [] => return []
  | d :: ds => do
    let d ← locate file source d
    let ds ← locateAll file source ds
    return d :: ds

end

mutual

theorem locate_eq (file : FilePath) (source : List Char) :
    ∀ d : Declaration Nat, locate file source d = .ok (d.map (Place.at file source))
  | ⟨name, kind, span, nameSpan, doc, children⟩ => by
    rw [locate]
    simp only [place_eq, ok_bind, locateAll_eq file source children]
    rfl

theorem locateAll_eq (file : FilePath) (source : List Char) :
    ∀ ds : List (Declaration Nat),
      locateAll file source ds = .ok (Declaration.mapAll (Place.at file source) ds)
  | [] => rfl
  | d :: ds => by
    rw [locateAll, locate_eq file source d, ok_bind, locateAll_eq file source ds]
    rfl

end

/-! ## Records -/

/-- What is known of a file, its tokens by kind and extent. -/
structure Record where
  file : FilePath
  source : List Char
  tokens : Option (List Mark)
  declarations : List (Declaration Place)
  references : List Reference
  problems : List Problem
  deriving Repr

def Record.ofText (file : FilePath) (source : List Char) : Checked Record := do
  match ← marks source with
  | .ok ms =>
    let o ← outline source ms
    let declarations ← locateAll file source o.declarations
    let problems ← o.faults.mapM fun f => do
      return ⟨← place file source f.offset, f.message⟩
    return ⟨file, source, some ms, declarations, o.references, problems⟩
  | .error e => return ⟨file, source, none, [], [], [⟨← place file source e.offset, e.message⟩]⟩

end Checked

/-- The analysis without the texts of its tokens. -/
def Analysis.record (a : Analysis) : Checked.Record :=
  ⟨a.file, a.source, a.tokens.map (List.map Token.mark), a.declarations, a.references, a.problems⟩

namespace Analysis

@[simp] theorem file_record (a : Analysis) : a.record.file = a.file := rfl

@[simp] theorem source_record (a : Analysis) : a.record.source = a.source := rfl

@[simp] theorem tokens_record (a : Analysis) :
    a.record.tokens = a.tokens.map (List.map Token.mark) := rfl

@[simp] theorem references_record (a : Analysis) : a.record.references = a.references := rfl

end Analysis

namespace Checked

theorem Record.ofText_eq (file : FilePath) (source : List Char) :
    ofText file source = .ok (Analysis.ofText file source).record := by
  rw [ofText, marks_eq, ok_bind, Analysis.ofText]
  cases h : tokenize source with
  | ok ts =>
    have hreads : Reads false 0 source ts := tokenizeFrom_eq_ok_iff.1 h
    have hproblems : ((Outline.ofTokens source.length ts).faults.mapM fun f =>
          (do return ⟨← place file source f.offset, f.message⟩ : Checked Problem)) =
        .ok ((Outline.ofTokens source.length ts).faults.map fun f =>
          ⟨Place.at file source f.offset, f.message⟩) := by
      refine mapM_of_forall fun f _ => ?_
      rw [place_eq]
      rfl
    simp only [Except.map, outline_eq hreads, ok_bind, locateAll_eq, hproblems]
    rfl
  | error e =>
    simp only [Except.map, place_eq, ok_bind]
    rfl

/-! ## Tokens of a record -/

/-- The first token that is no comment and satisfies `p`, with its index, where the tokens have
indices from `i` on. -/
def findMark (p : Mark → Bool) (i : Nat) : List Mark → Option (Nat × Mark)
  | [] => none
  | m :: ms => if !m.isComment && p m then some (i, m) else findMark p (i + 1) ms

namespace Record

/-- The token that holds the character at an offset, or else the one that ends there, with its
index. -/
def tokenAt (r : Record) (offset : Nat) : Option (Nat × Mark) :=
  let ms := r.tokens.getD []
  (findMark (fun m => decide (m.start ≤ offset) && decide (offset < m.stop)) 0 ms).or
    (findMark (fun m => m.stop == offset) 0 ms)

/-- Whether the token after the one with index `i` that is no comment opens a call. -/
def isCall (r : Record) (i : Nat) : Checked Bool :=
  match r.tokens with
  | none => return false
  | some ms => do
    match (← slice ms (i + 1) ms.length).find? fun m => !m.isComment with
    | none => return false
    | some m => m.is r.source "("

def tokensIn (r : Record) (span : Span Place) : List Mark :=
  (r.tokens.getD []).filter fun m =>
    decide (span.start.offset ≤ m.start) && decide (m.stop ≤ span.stop.offset)

end Record

/-- The number of tokens of a module up to the parenthesis that closes its parameter list, or up to
its block, where the tokens have indices from `i` on. -/
def headerStop (source : List Char) (i depth : Nat) : List Mark → Checked Nat
  | [] => return i
  | m :: ms => do
    if ← m.is source "(" then
      headerStop source (i + 1) (depth + 1) ms
    else if ← m.is source ")" then
      if depth - 1 = 0 then return i + 1 else headerStop source (i + 1) (depth - 1) ms
    else if ← Reader.outside depth (m.is source Token.braceOpen) then
      return i
    else
      headerStop source (i + 1) depth ms

/-- The texts of the tokens, each after the blank it needs; `before` and `prev` are the two texts
that come before them. -/
def joinMarks (source : List Char) (before prev : Option (List Char)) :
    List Mark → Checked (List Char)
  | [] => return []
  | m :: ms => do
    let text ← m.text source
    let space := prev.any fun p => Signature.needsSpace before p ⟨m.kind, m.start, [], text⟩
    return (if space then [' '] else []) ++ text ++ (← joinMarks source prev (some text) ms)

/-- The number of tokens that the signature of a declaration has. -/
def signatureStop (source : List Char) (kind : Declaration.Kind) (ms : List Mark) : Checked Nat :=
  match kind with
  | .module => headerStop source 0 0 ms
  | .function | .variable => return ms.length

/-- The signature of a declaration, given the tokens of its extent. -/
def signatureOf (source : List Char) (kind : Declaration.Kind) (ms : List Mark) :
    Checked (List Char) := do
  let significant := ms.filter fun m => !m.isComment
  let count ← signatureStop source kind significant
  joinMarks source none none (← slice significant 0 count)

section Marks

variable {source : List Char} {ts : List Token}

theorem map_significant (ts : List Token) :
    (ts.map Token.mark).filter (fun m => !m.isComment) =
      (Token.significant ts).map Token.mark := by
  rw [List.filter_map]
  rfl

theorem findMark_eq {p : Mark → Bool} {q : Token → Bool} (hp : ∀ t, p t.mark = q t) (i : Nat)
    (ts : List Token) :
    (Analysis.findToken? q (Token.significant ts) = none ∧
        findMark p i (ts.map Token.mark) = none) ∨
      ∃ before t rest, ts = before ++ t :: rest ∧
        Analysis.findToken? q (Token.significant ts) = some (t, Token.significant rest) ∧
        findMark p i (ts.map Token.mark) = some (i + before.length, t.mark) := by
  induction ts generalizing i with
  | nil => exact .inl ⟨rfl, rfl⟩
  | cons t ts ih =>
    have hlater : (findMark p i ((t :: ts).map Token.mark) =
          findMark p (i + 1) (ts.map Token.mark) ∧
        Analysis.findToken? q (Token.significant (t :: ts)) =
          Analysis.findToken? q (Token.significant ts)) →
        (Analysis.findToken? q (Token.significant (t :: ts)) = none ∧
          findMark p i ((t :: ts).map Token.mark) = none) ∨
        ∃ before u rest, t :: ts = before ++ u :: rest ∧
          Analysis.findToken? q (Token.significant (t :: ts)) =
            some (u, Token.significant rest) ∧
          findMark p i ((t :: ts).map Token.mark) = some (i + before.length, u.mark) := by
      rintro ⟨hmark, htoken⟩
      rw [hmark, htoken]
      rcases ih (i + 1) with ⟨h1, h2⟩ | ⟨before, u, rest, rfl, h1, h2⟩
      · exact .inl ⟨h1, h2⟩
      · refine .inr ⟨t :: before, u, rest, rfl, h1, ?_⟩
        rw [h2, List.length_cons]
        congr 2
        omega
    cases hcomment : t.isComment with
    | true => exact hlater (by simp [findMark, Token.significant, hcomment])
    | false =>
      cases hq : q t with
      | true =>
        refine .inr ⟨[], t, ts, rfl, ?_, ?_⟩
        · simp [Token.significant, hcomment, Analysis.findToken?, hq]
        · simp [findMark, hcomment, hp, hq]
      | false =>
        exact hlater (by simp [findMark, Token.significant, hcomment, Analysis.findToken?, hp, hq])

theorem headerStop_eq (hts : ∀ t ∈ ts, t.Stands source) (i depth : Nat) :
    headerStop source i depth (ts.map Token.mark) =
      .ok (i + (Signature.header depth ts).length) := by
  induction ts generalizing i depth with
  | nil => rfl
  | cons t ts ih =>
    obtain ⟨ht, hts⟩ := List.forall_mem_cons.1 hts
    rw [List.map_cons, headerStop]
    simp only [Token.is_mark ht, Reader.outside_eq, ok_bind, ih hts, decide_eq_true_eq, pure_eq_ok]
    rw [Signature.header]
    have hnext : ∀ n, i + 1 + n = i + (n + 1) := by omega
    split
    · rw [List.length_cons, hnext]
    split
    · split
      · rfl
      · rw [List.length_cons, hnext]
    split
    · rfl
    · rw [List.length_cons, hnext]

theorem joinMarks_eq (hts : ∀ t ∈ ts, t.Stands source) (before : Option (List Char))
    (prev : List Char) :
    joinMarks source before (some prev) (ts.map Token.mark) =
      .ok (Signature.joinFrom before prev ts) := by
  induction ts generalizing before prev with
  | nil => rfl
  | cons t ts ih =>
    obtain ⟨ht, hts⟩ := List.forall_mem_cons.1 hts
    rw [List.map_cons, joinMarks, Token.text_mark ht, ok_bind, ih hts]
    rfl

theorem join_eq (hts : ∀ t ∈ ts, t.Stands source) :
    joinMarks source none none (ts.map Token.mark) = .ok (Signature.join ts) := by
  cases ts with
  | nil => rfl
  | cons t ts =>
    obtain ⟨ht, hts⟩ := List.forall_mem_cons.1 hts
    rw [List.map_cons, joinMarks, Token.text_mark ht, ok_bind, joinMarks_eq hts]
    rfl

theorem signatureStop_eq (hts : ∀ t ∈ ts, t.Stands source) (kind : Declaration.Kind) :
    signatureStop source kind (ts.map Token.mark) = .ok (Signature.shown kind ts).length := by
  cases kind with
  | module => rw [signatureStop, headerStop_eq hts, Nat.zero_add, Signature.shown]
  | _ =>
    rw [signatureStop, List.length_map]
    rfl

/-- The signature of any tokens of a source is found. -/
theorem signatureOf_eq (hts : ∀ t ∈ ts, t.Stands source) (kind : Declaration.Kind) :
    signatureOf source kind (ts.map Token.mark) = .ok (Signature.render kind ts) := by
  have hsignificant : ∀ t ∈ Token.significant ts, t.Stands source :=
    fun t ht => hts t (List.mem_filter.1 ht).1
  have hfront := Signature.shown_front kind (Token.significant ts)
  have hlength : (Signature.shown kind (Token.significant ts)).length ≤
      ((Token.significant ts).map Token.mark).length := by
    rw [List.length_map]
    exact hfront.length_le
  rw [signatureOf, map_significant, signatureStop_eq hsignificant, ok_bind, slice_take _ hlength,
    ok_bind, ← List.map_take, ← List.prefix_iff_eq_take.1 hfront, Signature.render_eq]
  exact join_eq fun t ht => hsignificant t (hfront.subset ht)

end Marks

/-! ## Questions about a record -/

section Record

variable {a : Analysis}

/-- The token at an offset is found with its index, if there is one. -/
theorem tokenAt_eq (a : Analysis) (offset : Nat) :
    (a.tokenAt? offset = none ∧ a.record.tokenAt offset = none) ∨
      ∃ before t rest, a.tokens = some (before ++ t :: rest) ∧
        a.tokenAt? offset = some (t, Token.significant rest) ∧
        a.record.tokenAt offset = some (before.length, t.mark) := by
  cases ha : a.tokens with
  | none =>
    left
    simp [Analysis.tokenAt?, Record.tokenAt, Analysis.record, ha, Token.significant,
      Analysis.findToken?, findMark]
  | some ts =>
    have hholds := findMark_eq (p := fun m => decide (m.start ≤ offset) && decide (offset < m.stop))
      (q := fun t => decide (t.start ≤ offset) && decide (offset < t.stop)) (fun _ => rfl) 0 ts
    have hends := findMark_eq (p := fun m => m.stop == offset) (q := fun t => t.stop == offset)
      (fun _ => rfl) 0 ts
    simp only [Analysis.tokenAt?, Record.tokenAt, Analysis.record, ha, Option.getD_some,
      Option.map_some]
    rcases hholds with ⟨h1, h2⟩ | ⟨before, t, rest, rfl, h1, h2⟩
    · rw [h1, h2, Option.none_or, Option.none_or]
      rcases hends with ⟨h1, h2⟩ | ⟨before, t, rest, rfl, h1, h2⟩
      · exact .inl ⟨h1, h2⟩
      · exact .inr ⟨before, t, rest, rfl, h1, by rw [h2, Nat.zero_add]⟩
    · exact .inr ⟨before, t, rest, rfl, by rw [h1]; rfl, by rw [h2, Nat.zero_add]; rfl⟩

theorem isCall_eq {before rest : List Token} {t : Token}
    (ha : a.tokens = some (before ++ t :: rest)) (hrest : ∀ u ∈ rest, u.Stands a.source) :
    a.record.isCall before.length =
      .ok ((Token.significant rest).head?.any (Token.is · "(")) := by
  have hslice : slice ((before ++ t :: rest).map Token.mark) (before.length + 1)
      ((before ++ t :: rest).map Token.mark).length = .ok (rest.map Token.mark) := by
    have happend : slice ((before ++ [t]).map Token.mark ++ rest.map Token.mark ++ [])
        (before.length + 1) ((before ++ t :: rest).map Token.mark).length =
          .ok (rest.map Token.mark) :=
      slice_append _ _ _ (by simp) (by simp; omega)
    rwa [List.append_nil, ← List.map_append, List.append_assoc, List.singleton_append] at happend
  have hfind : (rest.map Token.mark).find? (fun m => !m.isComment) =
      (Token.significant rest).head?.map Token.mark := by
    rw [← List.head?_filter, map_significant, List.head?_map]
  simp only [Record.isCall, Analysis.tokens_record, Analysis.source_record, ha, Option.map_some,
    hslice, ok_bind, hfind]
  cases hhead : (Token.significant rest).head? with
  | none => rfl
  | some u =>
    have hu : u ∈ rest := (List.mem_filter.1 (List.mem_of_head? hhead)).1
    exact Token.is_mark (hrest u hu) "("

end Record

end Checked

end Scad
