import Mathlib.Data.List.FinRange
import Mathlib.Data.List.Forall2
import Scad.Proofs.Doc

/-!
# Scad.Proofs.Doc.Lines

What each line of a documentation comment is for, told from where it stands.

* `Doc.Tagged`, `Doc.IsText`: a line that begins with a tag, and a line that is neither blank nor
  begins with one.
* `Doc.Continues`: a line that goes on with the description of a parameter above it.
* `Doc.Annotates`: the annotation that a line with a tag gives, with the lines that continue it.
* `Doc.lines_classified`: reading gives one annotation for each line with a tag, and every line that
  continues none is body text.

Reading carries a parameter along whose description may still go on. The lemmas about `Doc.read` say
which lines go to that parameter (`Doc.Follows`), and are proved along the lines.
-/

namespace Scad

open Text

namespace Text

theorem dropLead?_eq_some_iff {lead s rest : List Char} :
    dropLead? lead s = some rest ↔ s = lead ++ rest := by
  induction lead generalizing s with
  | nil => simp [dropLead?, eq_comm]
  | cons c lead ih =>
    cases s with
    | nil => simp [dropLead?]
    | cons d s =>
      by_cases hc : c = d
      · simp [dropLead?, hc, ih]
      · simp [dropLead?, hc, Ne.symm hc]

theorem join_cons (sep piece : List Char) {pieces : List (List Char)} (h : pieces ≠ []) :
    join sep (piece :: pieces) = piece ++ sep ++ join sep pieces := by
  cases pieces with
  | nil => exact absurd rfl h
  | cons next pieces => rfl

/-- Two pieces that are put together beforehand are put together in the same way. -/
theorem join_merge (sep a b : List Char) (pieces : List (List Char)) :
    join sep ((a ++ sep ++ b) :: pieces) = join sep (a :: b :: pieces) := by
  cases pieces with
  | nil => rfl
  | cons piece pieces => simp [join]

theorem mem_join {sep : List Char} {pieces : List (List Char)} {c : Char}
    (h : c ∈ join sep pieces) : c ∈ sep ∨ ∃ piece ∈ pieces, c ∈ piece := by
  induction pieces with
  | nil => cases h
  | cons piece pieces ih =>
    by_cases hnil : pieces = []
    · subst hnil
      exact .inr ⟨piece, List.mem_cons_self, h⟩
    · rw [join_cons sep piece hnil, List.append_assoc, List.mem_append, List.mem_append] at h
      rcases h with h | h | h
      · exact .inr ⟨piece, List.mem_cons_self, h⟩
      · exact .inl h
      · exact (ih h).imp id fun ⟨next, hmem, hc⟩ => ⟨next, List.mem_cons_of_mem piece hmem, hc⟩

theorem mem_join_of_mem (sep : List Char) {pieces : List (List Char)} {piece : List Char}
    (h : piece ∈ pieces) : piece ⊆ join sep pieces := by
  induction pieces with
  | nil => cases h
  | cons next pieces ih =>
    rcases List.mem_cons.1 h with rfl | h
    · cases pieces with
      | nil => exact List.Subset.refl _
      | cons other pieces =>
        rw [join_cons sep piece (List.cons_ne_nil _ _), List.append_assoc]
        exact List.subset_append_left _ _
    · rw [join_cons sep next (List.ne_nil_of_mem h)]
      exact List.Subset.trans (ih h) (List.subset_append_right _ _)

theorem isBlankLine_iff {s : List Char} : isBlankLine s = true ↔ trim s = [] := by
  rw [trim_eq_nil_iff, isBlankLine, List.all_eq_true]

theorem head_trimStart (s : List Char) : ∀ c ∈ (trimStart s).head?, isBlank c = false := by
  intro c hc
  have hnot := List.head?_dropWhile_not isBlank s
  rw [show (s.dropWhile isBlank).head? = some c from hc] at hnot
  simpa using hnot

theorem trim_trim (s : List Char) : trim (trim s) = trim s := by
  calc
    trim (trim s) = trim (trimEnd (trimStart s)) := rfl
    _ = trim (trimStart s) := trim_trimEnd _
    _ = trimEnd (trimStart (trimStart s)) := rfl
    _ = trim s := by rw [trimStart_of_head (head_trimStart s), trim]

end Text

namespace Doc

/-! ## Tags -/

/-- The line begins with the tag, and a blank follows it or nothing. -/
def Tagged (tag : String) (line : List Char) : Prop :=
  ∃ rest, trim line = tag.toList ++ rest ∧ ∀ c ∈ rest.head?, isBlank c = true

theorem tagContent?_eq_some_iff {tag : String} {line content : List Char} :
    tagContent? tag line = some content ↔
      ∃ rest, line = tag.toList ++ rest ∧ (∀ c ∈ rest.head?, isBlank c = true) ∧
        content = trimStart rest := by
  rw [tagContent?]
  cases hdrop : dropLead? tag.toList line with
  | none =>
    have hnone : ∀ rest, line ≠ tag.toList ++ rest := by
      intro rest hline
      rw [dropLead?_eq_some_iff.2 hline] at hdrop
      cases hdrop
    simp [hnone]
  | some rest =>
    obtain rfl := dropLead?_eq_some_iff.1 hdrop
    simp only [List.append_cancel_left_eq, exists_eq_left']
    cases rest with
    | nil =>
      simp only [trimStart, List.dropWhile_nil]
      simp
    | cons c rest =>
      cases hc : isBlank c with
      | true => simpa [hc, trimStart] using eq_comm
      | false => simp [hc]

theorem tagged_iff {tag : String} {line : List Char} :
    Tagged tag line ↔ (tagContent? tag (trim line)).isSome = true := by
  constructor
  · rintro ⟨rest, hline, hrest⟩
    rw [tagContent?_eq_some_iff.2 ⟨rest, hline, hrest, rfl⟩]
    rfl
  · intro h
    obtain ⟨content, hcontent⟩ := Option.isSome_iff_exists.1 h
    obtain ⟨rest, hline, hrest, -⟩ := tagContent?_eq_some_iff.1 hcontent
    exact ⟨rest, hline, hrest⟩

instance (tag : String) (line : List Char) : Decidable (Tagged tag line) :=
  decidable_of_iff _ tagged_iff.symm

/-- The line begins with the tag of a parameter or of a link. -/
def IsTagLine (line : List Char) : Prop := Tagged "@param" line ∨ Tagged "@see" line

instance (line : List Char) : Decidable (IsTagLine line) :=
  inferInstanceAs (Decidable (_ ∨ _))

/-- The line is not blank and begins with no tag. -/
def IsText (line : List Char) : Prop := isBlankLine line = false ∧ ¬ IsTagLine line

instance (line : List Char) : Decidable (IsText line) := inferInstanceAs (Decidable (_ ∧ _))

theorem Tagged.not_blank {tag : String} (htag : tag.toList ≠ []) {line : List Char}
    (h : Tagged tag line) : isBlankLine line = false := by
  obtain ⟨rest, hline, -⟩ := h
  rw [← Bool.not_eq_true, isBlankLine_iff, hline]
  simp [htag]

theorem IsTagLine.not_blank {line : List Char} (h : IsTagLine line) : trim line ≠ [] := by
  rw [Ne, ← isBlankLine_iff, Bool.not_eq_true]
  exact h.elim (Tagged.not_blank (by decide)) (Tagged.not_blank (by decide))

/-! ## Lines by their positions -/

section Positions

variable (lines : List (List Char))

/-- The line `i` goes on with the description of the parameter of line `p`: behind that line there
is only text up to here. -/
def Continues (p i : Fin lines.length) : Prop :=
  Tagged "@param" lines[p] ∧ p < i ∧ ∀ k, p < k → k ≤ i → IsText lines[k]

instance (p i : Fin lines.length) : Decidable (Continues lines p i) :=
  inferInstanceAs (Decidable (_ ∧ _ ∧ _))

/-- The line is body text: it begins with no tag and continues no parameter. -/
def IsBody (i : Fin lines.length) : Prop :=
  ¬ IsTagLine lines[i] ∧ ∀ p, ¬ Continues lines p i

instance (i : Fin lines.length) : Decidable (IsBody lines i) :=
  inferInstanceAs (Decidable (_ ∧ _))

/-- The positions of the lines with a tag. -/
def tagLines : List (Fin lines.length) :=
  (List.finRange lines.length).filter fun i => decide (IsTagLine lines[i])

/-- The lines at the positions with a property, without the blanks around them. -/
def select (P : Fin lines.length → Prop) [DecidablePred P] : List (List Char) :=
  ((List.finRange lines.length).filter fun i => decide (P i)).map fun i => trim lines[i]

/-- A description of which the first part may be empty, with one blank between the parts. -/
def sentence (own : List Char) (more : List (List Char)) : List Char :=
  join [' '] (if own = [] then more else own :: more)

/-- The parameter with more parts of its description. -/
def Param.describe (p : Param) (more : List (List Char)) : Param :=
  { p with description := String.ofList (sentence p.description.toList more) }

/-- The annotation given by the line with a tag at a position. -/
inductive Annotates (p : Fin lines.length) : Annotation → Prop where
  | param {rest : List Char} : trim lines[p] = "@param".toList ++ rest →
      (∀ c ∈ rest.head?, isBlank c = true) →
      Annotates p (.param
        ((Param.ofText (trimStart rest)).describe (select lines (Continues lines p))))
  | see {rest : List Char} : trim lines[p] = "@see".toList ++ rest →
      (∀ c ∈ rest.head?, isBlank c = true) → Annotates p (.see (linkOf (trimStart rest)))

end Positions

section Cons

variable {line : List Char} {lines : List (List Char)}

theorem finRange_cons :
    List.finRange (line :: lines).length =
      ⟨0, Nat.succ_pos _⟩ :: (List.finRange lines.length).map Fin.succ :=
  List.finRange_succ

theorem select_cons (P : Fin (line :: lines).length → Prop) [DecidablePred P] :
    select (line :: lines) P =
      (if P ⟨0, Nat.succ_pos _⟩ then [trim line] else []) ++
        select lines fun i => P i.succ := by
  rw [select, select, finRange_cons]
  by_cases h : P ⟨0, Nat.succ_pos _⟩
  · rw [if_pos h, List.filter_cons_of_pos (by exact decide_eq_true h), List.filter_map]
    simp [Function.comp_def]
  · rw [if_neg h, List.filter_cons_of_neg (by rw [decide_eq_true_eq]; exact h), List.filter_map]
    simp [Function.comp_def]

theorem select_congr {P Q : Fin lines.length → Prop} [DecidablePred P] [DecidablePred Q]
    (h : ∀ i, P i ↔ Q i) : select lines P = select lines Q := by
  simp only [select, h]

theorem select_eq_nil {P : Fin lines.length → Prop} [DecidablePred P] (h : ∀ i, ¬ P i) :
    select lines P = [] := by
  simp [select, h]

/-- There is only text up to here. -/
def Follows (lines : List (List Char)) (i : Fin lines.length) : Prop := ∀ k, k ≤ i → IsText lines[k]

instance (i : Fin lines.length) : Decidable (Follows lines i) :=
  inferInstanceAs (Decidable (∀ _, _))

theorem follows_zero : Follows (line :: lines) ⟨0, Nat.succ_pos _⟩ ↔ IsText line := by
  constructor
  · intro h
    exact h _ (Nat.le_refl _)
  · intro h k hk
    obtain rfl : k = ⟨0, Nat.succ_pos _⟩ := Fin.ext (Nat.le_zero.1 hk)
    exact h

theorem follows_succ {i : Fin lines.length} :
    Follows (line :: lines) i.succ ↔ IsText line ∧ Follows lines i := by
  constructor
  · intro h
    exact ⟨h ⟨0, Nat.succ_pos _⟩ (Nat.zero_le _), fun k hk => h k.succ (Nat.succ_le_succ hk)⟩
  · rintro ⟨hline, h⟩ ⟨k, hlt⟩ hk
    cases k with
    | zero => exact hline
    | succ k => exact h ⟨k, Nat.lt_of_succ_lt_succ hlt⟩ (Nat.le_of_succ_le_succ hk)

theorem continues_zero_succ {i : Fin lines.length} :
    Continues (line :: lines) ⟨0, Nat.succ_pos _⟩ i.succ ↔
      Tagged "@param" line ∧ Follows lines i := by
  constructor
  · rintro ⟨htag, -, h⟩
    exact ⟨htag, fun k hk => h k.succ (Nat.succ_pos _) (Nat.succ_le_succ hk)⟩
  · rintro ⟨htag, h⟩
    refine ⟨htag, Nat.succ_pos _, ?_⟩
    rintro ⟨k, hlt⟩ hpos hk
    cases k with
    | zero => exact absurd hpos (Nat.lt_irrefl _)
    | succ k => exact h ⟨k, Nat.lt_of_succ_lt_succ hlt⟩ (Nat.le_of_succ_le_succ hk)

theorem continues_succ_succ {p i : Fin lines.length} :
    Continues (line :: lines) p.succ i.succ ↔ Continues lines p i := by
  constructor
  · rintro ⟨htag, hlt, h⟩
    exact ⟨htag, Nat.lt_of_succ_lt_succ hlt,
      fun k hpk hki => h k.succ (Nat.succ_lt_succ hpk) (Nat.succ_le_succ hki)⟩
  · rintro ⟨htag, hlt, h⟩
    refine ⟨htag, Nat.succ_lt_succ hlt, ?_⟩
    rintro ⟨k, hk⟩ hpk hki
    cases k with
    | zero => exact absurd hpk (Nat.not_lt_zero _)
    | succ k =>
      exact h ⟨k, Nat.lt_of_succ_lt_succ hk⟩ (Nat.lt_of_succ_lt_succ hpk)
        (Nat.le_of_succ_le_succ hki)

theorem not_continues_zero {p : Fin (line :: lines).length} :
    ¬ Continues (line :: lines) p ⟨0, Nat.succ_pos _⟩ :=
  fun h => Nat.not_lt_zero _ h.2.1

theorem isBody_zero : IsBody (line :: lines) ⟨0, Nat.succ_pos _⟩ ↔ ¬ IsTagLine line :=
  ⟨fun h => h.1, fun h => ⟨h, fun _ => not_continues_zero⟩⟩

theorem isBody_succ {i : Fin lines.length} :
    IsBody (line :: lines) i.succ ↔
      IsBody lines i ∧ ¬ (Tagged "@param" line ∧ Follows lines i) := by
  constructor
  · rintro ⟨htag, h⟩
    exact ⟨⟨htag, fun p hp => h p.succ (continues_succ_succ.2 hp)⟩,
      fun hp => h ⟨0, Nat.succ_pos _⟩ (continues_zero_succ.2 hp)⟩
  · rintro ⟨⟨htag, h⟩, hzero⟩
    refine ⟨htag, ?_⟩
    rintro ⟨p, hlt⟩ hp
    cases p with
    | zero => exact hzero (continues_zero_succ.1 hp)
    | succ p => exact h ⟨p, Nat.lt_of_succ_lt_succ hlt⟩ (continues_succ_succ.1 hp)

theorem tagLines_cons :
    tagLines (line :: lines) =
      (if IsTagLine line then [⟨0, Nat.succ_pos _⟩] else []) ++ (tagLines lines).map Fin.succ := by
  rw [tagLines, tagLines, finRange_cons]
  by_cases h : IsTagLine line
  · rw [if_pos h, List.filter_cons_of_pos (by exact decide_eq_true h), List.filter_map]
    rfl
  · rw [if_neg h, List.filter_cons_of_neg (by rw [decide_eq_true_eq]; exact h), List.filter_map]
    rfl

/-- An annotation does not depend on the lines above its own. -/
theorem Annotates.succ {p : Fin lines.length} {a : Annotation} (h : Annotates lines p a) :
    Annotates (line :: lines) p.succ a := by
  have hselect : select lines (Continues lines p) =
      select (line :: lines) (Continues (line :: lines) p.succ) := by
    rw [select_cons, if_neg not_continues_zero, List.nil_append]
    exact select_congr fun i => continues_succ_succ.symm
  cases h with
  | param hline hrest =>
    rw [hselect]
    exact .param hline hrest
  | see hline hrest => exact .see hline hrest

end Cons

/-! ## Reading line by line -/

theorem Param.describe_nil (p : Param) : p.describe [] = p := by
  have hsentence : sentence p.description.toList [] = p.description.toList := by
    rw [sentence]
    split
    · rename_i h
      rw [h]
      rfl
    · rfl
  rw [describe, hsentence, String.ofList_toList]

/-- What a line adds to a description comes before what the later lines add. -/
theorem Param.describe_extend (p : Param) {line : List Char} (h : line ≠ [])
    (more : List (List Char)) : (p.extend line).describe more = p.describe (line :: more) := by
  by_cases hown : p.description.toList = []
  · have hempty : p.description = "" := String.toList_eq_nil_iff.1 hown
    simp [describe, extend, sentence, hempty, h]
  · have hfilled : p.description ≠ "" := fun he => hown (String.toList_eq_nil_iff.2 he)
    simp [describe, extend, sentence, hfilled, hown, ← join_merge]

section Read

variable {line content : List Char} {lines : List (List Char)} {current : Option Param}

theorem tagContent?_of_not_tagged {tag : String} (h : ¬ Tagged tag line) :
    tagContent? tag (trim line) = none := by
  rw [tagged_iff] at h
  simpa using h

theorem read_param (h : tagContent? "@param" (trim line) = some content) :
    read current (line :: lines) =
      ((current.map Annotation.param).toList ++ (read (some (.ofText content)) lines).1,
        (read (some (.ofText content)) lines).2) := by
  simp only [read, h]

theorem read_see (hparam : tagContent? "@param" (trim line) = none)
    (h : tagContent? "@see" (trim line) = some content) :
    read current (line :: lines) =
      ((current.map Annotation.param).toList ++ .see (linkOf content) :: (read none lines).1,
        (read none lines).2) := by
  simp only [read, hparam, h]

theorem read_text (h : IsText line) (p : Param) :
    read (some p) (line :: lines) = read (some (p.extend (trim line))) lines := by
  obtain ⟨hblank, htag⟩ := h
  rw [IsTagLine, not_or] at htag
  have hempty : (trim line).isEmpty = false := by
    rwa [← Bool.not_eq_true, isBlankLine_iff, ← List.isEmpty_iff, Bool.not_eq_true] at hblank
  simp only [read, tagContent?_of_not_tagged htag.1, tagContent?_of_not_tagged htag.2, hempty,
    Bool.false_eq_true, if_false]

theorem read_other (htag : ¬ IsTagLine line) (h : current = none ∨ ¬ IsText line) :
    read current (line :: lines) =
      ((current.map Annotation.param).toList ++ (read none lines).1,
        trim line :: (read none lines).2) := by
  have hblank : current = none ∨ (trim line).isEmpty = true := by
    refine h.imp id fun hne => ?_
    by_contra he
    refine hne ⟨?_, htag⟩
    rwa [← Bool.not_eq_true, isBlankLine_iff, ← List.isEmpty_iff]
  rw [IsTagLine, not_or] at htag
  simp only [read, tagContent?_of_not_tagged htag.1, tagContent?_of_not_tagged htag.2]
  cases current with
  | none => rfl
  | some p => exact if_pos (hblank.resolve_left (by simp))

/-- Text lines at the beginning, up to the first other line. -/
theorem select_follows_cons :
    select (line :: lines) (Follows (line :: lines)) =
      if IsText line then trim line :: select lines (Follows lines) else [] := by
  rw [select_cons]
  by_cases h : IsText line
  · rw [if_pos (follows_zero.2 h), if_pos h,
      select_congr fun i => follows_succ.trans (and_iff_right h)]
    rfl
  · have hnone : ∀ i, ¬ Follows (line :: lines) (Fin.succ i) := fun i hi => h (follows_succ.1 hi).1
    rw [if_neg (fun hz => h (follows_zero.1 hz)), if_neg h, select_eq_nil hnone]
    rfl

theorem isText_of_not {line : List Char} (htag : ¬ IsTagLine line) :
    IsText line ↔ trim line ≠ [] := by
  rw [IsText, and_iff_left htag, ← Bool.not_eq_true, isBlankLine_iff]

theorem isTagLine_param (h : tagContent? "@param" (trim line) = some content) : IsTagLine line := by
  refine .inl (tagged_iff.2 ?_)
  rw [h]
  rfl

theorem isTagLine_see (h : tagContent? "@see" (trim line) = some content) : IsTagLine line := by
  refine .inr (tagged_iff.2 ?_)
  rw [h]
  rfl

/-- The body lines: those that begin with no tag and go to no parameter, neither to one of the lines
nor to the one that is carried along. -/
theorem body_read (current : Option Param) (lines : List (List Char)) :
    (read current lines).2 =
      select lines fun i => IsBody lines i ∧ ¬ (current.isSome = true ∧ Follows lines i) := by
  induction lines generalizing current with
  | nil => rfl
  | cons line lines ih =>
    -- the first line takes over what follows it if it has a parameter, or is text itself
    have hnext : ∀ next : Option Param,
        (next.isSome = true ↔ Tagged "@param" line ∨ current.isSome = true ∧ IsText line) →
        (select lines fun i => IsBody (line :: lines) i.succ ∧
          ¬ (current.isSome = true ∧ Follows (line :: lines) i.succ)) = (read next lines).2 := by
      intro next hopen
      rw [ih]
      refine select_congr fun i => ?_
      rw [isBody_succ, follows_succ, hopen]
      tauto
    have hfirst : IsBody (line :: lines) ⟨0, Nat.succ_pos _⟩ ∧
        ¬ (current.isSome = true ∧ Follows (line :: lines) ⟨0, Nat.succ_pos _⟩) ↔
          ¬ IsTagLine line ∧ ¬ (current.isSome = true ∧ IsText line) := by
      rw [isBody_zero, follows_zero]
    rw [select_cons]
    cases hparam : tagContent? "@param" (trim line) with
    | some content =>
      have htag := isTagLine_param hparam
      rw [read_param hparam, if_neg fun h => (hfirst.1 h).1 htag, hnext (some (.ofText content))]
      · rfl
      · simp [tagged_iff, hparam]
    | none =>
      have hnot : ¬ Tagged "@param" line := by simp [tagged_iff, hparam]
      cases hsee : tagContent? "@see" (trim line) with
      | some content =>
        have htag := isTagLine_see hsee
        rw [read_see hparam hsee, if_neg fun h => (hfirst.1 h).1 htag, hnext none]
        · rfl
        · simp [hnot, IsText, htag]
      | none =>
        have htag : ¬ IsTagLine line := by simp [IsTagLine, tagged_iff, hparam, hsee]
        by_cases htext : current.isSome = true ∧ IsText line
        · obtain ⟨p, rfl⟩ := Option.isSome_iff_exists.1 htext.1
          rw [read_text htext.2, if_neg fun h => (hfirst.1 h).2 htext,
            hnext (some (p.extend (trim line)))]
          · rfl
          · simp [htext.2]
        · have hother : current = none ∨ ¬ IsText line := by
            cases current with
            | none => exact .inl rfl
            | some p => exact .inr fun h => htext ⟨rfl, h⟩
          rw [read_other htag hother, if_pos (hfirst.2 ⟨htag, htext⟩), hnext none]
          · rfl
          · simp [hnot, htext]

/-- The annotations: the parameter that is carried along with the text that follows, then one for
each line with a tag. -/
theorem annotations_read (current : Option Param) (lines : List (List Char)) :
    ∃ annotations, List.Forall₂ (Annotates lines) (tagLines lines) annotations ∧
      (read current lines).1 =
        (current.map fun p => .param (p.describe (select lines (Follows lines)))).toList ++
          annotations := by
  induction lines generalizing current with
  | nil =>
    refine ⟨[], .nil, ?_⟩
    cases current with
    | none => rfl
    | some p =>
      show [(.param p : Annotation)] = [.param (p.describe [])]
      rw [p.describe_nil]
  | cons line lines ih =>
    have hlater : ∀ {annotations}, List.Forall₂ (Annotates lines) (tagLines lines) annotations →
        List.Forall₂ (Annotates (line :: lines)) ((tagLines lines).map Fin.succ) annotations := by
      intro annotations h
      exact List.forall₂_map_left_iff.2 (h.imp fun _ _ ha => ha.succ)
    have hdone : ¬ IsText line → current.map Annotation.param =
        current.map fun p =>
          .param (p.describe (select (line :: lines) (Follows (line :: lines)))) := by
      intro htext
      rw [select_follows_cons, if_neg htext]
      simp only [Param.describe_nil]
    rw [tagLines_cons]
    cases hparam : tagContent? "@param" (trim line) with
    | some content =>
      obtain ⟨annotations, hall, heq⟩ := ih (some (.ofText content))
      obtain ⟨rest, hline, hrest, rfl⟩ := tagContent?_eq_some_iff.1 hparam
      have htag := isTagLine_param hparam
      have hselect : select lines (Follows lines) =
          select (line :: lines) (Continues (line :: lines) ⟨0, Nat.succ_pos _⟩) := by
        rw [select_cons, if_neg not_continues_zero, List.nil_append]
        exact select_congr fun i =>
          (continues_zero_succ.trans (and_iff_right ⟨rest, hline, hrest⟩)).symm
      rw [hselect] at heq
      refine ⟨.param ((Param.ofText (trimStart rest)).describe (select (line :: lines)
        (Continues (line :: lines) ⟨0, Nat.succ_pos _⟩))) :: annotations, ?_, ?_⟩
      · rw [if_pos htag]
        exact .cons (.param hline hrest) (hlater hall)
      · rw [read_param hparam, heq, hdone fun h => h.2 htag]
        rfl
    | none =>
      cases hsee : tagContent? "@see" (trim line) with
      | some content =>
        obtain ⟨annotations, hall, heq⟩ := ih none
        obtain ⟨rest, hline, hrest, rfl⟩ := tagContent?_eq_some_iff.1 hsee
        have htag := isTagLine_see hsee
        refine ⟨.see (linkOf (trimStart rest)) :: annotations, ?_, ?_⟩
        · rw [if_pos htag]
          exact .cons (.see hline hrest) (hlater hall)
        · rw [read_see hparam hsee, heq, hdone fun h => h.2 htag]
          rfl
      | none =>
        have htag : ¬ IsTagLine line := by simp [IsTagLine, tagged_iff, hparam, hsee]
        rw [if_neg htag, List.nil_append]
        by_cases htext : current.isSome = true ∧ IsText line
        · obtain ⟨p, rfl⟩ := Option.isSome_iff_exists.1 htext.1
          obtain ⟨annotations, hall, heq⟩ := ih (some (p.extend (trim line)))
          refine ⟨annotations, hlater hall, ?_⟩
          rw [read_text htext.2, heq, select_follows_cons, if_pos htext.2, Option.map_some,
            Option.map_some, p.describe_extend ((isText_of_not htag).1 htext.2)]
        · obtain ⟨annotations, hall, heq⟩ := ih none
          refine ⟨annotations, hlater hall, ?_⟩
          cases current with
          | none =>
            rw [read_other htag (.inl rfl), heq]
            rfl
          | some p =>
            have hne : ¬ IsText line := fun h => htext ⟨rfl, h⟩
            rw [read_other htag (.inr hne), heq, hdone hne]
            rfl

end Read

/-! ## Documentation -/

/-- Blank lines give no annotations, and no others give neither text nor annotations. -/
theorem nothing_iff {lines : List (List Char)} {annotations : List Annotation}
    (h : List.Forall₂ (Annotates lines) (tagLines lines) annotations) :
    trim (join ['\n'] (select lines (IsBody lines))) = [] ∧ annotations = [] ↔
      ∀ line ∈ lines, trim line = [] := by
  constructor
  · rintro ⟨hbody, rfl⟩
    have hnone : ∀ i : Fin lines.length, ¬ IsTagLine lines[i] := by
      simpa [tagLines] using List.forall₂_nil_right_iff.1 h
    have hall : ∀ i, IsBody lines i := fun i =>
      ⟨hnone i, fun p hp => hnone p (.inl hp.1)⟩
    rw [trim_eq_nil_iff] at hbody
    intro line hline
    obtain ⟨i, rfl⟩ := List.mem_iff_get.1 hline
    have hmem : trim (lines.get i) ∈ select lines (IsBody lines) :=
      List.mem_map.2 ⟨i, by simpa using hall i, rfl⟩
    rw [← trim_trim, trim_eq_nil_iff]
    exact fun c hc => hbody c (mem_join_of_mem ['\n'] hmem hc)
  · intro hblank
    have htag : tagLines lines = [] := by
      refine List.filter_eq_nil_iff.2 fun i _ hi => ?_
      exact (of_decide_eq_true hi : IsTagLine lines[i]).not_blank (hblank _ (List.getElem_mem _))
    rw [htag] at h
    refine ⟨trim_eq_nil_iff.2 fun c hc => ?_, List.forall₂_nil_left_iff.1 h⟩
    rcases mem_join hc with hc | ⟨piece, hpiece, hc⟩
    · rw [List.mem_singleton.1 hc]
      rfl
    · obtain ⟨i, -, rfl⟩ := List.mem_map.1 hpiece
      have hnil : trim lines[i] = [] := hblank _ (List.getElem_mem _)
      rw [hnil] at hc
      cases hc

theorem read_none (lines : List (List Char)) :
    ∃ annotations, List.Forall₂ (Annotates lines) (tagLines lines) annotations ∧
      read none lines = (annotations, select lines (IsBody lines)) := by
  obtain ⟨annotations, hall, hannotations⟩ := annotations_read none lines
  have hbody : (read none lines).2 = select lines (IsBody lines) := by
    rw [body_read]
    exact select_congr fun i => by simp
  exact ⟨annotations, hall, Prod.ext hannotations hbody⟩

theorem ofLines?_eq_none_iff {lines : List (List Char)} :
    ofLines? lines = none ↔ ∀ line ∈ lines, trim line = [] := by
  obtain ⟨annotations, hall, hread⟩ := read_none lines
  rw [← nothing_iff hall]
  simp [ofLines?, hread]

/-- Lines of which one is not blank give documentation: one annotation for each line with a tag, and
all lines without one that continue no parameter as the body. -/
theorem lines_classified (lines : List (List Char)) :
    ∃ annotations, List.Forall₂ (Annotates lines) (tagLines lines) annotations ∧
      ofLines? lines =
        if ∀ line ∈ lines, trim line = [] then none
        else
          some ⟨String.ofList (trim (join ['\n'] (select lines (IsBody lines)))), annotations⟩ := by
  obtain ⟨annotations, hall, hread⟩ := read_none lines
  refine ⟨annotations, hall, ?_⟩
  split
  · rename_i hblank
    exact ofLines?_eq_none_iff.2 hblank
  · rename_i hblank
    have hempty := mt (nothing_iff hall).1 hblank
    simp only [ofLines?, hread]
    exact if_neg (by simpa using hempty)

/-- The lines after a parameter go on with it up to the next tag or blank line. -/
example :
    ofLines? ["A".toList, "@param h".toList, "Height".toList, "of it".toList, [], "B".toList] =
      some ⟨"A\n\nB", [.param ⟨"h", none, [], "Height of it"⟩]⟩ := by decide +kernel

end Doc
end Scad
