import Scad.Proofs.Doc.Lines

/-!
# Scad.Proofs.Doc.Written

Documentation written out in lines and read back.

* `Doc.written`: the lines of a documentation, those of its body first and then one line for each
  annotation.
* `Doc.WellFormed`: no part of the documentation runs into the next one when it is written out.
* `Doc.ofLines?_written`: the lines that are written are read as the documentation they come from,
  blank lines above them or not.
-/

namespace Scad

open Text

namespace Text

/-! ## Pieces and what separates them -/

theorem splitOn_join {p : Char → Bool} {sep : Char} (hsep : p sep = true)
    {pieces : List (List Char)} (hne : pieces ≠ [])
    (h : ∀ piece ∈ pieces, ∀ c ∈ piece, p c = false) : splitOn p (join [sep] pieces) = pieces := by
  induction pieces with
  | nil => exact absurd rfl hne
  | cons piece pieces ih =>
    have hpiece := h piece List.mem_cons_self
    cases pieces with
    | nil => exact splitOn_of_none hpiece
    | cons next pieces =>
      have hrest := ih (List.cons_ne_nil _ _) fun q hq => h q (List.mem_cons_of_mem piece hq)
      rw [join_cons [sep] piece (List.cons_ne_nil _ _), List.append_assoc, List.singleton_append,
        splitOn_append hpiece hsep, hrest]

theorem join_splitOn (sep : Char) (s : List Char) : join [sep] (splitOn (· == sep) s) = s := by
  induction s with
  | nil => rfl
  | cons c s ih =>
    rw [splitOn]
    split
    · rename_i hc
      rw [join_cons [sep] [] (splitOn_ne_nil _ s), ih, beq_iff_eq.1 hc]
      rfl
    · split
      · rename_i hnil
        exact absurd hnil (splitOn_ne_nil _ s)
      · rename_i piece pieces hpieces
        rw [hpieces] at ih
        rw [← ih]
        cases pieces <;> rfl

theorem not_mem_of_mem_splitOn {p : Char → Bool} {s piece : List Char} (h : piece ∈ splitOn p s) :
    ∀ c ∈ piece, p c = false := by
  induction s generalizing piece with
  | nil =>
    rw [splitOn, List.mem_singleton] at h
    simp [h]
  | cons c s ih =>
    rw [splitOn] at h
    split at h
    · rcases List.mem_cons.1 h with rfl | h
      · simp
      · exact ih h
    · rename_i hc
      split at h
      · rename_i hnil
        exact absurd hnil (splitOn_ne_nil p s)
      · rename_i first pieces hpieces
        rw [hpieces] at ih
        rcases List.mem_cons.1 h with rfl | h
        · exact List.forall_mem_cons.2 ⟨by simpa using hc, ih List.mem_cons_self⟩
        · exact ih (List.mem_cons_of_mem first h)

theorem splitAt?_append {p : Char → Bool} {s : List Char} (h : ∀ c ∈ s, p c = false) {d : Char}
    (hd : p d = true) (t : List Char) : splitAt? p (s ++ d :: t) = some (s, t) := by
  induction s with
  | nil => rw [List.nil_append, splitAt?, if_pos hd]
  | cons c s ih =>
    rw [List.forall_mem_cons] at h
    rw [List.cons_append, splitAt?, if_neg (by simp [h.1]), ih h.2]
    rfl

theorem splitAt?_of_none {p : Char → Bool} {s : List Char} (h : ∀ c ∈ s, p c = false) :
    splitAt? p s = none := by
  induction s with
  | nil => rfl
  | cons c s ih =>
    rw [List.forall_mem_cons] at h
    rw [splitAt?, if_neg (by simp [h.1]), ih h.2]
    rfl

theorem head?_join {sep piece : List Char} (h : piece ≠ []) (pieces : List (List Char)) :
    (join sep (piece :: pieces)).head? = piece.head? := by
  obtain ⟨c, cs, rfl⟩ := List.exists_cons_of_ne_nil h
  cases pieces <;> rfl

theorem getLast?_join {sep : List Char} {pieces : List (List Char)} {last : List Char}
    (h : pieces.getLast? = some last) (hne : last ≠ []) :
    (join sep pieces).getLast? = last.getLast? := by
  induction pieces with
  | nil => cases h
  | cons piece pieces ih =>
    cases pieces with
    | nil =>
      obtain rfl : piece = last := by simpa using h
      rfl
    | cons next pieces =>
      rw [List.getLast?_cons_cons] at h
      rw [join_cons sep piece (List.cons_ne_nil _ _), List.getLast?_append, ih h,
        List.getLast?_eq_some_getLast hne, Option.some_or]

/-! ## Texts without blanks at their ends -/

/-- The text ends with no blank. -/
def EndsFilled (s : List Char) : Prop := ∀ c ∈ s.getLast?, isBlank c = false

theorem EndsFilled.append {s t : List Char} (hs : EndsFilled s) (ht : EndsFilled t) :
    EndsFilled (s ++ t) := by
  intro c hc
  rw [List.getLast?_append, Option.mem_def, Option.or_eq_some_iff] at hc
  rcases hc with hc | ⟨-, hc⟩
  · exact ht c hc
  · exact hs c hc

theorem endsFilled_nil : EndsFilled [] := fun _ hc => nomatch hc

theorem endsFilled_concat (s : List Char) {c : Char} (h : isBlank c = false) :
    EndsFilled (s ++ [c]) := by
  intro d hd
  rw [List.getLast?_concat, Option.mem_some_iff] at hd
  rwa [← hd]

/-- A text without blanks at its ends that stands on one line. -/
structure Inline (s : List Char) : Prop where
  trim_eq : trim s = s
  no_newline : '\n' ∉ s

theorem trimEnd_of_trim {s : List Char} (h : trim s = s) : trimEnd s = s := by
  rw [← h, trim, trimEnd_trimEnd]

theorem endsFilled_of_trim {s : List Char} (h : trim s = s) : EndsFilled s := by
  intro c hc
  rw [← trimEnd_of_trim h, trimEnd, List.getLast?_reverse] at hc
  exact head_trimStart s.reverse c hc

theorem trimStart_of_trim {s : List Char} (h : trim s = s) : trimStart s = s := by
  -- blanks that were dropped at the beginning would make the text shorter
  refine (List.dropWhile_suffix isBlank).eq_of_length ?_
  refine Nat.le_antisymm (length_trimStart_le s) ?_
  calc
    s.length = (trimEnd (trimStart s)).length := by rw [← trim, h]
    _ ≤ (trimStart s).reverse.length := by
      rw [trimEnd, List.length_reverse]
      exact length_trimStart_le _
    _ = (trimStart s).length := List.length_reverse

theorem head_of_trim {s : List Char} (h : trim s = s) : ∀ c ∈ s.head?, isBlank c = false := by
  rw [← trimStart_of_trim h]
  exact head_trimStart s

theorem trim_of_ends {s : List Char} (hfirst : ∀ c ∈ s.head?, isBlank c = false)
    (hlast : EndsFilled s) : trim s = s := by
  rw [trim, trimStart_of_head hfirst, trimEnd_eq_self_of_getLast hlast]

end Text

namespace Doc

/-! ## Documentation that can be written out -/

/-- A word: some characters and no blank among them. -/
structure IsWord (s : List Char) : Prop where
  ne_nil : s ≠ []
  no_blank : ∀ c ∈ s, isBlank c = false

theorem isWord_iff {s : List Char} :
    IsWord s ↔ s ≠ [] ∧ s.all (fun c => !isBlank c) = true := by
  simp only [List.all_eq_true, Bool.not_eq_true']
  exact ⟨fun h => ⟨h.ne_nil, h.no_blank⟩, fun h => ⟨h.1, h.2⟩⟩

instance (s : List Char) : Decidable (IsWord s) := decidable_of_iff _ isWord_iff.symm

/-- A name of a type that can stand between braces beside others. -/
structure IsTypeName (s : List Char) : Prop where
  ne_nil : s ≠ []
  inline : Inline s
  no_bar : '|' ∉ s
  no_brace : '}' ∉ s

/-- A parameter whose name, types and description can be told apart. -/
structure Param.WellFormed (p : Param) : Prop where
  name : IsWord p.name.toList
  types : ∀ t ∈ p.types, IsTypeName t.toList
  description : Inline p.description.toList
  no_group : ∀ c ∈ p.description.toList.head?, c ≠ '(' ∧ c ≠ '{'

/-- An annotation whose parts can be told apart. -/
def Annotation.WellFormed : Annotation → Prop
  | .param p => p.WellFormed
  | .see link => IsWord link.toList

/-- The lines of the body; an empty body has none. -/
def bodyLines (d : Doc) : List (List Char) :=
  if d.body.isEmpty then [] else splitOn (· == '\n') d.body.toList

/-- Documentation whose parts can be told apart when they are written one below the other. -/
structure WellFormed (d : Doc) : Prop where
  ne_empty : d.body ≠ "" ∨ d.annotations ≠ []
  trim_line : ∀ line ∈ d.bodyLines, trim line = line
  no_tag : ∀ line ∈ d.bodyLines, ¬ IsTagLine line
  first : ∀ line ∈ d.bodyLines.head?, line ≠ []
  last : ∀ line ∈ d.bodyLines.getLast?, line ≠ []
  annotation : ∀ a ∈ d.annotations, a.WellFormed

/-! ## Writing -/

/-- The way of passing in parentheses. -/
def Passing.written (w : Passing) : List Char := " (".toList ++ w.label.toList ++ [')']

/-- The types between braces; no types give no braces. -/
def writtenTypes (types : List String) : List Char :=
  if types.isEmpty then [] else " \x7b".toList ++ join ['|'] (types.map String.toList) ++ ['}']

/-- The description with the blank before it; an empty one gives none. -/
def writtenDescription (s : List Char) : List Char := if s.isEmpty then [] else ' ' :: s

/-- The groups and the description of a parameter. -/
def Param.writtenRest (p : Param) : List Char :=
  p.passing.elim [] Passing.written ++ (writtenTypes p.types ++
    writtenDescription p.description.toList)

/-- The line of an annotation. -/
def Annotation.written : Annotation → List Char
  | .param p => "@param".toList ++ ' ' :: (p.name.toList ++ p.writtenRest)
  | .see link => "@see".toList ++ ' ' :: link.toList

/-- The lines of the documentation: its body, then its annotations. -/
def written (d : Doc) : List (List Char) := d.bodyLines ++ d.annotations.map Annotation.written

/-! ## Groups -/

section Groups

variable {s group rest : List Char}

/-- A group in parentheses that stands first is read. -/
theorem readGroups_paren (passing : Option Passing) (types : List String)
    (hs : trimStart s = '(' :: (group ++ ')' :: rest)) (h : ')' ∉ group) :
    readGroups passing types s = readGroups ((passing? group).or passing) types rest := by
  have hsplit : splitAt? (· == ')') (group ++ ')' :: rest) = some (group, rest) := by
    refine splitAt?_append (fun c hc => ?_) (by decide) rest
    rw [beq_eq_false_iff_ne]
    rintro rfl
    exact h hc
  rw [readGroups]
  split
  · rename_i cs hcs
    obtain ⟨-, rfl⟩ := List.cons.inj (hs.symm.trans hcs)
    split
    · rename_i hcut
      rw [hsplit] at hcut
      cases hcut
      rfl
    · rename_i hcut
      rw [hsplit] at hcut
      cases hcut
  · rename_i hcs
    cases hs.symm.trans hcs
  · rename_i hno _
    exact absurd hs (hno _)

/-- A group in braces that stands first is read. -/
theorem readGroups_brace (passing : Option Passing) (types : List String)
    (hs : trimStart s = '{' :: (group ++ '}' :: rest)) (h : '}' ∉ group) :
    readGroups passing types s = readGroups passing (types ++ typeNames group) rest := by
  have hsplit : splitAt? (· == '}') (group ++ '}' :: rest) = some (group, rest) := by
    refine splitAt?_append (fun c hc => ?_) (by decide) rest
    rw [beq_eq_false_iff_ne]
    rintro rfl
    exact h hc
  rw [readGroups]
  split
  · rename_i hcs
    cases hs.symm.trans hcs
  · rename_i cs hcs
    obtain ⟨-, rfl⟩ := List.cons.inj (hs.symm.trans hcs)
    split
    · rename_i hcut
      rw [hsplit] at hcut
      cases hcut
      rfl
    · rename_i hcut
      rw [hsplit] at hcut
      cases hcut
  · rename_i hno
    exact absurd hs (hno _)

/-- Text that begins no group is the description. -/
theorem readGroups_text (passing : Option Passing) (types : List String)
    (h : ∀ c ∈ (trimStart s).head?, c ≠ '(' ∧ c ≠ '{') :
    readGroups passing types s = (passing, types, trimStart s) := by
  rw [readGroups]
  split
  · rename_i hcs
    rw [hcs] at h
    exact absurd rfl (h '(' rfl).1
  · rename_i hcs
    rw [hcs] at h
    exact absurd rfl (h '{' rfl).2
  · rfl

end Groups

/-! ## A parameter -/

theorem passing?_label (w : Passing) : passing? w.label.toList = some w := by
  cases w <;> decide +kernel

theorem typeNames_join {types : List String} (h : ∀ t ∈ types, IsTypeName t.toList) :
    typeNames (join ['|'] (types.map String.toList)) = types := by
  cases types with
  | nil => rfl
  | cons t types =>
    have hbar : ∀ piece ∈ (t :: types).map String.toList, ∀ c ∈ piece, (c == '|') = false := by
      intro piece hpiece c hc
      obtain ⟨u, hu, rfl⟩ := List.mem_map.1 hpiece
      rw [beq_eq_false_iff_ne]
      rintro rfl
      exact (h u hu).no_bar hc
    rw [typeNames, splitOn_join (by decide) (by simp) hbar, List.map_map, List.filterMap_map]
    refine (List.filterMap_congr fun u hu => ?_).trans List.filterMap_some
    have hfilled : u.toList ≠ [] := (h u hu).ne_nil
    simpa [(h u hu).inline.trim_eq] using hfilled

theorem readGroups_description (passing : Option Passing) (types : List String)
    {description s : List Char} (htrim : trim description = description)
    (hgroup : ∀ c ∈ description.head?, c ≠ '(' ∧ c ≠ '{')
    (hs : trimStart s = trimStart (writtenDescription description)) :
    readGroups passing types s = (passing, types, description) := by
  have hstart : trimStart (writtenDescription description) = description := by
    rw [writtenDescription]
    split
    · rename_i hempty
      rw [List.isEmpty_iff.1 hempty]
      rfl
    · exact trimStart_of_trim htrim
  rw [hstart] at hs
  rw [readGroups_text passing types (by rwa [hs]), hs]

theorem readGroups_types (passing : Option Passing) {types : List String}
    {description s : List Char} (htypes : ∀ t ∈ types, IsTypeName t.toList)
    (htrim : trim description = description)
    (hgroup : ∀ c ∈ description.head?, c ≠ '(' ∧ c ≠ '{')
    (hs : trimStart s = trimStart (writtenTypes types ++ writtenDescription description)) :
    readGroups passing [] s = (passing, types, description) := by
  cases types with
  | nil => exact readGroups_description passing [] htrim hgroup hs
  | cons t types =>
    have hbrace : '}' ∉ join ['|'] ((t :: types).map String.toList) := by
      intro hmem
      rcases mem_join hmem with hmem | ⟨piece, hpiece, hmem⟩
      · simp at hmem
      · obtain ⟨u, hu, rfl⟩ := List.mem_map.1 hpiece
        exact (htypes u hu).no_brace hmem
    have hopen : trimStart s = '{' :: (join ['|'] ((t :: types).map String.toList) ++
        '}' :: writtenDescription description) := by
      rw [hs]
      simp [writtenTypes, trimStart, isBlank]
    rw [readGroups_brace passing [] hopen hbrace, List.nil_append, typeNames_join htypes,
      readGroups_description passing _ htrim hgroup rfl]

theorem readGroups_writtenRest {p : Param} (h : p.WellFormed) {s : List Char}
    (hs : trimStart s = trimStart p.writtenRest) :
    readGroups none [] s = (p.passing, p.types, p.description.toList) := by
  obtain ⟨name, passing, types, description⟩ := p
  cases passing with
  | none => exact readGroups_types none h.types h.description.trim_eq h.no_group hs
  | some w =>
    have hclose : ')' ∉ w.label.toList := by cases w <;> decide
    have hopen : trimStart s = '(' :: (w.label.toList ++
        ')' :: (writtenTypes types ++ writtenDescription description.toList)) := by
      rw [hs]
      simp [Param.writtenRest, Passing.written, trimStart, isBlank]
    rw [readGroups_paren none [] hopen hclose, passing?_label, Option.some_or,
      readGroups_types (some w) h.types h.description.trim_eq h.no_group rfl]

/-- What follows the name of a parameter is separated from it. -/
theorem Param.head_writtenRest (p : Param) : ∀ c ∈ p.writtenRest.head?, c = ' ' := by
  obtain ⟨name, passing, types, description⟩ := p
  cases passing with
  | some w => simp [writtenRest, Passing.written]
  | none =>
    cases types with
    | cons t types => simp [writtenRest, writtenTypes]
    | nil =>
      simp only [writtenRest, writtenTypes, writtenDescription, Option.elim_none,
        List.isEmpty_nil, if_true, List.nil_append]
      split <;> simp

theorem Param.ofText_written {p : Param} (h : p.WellFormed) :
    Param.ofText (p.name.toList ++ p.writtenRest) = p := by
  have hrest : ∃ rest, trimStart rest = trimStart p.writtenRest ∧
      (splitAt? isBlank (p.name.toList ++ p.writtenRest)).getD
        (p.name.toList ++ p.writtenRest, []) = (p.name.toList, rest) := by
    cases hw : p.writtenRest with
    | nil =>
      refine ⟨[], rfl, ?_⟩
      rw [List.append_nil, splitAt?_of_none h.name.no_blank]
      rfl
    | cons c rest =>
      obtain rfl : c = ' ' := p.head_writtenRest c (by rw [hw]; rfl)
      refine ⟨rest, by simp [trimStart, isBlank], ?_⟩
      rw [splitAt?_append h.name.no_blank (by decide)]
      rfl
  obtain ⟨rest, hstart, hsplit⟩ := hrest
  simp only [ofText, hsplit, readGroups_writtenRest h hstart, h.description.trim_eq,
    String.ofList_toList]

/-! ## The lines -/

theorem IsWord.head {s : List Char} (h : IsWord s) : ∀ c ∈ s.head?, isBlank c = false :=
  fun c hc => h.no_blank c (List.mem_of_mem_head? hc)

theorem IsWord.inline {s : List Char} (h : IsWord s) : Inline s := by
  refine ⟨trim_of_ends h.head fun c hc => h.no_blank c (List.mem_of_getLast? hc), fun hmem => ?_⟩
  cases h.no_blank '\n' hmem

theorem writtenTypes_inline {types : List String} (h : ∀ t ∈ types, IsTypeName t.toList) :
    EndsFilled (writtenTypes types) ∧ '\n' ∉ writtenTypes types := by
  rw [writtenTypes]
  split
  · exact ⟨endsFilled_nil, List.not_mem_nil⟩
  · refine ⟨endsFilled_concat _ (by decide), fun hmem => ?_⟩
    have hin : '\n' ∈ join ['|'] (types.map String.toList) := by simpa using hmem
    rcases mem_join hin with hmem | ⟨piece, hpiece, hmem⟩
    · simp at hmem
    · obtain ⟨t, ht, rfl⟩ := List.mem_map.1 hpiece
      exact (h t ht).inline.no_newline hmem

theorem writtenDescription_inline {s : List Char} (h : Inline s) :
    EndsFilled (writtenDescription s) ∧ '\n' ∉ writtenDescription s := by
  rw [writtenDescription]
  split
  · exact ⟨endsFilled_nil, List.not_mem_nil⟩
  · rename_i hne
    refine ⟨fun c hc => ?_, by simpa using h.no_newline⟩
    rw [← List.singleton_append, List.getLast?_append_of_ne_nil _ (by simpa using hne)] at hc
    exact endsFilled_of_trim h.trim_eq c hc

theorem Passing.written_inline (w : Passing) : EndsFilled w.written ∧ '\n' ∉ w.written :=
  ⟨endsFilled_concat _ (by decide), by cases w <;> decide⟩

theorem Param.writtenRest_inline {p : Param} (h : p.WellFormed) :
    EndsFilled p.writtenRest ∧ '\n' ∉ p.writtenRest := by
  have htypes := writtenTypes_inline h.types
  have hdescription := writtenDescription_inline h.description
  have hpassing : EndsFilled (p.passing.elim [] Passing.written) ∧
      '\n' ∉ p.passing.elim [] Passing.written := by
    cases p.passing with
    | none => exact ⟨endsFilled_nil, List.not_mem_nil⟩
    | some w => exact w.written_inline
  refine ⟨hpassing.1.append (htypes.1.append hdescription.1), ?_⟩
  simp [writtenRest, hpassing.2, htypes.2, hdescription.2]

theorem inline_tag {tag : String} (htag : IsWord tag.toList) {s : List Char} (hne : s ≠ [])
    (hs : EndsFilled s) (hline : '\n' ∉ s) : Inline (tag.toList ++ ' ' :: s) := by
  obtain ⟨c, cs, hcs⟩ := List.exists_cons_of_ne_nil htag.ne_nil
  refine ⟨trim_of_ends ?_ fun d hd => ?_, ?_⟩
  · rw [hcs]
    rintro d ⟨⟩
    exact htag.no_blank c (by simp [hcs])
  · rw [List.append_cons, List.getLast?_append_of_ne_nil _ hne] at hd
    exact hs d hd
  · simpa [hline] using htag.inline.no_newline

theorem Annotation.written_inline {a : Annotation} (h : a.WellFormed) : Inline a.written := by
  cases a with
  | param p =>
    have hrest := p.writtenRest_inline h
    have hname : IsWord p.name.toList := h.name
    refine inline_tag (by decide) (by simp [hname.ne_nil])
      ((endsFilled_of_trim hname.inline.trim_eq).append hrest.1) ?_
    simp [hname.inline.no_newline, hrest.2]
  | see link =>
    have hlink : IsWord link.toList := h
    exact inline_tag (by decide) hlink.ne_nil
      (endsFilled_of_trim hlink.inline.trim_eq) hlink.inline.no_newline

theorem bodyLines_inline {d : Doc} (h : d.WellFormed) : ∀ line ∈ d.bodyLines, Inline line := by
  intro line hline
  refine ⟨h.trim_line line hline, fun hmem => ?_⟩
  rw [bodyLines] at hline
  split at hline
  · cases hline
  · simpa using not_mem_of_mem_splitOn hline _ hmem

/-- Every line that is written stands on one line and has no blanks at its ends. -/
theorem written_inline {d : Doc} (h : d.WellFormed) : ∀ line ∈ d.written, Inline line := by
  rw [written, List.forall_mem_append]
  refine ⟨bodyLines_inline h, fun line hline => ?_⟩
  obtain ⟨a, ha, rfl⟩ := List.mem_map.1 hline
  exact Annotation.written_inline (h.annotation a ha)

/-! ## Reading what was written -/

theorem tagContent?_written {tag : String} {s : List Char}
    (h : ∀ c ∈ s.head?, isBlank c = false) :
    tagContent? tag (tag.toList ++ ' ' :: s) = some s := by
  refine tagContent?_eq_some_iff.2 ⟨' ' :: s, rfl, ?_, ?_⟩
  · rintro c ⟨⟩
    decide
  · exact (trimStart_of_head h).symm

/-- An annotation that is written ends the parameter above it and is read as it was. -/
theorem read_written (current : Option Param) {as : List Annotation}
    (h : ∀ a ∈ as, a.WellFormed) :
    read current (as.map Annotation.written) =
      ((current.map Annotation.param).toList ++ as, []) := by
  induction as generalizing current with
  | nil => rw [List.append_nil]; rfl
  | cons a as ih =>
    rw [List.forall_mem_cons] at h
    have hinline : Inline a.written := Annotation.written_inline h.1
    have hline : trim a.written = a.written := hinline.trim_eq
    rw [List.map_cons]
    cases a with
    | param p =>
      have hp : p.WellFormed := h.1
      have hname : ∀ c ∈ (p.name.toList ++ p.writtenRest).head?, isBlank c = false := by
        rw [List.head?_append_of_ne_nil _ hp.name.ne_nil]
        exact hp.name.head
      have hcontent : tagContent? "@param" (trim (.param p : Annotation).written) =
          some (p.name.toList ++ p.writtenRest) := by
        rw [hline]
        exact tagContent?_written hname
      rw [read_param hcontent, Param.ofText_written hp, ih _ h.2]
      rfl
    | see link =>
      have hlink : IsWord link.toList := h.1
      have hparam : tagContent? "@param" (trim (.see link : Annotation).written) = none := by
        rw [hline]
        rfl
      have hcontent : tagContent? "@see" (trim (.see link : Annotation).written) =
          some link.toList := by
        rw [hline]
        exact tagContent?_written hlink.head
      have hword : linkOf link.toList = link := by
        rw [linkOf, List.takeWhile_eq_self_iff.2 fun c hc => by simp [hlink.no_blank c hc],
          String.ofList_toList]
      rw [read_see hparam hcontent, hword, ih _ h.2]
      rfl

/-- Lines without tags before all others are body text. -/
theorem read_append {before : List (List Char)} (h : ∀ line ∈ before, ¬ IsTagLine line)
    (rest : List (List Char)) :
    read none (before ++ rest) = ((read none rest).1, before.map trim ++ (read none rest).2) := by
  induction before with
  | nil => rfl
  | cons line before ih =>
    rw [List.forall_mem_cons] at h
    rw [List.cons_append, read_other h.1 (.inl rfl), ih h.2]
    rfl

theorem join_bodyLines (d : Doc) : join ['\n'] d.bodyLines = d.body.toList := by
  rw [bodyLines]
  split
  · rename_i h
    rw [String.isEmpty_iff.1 h]
    rfl
  · exact join_splitOn '\n' d.body.toList

theorem trim_body {d : Doc} (h : d.WellFormed) : trim d.body.toList = d.body.toList := by
  rw [← join_bodyLines]
  cases hb : d.bodyLines with
  | nil => rfl
  | cons line lines =>
    have htrim := h.trim_line
    have hlast : (line :: lines).getLast? = some ((line :: lines).getLast (List.cons_ne_nil _ _)) :=
      List.getLast?_eq_some_getLast _
    rw [hb] at htrim
    refine trim_of_ends ?_ ?_
    · rw [head?_join (h.first line (by rw [hb]; rfl))]
      exact head_of_trim (htrim line List.mem_cons_self)
    · rw [EndsFilled, getLast?_join hlast (h.last _ (by rw [hb]; exact hlast))]
      exact endsFilled_of_trim (htrim _ (List.getLast_mem _))

/-- Blank lines above a text are cut off. -/
theorem trim_join_append {before : List (List Char)} (h : ∀ line ∈ before, line = [])
    (lines : List (List Char)) :
    trim (join ['\n'] (before ++ lines)) = trim (join ['\n'] lines) := by
  induction before with
  | nil => rfl
  | cons line before ih =>
    rw [List.forall_mem_cons] at h
    obtain ⟨rfl, hrest⟩ := h
    rw [← ih hrest]
    by_cases hnil : before ++ lines = []
    · rw [List.cons_append, hnil]
      rfl
    · rw [List.cons_append, join_cons ['\n'] [] hnil]
      rfl

/-- Documentation that is written out is read again, below any blank lines. -/
theorem ofLines?_written {d : Doc} (h : d.WellFormed) {before : List (List Char)}
    (hbefore : ∀ line ∈ before, trim line = []) : ofLines? (before ++ d.written) = some d := by
  have hblank : ∀ line ∈ before, ¬ IsTagLine line :=
    fun line hline htag => htag.not_blank (hbefore line hline)
  have hmap : d.bodyLines.map trim = d.bodyLines := 
    (List.map_congr_left h.trim_line).trans (List.map_id _)
  have hread : read none (before ++ d.written) =
      (d.annotations, before.map trim ++ d.bodyLines) := by
    rw [read_append hblank, written, read_append h.no_tag, read_written none h.annotation, hmap]
    simp
  have hbody : String.ofList (trim (join ['\n'] (before.map trim ++ d.bodyLines))) = d.body := by
    rw [trim_join_append (by simpa using hbefore), join_bodyLines, trim_body h,
      String.ofList_toList]
  have hfilled : (d.body.isEmpty && d.annotations.isEmpty) = false := by
    rw [Bool.and_eq_false_iff]
    refine h.ne_empty.imp (fun hne => ?_) fun hne => ?_
    · simpa using hne
    · simpa using hne
  simp only [ofLines?, hread, hbody, hfilled, Bool.false_eq_true, if_false]

end Doc
end Scad
