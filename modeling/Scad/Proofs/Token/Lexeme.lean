import Scad.Proofs.Text
import Scad.Token.Lexer

/-!
# Scad.Proofs.Token.Lexeme

What a lexeme depends on. `Lexeme.next` looks at the text behind the lexeme it cuts off, but never
beyond the next blank: names, numbers and punctuation see the word that follows them, a line comment
sees that its line ends, and strings, block comments and paths carry their own end.

* `Lexeme.Fits k rest rest'`: a lexeme of kind `k` that was followed by `rest` may be followed by
  `rest'` as well.
* `Lexeme.Form.of_fits`: the same lexeme is cut off whatever fitting text follows it.
-/

namespace Scad
namespace Lexeme

open Text

/-! ## Blanks are no parts of words -/

theorem isBlank_cases {c : Char} (h : isBlank c = true) :
    c.toNat ∈ [0x09, 0x0A, 0x0B, 0x0C, 0x0D, 0x20, 0x85, 0xA0, 0x1680, 0x2000, 0x2001, 0x2002,
      0x2003, 0x2004, 0x2005, 0x2006, 0x2007, 0x2008, 0x2009, 0x200A, 0x2028, 0x2029, 0x202F,
      0x205F, 0x3000] := by
  simp only [isBlank, Bool.or_eq_true, Bool.and_eq_true, decide_eq_true_eq, beq_iff_eq] at h
  simp only [List.mem_cons, List.not_mem_nil, or_false]
  omega

/-- No table of characters that names are made of holds a blank. -/
theorem isNameRest_of_isBlank {c : Char} (h : isBlank c = true) : isNameRest c = false := by
  have hm := isBlank_cases h
  have hc : c = Char.ofNat c.toNat := (Char.ofNat_toNat c).symm
  rw [hc]
  revert hm
  generalize c.toNat = n
  revert n
  decide +kernel

/-- The characters of a text before its first blank. -/
def word (s : List Char) : List Char := s.takeWhile fun c => !isBlank c

theorem word_cons_of_isBlank {c : Char} (h : isBlank c = true) (s : List Char) :
    word (c :: s) = [] := by
  simp [word, h]

theorem word_cons {c : Char} (h : isBlank c = false) (s : List Char) :
    word (c :: s) = c :: word s := by
  simp [word, h]

/-- A text whose word is no longer than that of `s` begins with a blank, or as `s` does. -/
theorem head_of_shorter {s s' : List Char} (h : word s' <+: word s) {c : Char} {cs : List Char}
    (hs : s' = c :: cs) :
    isBlank c = true ∨ ∃ ds, s = c :: ds ∧ word cs <+: word ds := by
  subst hs
  cases hb : isBlank c with
  | true => exact .inl rfl
  | false =>
    right
    rw [word_cons hb] at h
    cases s with
    | nil => simp [word] at h
    | cons d ds =>
      cases hd : isBlank d with
      | true => rw [word_cons_of_isBlank hd] at h; simp at h
      | false =>
        rw [word_cons hd, List.cons_prefix_cons] at h
        obtain ⟨rfl, h⟩ := h
        exact ⟨ds, rfl, h⟩

/-- What a lexeme of kind `k` may be followed by, if it was followed by `rest`. -/
def Fits (k : Token.Kind) (rest rest' : List Char) : Prop :=
  match k with
  | .lineComment => ∀ c ∈ rest'.head?, c = '\n'
  | .ident | .number | .punct => word rest' <+: word rest
  | .str | .path | .blockComment => True

/-! ## Lexemes that carry their own end -/

theorem commentRest_body_ne_nil {s body rest : List Char} (h : commentRest s = some (body, rest)) :
    body ≠ [] := by
  unfold commentRest at h
  split at h
  · cases h; simp
  · obtain ⟨⟨b, r⟩, _, he⟩ := Option.map_eq_some_iff.1 h
    cases he
    simp
  · cases h

theorem commentRest_cons {c : Char} {s : List Char} (h : c = '*' → s.head? ≠ some '/') :
    commentRest (c :: s) = (commentRest s).map fun p => (c :: p.1, p.2) := by
  refine commentRest.eq_2 c s ?_
  rintro cs rfl rfl
  exact h rfl rfl

theorem commentRest_append_right {s body rest : List Char} (h : commentRest s = some (body, rest))
    (rest' : List Char) : commentRest (body ++ rest') = some (body, rest') := by
  fun_induction commentRest s generalizing body rest with
  | case1 cs => cases h; rfl
  | case2 c cs hn ih =>
    obtain ⟨⟨b, r⟩, hb, he⟩ := Option.map_eq_some_iff.1 h
    cases he
    -- the body goes on with the character that kept `c` from closing the comment
    obtain ⟨d, ds, rfl⟩ := List.exists_cons_of_ne_nil (commentRest_body_ne_nil hb)
    have hcs := commentRest_append hb
    have hopen : c = '*' → (d :: (ds ++ rest')).head? ≠ some '/' := by
      rintro rfl hd
      cases hd
      exact hn (ds ++ _) rfl hcs.symm
    rw [List.cons_append, List.cons_append, commentRest_cons hopen, ← List.cons_append, ih hb]
    rfl
  | case3 => simp at h

theorem stringRest_append_right {s body rest : List Char} (h : stringRest s = some (body, rest))
    (rest' : List Char) : stringRest (body ++ rest') = some (body, rest') := by
  fun_induction stringRest s generalizing body rest with
  | case1 c cs ih =>
    obtain ⟨⟨b, r⟩, hb, he⟩ := Option.map_eq_some_iff.1 h
    cases he
    simp [stringRest, ih hb]
  | case2 cs => cases h; rfl
  | case3 => simp at h
  | case4 c cs h1 h2 hc ih =>
    obtain ⟨⟨b, r⟩, hb, he⟩ := Option.map_eq_some_iff.1 h
    cases he
    simp [stringRest, hc, ih hb]
  | case5 => simp at h

theorem pathRest_append_right {s body rest : List Char} (h : pathRest s = some (body, rest))
    (rest' : List Char) : pathRest (body ++ rest') = some (body, rest') := by
  fun_induction pathRest s generalizing body rest with
  | case1 cs => cases h; rfl
  | case2 => simp at h
  | case3 c cs h1 hc ih =>
    obtain ⟨⟨b, r⟩, hb, he⟩ := Option.map_eq_some_iff.1 h
    cases he
    simp [pathRest, hc, ih hb]
  | case4 => simp at h

/-! ## Numbers -/

theorem isAsciiDigit_of_isBlank {c : Char} (h : isBlank c = true) : isAsciiDigit c = false := by
  have hm := isBlank_cases h
  have hc : c = Char.ofNat c.toNat := (Char.ofNat_toNat c).symm
  rw [hc]
  revert hm
  generalize c.toNat = n
  revert n
  decide

theorem cut_of_stops {p : Char → Bool} {w : List Char} (hw : ∀ c ∈ w, p c = true)
    (rest : List Char) (hr : ∀ c ∈ rest.head?, p c = false) : cut p (w ++ rest) = (w, rest) := by
  have ht : rest.takeWhile p = [] ∧ rest.dropWhile p = rest := by
    cases rest with
    | nil => simp
    | cons d ds => simp [hr d (by simp)]
  simp [cut, List.takeWhile_append_of_pos hw, List.dropWhile_append_of_pos hw, ht]

/-- An exponent begins with `e`, perhaps a sign, and a digit. -/
def StartsExponent (s : List Char) : Prop :=
  ∃ e sign d t, (e = 'e' ∨ e = 'E') ∧ (sign = [] ∨ sign = ['+'] ∨ sign = ['-']) ∧
    isAsciiDigit d = true ∧ s = e :: (sign ++ d :: t)

theorem exponent_of_starts {e d : Char} {sign t : List Char} (he : e = 'e' ∨ e = 'E')
    (hs : sign = [] ∨ sign = ['+'] ∨ sign = ['-']) (hd : isAsciiDigit d = true) :
    exponent (e :: (sign ++ d :: t)) =
      (e :: (sign ++ (d :: t).takeWhile isAsciiDigit), (d :: t).dropWhile isAsciiDigit) := by
  have hm : (e == 'e' || e == 'E') = true := by simpa using he
  have hp : (d == '+' || d == '-') = false := by
    rw [Bool.or_eq_false_iff]
    constructor
    · rw [beq_eq_false_iff_ne]; rintro rfl; cases hd
    · rw [beq_eq_false_iff_ne]; rintro rfl; cases hd
  rcases hs with rfl | rfl | rfl
  · cases t with
    | nil => simp [exponent, hm, hd]
    | cons x t => simp [exponent, hm, hp, hd, cut]
  · simp [exponent, hm, hd, cut]
  · simp [exponent, hm, hd, cut]

theorem exponent_of_not_starts {s : List Char} (h : ¬ StartsExponent s) : exponent s = ([], s) := by
  unfold exponent
  split
  · rename_i e s d cs
    split
    · rename_i hc
      simp only [Bool.and_eq_true, Bool.or_eq_true, beq_iff_eq] at hc
      obtain ⟨⟨he, hs⟩, hd⟩ := hc
      exact absurd ⟨e, [s], d, cs, he, by simpa using hs, hd, rfl⟩ h
    · split
      · rename_i hc
        simp only [Bool.and_eq_true, Bool.or_eq_true, beq_iff_eq] at hc
        exact absurd ⟨e, [], s, d :: cs, hc.1, .inl rfl, hc.2, rfl⟩ h
      · rfl
  · rename_i e d
    split
    · rename_i hc
      simp only [Bool.and_eq_true, Bool.or_eq_true, beq_iff_eq] at hc
      exact absurd ⟨e, [], d, [], hc.1, .inl rfl, hc.2, rfl⟩ h
    · rfl
  · rfl

/-- An exponent that begins in the word of a text begins in every text with that word. -/
theorem StartsExponent.of_shorter {s s' : List Char} (h : word s' <+: word s)
    (hs : StartsExponent s') : StartsExponent s := by
  obtain ⟨e, sign, d, t, he, hsign, hd, rfl⟩ := hs
  have hb : ∀ c, c ∈ e :: (sign ++ [d]) → isBlank c = false := by
    intro c hc
    have hdb : isBlank d = false := by
      cases hb : isBlank d with
      | false => rfl
      | true => rw [isAsciiDigit_of_isBlank hb] at hd; cases hd
    simp only [List.mem_cons, List.mem_append, List.not_mem_nil, or_false] at hc
    rcases hc with rfl | hc | rfl
    · rcases he with rfl | rfl <;> decide
    · rcases hsign with rfl | rfl | rfl
      · cases hc
      · simp only [List.mem_singleton] at hc; subst hc; decide
      · simp only [List.mem_singleton] at hc; subst hc; decide
    · exact hdb
  have hw : word (e :: (sign ++ d :: t)) = e :: (sign ++ [d]) ++ word t := by
    have hnb : ∀ c ∈ e :: (sign ++ [d]), (!isBlank c) = true := fun c hc => by simp [hb c hc]
    have hsplit : e :: (sign ++ d :: t) = e :: (sign ++ [d]) ++ t := by simp
    rw [hsplit, word, List.takeWhile_append_of_pos hnb, ← word]
  rw [hw] at h
  have hpre : e :: (sign ++ [d]) <+: s :=
    ((e :: (sign ++ [d])).prefix_append _ |>.trans h).trans (s.takeWhile_prefix _)
  obtain ⟨t', rfl⟩ := hpre
  exact ⟨e, sign, d, t', he, hsign, hd, by simp⟩

/-- Where a run of characters without blanks stops, it also stops before a shorter word. -/
theorem stops_of_shorter {p : Char → Bool} (hb : ∀ c, isBlank c = true → p c = false)
    {s s' : List Char} (h : word s' <+: word s) (hs : ∀ c ∈ s.head?, p c = false) :
    ∀ c ∈ s'.head?, p c = false := by
  intro c hc
  obtain ⟨cs, rfl⟩ := List.head?_eq_some_iff.1 hc
  rcases head_of_shorter h rfl with hblank | ⟨ds, rfl, _⟩
  · exact hb c hblank
  · exact hs c (by simp)

theorem dropWhile_stops (p : Char → Bool) (s : List Char) :
    ∀ c ∈ (s.dropWhile p).head?, p c = false := by
  intro c hc
  have := List.head?_dropWhile_not p s
  rw [hc] at this
  simpa using this

/-- Characters of a number before its exponent. -/
def isMantissa (c : Char) : Bool := isAsciiDigit c || c == '.'

theorem isMantissa_of_isBlank {c : Char} (h : isBlank c = true) : isMantissa c = false := by
  rw [isMantissa, isAsciiDigit_of_isBlank h, Bool.false_or, beq_eq_false_iff_ne]
  rintro rfl
  cases h

theorem number_eq (s : List Char) :
    number s = ((cut isMantissa s).1 ++ (exponent (cut isMantissa s).2).1,
      (exponent (cut isMantissa s).2).2) := rfl

/-- A number is cut off before every text that adds neither to its digits nor an exponent. -/
theorem number_of_stops {s rest' : List Char}
    (hexp : StartsExponent (s.dropWhile isMantissa) → ∀ c ∈ rest'.head?, isAsciiDigit c = false)
    (hplain : ¬ StartsExponent (s.dropWhile isMantissa) →
      (∀ c ∈ rest'.head?, isMantissa c = false) ∧ ¬ StartsExponent rest') :
    number ((number s).1 ++ rest') = ((number s).1, rest') := by
  have hm : ∀ c ∈ s.takeWhile isMantissa, isMantissa c = true :=
    fun c hc => List.all_eq_true.1 List.all_takeWhile c hc
  rw [number_eq s]
  simp only [cut]
  by_cases hx : StartsExponent (s.dropWhile isMantissa)
  · have hstop := hexp hx
    obtain ⟨e, sign, d, t, he, hs, hd, hr⟩ := hx
    rw [hr, exponent_of_starts he hs hd]
    have hD : ∀ c ∈ (d :: t).takeWhile isAsciiDigit, isAsciiDigit c = true :=
      fun c hc => List.all_eq_true.1 List.all_takeWhile c hc
    have hcut := cut_of_stops hD rest' hstop
    have htake : (d :: t).takeWhile isAsciiDigit = d :: t.takeWhile isAsciiDigit := by simp [hd]
    have hme : isMantissa e = false := by rcases he with rfl | rfl <;> decide
    have hcm := cut_of_stops hm (e :: (sign ++ (d :: t).takeWhile isAsciiDigit ++ rest'))
      (by simpa using hme)
    rw [htake] at hcut hcm ⊢
    simp only [List.cons_append, List.append_assoc] at hcut hcm ⊢
    have hexp := exponent_of_starts (t := t.takeWhile isAsciiDigit ++ rest') he hs hd
    simp only [cut, Prod.mk.injEq] at hcut
    rw [hcut.1, hcut.2] at hexp
    rw [number_eq, hcm, hexp]
  · obtain ⟨hstop, hnone⟩ := hplain hx
    rw [exponent_of_not_starts hx, List.append_nil, number_eq, cut_of_stops hm rest' hstop,
      exponent_of_not_starts hnone, List.append_nil]

theorem number_of_fits {s rest' : List Char} (h : word rest' <+: word (number s).2) :
    number ((number s).1 ++ rest') = ((number s).1, rest') := by
  rw [number_eq s] at h
  simp only [cut] at h
  refine number_of_stops (fun hx => ?_) fun hx => ?_
  · obtain ⟨e, sign, d, t, he, hs, hd, hr⟩ := hx
    rw [hr, exponent_of_starts he hs hd] at h
    exact stops_of_shorter (fun _ => isAsciiDigit_of_isBlank) h (dropWhile_stops _ _)
  · rw [exponent_of_not_starts hx] at h
    exact ⟨stops_of_shorter (fun _ => isMantissa_of_isBlank) h (dropWhile_stops _ _),
      fun hx' => hx (hx'.of_shorter h)⟩

/-! ## All lexemes -/

/-- Neither a comment nor a string nor a path begins here. -/
structure Plain (a : Bool) (c : Char) (cs : List Char) : Prop where
  line : ¬ (c = '/' ∧ cs.head? = some '/')
  block : ¬ (c = '/' ∧ cs.head? = some '*')
  str : c ≠ '"'
  path : ¬ (c = '<' ∧ a = true)

/-- The lexeme `l` begins the text `c :: cs`: one constructor for each way to begin, with what makes
it the one to take. -/
inductive Form (a : Bool) (c : Char) (cs : List Char) : Cut → Prop where
  | lineComment : c = '/' → cs.head? = some '/' →
      Form a c cs
        ⟨.lineComment, (c :: cs).takeWhile (· != '\n'), (c :: cs).dropWhile (· != '\n')⟩
  | blockComment {ds body rest : List Char} : c = '/' → cs = '*' :: ds →
      commentRest ds = some (body, rest) → Form a c cs ⟨.blockComment, c :: '*' :: body, rest⟩
  | str {body rest : List Char} : c = '"' → stringRest cs = some (body, rest) →
      Form a c cs ⟨.str, c :: body, rest⟩
  | path {body rest : List Char} : c = '<' → a = true → pathRest cs = some (body, rest) →
      Form a c cs ⟨.path, c :: body, rest⟩
  | ident : Plain a c cs → isNameStart c = true →
      Form a c cs ⟨.ident, c :: cs.takeWhile isNameRest, cs.dropWhile isNameRest⟩
  | number : Plain a c cs → isNameStart c = false → startsNumber (c :: cs) = true →
      Form a c cs ⟨.number, (number (c :: cs)).1, (number (c :: cs)).2⟩
  | operator {d : Char} {ds : List Char} : Plain a c cs → isNameStart c = false →
      startsNumber (c :: cs) = false → cs = d :: ds → operators.contains (c, d) = true →
      Form a c cs ⟨.punct, [c, d], ds⟩
  | punct : Plain a c cs → isNameStart c = false → startsNumber (c :: cs) = false →
      (∀ d ∈ cs.head?, operators.contains (c, d) = false) → punctuation.contains c = true →
      Form a c cs ⟨.punct, [c], cs⟩

theorem form_lineComment (a : Bool) (s : List Char) :
    Form a '/' ('/' :: s) ⟨.lineComment, ('/' :: '/' :: s).takeWhile (· != '\n'),
      ('/' :: '/' :: s).dropWhile (· != '\n')⟩ :=
  .lineComment rfl rfl

theorem next_of_plain {a : Bool} {c : Char} {cs : List Char} :
    Plain a c cs → next a c cs =
      if isNameStart c then
        .ok ⟨.ident, c :: cs.takeWhile isNameRest, cs.dropWhile isNameRest⟩
      else if startsNumber (c :: cs) then
        .ok ⟨.number, (number (c :: cs)).1, (number (c :: cs)).2⟩
      else
        match cs with
        | d :: ds =>
          if operators.contains (c, d) then .ok ⟨.punct, [c, d], ds⟩
          else if punctuation.contains c then .ok ⟨.punct, [c], d :: ds⟩
          else .error (.unexpected c)
        | [] =>
          if punctuation.contains c then .ok ⟨.punct, [c], []⟩ else .error (.unexpected c) := by
  intro h
  rw [next.eq_def]
  refine (if_neg h.line).trans ?_
  refine (if_neg h.block).trans ?_
  refine (if_neg h.str).trans ?_
  exact if_neg h.path

theorem Form.of_next {a : Bool} {c : Char} {cs : List Char} {l : Cut} (h : next a c cs = .ok l) :
    Form a c cs l := by
  by_cases h1 : c = '/' ∧ cs.head? = some '/'
  · rw [next.eq_def, if_pos h1] at h
    cases h
    exact .lineComment h1.1 h1.2
  by_cases h2 : c = '/' ∧ cs.head? = some '*'
  · rw [next.eq_def, if_neg h1, if_pos h2] at h
    obtain ⟨ds, rfl⟩ := List.head?_eq_some_iff.1 h2.2
    split at h <;> cases h
    rename_i hb
    exact .blockComment h2.1 rfl hb
  by_cases h3 : c = '"'
  · rw [next.eq_def, if_neg h1, if_neg h2, if_pos h3] at h
    split at h <;> cases h
    rename_i hb
    exact .str h3 hb
  by_cases h4 : c = '<' ∧ a = true
  · rw [next.eq_def, if_neg h1, if_neg h2, if_neg h3, if_pos h4] at h
    split at h <;> cases h
    rename_i hb
    exact .path h4.1 h4.2 hb
  have hp : Plain a c cs := ⟨h1, h2, h3, h4⟩
  rw [next_of_plain hp] at h
  split at h
  · rename_i hn
    cases h
    exact .ident hp hn
  rename_i hn
  split at h
  · rename_i hs
    cases h
    exact .number hp (by simpa using hn) hs
  rename_i hs
  cases cs with
  | cons d ds =>
    simp only at h
    split at h
    · rename_i ho
      cases h
      exact .operator hp (by simpa using hn) (by simpa using hs) rfl ho
    · rename_i ho
      split at h <;> cases h
      rename_i hq
      exact .punct hp (by simpa using hn) (by simpa using hs) (by simpa using ho) hq
  | nil =>
    simp only at h
    split at h <;> cases h
    rename_i hq
    exact .punct hp (by simpa using hn) (by simpa using hs) (by simp) hq

theorem Form.next_eq {a : Bool} {c : Char} {cs : List Char} {l : Cut} (h : Form a c cs l) :
    next a c cs = .ok l := by
  cases h with
  | lineComment hc hd => rw [next.eq_def, if_pos ⟨hc, hd⟩]
  | blockComment hc hd hb => subst hc hd; simp [next, hb]
  | str hc hb => subst hc; simp [next, hb]
  | path hc ha hb => subst hc ha; simp [next, hb]
  | ident hp hn => rw [next_of_plain hp, if_pos hn]
  | number hp hn hs => rw [next_of_plain hp, hn, if_neg (by simp), if_pos hs]
  | operator hp hn hs hd ho =>
    subst hd
    rw [next_of_plain hp, hn, hs, if_neg (by simp), if_neg (by simp)]
    simp only [ho, if_true]
  | punct hp hn hs ho hq =>
    rw [next_of_plain hp, hn, hs, if_neg (by simp), if_neg (by simp)]
    cases cs with
    | nil => simp only [hq, if_true]
    | cons d ds =>
      have hd := ho d (by simp)
      simp only [hd, hq, if_true, Bool.false_eq_true, if_false]

theorem Plain.of_shorter {a : Bool} {c : Char} {cs cs' : List Char} (h : Plain a c cs)
    (hw : word cs' <+: word cs) : Plain a c cs' := by
  -- a second character that begins a comment is no blank, so it stood in the old text too
  have hhead : ∀ d, isBlank d = false → cs'.head? = some d → cs.head? = some d := by
    intro d hd hcs
    obtain ⟨ds, rfl⟩ := List.head?_eq_some_iff.1 hcs
    rcases head_of_shorter hw rfl with hb | ⟨ds', rfl, _⟩
    · rw [hd] at hb; cases hb
    · rfl
  exact ⟨fun hc => h.line ⟨hc.1, hhead _ (by decide) hc.2⟩,
    fun hc => h.block ⟨hc.1, hhead _ (by decide) hc.2⟩, h.str, h.path⟩

theorem startsNumber_of_shorter {c : Char} {cs cs' : List Char} (hw : word cs' <+: word cs)
    (h : startsNumber (c :: cs) = false) : startsNumber (c :: cs') = false := by
  simp only [startsNumber, Bool.or_eq_false_iff, Bool.and_eq_false_iff] at h ⊢
  refine ⟨h.1, h.2.imp id fun hd => ?_⟩
  have hs : ∀ x ∈ cs.head?, isAsciiDigit x = false := by
    intro x hx
    rw [hx] at hd
    exact hd
  cases hx : cs'.head? with
  | none => rfl
  | some x => exact stops_of_shorter (fun _ => isAsciiDigit_of_isBlank) hw hs x hx

theorem operators_of_isBlank (c : Char) {d : Char} (h : isBlank d = true) :
    operators.contains (c, d) = false := by
  rw [← Bool.not_eq_true, List.contains_iff_mem]
  intro hm
  simp only [operators, List.mem_cons, Prod.mk.injEq, List.not_mem_nil, or_false] at hm
  rcases hm with h' | h' | h' | h' | h' | h' <;> (rw [h'.2] at h; cases h)

/-- A number that begins with a point has the digit after it. -/
theorem startsNumber_number {c : Char} {cs : List Char} (h : startsNumber (c :: cs) = true)
    (rest' : List Char) : startsNumber ((number (c :: cs)).1 ++ rest') = true := by
  simp only [startsNumber, Bool.or_eq_true, Bool.and_eq_true] at h
  have hc : isMantissa c = true := by
    simp only [isMantissa, Bool.or_eq_true]
    exact h.imp id And.left
  rw [number_eq]
  simp only [cut, List.takeWhile_cons, hc, if_true, List.cons_append]
  rcases h with h | ⟨hp, hd⟩
  · simp [startsNumber, h]
  · cases cs with
    | nil => cases hd
    | cons d ds =>
      have hd : isAsciiDigit d = true := hd
      have hm : isMantissa d = true := by simp [isMantissa, hd]
      simp only [List.takeWhile_cons, hm, if_true, List.cons_append]
      simp [startsNumber, hp, hd]

theorem shorter_append {t s s' : List Char} (h : word s' <+: word s) :
    word (t ++ s') <+: word (t ++ s) := by
  induction t with
  | nil => exact h
  | cons c t ih =>
    cases hc : isBlank c with
    | true => simp [word, hc]
    | false =>
      rw [List.cons_append, List.cons_append, word_cons hc, word_cons hc]
      exact List.cons_prefix_cons.2 ⟨rfl, ih⟩

/-- The same lexeme is cut off whatever fitting text follows it. -/
theorem Form.of_fits {a : Bool} {c : Char} {cs : List Char} {l : Cut} (h : Form a c cs l)
    {rest' : List Char} (hf : Fits l.kind l.rest rest') :
    Form a c (l.text.tail ++ rest') ⟨l.kind, l.text, rest'⟩ := by
  cases h with
  | lineComment hc hd =>
    obtain ⟨ds, rfl⟩ := List.head?_eq_some_iff.1 hd
    subst hc
    have htake := fun c hc => List.all_eq_true.1 (List.all_takeWhile (p := (· != '\n'))
      (l := '/' :: '/' :: ds)) c hc
    have hcut := cut_of_stops htake rest' (by simpa [Fits] using hf)
    have hform := form_lineComment a (ds.takeWhile (· != '\n') ++ rest')
    simp only [cut, Prod.mk.injEq] at hcut
    have htext : '/' :: '/' :: (ds.takeWhile (· != '\n') ++ rest') =
        ('/' :: '/' :: ds).takeWhile (· != '\n') ++ rest' := by simp
    rw [htext, hcut.1, hcut.2] at hform
    simpa using hform
  | blockComment hc hd hb =>
    subst hc hd
    exact .blockComment rfl rfl (commentRest_append_right hb rest')
  | str hc hb => exact .str hc (stringRest_append_right hb rest')
  | path hc ha hb => exact .path hc ha (pathRest_append_right hb rest')
  | ident hp hn =>
    have hstop := stops_of_shorter (p := isNameRest) (fun _ => isNameRest_of_isBlank) hf
      (dropWhile_stops _ _)
    have hall : ∀ c ∈ cs.takeWhile isNameRest, isNameRest c = true :=
      List.all_eq_true.1 List.all_takeWhile
    have hcut := cut_of_stops hall _ hstop
    simp only [cut, Prod.mk.injEq] at hcut
    have hw := shorter_append (t := cs.takeWhile isNameRest) hf
    rw [List.takeWhile_append_dropWhile] at hw
    have hform := Form.ident (hp.of_shorter hw) hn
    rw [hcut.1, hcut.2] at hform
    exact hform
  | number hp hn hs =>
    have hnum := number_of_fits (s := c :: cs) hf
    have happ := number_append (c :: cs)
    have hst := startsNumber_number hs rest'
    obtain ⟨d, t, ht⟩ := List.exists_cons_of_ne_nil (number_ne_nil hs)
    have hw := shorter_append (t := t) hf
    simp only [ht, List.cons_append, List.tail_cons] at hnum happ hst ⊢
    obtain ⟨rfl, htail⟩ := List.cons.inj happ
    rw [show t ++ _ = cs from htail] at hw
    have hform := Form.number (hp.of_shorter hw) hn hst
    rw [hnum] at hform
    exact hform
  | @operator d ds hp hn hs hd ho =>
    subst hd
    have hw := shorter_append (t := [d]) hf
    exact .operator (hp.of_shorter hw) hn (startsNumber_of_shorter hw hs) rfl ho
  | punct hp hn hs ho hq =>
    exact .punct (hp.of_shorter hf) hn (startsNumber_of_shorter hf hs)
      (stops_of_shorter (fun _ => operators_of_isBlank c) hf ho) hq

end Lexeme
end Scad
