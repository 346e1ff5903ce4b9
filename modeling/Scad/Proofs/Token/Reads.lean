import Scad.Proofs.Token.Shape

/-!
# Scad.Proofs.Token.Reads

Token lists and the texts they come from.

* `Reads a offset s ts`: the text `s`, which starts at `offset`, consists of the tokens `ts` and of
  blanks after the last one. `tokenizeFrom_eq_ok_iff` joins the relation to the function.
* `Token.spell`: the text of a token list without the blanks after its last token.
* `Written offset tail ts`: what the proofs about layout need to know of tokens that were read:
  where they start, which characters they are made of, and what follows a line comment.
-/

namespace Scad

open Text Lexeme

/-- Whether `<` begins a path after the token `t`, if `a` says so before it. -/
def Token.opensPath (a : Bool) (t : Token) : Bool :=
  if t.isComment then a else t.kind == .ident && t.isAny ["include", "use"]

/-- The text from `offset` on consists of the tokens, and of blanks after the last one. -/
inductive Reads : Bool → Nat → List Char → List Token → Prop where
  | done {a : Bool} {offset : Nat} {s : List Char} : (∀ c ∈ s, isBlank c = true) →
      Reads a offset s []
  | token {a : Bool} {offset : Nat} {gap cs : List Char} {c : Char} {t : Token} {l : Cut}
      {ts : List Token} : (∀ d ∈ gap, isBlank d = true) → isBlank c = false →
      Form a c cs l → t = ⟨l.kind, offset + gap.length, gap, l.text⟩ →
      Reads (t.opensPath a) t.stop l.rest ts → Reads a offset (gap ++ c :: cs) (t :: ts)

theorem tokenizeFrom_blank {a : Bool} {offset : Nat} {s : List Char}
    (h : ∀ c ∈ s, isBlank c = true) : tokenizeFrom a offset s = .ok [] := by
  rw [tokenizeFrom]
  split
  · rfl
  · rename_i hs
    rw [List.dropWhile_eq_nil_iff.2 h] at hs
    cases hs

/-- Where the blanks of a text end, its first lexeme begins. -/
theorem split_of_dropWhile {s cs : List Char} {c : Char} (h : s.dropWhile isBlank = c :: cs) :
    (∀ d ∈ s.takeWhile isBlank, isBlank d = true) ∧ isBlank c = false ∧
      s.takeWhile isBlank ++ c :: cs = s := by
  refine ⟨List.all_eq_true.1 List.all_takeWhile, dropWhile_stops isBlank s c (by rw [h]; rfl), ?_⟩
  rw [← h]
  exact List.takeWhile_append_dropWhile

theorem tokenizeFrom_gap {a : Bool} {offset : Nat} {gap cs : List Char} {c : Char}
    (hg : ∀ d ∈ gap, isBlank d = true) (hc : isBlank c = false) :
    tokenizeFrom a offset (gap ++ c :: cs) =
      match next a c cs with
      | .error cause => .error ⟨offset + gap.length, cause⟩
      | .ok l =>
        (tokenizeFrom (Token.opensPath a ⟨l.kind, offset + gap.length, gap, l.text⟩)
          (Token.stop ⟨l.kind, offset + gap.length, gap, l.text⟩) l.rest).map
            (⟨l.kind, offset + gap.length, gap, l.text⟩ :: ·) := by
  have hcut := cut_of_stops hg (c :: cs) (by simpa using hc)
  simp only [cut, Prod.mk.injEq] at hcut
  rw [tokenizeFrom]
  split
  · rename_i hs
    rw [hcut.2] at hs
    cases hs
  · rename_i d ds hs
    rw [hcut.2] at hs
    cases hs
    rw [hcut.1]
    split
    · rename_i he
      rw [he]
    · rename_i he
      rw [he]
      rfl

theorem tokenizeFrom_token {a : Bool} {offset : Nat} {gap cs : List Char} {c : Char} {l : Cut}
    (hg : ∀ d ∈ gap, isBlank d = true) (hc : isBlank c = false) (hl : next a c cs = .ok l) :
    tokenizeFrom a offset (gap ++ c :: cs) =
      (tokenizeFrom (Token.opensPath a ⟨l.kind, offset + gap.length, gap, l.text⟩)
        (Token.stop ⟨l.kind, offset + gap.length, gap, l.text⟩) l.rest).map
          (⟨l.kind, offset + gap.length, gap, l.text⟩ :: ·) := by
  rw [tokenizeFrom_gap hg hc, hl]

/-- The tokens of a text are those it consists of. -/
theorem tokenizeFrom_eq_ok_iff {a : Bool} {offset : Nat} {s : List Char} {ts : List Token} :
    tokenizeFrom a offset s = .ok ts ↔ Reads a offset s ts := by
  constructor
  · intro h
    fun_induction tokenizeFrom a offset s generalizing ts with
    | case1 a offset s hs =>
      cases h
      exact .done (List.dropWhile_eq_nil_iff.1 hs)
    | case2 => cases h
    | case3 a offset s c cs hs gap l hl t opens =>
      rename_i ih
      have hopens : opens = t.opensPath a := by simp only [opens, Token.opensPath, dite_eq_ite]
      rw [hopens] at h ih
      cases hr : tokenizeFrom (t.opensPath a) t.stop l.rest with
      | error e => rw [hr] at h; cases h
      | ok rest =>
        rw [hr] at h
        cases h
        obtain ⟨hg, hc, hcut⟩ := split_of_dropWhile hs
        rw [← hcut]
        exact .token hg hc (.of_next hl) rfl (ih hr)
  · intro h
    induction h with
    | done hs => exact tokenizeFrom_blank hs
    | token hg hc hl ht _ ih =>
      rw [tokenizeFrom_token hg hc hl.next_eq, ← ht, ih]
      rfl

namespace Token

/-- The text of a token list, without the blanks after the last token. -/
def spell (ts : List Token) : List Char := ts.flatMap fun t => t.gap ++ t.text

@[simp] theorem spell_nil : spell [] = [] := rfl

@[simp] theorem spell_cons (t : Token) (ts : List Token) :
    spell (t :: ts) = t.gap ++ (t.text ++ spell ts) := by
  simp [spell]

/-- What every token that was read is made of. -/
structure Sound (t : Token) : Prop where
  gap_blank : ∀ c ∈ t.gap, isBlank c = true
  text_ne_nil : t.text ≠ []
  head_not_blank : ∀ c ∈ t.text.head?, isBlank c = false
  last_not_blank : t.kind ≠ .lineComment → ∀ c ∈ t.text.getLast?, isBlank c = false
  newline : '\n' ∈ t.text → t.isMultiline = true
  marked : Marked t.kind t.text

/-- A token that runs over several lines has text on the first and on the last of them. -/
theorem Sound.lines {t : Token} (h : t.Sound) {x y : List Char} (ht : t.text = x ++ '\n' :: y) :
    (x ≠ [] ∧ ∀ c ∈ x.head?, isBlank c = false) ∧
      (y ≠ [] ∧ ∀ c ∈ y.getLast?, isBlank c = false) := by
  have hkind : t.kind ≠ .lineComment := by
    intro hk
    have := h.newline (by simp [ht])
    simp [isMultiline, hk] at this
  have hfirst := h.head_not_blank
  have hlast := h.last_not_blank hkind
  rw [ht] at hfirst hlast
  refine ⟨⟨?_, fun c hc => hfirst c ?_⟩, ?_, fun c hc => hlast c ?_⟩
  · rintro rfl
    cases hfirst '\n' (by simp)
  · obtain ⟨z, rfl⟩ := List.head?_eq_some_iff.1 hc
    simp
  · rintro rfl
    cases hlast '\n' (by simp)
  · rw [Option.mem_def] at hc ⊢
    simp [List.getLast?_append, List.getLast?_cons, hc]

end Token

/-- The tokens stand one after another from `offset` on, with the blanks `tail` after the last one,
and every line comment ends its line. -/
def Written (offset : Nat) (tail : List Char) : List Token → Prop
  | [] => ∀ c ∈ tail, isBlank c = true
  | t :: ts =>
    t.Sound ∧ t.start = offset + t.gap.length ∧
      (t.kind = .lineComment → ∀ c ∈ (Token.spell ts ++ tail).head?, c = '\n') ∧
      Written t.stop tail ts

theorem Written.head_start {offset : Nat} {tail : List Char} {ts : List Token}
    (h : Written offset tail ts) {t : Token} (ht : t ∈ ts.head?) : offset ≤ t.start := by
  cases ts with
  | nil => cases ht
  | cons u us =>
    cases ht
    have := h.2.1
    omega

theorem Written.later {offset n : Nat} {tail : List Char} {ts : List Token}
    (hw : Written offset tail ts) (h : n < offset) : ∀ t ∈ ts.head?, n < t.start :=
  fun _ ht => Nat.lt_of_lt_of_le h (hw.head_start ht)

theorem Lexeme.Form.text_eq {a : Bool} {c : Char} {cs : List Char} {l : Cut} (h : Form a c cs l) :
    ∃ t, l.text = c :: t ∧ t ++ l.rest = cs := by
  have happ := next_append h.next_eq
  obtain ⟨d, t, ht⟩ := List.exists_cons_of_ne_nil (next_text_ne_nil h.next_eq)
  rw [ht] at happ
  obtain ⟨rfl, hcs⟩ := List.cons.inj happ
  exact ⟨t, ht, hcs⟩

/-- Text that was read is the text of its tokens and the blanks after them. -/
theorem Reads.written {a : Bool} {offset : Nat} {s : List Char} {ts : List Token}
    (h : Reads a offset s ts) :
    ∃ tail, s = Token.spell ts ++ tail ∧ Written offset tail ts := by
  induction h with
  | @done a offset s hs => exact ⟨s, rfl, hs⟩
  | @token a offset gap cs c t l ts hg hc hl ht _ ih =>
    obtain ⟨tail, hrest, hw⟩ := ih
    obtain ⟨body, htext, hcs⟩ := hl.text_eq
    subst ht
    refine ⟨tail, ?_, ⟨hg, by simp [htext], by simpa [htext] using hc, hl.getLast_not_isBlank, ?_,
      hl.marked⟩, rfl, ?_, hw⟩
    · rw [Token.spell_cons, htext, ← hcs, hrest]
      simp
    · intro hn
      by_contra hk
      refine hl.no_newline ?_ hn
      simpa [Token.isMultiline] using hk
    · intro hk d hd
      rw [← hrest] at hd
      cases hl with
      | lineComment hc hd' => simpa using dropWhile_stops _ _ d hd
      | blockComment | str | path | ident | number | operator | punct => cases hk

/-! ## Where tokens stand -/

/-- Two members of a list in order are the same, or one is before the other. -/
theorem eq_or_of_pairwise {α : Type} {R : α → α → Prop} {l : List α} (h : l.Pairwise R) {a b : α}
    (ha : a ∈ l) (hb : b ∈ l) : a = b ∨ R a b ∨ R b a := by
  obtain ⟨i, hi, rfl⟩ := List.mem_iff_getElem.1 ha
  obtain ⟨j, hj, rfl⟩ := List.mem_iff_getElem.1 hb
  rw [List.pairwise_iff_getElem] at h
  rcases Nat.lt_trichotomy i j with hij | rfl | hij
  · exact .inr (.inl (h i j hi hj hij))
  · exact .inl rfl
  · exact .inr (.inr (h j i hj hi hij))

/-- In a list in order, the members with a property that comes before are a beginning. -/
theorem filter_eq_takeWhile {α : Type} {p : α → Bool} {as : List α}
    (h : as.Pairwise fun a b => p b = true → p a = true) : as.filter p = as.takeWhile p := by
  induction as with
  | nil => rfl
  | cons a as ih =>
    obtain ⟨hlater, h⟩ := List.pairwise_cons.1 h
    cases ha : p a with
    | true => rw [List.filter_cons_of_pos ha, List.takeWhile_cons_of_pos ha, ih h]
    | false =>
      have hnone : as.filter p = [] := by
        refine List.filter_eq_nil_iff.2 fun b hb hpb => ?_
        rw [hlater b hb hpb] at ha
        cases ha
      simp [ha, hnone]

namespace Token

theorem Sound.start_lt_stop {t : Token} (h : t.Sound) : t.start < t.stop := by
  have := List.length_pos_iff.2 h.text_ne_nil
  rw [stop]
  omega

theorem start_of_written {offset : Nat} {tail : List Char} {ts : List Token}
    (h : Written offset tail ts) {t : Token} (ht : t ∈ ts) : offset ≤ t.start := by
  induction ts generalizing offset with
  | nil => cases ht
  | cons u us ih =>
    obtain ⟨-, hstart, -, hws⟩ := h
    rcases List.mem_cons.1 ht with rfl | ht
    · omega
    · have hle := ih hws ht
      have hstop : u.stop = u.start + u.text.length := rfl
      omega

theorem sound_of_written {offset : Nat} {tail : List Char} {ts : List Token}
    (h : Written offset tail ts) {t : Token} (ht : t ∈ ts) : t.Sound := by
  induction ts generalizing offset with
  | nil => cases ht
  | cons u us ih =>
    rcases List.mem_cons.1 ht with rfl | ht
    · exact h.1
    · exact ih h.2.2.2 ht

theorem stop_of_written {offset : Nat} {tail : List Char} {ts : List Token}
    (h : Written offset tail ts) {t : Token} (ht : t ∈ ts) :
    t.stop ≤ offset + (spell ts).length := by
  induction ts generalizing offset with
  | nil => cases ht
  | cons u us ih =>
    obtain ⟨-, hstart, -, hws⟩ := h
    have hstop : u.stop = u.start + u.text.length := rfl
    simp only [spell_cons, List.length_append]
    rcases List.mem_cons.1 ht with rfl | ht
    · omega
    · have := ih hws ht
      omega

/-- A token of a text stands in it where it starts. -/
theorem text_of_written {offset : Nat} {tail : List Char} {ts : List Token}
    (h : Written offset tail ts) {t : Token} (ht : t ∈ ts) :
    ∃ x y, spell ts ++ tail = x ++ t.text ++ y ∧ offset + x.length = t.start := by
  induction ts generalizing offset with
  | nil => cases ht
  | cons u us ih =>
    obtain ⟨-, hstart, -, hws⟩ := h
    rcases List.mem_cons.1 ht with rfl | ht
    · exact ⟨t.gap, spell us ++ tail, by simp, hstart.symm⟩
    · obtain ⟨x, y, htext, hx⟩ := ih hws ht
      refine ⟨u.gap ++ u.text ++ x, y, ?_, ?_⟩
      · rw [spell_cons]
        simp only [List.append_assoc] at htext ⊢
        rw [htext]
      · rw [stop] at hx
        simp only [List.length_append]
        omega

end Token

end Scad
