import Scad.Proofs.Token.Reads

/-!
# Scad.Proofs.Token.Spacing

Tokens in a new place. A token is a lexeme of its own, and stays one before every text that does not
go on with it.

* `Lexeme.EndsBefore k text rest`: the text `rest` adds nothing to a lexeme of kind `k`.
* `Alone a ts`: every token is a lexeme with nothing behind it, where `a` says whether `<` begins a
  path before the first one.
* `tokenize_spaced`: the tokens of a source, written with other blanks between them, are read again.
-/

namespace Scad

open Text

namespace Lexeme

/-! ## What may follow a lexeme -/

/-- Whether punctuation of one character and the character after it begin another lexeme. -/
def joins (p d : Char) : Bool :=
  operators.contains (p, d) || (p == '/' && (d == '/' || d == '*')) || (p == '.' && isAsciiDigit d)

/-- The text that follows adds nothing to a lexeme. -/
def EndsBefore (k : Token.Kind) (text rest : List Char) : Prop :=
  match k with
  | .lineComment => ∀ d ∈ rest.head?, d = '\n'
  | .ident => ∀ d ∈ rest.head?, isNameRest d = false
  | .number => ∀ d ∈ rest.head?, isNameRest d = false ∧ d ≠ '.'
  | .punct => ∀ p, text = [p] → ∀ d ∈ rest.head?, joins p d = false
  | .str | .path | .blockComment => True

theorem isNameRest_of_isAsciiDigit {c : Char} (h : isAsciiDigit c = true) :
    isNameRest c = true := by
  have hdigit : c.isDigit = true := by
    simp only [isAsciiDigit, Bool.and_eq_true, decide_eq_true_eq] at h
    simp only [Char.isDigit, Bool.and_eq_true, decide_eq_true_eq]
    exact h
  have hsmall : c.toNat < 128 := by
    simp only [isAsciiDigit, Bool.and_eq_true, decide_eq_true_eq] at h
    have := Char.le_def.1 h.2
    exact Nat.lt_of_le_of_lt (UInt32.le_iff_toNat_le.1 this) (by decide)
  simp [isNameRest, isAlphanumeric, isDigitLike, hsmall, hdigit]

theorem isAsciiDigit_of_isNameRest {c : Char} (h : isNameRest c = false) :
    isAsciiDigit c = false := by
  cases hd : isAsciiDigit c with
  | false => rfl
  | true =>
    rw [isNameRest_of_isAsciiDigit hd] at h
    cases h

/-- Only letters begin an exponent. -/
theorem not_startsExponent {s : List Char} (h : ∀ c ∈ s.head?, isNameRest c = false) :
    ¬ StartsExponent s := by
  rintro ⟨e, sign, d, t, he, -, -, rfl⟩
  have hfalse := h e rfl
  rcases he with rfl | rfl <;> revert hfalse <;> decide

theorem plain_of_head {a : Bool} {c : Char} (h : c ∉ ['/', '"', '<']) (cs : List Char) :
    Plain a c cs := by
  simp only [List.mem_cons, List.not_mem_nil, or_false, not_or] at h
  exact ⟨fun hc => h.1 hc.1, fun hc => h.1 hc.1, h.2.1, fun hc => h.2.2 hc.1⟩

theorem form_ident {a : Bool} {c : Char} {w rest : List Char} (hc : isNameStart c = true)
    (hw : ∀ d ∈ w, isNameRest d = true) (hr : ∀ d ∈ rest.head?, isNameRest d = false) :
    Form a c (w ++ rest) ⟨.ident, c :: w, rest⟩ := by
  have hhead : c ∉ ['/', '"', '<'] := by
    simp only [List.mem_cons, List.not_mem_nil, or_false]
    rintro (rfl | rfl | rfl) <;> revert hc <;> decide
  have hcut := cut_of_stops hw rest hr
  simp only [cut, Prod.mk.injEq] at hcut
  have hform := Form.ident (plain_of_head (a := a) hhead (w ++ rest)) hc
  rwa [hcut.1, hcut.2] at hform

theorem form_number {a : Bool} {c : Char} {w rest : List Char} (hc : isNameStart c = false)
    (hs : startsNumber (c :: w) = true) (hw : (number (c :: w)).1 = c :: w)
    (hr : ∀ d ∈ rest.head?, isNameRest d = false ∧ d ≠ '.') :
    Form a c (w ++ rest) ⟨.number, c :: w, rest⟩ := by
  have hhead : c ∉ ['/', '"', '<'] := by
    simp only [List.mem_cons, List.not_mem_nil, or_false]
    rintro (rfl | rfl | rfl) <;> cases hs
  have hdigit : ∀ d ∈ rest.head?, isAsciiDigit d = false :=
    fun d hd => isAsciiDigit_of_isNameRest (hr d hd).1
  have hstop : ∀ d ∈ rest.head?, isMantissa d = false := by
    intro d hd
    simp [isMantissa, hdigit d hd, (hr d hd).2]
  have hnone := not_startsExponent fun d hd => (hr d hd).1
  have hnum := number_of_stops (s := c :: w) (fun _ => hdigit) fun _ => ⟨hstop, hnone⟩
  have hstarts := startsNumber_number hs rest
  rw [hw, List.cons_append] at hnum hstarts
  have hform := Form.number (plain_of_head (a := a) hhead (w ++ rest)) hc hstarts
  rwa [hnum] at hform

theorem form_operator {a : Bool} {c d : Char} (ha : ¬ (c = '<' ∧ a = true))
    (ho : operators.contains (c, d) = true) (rest : List Char) :
    Form a c (d :: rest) ⟨.punct, [c, d], rest⟩ := by
  have hc : c ∈ ['=', '!', '<', '>', '&', '|'] := by
    rw [List.contains_iff_mem] at ho
    simp only [operators, List.mem_cons, Prod.mk.injEq, List.not_mem_nil, or_false] at ho ⊢
    exact ho.imp And.left (.imp And.left (.imp And.left (.imp And.left (.imp And.left And.left))))
  obtain ⟨hslash, hquote, hname, hdigit, hpoint⟩ : c ≠ '/' ∧ c ≠ '"' ∧ isNameStart c = false ∧
      isAsciiDigit c = false ∧ c ≠ '.' := by
    simp only [List.mem_cons, List.not_mem_nil, or_false] at hc
    rcases hc with rfl | rfl | rfl | rfl | rfl | rfl <;> decide
  refine .operator ⟨fun h => hslash h.1, fun h => hslash h.1, hquote, ha⟩ hname ?_ rfl ho
  simp [startsNumber, hdigit, hpoint]

theorem form_punct {a : Bool} {c : Char} {rest : List Char} (h : Form a c [] ⟨.punct, [c], []⟩)
    (hr : ∀ d ∈ rest.head?, joins c d = false) : Form a c rest ⟨.punct, [c], rest⟩ := by
  have hj : ∀ d ∈ rest.head?, operators.contains (c, d) = false ∧
      (c = '/' → d ≠ '/' ∧ d ≠ '*') ∧ (c = '.' → isAsciiDigit d = false) := by
    intro d hd
    have := hr d hd
    simp only [joins, Bool.or_eq_false_iff, Bool.and_eq_false_imp, beq_iff_eq,
      beq_eq_false_iff_ne] at this
    exact ⟨this.1.1, this.1.2, this.2⟩
  cases h with
  | punct hp hn hs ho hq =>
    refine .punct ⟨?_, ?_, hp.str, hp.path⟩ hn ?_ (fun d hd => (hj d hd).1) hq
    · rintro ⟨hc, hd⟩
      exact ((hj _ hd).2.1 hc).1 rfl
    · rintro ⟨hc, hd⟩
      exact ((hj _ hd).2.1 hc).2 rfl
    · simp only [startsNumber, Bool.or_eq_false_iff, Bool.and_eq_false_imp, beq_iff_eq] at hs ⊢
      refine ⟨hs.1, fun hc => ?_⟩
      cases hd : rest.head? with
      | none => rfl
      | some d => exact (hj d hd).2.2 hc

/-- A lexeme with nothing behind it is cut off before every text that does not add to it. -/
theorem Form.followed {a : Bool} {c : Char} {cs : List Char} {l : Cut} (h : Form a c cs l)
    (hnil : l.rest = []) {rest : List Char} (he : EndsBefore l.kind l.text rest) :
    Form a c (cs ++ rest) ⟨l.kind, l.text, rest⟩ := by
  obtain ⟨body, htext, hcs⟩ := h.text_eq
  rw [hnil, List.append_nil] at hcs
  subst hcs
  have hfits : Fits l.kind l.rest rest → Form a c (body ++ rest) ⟨l.kind, l.text, rest⟩ := by
    intro hf
    have hform := h.of_fits hf
    rwa [htext, List.tail_cons, ← htext] at hform
  cases h with
  | lineComment => exact hfits he
  | blockComment | str | path => exact hfits trivial
  -- the others end where the next character says so, and are cut off anew before it
  | ident hp hn =>
    have hw : body.takeWhile isNameRest = body := (List.cons.inj htext).2
    have hall := List.takeWhile_eq_self_iff.1 hw
    simp only [hw]
    exact form_ident hn hall he
  | number hp hn hs =>
    simp only at htext
    simp only [htext]
    exact form_number hn hs htext he
  | operator hp hn hs hd ho =>
    cases hnil
    subst hd
    exact form_operator hp.path ho rest
  | punct hp hn hs ho hq =>
    cases hnil
    exact form_punct (.punct hp hn hs ho hq) (he c rfl)

/-- Characters that add to no lexeme other than a line comment. -/
def isStop (d : Char) : Bool := !isNameRest d && !(['.', '/', '*', '=', '&', '|'].contains d)

theorem isStop_of_isBlank {d : Char} (h : isBlank d = true) : isStop d = true := by
  have hmarks : ['.', '/', '*', '=', '&', '|'].all (fun c => isBlank c == false) = true := by decide
  simp only [isStop, isNameRest_of_isBlank h, Bool.not_false, Bool.true_and, Bool.not_eq_true']
  rw [← Bool.not_eq_true, List.contains_iff_mem]
  intro hm
  rw [beq_iff_eq.1 (List.all_eq_true.1 hmarks d hm)] at h
  cases h

theorem joins_of_isStop {d : Char} (h : isStop d = true) (p : Char) : joins p d = false := by
  simp only [isStop, Bool.and_eq_true, Bool.not_eq_true', ← Bool.not_eq_true, List.contains_iff_mem,
    List.mem_cons, List.not_mem_nil, or_false, not_or] at h
  obtain ⟨hname, -, hslash, hstar, heq, hand, hor⟩ := h
  simp [joins, operators, isAsciiDigit_of_isNameRest (Bool.eq_false_iff.2 hname), hslash, hstar,
    heq, hand, hor]

theorem endsBefore_of_isStop {k : Token.Kind} (hk : k ≠ .lineComment) (text : List Char)
    {rest : List Char} (h : ∀ d ∈ rest.head?, isStop d = true) : EndsBefore k text rest := by
  have hname : ∀ d ∈ rest.head?, isNameRest d = false ∧ d ≠ '.' := by
    intro d hd
    have hstop := h d hd
    simp only [isStop, Bool.and_eq_true, Bool.not_eq_true', ← Bool.not_eq_true,
      List.contains_iff_mem, List.mem_cons, not_or] at hstop
    exact ⟨Bool.eq_false_iff.2 hstop.1, hstop.2.1⟩
  cases k with
  | lineComment => exact absurd rfl hk
  | ident => exact fun d hd => (hname d hd).1
  | number => exact hname
  | punct => exact fun p _ d hd => joins_of_isStop (h d hd) p
  | str | path | blockComment => trivial

end Lexeme

open Lexeme

/-! ## Tokens on their own -/

/-- What a token is, wherever it stands. -/
def Token.face (t : Token) : Token.Kind × List Char := (t.kind, t.text)

/-- The token is a lexeme with nothing behind it. -/
def Token.Whole (a : Bool) (t : Token) : Prop :=
  ∃ c cs, t.text = c :: cs ∧ isBlank c = false ∧ Form a c cs ⟨t.kind, t.text, []⟩

/-- Every token is a lexeme with nothing behind it. -/
def Alone (a : Bool) : List Token → Prop
  | [] => True
  | t :: ts => t.Whole a ∧ Alone (t.opensPath a) ts

theorem Token.whole_of_form {a : Bool} {c : Char} {cs : List Char} {l : Cut}
    (hc : isBlank c = false) (h : Form a c cs l) (n : Nat) (gap : List Char) :
    Token.Whole a ⟨l.kind, n, gap, l.text⟩ := by
  obtain ⟨body, htext, -⟩ := h.text_eq
  have hfits : Fits l.kind l.rest [] := by
    cases l.kind with
    | lineComment => intro d hd; cases hd
    | ident | number | punct => exact List.nil_prefix
    | str | path | blockComment => trivial
  have hform := h.of_fits hfits
  rw [htext, List.tail_cons, List.append_nil] at hform
  exact ⟨c, body, htext, hc, by rwa [htext]⟩

theorem Reads.alone {a : Bool} {offset : Nat} {s : List Char} {ts : List Token}
    (h : Reads a offset s ts) : Alone a ts := by
  induction h with
  | done => trivial
  | token _ hc hl ht _ ih =>
    refine ⟨?_, ih⟩
    subst ht
    exact Token.whole_of_form hc hl _ _

/-- A token is read before every text that does not add to it. -/
theorem Token.Whole.reads {a : Bool} {t : Token} (h : t.Whole a) {gap rest : List Char}
    (hg : ∀ c ∈ gap, isBlank c = true) (he : EndsBefore t.kind t.text rest) {offset : Nat}
    {us : List Token} (hr : Reads (t.opensPath a) (offset + gap.length + t.text.length) rest us) :
    Reads a offset (gap ++ (t.text ++ rest))
      (⟨t.kind, offset + gap.length, gap, t.text⟩ :: us) := by
  obtain ⟨c, cs, htext, hc, hform⟩ := h
  have hthere := hform.followed rfl he
  have htail : t.text ++ rest = c :: (cs ++ rest) := by rw [htext, List.cons_append]
  rw [htail]
  exact .token hg hc hthere rfl hr

/-! ## Tokens with other blanks between them -/

/-- The texts of the tokens, each with a gap after it. -/
def Token.spaced : List Token → List (List Char) → List Char
  | t :: ts, g :: gs => t.text ++ (g ++ spaced ts gs)
  | _, _ => []

/-- Blanks to stand after each of the tokens: some between two tokens, and a new line after a line
comment. -/
def Token.Separates : List Token → List (List Char) → Prop
  | [], [] => True
  | t :: ts, g :: gs =>
    (∀ c ∈ g, isBlank c = true) ∧ (ts ≠ [] → g ≠ []) ∧
      (t.kind = .lineComment → ∀ c ∈ g.head?, c = '\n') ∧ Separates ts gs
  | _, _ => False

/-- Nothing adds to a token before the gap that separates it from the next one. -/
theorem Token.endsBefore_of_separates {t : Token} {ts : List Token} {g : List Char}
    {gs : List (List Char)} (h : Separates (t :: ts) (g :: gs)) :
    EndsBefore t.kind t.text (g ++ spaced ts gs) := by
  obtain ⟨hblank, hne, hline, hs⟩ := h
  have hhead : ∀ d ∈ (g ++ spaced ts gs).head?, d ∈ g.head? := by
    intro d hd
    cases g with
    | cons c g => exact hd
    | nil =>
      cases ts with
      | nil => cases hd
      | cons u us => exact absurd rfl (hne (by simp))
  by_cases hk : t.kind = .lineComment
  · rw [hk]
    exact fun d hd => hline hk d (hhead d hd)
  · exact endsBefore_of_isStop hk _
      fun d hd => isStop_of_isBlank (hblank d (List.mem_of_mem_head? (hhead d hd)))

theorem Alone.reads_spaced {ts : List Token} {a : Bool} (h : Alone a ts) {lead : List Char}
    (hlead : ∀ c ∈ lead, isBlank c = true) {gaps : List (List Char)}
    (hs : Token.Separates ts gaps) (offset : Nat) :
    ∃ us, Reads a offset (lead ++ Token.spaced ts gaps) us ∧
      us.map Token.face = ts.map Token.face := by
  induction ts generalizing a lead gaps offset with
  | nil => exact ⟨[], .done (by simpa [Token.spaced] using hlead), rfl⟩
  | cons t ts ih =>
    cases gaps with
    | nil => exact hs.elim
    | cons g gs =>
      -- the gap after the token leads the rest
      obtain ⟨us, hus, hfaces⟩ := ih h.2 hs.1 hs.2.2.2 (offset + lead.length + t.text.length)
      have hread := h.1.reads hlead (Token.endsBefore_of_separates hs) hus
      exact ⟨_, hread, by simp [hfaces, Token.face]⟩

/-- The tokens of a source are read again, in the same order, from every text made of them with
blanks between them. -/
theorem tokenize_spaced {source : List Char} {ts : List Token} (h : tokenize source = .ok ts)
    {lead : List Char} (hlead : ∀ c ∈ lead, isBlank c = true) (gaps : List (List Char))
    (hs : Token.Separates ts gaps) :
    ∃ us, tokenize (lead ++ Token.spaced ts gaps) = .ok us ∧
      us.map Token.face = ts.map Token.face := by
  obtain ⟨us, hus, hfaces⟩ := (tokenizeFrom_eq_ok_iff.1 h).alone.reads_spaced hlead hs 0
  exact ⟨us, tokenizeFrom_eq_ok_iff.2 hus, hfaces⟩

/-- A path that no blank stood before, a number and a name that is no exponent of it, and a line
comment that ends the text. -/
theorem tokenize_spaced_path :
    ∃ us, tokenize "\tuse <a> 1.\n ex //".toList = .ok us ∧
      us.map Token.face = [(.ident, ['u', 's', 'e']), (.path, ['<', 'a', '>']),
        (.number, ['1', '.']), (.ident, ['e', 'x']), (.lineComment, ['/', '/'])] := by
  have htokens : tokenize "use<a>1.ex//".toList =
      .ok [⟨.ident, 0, [], ['u', 's', 'e']⟩, ⟨.path, 3, [], ['<', 'a', '>']⟩,
        ⟨.number, 6, [], ['1', '.']⟩, ⟨.ident, 8, [], ['e', 'x']⟩,
        ⟨.lineComment, 10, [], ['/', '/']⟩] := by decide +kernel
  have hlead : ∀ c ∈ ['\t'], isBlank c = true := List.forall_mem_singleton.2 (by decide)
  have hblank : isBlank ' ' = true ∧ isBlank '\n' = true := by decide
  exact tokenize_spaced htokens hlead [[' '], [' '], ['\n', ' '], [' '], []]
    (by simp [Token.Separates, hblank])

end Scad
