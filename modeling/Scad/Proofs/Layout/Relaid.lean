import Scad.Layout
import Scad.Proofs.Token.Reads

/-!
# Scad.Proofs.Layout.Relaid

The standard layout of a source, token by token. `Layout.reindent` works on lines; here the same
layout is a new token list, in which only gaps and the blanks at the end of first lines differ.

* `Layout.Cursor`: what the layout depends on at a place inside a line.
* `Layout.relaid`: the tokens of a source in standard layout, and `Layout.ending` the blanks after
  them.
* `Reads.relaid`: these are the tokens of the text they spell.
* `Layout.relaid_relaid`: laying them out again changes nothing.
-/

namespace Scad
namespace Layout

open Text

/-- A place inside a line: the brackets open before the line, those opened and closed on it so far,
and whether it began inside a token. -/
structure Cursor where
  depth : Nat
  opens : Nat
  closes : Nat
  continues : Bool

namespace Cursor

/-- The beginning of a source. -/
def start : Cursor := ⟨0, 0, 0, false⟩

/-- The number of brackets open after the line, if it ends here. -/
def after (k : Cursor) : Nat := k.depth + k.opens - k.closes

/-- The place before a token. -/
def reach (k : Cursor) (t : Token) : Cursor :=
  if '\n' ∈ t.gap then ⟨k.after, 0, 0, false⟩ else k

/-- The place on the line of a token that stands here, with its bracket counted. -/
def count (k : Cursor) (t : Token) : Cursor :=
  ⟨k.depth, k.opens + if t.isOpener then 1 else 0, k.closes + if t.isCloser then 1 else 0,
    k.continues⟩

@[simp] theorem count_continues (k : Cursor) (t : Token) :
    (k.count t).continues = k.continues := rfl

/-- The place after a token that stands here. -/
def pass (k : Cursor) (t : Token) : Cursor :=
  if '\n' ∈ t.text then ⟨(k.count t).after, 0, 0, true⟩ else k.count t

theorem reach_of_newline {k : Cursor} {t : Token} (h : '\n' ∈ t.gap) :
    k.reach t = ⟨k.after, 0, 0, false⟩ := if_pos h

theorem reach_of_no_newline {k : Cursor} {t : Token} (h : '\n' ∉ t.gap) : k.reach t = k := if_neg h

theorem pass_of_newline {k : Cursor} {t : Token} (h : '\n' ∈ t.text) :
    k.pass t = ⟨(k.count t).after, 0, 0, true⟩ := if_pos h

theorem pass_of_no_newline {k : Cursor} {t : Token} (h : '\n' ∉ t.text) : k.pass t = k.count t :=
  if_neg h

/-- The place after a list of tokens. -/
def through (k : Cursor) : List Token → Cursor
  | [] => k
  | t :: ts => ((k.reach t).pass t).through ts

end Cursor

/-- The tokens that start on the line that is being written. -/
def sameLine : List Token → List Token
  | [] => []
  | t :: ts => if '\n' ∈ t.gap then [] else t :: if '\n' ∈ t.text then [] else sameLine ts

/-- The tokens that start on the line of `t`, which is the first of them. -/
def row (t : Token) (ts : List Token) : List Token :=
  t :: if '\n' ∈ t.text then [] else sameLine ts

/-- The number of closing brackets before anything else. -/
def closers (ts : List Token) : Nat := (ts.takeWhile Token.isCloser).length

/-- The blanks before the token `t` in standard layout. A line that began inside a token keeps its
blanks at the end. -/
def newGap (k : Cursor) (t : Token) (ts : List Token) : List Char :=
  if '\n' ∈ t.gap then
    (if k.continues then t.gap.takeWhile (· != '\n') else []) ++
      ((if 1 < t.newlinesBefore then ['\n', '\n'] else ['\n']) ++
        indent (k.after - closers (row t ts)))
  else t.gap

/-- The text of a token in standard layout. -/
def newText (k : Cursor) (t : Token) : List Char :=
  if k.continues then t.text else trimLine t.text

/-- The token `t` in standard layout, if `offset` is the end of the token before it. -/
def relay (k : Cursor) (offset : Nat) (t : Token) (ts : List Token) : Token :=
  let gap := newGap k t ts
  ⟨t.kind, offset + gap.length, gap, newText (k.reach t) t⟩

/-- The tokens in standard layout, if they follow the place `k` and start at `offset`. -/
def relaidFrom (k : Cursor) (offset : Nat) : List Token → List Token
  | [] => []
  | t :: ts =>
    let u := relay k offset t ts
    u :: relaidFrom ((k.reach t).pass t) u.stop ts

/-- The tokens without the blanks before the first of them. -/
def flush : List Token → List Token
  | [] => []
  | t :: ts => ⟨t.kind, t.start, [], t.text⟩ :: ts

/-- The tokens of a source in standard layout. -/
def relaid (ts : List Token) : List Token := relaidFrom .start 0 (flush ts)

/-- The blanks after the last token in standard layout, if `tail` stood there. -/
def endingFrom (k : Cursor) (tail : List Char) : List Char :=
  (if k.continues then tail.takeWhile (· != '\n') else []) ++ ['\n']

/-- The blanks after the last token of a source in standard layout. -/
def ending (tail : List Char) (ts : List Token) : List Char :=
  if ts = [] then [] else endingFrom (Cursor.start.through (flush ts)) tail

/-- The token `u` is `t` with other blanks around it. -/
structure Respaced (t u : Token) : Prop where
  kind : u.kind = t.kind
  text : u.text = t.text ∨ u.text = trimLine t.text

theorem newText_eq_or (k : Cursor) (t : Token) :
    newText k t = t.text ∨ newText k t = trimLine t.text := by
  simp only [newText]
  split
  · exact .inl rfl
  · exact .inr rfl

theorem respaced_relay (k : Cursor) (offset : Nat) (t : Token) (ts : List Token) :
    Respaced t (relay k offset t ts) :=
  ⟨rfl, newText_eq_or _ t⟩

section Respaced

variable {t u : Token}

/-- Only strings and comments change their text. -/
theorem trimLine_text (ht : t.Sound) (hc : t.isComment = false) (hs : t.kind ≠ .str) :
    trimLine t.text = t.text := by
  simp only [Token.isComment, Bool.or_eq_false_iff, beq_eq_false_iff_ne] at hc
  have hn : '\n' ∉ t.text := by
    intro hn
    have := ht.newline hn
    simp only [Token.isMultiline, Bool.or_eq_true, beq_iff_eq] at this
    exact this.elim hs hc.2
  rw [trimLine_of_no_newline hn]
  exact trimEnd_eq_self_of_getLast (ht.last_not_blank hc.1)

theorem Respaced.text_eq (h : Respaced t u) (ht : t.Sound) (hc : t.isComment = false)
    (hs : t.kind ≠ .str) : u.text = t.text := by
  rcases h.text with he | he
  · exact he
  · rw [he, trimLine_text ht hc hs]

theorem Respaced.isComment (h : Respaced t u) : u.isComment = t.isComment := by
  simp [Token.isComment, h.kind]

theorem Respaced.newline (h : Respaced t u) : '\n' ∈ u.text ↔ '\n' ∈ t.text := by
  rcases h.text with he | he
  · rw [he]
  · rw [he, mem_trimLine_newline]

theorem Respaced.bracket? (h : Respaced t u) (ht : t.Sound) : u.bracket? = t.bracket? := by
  by_cases hp : t.kind = .punct
  · have htext := h.text_eq ht (by simp [Token.isComment, hp]) (by simp [hp])
    simp only [Token.bracket?, h.kind, htext]
  · have hnone : ∀ v : Token, v.kind ≠ .punct → v.bracket? = none := by
      intro v hv
      unfold Token.bracket?
      split
      · rename_i hk _; exact absurd hk hv
      · rfl
    rw [hnone t hp, hnone u (by rw [h.kind]; exact hp)]

theorem Respaced.isOpener (h : Respaced t u) (ht : t.Sound) : u.isOpener = t.isOpener := by
  simp only [Token.isOpener, h.bracket? ht]

theorem Respaced.isCloser (h : Respaced t u) (ht : t.Sound) : u.isCloser = t.isCloser := by
  simp only [Token.isCloser, h.bracket? ht]

theorem Respaced.opensPath (h : Respaced t u) (ht : t.Sound) (a : Bool) :
    u.opensPath a = t.opensPath a := by
  simp only [Token.opensPath, h.isComment, h.kind]
  cases hc : t.isComment with
  | true => rfl
  | false =>
    by_cases hi : t.kind = .ident
    · have htext := h.text_eq ht hc (by simp [hi])
      simp [Token.isAny, Token.is, htext]
    · have hi' : (t.kind == Token.Kind.ident) = false := by simpa using hi
      simp [hi']

theorem Respaced.pass (h : Respaced t u) (ht : t.Sound) (k : Cursor) : k.pass u = k.pass t := by
  simp only [Cursor.pass, Cursor.count, h.isOpener ht, h.isCloser ht, h.newline]

end Respaced

theorem written_flush {offset : Nat} {tail : List Char} {t : Token} {ts : List Token}
    (h : Written offset tail (t :: ts)) : Written t.start tail (flush (t :: ts)) := by
  obtain ⟨ht, -, hl, hws⟩ := h
  exact ⟨⟨by simp, ht.text_ne_nil, ht.head_not_blank, ht.last_not_blank, ht.newline, ht.marked⟩,
    rfl, hl, hws⟩

/-! ## Laying out twice -/

theorem closers_cons (t : Token) (ts : List Token) :
    closers (t :: ts) = if t.isCloser then closers ts + 1 else 0 := by
  cases h : t.isCloser <;> simp [closers, h]

theorem newline_not_mem_indent (n : Nat) : '\n' ∉ indent n := by
  intro h
  have := (List.mem_replicate.1 h).2
  revert this
  decide

theorem newline_mem_newGap {k : Cursor} {t : Token} {ts : List Token} :
    '\n' ∈ newGap k t ts ↔ '\n' ∈ t.gap := by
  simp only [newGap]
  split
  · rename_i h
    have hn : '\n' ∈ (if 1 < t.newlinesBefore then ['\n', '\n'] else ['\n']) := by
      split <;> simp
    simp only [h, iff_true, List.mem_append]
    exact .inr (.inl hn)
  · rfl

/-- More than one newline before a token is two newlines in standard layout. -/
theorem count_newGap {k : Cursor} {t : Token} {ts : List Token} (h : '\n' ∈ t.gap) :
    (newGap k t ts).count '\n' = if 1 < t.newlinesBefore then 2 else 1 := by
  have htake : (t.gap.takeWhile (· != '\n')).count '\n' = 0 := by
    rw [List.count_eq_zero]
    intro hm
    have := List.all_eq_true.1 List.all_takeWhile _ hm
    simp at this
  have hindent : ∀ n, (indent n).count '\n' = 0 :=
    fun n => List.count_eq_zero.2 (newline_not_mem_indent n)
  simp only [newGap, if_pos h, List.count_append, hindent]
  split <;> split <;> simp [htake]

theorem closers_sameLine_relaidFrom {k : Cursor} {offset offset' : Nat} {tail : List Char}
    {ts : List Token} (hw : Written offset tail ts) :
    closers (sameLine (relaidFrom k offset' ts)) = closers (sameLine ts) := by
  induction ts generalizing k offset offset' with
  | nil => rfl
  | cons t ts ih =>
    obtain ⟨ht, -, -, hws⟩ := hw
    have hu := respaced_relay k offset' t ts
    have hgap : '\n' ∈ (relay k offset' t ts).gap ↔ '\n' ∈ t.gap := newline_mem_newGap
    simp only [relaidFrom, sameLine, hgap, hu.newline]
    split
    · rfl
    · rw [closers_cons, closers_cons, hu.isCloser ht]
      split
      · split
        · rfl
        · rw [ih hws]
      · rfl

theorem closers_row_relaidFrom {k k' : Cursor} {offset offset' : Nat} {tail : List Char} {t : Token}
    {ts : List Token} (ht : t.Sound) (hw : Written t.stop tail ts) :
    closers (row (relay k offset t ts) (relaidFrom k' offset' ts)) = closers (row t ts) := by
  have hu := respaced_relay k offset t ts
  simp only [row, closers_cons, hu.isCloser ht, hu.newline]
  split
  · split
    · rfl
    · rw [closers_sameLine_relaidFrom hw]
  · rfl

/-- Blanks in standard layout stay as they are. -/
theorem newGap_newGap {k : Cursor} {t u : Token} {ts us : List Token}
    (hgap : u.gap = newGap k t ts) (hrow : closers (row u us) = closers (row t ts)) :
    newGap k u us = newGap k t ts := by
  by_cases h : '\n' ∈ t.gap
  · have hu : '\n' ∈ u.gap := by rw [hgap]; exact newline_mem_newGap.2 h
    have hcount : 1 < u.newlinesBefore ↔ 1 < t.newlinesBefore := by
      rw [Token.newlinesBefore, hgap, count_newGap h]
      split <;> omega
    have htake : (if k.continues then u.gap.takeWhile (· != '\n') else []) =
        if k.continues then t.gap.takeWhile (· != '\n') else [] := by
      split
      · rename_i hk
        rw [hgap, newGap, if_pos h, if_pos hk, List.takeWhile_append_of_pos (takeWhile_newline _)]
        split <;> simp
      · rfl
    rw [newGap, newGap, if_pos h, if_pos hu, htake, hrow]
    simp only [hcount]
  · have hold : newGap k t ts = t.gap := by rw [newGap, if_neg h]
    have hu : '\n' ∉ u.gap := by rw [hgap, hold]; exact h
    rw [newGap, if_neg hu, hgap]

theorem newText_newText {k : Cursor} {t u : Token} (h : u.text = newText k t) :
    newText k u = newText k t := by
  simp only [newText] at h ⊢
  split
  · rename_i hk
    rw [h, if_pos hk]
  · rename_i hk
    rw [h, if_neg hk, trimLine_trimLine]

theorem reach_relay (k : Cursor) (offset : Nat) (t : Token) (ts : List Token) :
    k.reach (relay k offset t ts) = k.reach t := by
  have hgap : '\n' ∈ (relay k offset t ts).gap ↔ '\n' ∈ t.gap := newline_mem_newGap
  simp only [Cursor.reach, hgap]

/-- A token in standard layout stays as it is. -/
theorem relay_relay {k : Cursor} {offset : Nat} {t : Token} {ts us : List Token}
    (h : closers (row (relay k offset t ts) us) = closers (row t ts)) :
    relay k offset (relay k offset t ts) us = relay k offset t ts := by
  have hgap := newGap_newGap (k := k) rfl h
  have htext : newText (k.reach (relay k offset t ts)) (relay k offset t ts) =
      newText (k.reach t) t := by
    rw [reach_relay]
    exact newText_newText rfl
  rw [relay, hgap, htext]
  rfl

/-- Tokens in standard layout stay as they are. -/
theorem relaidFrom_relaidFrom {offset : Nat} {tail : List Char} {ts : List Token}
    (hw : Written offset tail ts) (k : Cursor) (offset' : Nat) :
    relaidFrom k offset' (relaidFrom k offset' ts) = relaidFrom k offset' ts := by
  induction ts generalizing offset k offset' with
  | nil => rfl
  | cons t ts ih =>
    obtain ⟨ht, -, -, hws⟩ := hw
    simp only [relaidFrom]
    rw [relay_relay (closers_row_relaidFrom ht hws), reach_relay,
      (respaced_relay k offset' t ts).pass ht, ih hws]

/-- The place after tokens does not depend on their layout. -/
theorem through_relaidFrom {offset : Nat} {tail : List Char} {ts : List Token}
    (hw : Written offset tail ts) (k : Cursor) (offset' : Nat) :
    k.through (relaidFrom k offset' ts) = k.through ts := by
  induction ts generalizing offset k offset' with
  | nil => rfl
  | cons t ts ih =>
    obtain ⟨ht, -, -, hws⟩ := hw
    simp only [relaidFrom, Cursor.through]
    rw [reach_relay, (respaced_relay k offset' t ts).pass ht, ih hws]

theorem endingFrom_endingFrom (k : Cursor) (tail : List Char) :
    endingFrom k (endingFrom k tail) = endingFrom k tail := by
  cases hk : k.continues with
  | false => simp [endingFrom, hk]
  | true => simp [endingFrom, hk, List.takeWhile_append_of_pos (takeWhile_newline tail)]

theorem flush_relaid (ts : List Token) : flush (relaid ts) = relaid ts := by
  cases ts with
  | nil => rfl
  | cons t ts => simp [relaid, flush, relaidFrom, relay, newGap]

theorem relaid_eq_nil_iff {ts : List Token} : relaid ts = [] ↔ ts = [] := by
  cases ts <;> simp [relaid, flush, relaidFrom]

/-- Laying out the tokens of a source again changes nothing. -/
theorem relaid_relaid {tail : List Char} {ts : List Token} (hw : Written 0 tail ts) :
    relaid (relaid ts) = relaid ts := by
  cases ts with
  | nil => rfl
  | cons t ts =>
    rw [relaid, flush_relaid]
    exact relaidFrom_relaidFrom (written_flush hw) .start 0

theorem ending_relaid {tail : List Char} {ts : List Token} (hw : Written 0 tail ts) :
    ending (ending tail ts) (relaid ts) = ending tail ts := by
  cases ts with
  | nil => rfl
  | cons t ts =>
    have hne : relaid (t :: ts) ≠ [] := by simp [relaid_eq_nil_iff]
    rw [ending, if_neg hne, flush_relaid, relaid, through_relaidFrom (written_flush hw), ending,
      if_neg (by simp), endingFrom_endingFrom]

/-! ## The new tokens are read from the text they spell -/

theorem newGap_blank {k : Cursor} {t : Token} {ts : List Token} (ht : t.Sound) :
    ∀ c ∈ newGap k t ts, isBlank c = true := by
  intro c hc
  simp only [newGap] at hc
  split at hc
  · have hindent : ∀ n, c ∈ indent n → isBlank c = true := by
      intro n hn
      rw [(List.mem_replicate.1 hn).2]
      decide
    have hnewline : c ∈ (if 1 < t.newlinesBefore then ['\n', '\n'] else ['\n']) → c = '\n' := by
      split <;> simp
    simp only [List.mem_append] at hc
    rcases hc with hc | hc | hc
    · split at hc
      · exact ht.gap_blank c ((List.takeWhile_subset _) hc)
      · cases hc
    · rw [hnewline hc]; decide
    · exact hindent _ hc
  · exact ht.gap_blank c hc

/-- A text whose first line ends at once goes on so in standard layout. -/
theorem head_relaidFrom {offset : Nat} {tail : List Char} {ts : List Token}
    (hw : Written offset tail ts) (h : ∀ c ∈ (Token.spell ts ++ tail).head?, c = '\n')
    (k : Cursor) (offset' : Nat) :
    ∃ s, Token.spell (relaidFrom k offset' ts) ++ endingFrom (k.through ts) tail = '\n' :: s := by
  cases ts with
  | nil =>
    have htail : tail.takeWhile (· != '\n') = [] := by
      cases tail with
      | nil => rfl
      | cons c cs => simp [h c (by simp)]
    refine ⟨[], ?_⟩
    simp [relaidFrom, endingFrom, htail]
  | cons t ts =>
    obtain ⟨ht, -, -, -⟩ := hw
    cases hg : t.gap with
    | nil =>
      obtain ⟨c, cs, hc⟩ := List.exists_cons_of_ne_nil ht.text_ne_nil
      have hnb := ht.head_not_blank c (by simp [hc])
      rw [h c (by simp [hg, hc])] at hnb
      cases hnb
    | cons d ds =>
      obtain rfl : d = '\n' := h d (by simp [hg])
      have hnew : ∃ g, newGap k t ts = '\n' :: g := by
        simp only [newGap, hg, List.mem_cons, true_or, if_true]
        split <;> split <;> exact ⟨_, rfl⟩
      obtain ⟨g, hnew⟩ := hnew
      simp [relaidFrom, relay, hnew]

/-- No word begins where the trimmed text ends its first line. -/
theorem word_trimLine {s r : List Char} (hs : (trimLine s).headD '\n' = '\n')
    (hr : (∀ c ∈ s, isBlank c = true) → Lexeme.word r = []) :
    Lexeme.word (trimLine s ++ r) = [] := by
  cases ht : trimLine s with
  | nil => exact hr (isBlank_of_trimLine_eq_nil ht)
  | cons d t =>
    rw [ht] at hs
    have hd : d = '\n' := hs
    rw [hd, List.cons_append, Lexeme.word_cons_of_isBlank (by decide)]

/-- Trimming the first line does not lengthen the word at the head of a text. -/
theorem shorter_trimLine {s r r' : List Char} (hr : Lexeme.word r' <+: Lexeme.word r)
    (h : (∀ c ∈ s.getLast?, isBlank c = false) ∨ Lexeme.word r' = []) :
    Lexeme.word (trimLine s ++ r') <+: Lexeme.word (s ++ r) := by
  induction s with
  | nil => exact hr
  | cons c s ih =>
    have hs : (∀ c ∈ s.getLast?, isBlank c = false) ∨ Lexeme.word r' = [] := by
      refine h.imp (fun h d hd => h d ?_) id
      rw [List.getLast?_cons, hd]
      rfl
    by_cases hc : c = '\n'
    · subst hc
      rw [trimLine_newline, List.cons_append, Lexeme.word_cons_of_isBlank (by decide)]
      exact List.nil_prefix
    · rw [trimLine_cons hc]
      split
      · rename_i hcut
        -- a text of blanks only has a blank at its end
        have hnil : (∀ d ∈ s, isBlank d = true) → Lexeme.word r' = [] := by
          intro hall
          refine h.resolve_left fun hlast => ?_
          have hend := hlast _ (List.getLast?_eq_some_getLast (List.cons_ne_nil c s))
          have hblank : ∀ d ∈ c :: s, isBlank d = true := List.forall_mem_cons.2 ⟨hcut.1, hall⟩
          rw [hblank _ (List.getLast_mem _)] at hend
          cases hend
        rw [word_trimLine hcut.2 hnil]
        exact List.nil_prefix
      · cases hb : isBlank c with
        | true =>
          rw [List.cons_append, Lexeme.word_cons_of_isBlank hb]
          exact List.nil_prefix
        | false =>
          rw [List.cons_append, List.cons_append, Lexeme.word_cons hb, Lexeme.word_cons hb]
          exact List.cons_prefix_cons.2 ⟨rfl, ih hs⟩

theorem shorter_newText {k : Cursor} {t : Token} {r r' : List Char} (ht : t.Sound)
    (hr : Lexeme.word r' <+: Lexeme.word r)
    (hl : t.kind = .lineComment → Lexeme.word r' = []) :
    Lexeme.word (newText k t ++ r') <+: Lexeme.word (t.text ++ r) := by
  simp only [newText]
  split
  · exact Lexeme.shorter_append hr
  · apply shorter_trimLine hr
    by_cases hk : t.kind = .lineComment
    · exact .inr (hl hk)
    · exact .inl (ht.last_not_blank hk)

/-- No word gets longer in standard layout. -/
theorem shorter_relaidFrom {offset : Nat} {tail : List Char} {ts : List Token}
    (hw : Written offset tail ts) (k : Cursor) (offset' : Nat) :
    Lexeme.word (Token.spell (relaidFrom k offset' ts) ++ endingFrom (k.through ts) tail) <+:
      Lexeme.word (Token.spell ts ++ tail) := by
  induction ts generalizing offset k offset' with
  | nil =>
    have hnil : Lexeme.word (endingFrom (k.through []) tail) = [] := by
      simp only [endingFrom]
      split
      · cases tail with
        | nil => rfl
        | cons c cs =>
          by_cases hc : c = '\n'
          · subst hc; rfl
          · simp [Lexeme.word, hc, hw c (by simp)]
      · rfl
    simp only [relaidFrom, Token.spell_nil, List.nil_append, hnil]
    exact List.nil_prefix
  | cons t ts ih =>
    obtain ⟨ht, -, hl, hws⟩ := hw
    simp only [relaidFrom, Token.spell_cons, List.append_assoc, Cursor.through, relay]
    cases hg : newGap k t ts with
    | cons c cs =>
      have hc : isBlank c = true := newGap_blank ht c (by rw [hg]; simp)
      rw [List.cons_append, Lexeme.word_cons_of_isBlank hc]
      exact List.nil_prefix
    | nil =>
      have hgap : t.gap = [] := by
        simp only [newGap] at hg
        split at hg
        · split at hg <;> split at hg <;> simp at hg
        · exact hg
      rw [hgap]
      refine shorter_newText ht (ih hws _ _) fun hk => ?_
      obtain ⟨s, hs⟩ := head_relaidFrom hws (hl hk) ((k.reach t).pass t)
        (offset' + ([] : List Char).length + (newText (k.reach t) t).length)
      simp only [Token.stop]
      rw [hs]
      exact Lexeme.word_cons_of_isBlank (by decide) s

theorem fits_relaidFrom {offset : Nat} {tail : List Char} {ts : List Token}
    (hw : Written offset tail ts) {t : Token}
    (hl : t.kind = .lineComment → ∀ c ∈ (Token.spell ts ++ tail).head?, c = '\n')
    (k : Cursor) (offset' : Nat) :
    Lexeme.Fits t.kind (Token.spell ts ++ tail)
      (Token.spell (relaidFrom k offset' ts) ++ endingFrom (k.through ts) tail) := by
  have hword := shorter_relaidFrom hw k offset'
  cases hk : t.kind with
  | lineComment =>
    obtain ⟨s, hs⟩ := head_relaidFrom hw (hl hk) k offset'
    simp [Lexeme.Fits, hs]
  | ident => exact hword
  | number => exact hword
  | punct => exact hword
  | str => trivial
  | path => trivial
  | blockComment => trivial

/-- A lexeme in standard layout is a lexeme again. -/
theorem form_newText {a : Bool} {c : Char} {cs : List Char} {l : Lexeme.Cut} {t : Token}
    (h : Lexeme.Form a c cs l) (hc : isBlank c = false) (hk : t.kind = l.kind)
    (ht : t.text = l.text) {r : List Char}
    (hf : Lexeme.Fits t.kind l.rest r) (k : Cursor) :
    ∃ s, newText k t = c :: s ∧ Lexeme.Form a c (s ++ r) ⟨t.kind, newText k t, r⟩ := by
  obtain ⟨body, hbody, -⟩ := h.text_eq
  rw [hk] at hf ⊢
  simp only [newText, ht]
  split
  · have hform := h.of_fits hf
    rw [hbody] at hform ⊢
    exact ⟨body, rfl, hform⟩
  · have hform := h.trimLine hf
    rw [hbody] at hform ⊢
    rw [trimLine_cons_of_not_blank hc] at hform ⊢
    exact ⟨trimLine body, rfl, hform⟩

end Layout

open Layout in
/-- Tokens that were read from a text are read again, in standard layout, from the text they spell
then. -/
theorem Reads.relaidFrom {a : Bool} {offset : Nat} {s tail : List Char} {ts : List Token}
    (h : Reads a offset s ts) (hs : s = Token.spell ts ++ tail) (hw : Written offset tail ts)
    (k : Cursor) (offset' : Nat) :
    Reads a offset' (Token.spell (relaidFrom k offset' ts) ++ endingFrom (k.through ts) tail)
      (relaidFrom k offset' ts) := by
  induction h generalizing k offset' with
  | @done a offset s _ =>
    refine .done fun c hc => ?_
    simp only [Layout.relaidFrom, Token.spell_nil, List.nil_append, endingFrom] at hc
    rcases List.mem_append.1 hc with hc | hc
    · split at hc
      · exact hw c (List.takeWhile_subset _ hc)
      · cases hc
    · rw [List.mem_singleton.1 hc]
      decide
  | @token a offset gap cs c t l ts hg hc hl ht hr ih =>
    obtain ⟨hsound, -, hline, hws⟩ := hw
    have hrest : l.rest = Token.spell ts ++ tail := by
      have happ := Lexeme.next_append hl.next_eq
      rw [Token.spell_cons, ht, ← happ] at hs
      simpa using hs
    have hfits := fits_relaidFrom hws hline ((k.reach t).pass t)
    rw [← hrest] at hfits
    obtain ⟨body, hbody, hform⟩ := form_newText (t := t) hl hc (by rw [ht]) (by rw [ht])
      (hfits (relay k offset' t ts).stop) (k.reach t)
    have htext : (relay k offset' t ts).text = c :: body := hbody
    simp only [Layout.relaidFrom, Token.spell_cons, List.append_assoc, Cursor.through]
    rw [htext, List.cons_append]
    refine .token (newGap_blank hsound) hc hform rfl ?_
    rw [(respaced_relay k offset' t ts).opensPath hsound]
    exact ih hrest hws _ _

theorem Reads.flush {a : Bool} {offset : Nat} {s tail : List Char} {t : Token} {ts : List Token}
    (h : Reads a offset s (t :: ts)) (hs : s = Token.spell (t :: ts) ++ tail) :
    Reads a t.start (Token.spell (Layout.flush (t :: ts)) ++ tail) (Layout.flush (t :: ts)) := by
  cases h with
  | @token _ _ gap cs c _ l _ hg hc hl ht hr =>
    subst ht
    have hcs : c :: cs =
        Token.spell (Layout.flush (⟨l.kind, offset + gap.length, gap, l.text⟩ :: ts))
        ++ tail := by
      simpa [Layout.flush] using hs
    rw [← hcs]
    exact @Reads.token _ (offset + gap.length) [] cs c _ l ts (by simp) hc hl rfl hr

open Layout in
/-- The tokens of a source are read again, in standard layout, from the text they spell then. -/
theorem Reads.relaid {a : Bool} {s tail : List Char} {ts : List Token}
    (h : Reads a 0 s ts) (hs : s = Token.spell ts ++ tail) (hw : Written 0 tail ts) :
    Reads a 0 (Token.spell (relaid ts) ++ ending tail ts) (relaid ts) := by
  cases ts with
  | nil => exact .done (by simp [Layout.relaid, Layout.flush, Layout.relaidFrom, ending])
  | cons t ts =>
    have hflush := h.flush hs
    have hread := hflush.relaidFrom rfl (written_flush hw) .start 0
    simpa [Layout.relaid, ending] using hread

end Scad
