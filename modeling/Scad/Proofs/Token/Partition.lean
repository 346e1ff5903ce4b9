import Scad.Proofs.Token.Reads

/-!
# Scad.Proofs.Token.Partition

What tokenizing keeps of a source.

* `Token.Partition`: the tokens are pieces of the source one after another, and what stands between
  them is blank, so every other character is in exactly one of them.
* `Stalls a offset s ts e`: reading `s`, which starts at `offset`, gives the tokens `ts` and then
  fails with `e`. `tokenizeFrom_eq_error_iff` joins the relation to the function.
* `tokenize_partition`: a source is cut into its tokens, or its text before the lexeme that cannot
  be read is cut into the tokens read before it.
-/

namespace Scad

open Text Lexeme

namespace Token

/-- The character at offset `n` belongs to the token. -/
def Covers (t : Token) (n : Nat) : Prop := t.start ≤ n ∧ n < t.stop

/-- The tokens are pieces of the source in order, and every character that is no blank belongs to
one of them. -/
structure Partition (source : List Char) (ts : List Token) : Prop where
  nonempty : ∀ t ∈ ts, t.start < t.stop
  bounded : ∀ t ∈ ts, t.stop ≤ source.length
  text : ∀ t ∈ ts, t.text = (source.drop t.start).take (t.stop - t.start)
  ordered : ts.Pairwise fun t u => t.stop ≤ u.start
  outside : ∀ n c, source[n]? = some c → (∀ t ∈ ts, ¬ t.Covers n) → isBlank c = true
  inside : ∀ n c, source[n]? = some c → isBlank c = false → ∃! t, t ∈ ts ∧ t.Covers n
  newline : ∀ t ∈ ts, t.kind ∈ [.ident, .number, .punct, .path, .lineComment] → '\n' ∉ t.text

theorem ordered_of_written {offset : Nat} {tail : List Char} {ts : List Token}
    (h : Written offset tail ts) : ts.Pairwise fun t u => t.stop ≤ u.start := by
  induction ts generalizing offset with
  | nil => exact .nil
  | cons t ts ih => exact .cons (fun u hu => start_of_written h.2.2.2 hu) (ih h.2.2.2)

/-- No two tokens of a text start at the same place. -/
theorem nodup_start_of_written {offset : Nat} {tail : List Char} {ts : List Token}
    (h : Written offset tail ts) : (ts.map start).Nodup := by
  refine List.pairwise_map.2 ((ordered_of_written h).imp_of_mem fun {t u} ht _ htu => ?_)
  have := (sound_of_written h ht).start_lt_stop
  omega

/-- A character of a text is a blank or belongs to a token of it. -/
theorem covers_of_written {offset : Nat} {tail : List Char} {ts : List Token}
    (h : Written offset tail ts) {n : Nat} {c : Char} (hc : (spell ts ++ tail)[n]? = some c) :
    isBlank c = true ∨ ∃ t ∈ ts, t.Covers (offset + n) := by
  induction ts generalizing offset n with
  | nil => exact .inl (h c (List.mem_of_getElem? hc))
  | cons t ts ih =>
    obtain ⟨hsound, hstart, -, hws⟩ := h
    have hstop : t.stop = t.start + t.text.length := rfl
    rw [spell_cons, List.append_assoc, List.append_assoc] at hc
    by_cases hgap : n < t.gap.length
    · rw [List.getElem?_append_left hgap] at hc
      exact .inl (hsound.gap_blank c (List.mem_of_getElem? hc))
    by_cases htext : n < t.gap.length + t.text.length
    · exact .inr ⟨t, List.mem_cons_self, by omega, by omega⟩
    rw [List.getElem?_append_right (by omega), List.getElem?_append_right (by omega)] at hc
    rcases ih hws hc with hblank | ⟨u, hu, hcovers⟩
    · exact .inl hblank
    · have heq : t.stop + (n - t.gap.length - t.text.length) = offset + n := by omega
      rw [heq] at hcovers
      exact .inr ⟨u, List.mem_cons_of_mem t hu, hcovers⟩

/-- No character belongs to two tokens of a text. -/
theorem eq_of_covers {ts : List Token} (h : ts.Pairwise fun t u => t.stop ≤ u.start) {t u : Token}
    (ht : t ∈ ts) (hu : u ∈ ts) {n : Nat} (htn : t.Covers n) (hun : u.Covers n) : t = u := by
  have h1 := htn.1
  have h2 := htn.2
  have h3 := hun.1
  have h4 := hun.2
  rcases eq_or_of_pairwise h ht hu with heq | htu | hut
  · exact heq
  · omega
  · omega

theorem partition_of_written {tail : List Char} {ts : List Token} (h : Written 0 tail ts) :
    Partition (spell ts ++ tail) ts := by
  refine ⟨fun t ht => (sound_of_written h ht).start_lt_stop, ?_, ?_, ordered_of_written h, ?_, ?_,
    ?_⟩
  · intro t ht
    have hle := stop_of_written h ht
    rw [List.length_append]
    omega
  · intro t ht
    obtain ⟨x, y, htext, hx⟩ := text_of_written h ht
    have hx : t.start = x.length := by omega
    have hlen : t.stop - t.start = t.text.length := by rw [stop]; omega
    rw [htext, hlen, hx, List.append_assoc, List.drop_left, List.take_left]
  · intro n c hc hnone
    rcases covers_of_written h hc with hblank | ⟨t, ht, hcovers⟩
    · exact hblank
    · rw [Nat.zero_add] at hcovers
      exact absurd hcovers (hnone t ht)
  · intro n c hc hblank
    rcases covers_of_written h hc with hb | ⟨t, ht, hcovers⟩
    · rw [hblank] at hb
      cases hb
    · rw [Nat.zero_add] at hcovers
      exact ⟨t, ⟨ht, hcovers⟩, fun u hu => eq_of_covers (ordered_of_written h) hu.1 ht hu.2 hcovers⟩
  · intro t ht hk hn
    have hmulti := (sound_of_written h ht).newline hn
    simp only [isMultiline, Bool.or_eq_true, beq_iff_eq] at hmulti
    rcases hmulti with hk' | hk' <;> simp [hk'] at hk

end Token

/-! ## Readings that fail -/

/-- Reading the text from `offset` on gives the tokens, and then fails. -/
inductive Stalls : Bool → Nat → List Char → List Token → LexError → Prop where
  | here {a : Bool} {offset : Nat} {gap cs : List Char} {c : Char} {cause : LexError.Cause} :
      (∀ d ∈ gap, isBlank d = true) → isBlank c = false → next a c cs = .error cause →
      Stalls a offset (gap ++ c :: cs) [] ⟨offset + gap.length, cause⟩
  | token {a : Bool} {offset : Nat} {gap cs : List Char} {c : Char} {t : Token} {l : Cut}
      {ts : List Token} {e : LexError} : (∀ d ∈ gap, isBlank d = true) → isBlank c = false →
      Form a c cs l → t = ⟨l.kind, offset + gap.length, gap, l.text⟩ →
      Stalls (t.opensPath a) t.stop l.rest ts e → Stalls a offset (gap ++ c :: cs) (t :: ts) e

/-- Tokenizing fails where reading does, after the tokens read before. -/
theorem tokenizeFrom_eq_error_iff {a : Bool} {offset : Nat} {s : List Char} {e : LexError} :
    tokenizeFrom a offset s = .error e ↔ ∃ ts, Stalls a offset s ts e := by
  constructor
  · intro h
    fun_induction tokenizeFrom a offset s with
    | case1 => cases h
    | case2 a offset s c cs hs gap cause hn =>
      cases h
      obtain ⟨hg, hc, hcut⟩ := split_of_dropWhile hs
      rw [← hcut]
      exact ⟨[], .here hg hc hn⟩
    | case3 a offset s c cs hs gap l hl t opens =>
      rename_i ih
      have hopens : opens = t.opensPath a := by simp only [opens, Token.opensPath, dite_eq_ite]
      rw [hopens] at h ih
      cases hr : tokenizeFrom (t.opensPath a) t.stop l.rest with
      | ok rest => rw [hr] at h; cases h
      | error e' =>
        rw [hr] at h
        cases h
        obtain ⟨ts, hts⟩ := ih hr
        obtain ⟨hg, hc, hcut⟩ := split_of_dropWhile hs
        rw [← hcut]
        exact ⟨t :: ts, .token hg hc (.of_next hl) rfl hts⟩
  · rintro ⟨ts, h⟩
    induction h with
    | here hg hc hn => rw [tokenizeFrom_gap hg hc, hn]
    | token hg hc hl ht _ ih =>
      rw [tokenizeFrom_token hg hc hl.next_eq, ← ht, ih]
      rfl

/-- A lexeme is cut off the same way if the text ends sooner after it. -/
theorem Lexeme.Form.fits_front {a : Bool} {c : Char} {cs : List Char} {l : Cut}
    (h : Form a c cs l) {read more : List Char} (hr : l.rest = read ++ more) :
    Fits l.kind l.rest read := by
  have hword : word read <+: word l.rest := by
    have hnil : word [] <+: word more := List.nil_prefix
    have hread := shorter_append (t := read) hnil
    rwa [List.append_nil, ← hr] at hread
  cases h with
  | lineComment hc hd =>
    intro d hm
    have hhead : d ∈ (read ++ more).head? := by
      obtain ⟨ds, rfl⟩ := List.head?_eq_some_iff.1 hm
      rfl
    rw [← hr] at hhead
    simpa using dropWhile_stops _ _ d hhead
  | ident | number | operator | punct => exact hword
  | str | path | blockComment => trivial

/-- What was read before a failure is a text of its own, and the failure is at its end. -/
theorem Stalls.reads {a : Bool} {offset : Nat} {s : List Char} {ts : List Token} {e : LexError}
    (h : Stalls a offset s ts e) :
    ∃ read c more, s = read ++ c :: more ∧ e.offset = offset + read.length ∧ isBlank c = false ∧
      Reads a offset read ts := by
  induction h with
  | @here a offset gap cs c cause hg hc hn => exact ⟨gap, c, cs, rfl, rfl, hc, .done hg⟩
  | @token a offset gap cs c t l ts e hg hc hl ht _ ih =>
    obtain ⟨read, d, more, hrest, hoff, hd, hreads⟩ := ih
    obtain ⟨body, htext, hcs⟩ := hl.text_eq
    -- the lexeme does not look past what was read after it
    have hform := hl.of_fits (hl.fits_front hrest)
    rw [htext, List.tail_cons] at hform
    refine ⟨gap ++ c :: (body ++ read), d, more, ?_, ?_, hd, .token hg hc hform ?_ hreads⟩
    · rw [← hcs, hrest]
      simp
    · subst ht
      rw [hoff, Token.stop, htext]
      simp only [List.length_append, List.length_cons]
      omega
    · rw [ht, htext]

/-- The tokens of a source partition it. Where there are none, the lexeme that cannot be read begins
inside the source with a character other than a blank, and the text before it has the tokens that
were read before it. -/
theorem tokenize_partition (source : List Char) :
    (∀ ts, tokenize source = .ok ts → Token.Partition source ts) ∧
      ∀ e, tokenize source = .error e →
        e.offset < source.length ∧
          (∃ c, source[e.offset]? = some c ∧ isBlank c = false) ∧
            ∃ ts, Stalls false 0 source ts e ∧ tokenize (source.take e.offset) = .ok ts := by
  constructor
  · intro ts h
    obtain ⟨tail, hsource, hw⟩ := (tokenizeFrom_eq_ok_iff.1 h).written
    rw [hsource]
    exact Token.partition_of_written hw
  · intro e h
    obtain ⟨ts, hts⟩ := tokenizeFrom_eq_error_iff.1 h
    obtain ⟨read, c, more, hsource, hoff, hc, hreads⟩ := hts.reads
    rw [Nat.zero_add] at hoff
    refine ⟨?_, ⟨c, ?_, hc⟩, ts, hts, ?_⟩
    · rw [hoff, hsource]
      simp
    · rw [hoff, hsource]
      simp
    · rw [hoff, hsource, List.take_left]
      exact tokenizeFrom_eq_ok_iff.2 hreads

/-- A point and a number that share no character, and a string without an end after a name. -/
theorem tokenize_partition_samples :
    Token.Partition "a = 1.e /*\n*/".toList
        [⟨.ident, 0, [], ['a']⟩, ⟨.punct, 2, [' '], ['=']⟩, ⟨.number, 4, [' '], ['1', '.']⟩,
          ⟨.ident, 6, [], ['e']⟩, ⟨.blockComment, 8, [' '], ['/', '*', '\n', '*', '/']⟩] ∧
      ∃ ts, Stalls false 0 "use <a> \"b".toList ts ⟨8, .unterminatedString⟩ ∧
        tokenize "use <a> ".toList = .ok ts :=
  ⟨(tokenize_partition _).1 _ (by decide +kernel),
    ((tokenize_partition _).2 ⟨8, .unterminatedString⟩ (by decide +kernel)).2.2⟩

end Scad
