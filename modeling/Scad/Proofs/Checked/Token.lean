import Scad.Proofs.Checked.Access

/-!
# Scad.Proofs.Checked.Token

Tokens found by offsets alone. Every loop moves an offset over the source and looks at the
characters there; where a path may begin, the last token that is no comment is looked up among those
found so far.

* `Checked.skip`, `Checked.commentStop`, `Checked.stringStop`, `Checked.pathStop`,
  `Checked.numberStop`: where a lexeme stops.
* `Checked.marks`: the tokens of a source, by kind and extent.
* `Checked.marks_eq`: no access fails, and the tokens are those of `tokenize`.
-/

namespace Scad
namespace Checked

open Text Lexeme

/-! ## The rest of a source -/

section Drop

variable {source s t : List Char} {i : Nat} {c : Char}

theorem lt_of_drop (h : source.drop i = c :: s) : i < source.length := by
  refine Nat.lt_of_not_le fun hle => ?_
  rw [List.drop_eq_nil_of_le hle] at h
  cases h

theorem drop_add (h : source.drop i = s ++ t) : source.drop (i + s.length) = t := by
  rw [← List.drop_drop, h, List.drop_left]

theorem drop_succ (h : source.drop i = c :: s) : source.drop (i + 1) = s :=
  drop_add (s := [c]) h

theorem getElem?_of_drop (h : source.drop i = s) : source[i]? = s.head? := by
  rw [← h, List.head?_drop]

end Drop

/-! ## Where lexemes stop -/

/-- The offset after the characters from `i` on that satisfy `p`. -/
def skip (p : Char → Bool) (source : List Char) (i : Nat) : Checked Nat :=
  if _h : i < source.length then do
    if p (← index source i) then
      skip p source (i + 1)
    else
      return i
  else
    return i
termination_by source.length - i

/-- The offset after the `*/` at or behind `i`. -/
def commentStop (source : List Char) (i : Nat) : Checked (Option Nat) :=
  if _h : i + 1 < source.length then do
    if (← index source i) = '*' ∧ (← index source (i + 1)) = '/' then
      return some (i + 2)
    else
      commentStop source (i + 1)
  else
    return none
termination_by source.length - i

/-- The offset after the quote at or behind `i`. -/
def stringStop (source : List Char) (i : Nat) : Option Nat :=
  match _h : source[i]? with
  | none => none
  | some c =>
    if c = '\\' then stringStop source (i + 2)
    else if c = '"' then some (i + 1)
    else stringStop source (i + 1)
termination_by source.length - i
decreasing_by
  all_goals
    have hlt := (List.getElem?_eq_some_iff.1 _h).1
    omega

/-- The offset after the `>` at or behind `i` on the same line. -/
def pathStop (source : List Char) (i : Nat) : Option Nat :=
  match _h : source[i]? with
  | none => none
  | some c =>
    if c = '\n' then none
    else if c = '>' then some (i + 1)
    else pathStop source (i + 1)
termination_by source.length - i
decreasing_by
  have hlt := (List.getElem?_eq_some_iff.1 _h).1
  omega

def signStop (source : List Char) (i : Nat) : Checked Nat :=
  if i < source.length then do
    let c ← index source i
    return if c = '+' ∨ c = '-' then i + 1 else i
  else
    return i

/-- The offset after an exponent, if there is a whole one. -/
def exponentStop (source : List Char) (i : Nat) : Checked Nat :=
  if i < source.length then do
    let e ← index source i
    if e = 'e' ∨ e = 'E' then
      let j ← signStop source (i + 1)
      if j < source.length then
        if isAsciiDigit (← index source j) then
          skip isAsciiDigit source j
        else
          return i
      else
        return i
    else
      return i
  else
    return i

def numberStop (source : List Char) (i : Nat) : Checked Nat := do
  exponentStop source (← skip isMantissa source i)

section Stop

variable {source s : List Char} {i : Nat}

theorem skip_eq (p : Char → Bool) (h : source.drop i = s) :
    skip p source i = .ok (i + (s.takeWhile p).length) := by
  induction s generalizing i with
  | nil =>
    have hle := List.drop_eq_nil_iff.1 h
    rw [skip, dif_neg (by omega)]
    rfl
  | cons c s ih =>
    rw [skip, dif_pos (lt_of_drop h), index_of_drop h, ok_bind, ih (drop_succ h)]
    cases hc : p c with
    | true =>
      rw [List.takeWhile_cons_of_pos hc, List.length_cons, if_pos rfl]
      congr 1
      omega
    | false =>
      rw [List.takeWhile_cons_of_neg (by simp [hc])]
      rfl

/-- Characters in front of the part that is cut off count for where it stops. -/
theorem map_shift (read : List Char) (i : Nat) (o : Option (List Char × List Char)) :
    (o.map fun cut => i + read.length + cut.1.length) =
      (o.map fun cut => (read ++ cut.1, cut.2)).map fun cut => i + cut.1.length := by
  rw [Option.map_map]
  congr 1
  funext cut
  simp only [Function.comp, List.length_append]
  omega

theorem commentStop_eq (h : source.drop i = s) :
    commentStop source i = .ok ((commentRest s).map fun cut => i + cut.1.length) := by
  induction s generalizing i with
  | nil =>
    have hle := List.drop_eq_nil_iff.1 h
    rw [commentStop, dif_neg (by omega)]
    rfl
  | cons c s ih =>
    cases s with
    | nil =>
      have hle := List.drop_eq_nil_iff.1 (drop_succ h)
      rw [commentStop, dif_neg (by omega), commentRest_cons (by simp)]
      rfl
    | cons d s =>
      rw [commentStop, dif_pos (lt_of_drop (drop_succ h)), index_of_drop h, ok_bind,
        index_of_drop (drop_succ h), ok_bind]
      by_cases hclose : c = '*' ∧ d = '/'
      · rw [if_pos hclose, hclose.1, hclose.2]
        rfl
      · have hopen : c = '*' → (d :: s).head? ≠ some '/' := by
          intro hc hd
          exact hclose ⟨hc, Option.some.inj hd⟩
        rw [if_neg hclose, ih (drop_succ h), commentRest_cons hopen]
        exact congrArg _ (map_shift [c] i _)

theorem stringStop_nil (h : source.drop i = []) : stringStop source i = none := by
  rw [stringStop]
  split
  · rfl
  · rename_i hsome
    rw [getElem?_of_drop h] at hsome
    cases hsome

theorem stringStop_cons {c : Char} (h : source.drop i = c :: s) :
    stringStop source i =
      if c = '\\' then stringStop source (i + 2)
      else if c = '"' then some (i + 1)
      else stringStop source (i + 1) := by
  rw [stringStop]
  split
  · rename_i hnone
    rw [getElem?_of_drop h] at hnone
    cases hnone
  · rename_i d hd
    rw [getElem?_of_drop h] at hd
    cases hd
    rfl

theorem stringStop_eq (h : source.drop i = s) :
    stringStop source i = (stringRest s).map fun cut => i + cut.1.length := by
  fun_induction stringRest s generalizing i with
  | case1 c cs ih =>
    have hcs : source.drop (i + 2) = cs := drop_add (s := ['\\', c]) h
    rw [stringStop_cons h, if_pos rfl, ih hcs]
    exact map_shift ['\\', c] i _
  | case2 cs =>
    rw [stringStop_cons h]
    rfl
  | case3 cs hlone =>
    -- a backslash at the end leads past the end
    have hnil : cs = [] := by
      cases cs with
      | nil => rfl
      | cons c cs => exact absurd rfl (hlone c cs rfl)
    have hle := List.drop_eq_nil_iff.1 ((drop_succ h).trans hnil)
    have hend : source.drop (i + 2) = [] := List.drop_eq_nil_of_le (by omega)
    rw [stringStop_cons h, if_pos rfl, stringStop_nil hend]
    rfl
  | case4 c cs _ hquote hslash ih =>
    rw [stringStop_cons h, if_neg hslash, if_neg (fun hc => hquote hc), ih (drop_succ h)]
    exact map_shift [c] i _
  | case5 =>
    rw [stringStop_nil h]
    rfl

theorem pathStop_nil (h : source.drop i = []) : pathStop source i = none := by
  rw [pathStop]
  split
  · rfl
  · rename_i hsome
    rw [getElem?_of_drop h] at hsome
    cases hsome

theorem pathStop_cons {c : Char} (h : source.drop i = c :: s) :
    pathStop source i =
      if c = '\n' then none
      else if c = '>' then some (i + 1)
      else pathStop source (i + 1) := by
  rw [pathStop]
  split
  · rename_i hnone
    rw [getElem?_of_drop h] at hnone
    cases hnone
  · rename_i d hd
    rw [getElem?_of_drop h] at hd
    cases hd
    rfl

theorem pathStop_eq (h : source.drop i = s) :
    pathStop source i = (pathRest s).map fun cut => i + cut.1.length := by
  fun_induction pathRest s generalizing i with
  | case1 cs =>
    rw [pathStop_cons h]
    rfl
  | case2 cs =>
    rw [pathStop_cons h]
    rfl
  | case3 c cs hclose hnewline ih =>
    rw [pathStop_cons h, if_neg hnewline, if_neg hclose, ih (drop_succ h)]
    exact map_shift [c] i _
  | case4 =>
    rw [pathStop_nil h]
    rfl

theorem signStop_eq (h : source.drop i = s) :
    ∃ sign t, s = sign ++ t ∧ (sign = [] ∨ sign = ['+'] ∨ sign = ['-']) ∧
      (sign = [] → ∀ c ∈ t.head?, c ≠ '+' ∧ c ≠ '-') ∧
      signStop source i = .ok (i + sign.length) := by
  cases s with
  | nil =>
    have hle := List.drop_eq_nil_iff.1 h
    refine ⟨[], [], rfl, .inl rfl, by simp, ?_⟩
    rw [signStop, if_neg (by omega)]
    rfl
  | cons c s =>
    have hstop : signStop source i = .ok (if c = '+' ∨ c = '-' then i + 1 else i) := by
      rw [signStop, if_pos (lt_of_drop h), index_of_drop h]
      rfl
    by_cases hc : c = '+' ∨ c = '-'
    · refine ⟨[c], s, rfl, .inr (by simpa using hc), by simp, ?_⟩
      rw [hstop, if_pos hc]
      rfl
    · refine ⟨[], c :: s, rfl, .inl rfl, by simpa [not_or] using hc, ?_⟩
      rw [hstop, if_neg hc]
      rfl

/-- No exponent begins without its letter, or where no digit follows the sign. -/
theorem not_startsExponent {e : Char} {sign t : List Char}
    (hsign : sign = [] ∨ sign = ['+'] ∨ sign = ['-'])
    (hnone : sign = [] → ∀ c ∈ t.head?, c ≠ '+' ∧ c ≠ '-')
    (h : ¬(e = 'e' ∨ e = 'E') ∨ ∀ d ∈ t.head?, isAsciiDigit d = false) :
    ¬ StartsExponent (e :: (sign ++ t)) := by
  rintro ⟨e', sign', d, t', he, hsign', hd, heq⟩
  obtain ⟨rfl, htail⟩ := List.cons.inj heq
  rcases h with h | h
  · exact h he
  · have hplus : isAsciiDigit '+' = false := rfl
    have hminus : isAsciiDigit '-' = false := rfl
    rcases hsign with rfl | rfl | rfl <;> rcases hsign' with rfl | rfl | rfl <;> grind

theorem exponentStop_eq (h : source.drop i = s) :
    exponentStop source i = .ok (i + (exponent s).1.length) := by
  cases s with
  | nil =>
    have hle := List.drop_eq_nil_iff.1 h
    rw [exponentStop, if_neg (by omega)]
    rfl
  | cons e s =>
    obtain ⟨sign, t, rfl, hsign, hnone, hstop⟩ := signStop_eq (drop_succ h)
    have ht : source.drop (i + 1 + sign.length) = t := drop_add (drop_succ h)
    rw [exponentStop, if_pos (lt_of_drop h), index_of_drop h, ok_bind, hstop, ok_bind]
    by_cases he : e = 'e' ∨ e = 'E'
    · rw [if_pos he]
      cases t with
      | nil =>
        have hle := List.drop_eq_nil_iff.1 ht
        have hnot := not_startsExponent (e := e) hsign hnone (.inr (by simp))
        rw [if_neg (by omega), exponent_of_not_starts hnot]
        rfl
      | cons d t =>
        rw [if_pos (lt_of_drop ht), index_of_drop ht, ok_bind, skip_eq _ ht]
        cases hd : isAsciiDigit d with
        | true =>
          rw [if_pos rfl, exponent_of_starts he hsign hd]
          simp only [List.length_cons, List.length_append]
          congr 1
          omega
        | false =>
          have hplain := not_startsExponent (e := e) hsign hnone (.inr (by simpa using hd))
          rw [exponent_of_not_starts hplain]
          rfl
    · rw [if_neg he, exponent_of_not_starts (not_startsExponent hsign hnone (.inl he))]
      rfl

theorem numberStop_eq (h : source.drop i = s) :
    numberStop source i = .ok (i + (number s).1.length) := by
  have hrest : source.drop (i + (s.takeWhile isMantissa).length) = s.dropWhile isMantissa :=
    drop_add (h.trans List.takeWhile_append_dropWhile.symm)
  rw [numberStop, skip_eq _ h, ok_bind, exponentStop_eq hrest, number_eq]
  simp only [cut, List.length_append]
  congr 1
  omega

end Stop

/-! ## Lexemes -/

/-- Whether a path may begin after the last token that is no comment, which has the index `last`. -/
def followsInclude (source : List Char) (found : List Mark) (last : Option Nat) : Checked Bool :=
  match last with
  | none => return false
  | some k => do
    let m ← index found k
    if m.kind = .ident then
      m.isAny source ["include", "use"]
    else
      return false

/-- Whether a path begins with the character `c`. -/
def opensPath (source : List Char) (found : List Mark) (last : Option Nat) (c : Char) :
    Checked Bool :=
  if c = '<' then followsInclude source found last else return false

/-- The kind of the name, number or punctuation that begins with the character `c` at `i`, and where
it stops. -/
def plainLexeme (source : List Char) (i : Nat) (c : Char) :
    Checked (Except LexError.Cause (Token.Kind × Nat)) :=
  if isNameStart c then do
    return .ok (.ident, ← skip isNameRest source i)
  else if isAsciiDigit c || (c == '.' && source[i + 1]?.any isAsciiDigit) then do
    return .ok (.number, ← numberStop source i)
  else do
    let rest ← slice source i source.length
    if operators.any fun op => rest.take 2 == [op.1, op.2] then
      return .ok (.punct, i + 2)
    else if punctuation.contains c then
      return .ok (.punct, i + 1)
    else
      return .error (.unexpected c)

/-- The kind of the lexeme that begins with the character `c` at `i`, and where it stops. -/
def lexeme (source : List Char) (found : List Mark) (last : Option Nat) (i : Nat) (c : Char) :
    Checked (Except LexError.Cause (Token.Kind × Nat)) :=
  if c = '/' ∧ source[i + 1]? = some '/' then do
    return .ok (.lineComment, ← skip (· != '\n') source i)
  else if c = '/' ∧ source[i + 1]? = some '*' then do
    match ← commentStop source (i + 2) with
    | some stop => return .ok (.blockComment, stop)
    | none => return .error .unterminatedComment
  else if c = '"' then
    match stringStop source (i + 1) with
    | some stop => return .ok (.str, stop)
    | none => return .error .unterminatedString
  else do
    if ← opensPath source found last c then
      match pathStop source (i + 1) with
      | some stop => return .ok (.path, stop)
      | none => return .error .unterminatedPath
    else
      plainLexeme source i c

section Lexeme

variable {source cs : List Char} {i : Nat} {c : Char}

theorem operator_of_take (c : Char) (cs : List Char) :
    (operators.any fun op => (c :: cs).take 2 == [op.1, op.2]) = true ↔
      ∃ d ∈ cs.head?, (c, d) ∈ operators := by
  cases cs with
  | nil => simp
  | cons d ds =>
    simp only [List.take_succ_cons, List.take_zero, List.any_eq_true, beq_iff_eq, List.cons.injEq,
      and_true, List.head?_cons, Option.mem_some_iff, exists_eq_left']
    constructor
    · rintro ⟨op, hop, rfl, rfl⟩
      exact hop
    · intro hop
      exact ⟨(c, d), hop, rfl, rfl⟩

theorem slice_to_end (h : source.drop i = cs) (hi : i ≤ source.length) :
    slice source i source.length = .ok cs := by
  rw [slice, if_pos ⟨hi, Nat.le_refl _⟩, List.take_length, h]

theorem plainLexeme_eq {a : Bool} (h : source.drop i = c :: cs) (hp : Plain a c cs) :
    plainLexeme source i c = .ok ((next a c cs).map fun l => (l.kind, i + l.text.length)) := by
  have hnumber : (isAsciiDigit c || (c == '.' && cs.head?.any isAsciiDigit)) =
      startsNumber (c :: cs) := rfl
  rw [plainLexeme, next_of_plain hp, getElem?_of_drop (drop_succ h), hnumber,
    slice_to_end h (Nat.le_of_lt (lt_of_drop h)), ok_bind]
  split
  · rename_i hname
    rw [skip_eq _ h, List.takeWhile_cons_of_pos (isNameRest_of_isNameStart hname)]
    rfl
  split
  · rw [numberStop_eq h]
    rfl
  · simp only [operator_of_take, List.contains_iff_mem]
    by_cases hpunct : c ∈ punctuation
    · cases cs with
      | nil => simp [hpunct, Except.map]
      | cons d ds => by_cases hop : (c, d) ∈ operators <;> simp [hpunct, hop, Except.map]
    · cases cs with
      | nil => simp [hpunct, Except.map]
      | cons d ds => by_cases hop : (c, d) ∈ operators <;> simp [hpunct, hop, Except.map]

theorem lexeme_eq {found : List Mark} {last : Option Nat} {a : Bool} (h : source.drop i = c :: cs)
    (ha : followsInclude source found last = .ok a) :
    lexeme source found last i c =
      .ok ((next a c cs).map fun l => (l.kind, i + l.text.length)) := by
  have hcs := drop_succ h
  have hpath : opensPath source found last c = .ok (decide (c = '<' ∧ a = true)) := by
    rw [opensPath, ha]
    split
    · rename_i hc
      simp [hc]
    · rename_i hc
      simp [hc]
  unfold lexeme
  rw [getElem?_of_drop hcs, hpath, ok_bind]
  split
  · rename_i hline
    rw [skip_eq _ h, next.eq_def, if_pos hline]
    rfl
  rename_i hline
  split
  · rename_i hblock
    obtain ⟨ds, rfl⟩ := List.head?_eq_some_iff.1 hblock.2
    rw [commentStop_eq (drop_succ hcs), next.eq_def, if_neg hline, if_pos hblock, List.tail_cons,
      ok_bind]
    cases commentRest ds with
    | none => rfl
    | some cut =>
      simp only [Option.map_some, pure_eq_ok, Except.map, List.length_cons]
      congr 3
      omega
  rename_i hblock
  split
  · rename_i hquote
    rw [stringStop_eq hcs, next.eq_def, if_neg hline, if_neg hblock, if_pos hquote]
    cases stringRest cs with
    | none => rfl
    | some cut =>
      simp only [Option.map_some, pure_eq_ok, Except.map, List.length_cons]
      congr 3
      omega
  rename_i hquote
  split
  · rename_i hopens
    rw [pathStop_eq hcs, next.eq_def, if_neg hline, if_neg hblock, if_neg hquote,
      if_pos (of_decide_eq_true hopens)]
    cases pathRest cs with
    | none => rfl
    | some cut =>
      simp only [Option.map_some, pure_eq_ok, Except.map, List.length_cons]
      congr 3
      omega
  · rename_i hopens
    exact plainLexeme_eq h ⟨hline, hblock, hquote, fun hc => hopens (decide_eq_true hc)⟩

end Lexeme

/-! ## All tokens -/

/-- The tokens from `i` on, after those found before, of which the one with index `last` is the last
that is no comment. -/
def marksFrom (source : List Char) :
    Nat → List Mark → Option Nat → Nat → Checked (Except LexError (List Mark))
  | 0, _, _, _ => .error .endless
  | fuel + 1, found, last, i =>
    if i < source.length then do
      let c ← index source i
      if isBlank c then
        marksFrom source fuel found last (i + 1)
      else
        match ← lexeme source found last i c with
        | .error cause => return .error ⟨i, cause⟩
        | .ok (kind, stop) =>
          let m : Mark := ⟨kind, i, stop⟩
          let last := if m.isComment then last else some found.length
          marksFrom source fuel (found ++ [m]) last stop
    else
      return .ok found

/-- The tokens of a source by kind and extent, or the first lexeme that cannot be read. -/
def marks (source : List Char) : Checked (Except LexError (List Mark)) :=
  marksFrom source (source.length + 1) [] none 0

section Loop

variable {source : List Char}

theorem marksFrom_gap {gap s : List Char} {i : Nat} (hg : ∀ c ∈ gap, isBlank c = true)
    (h : source.drop i = gap ++ s) (fuel : Nat) (found : List Mark) (last : Option Nat) :
    marksFrom source (fuel + gap.length) found last i =
      marksFrom source fuel found last (i + gap.length) := by
  induction gap generalizing i with
  | nil => rfl
  | cons c gap ih =>
    obtain ⟨hc, hg⟩ := List.forall_mem_cons.1 hg
    rw [List.length_cons, ← Nat.add_assoc, marksFrom, if_pos (lt_of_drop h), index_of_drop h,
      ok_bind,
      if_pos hc, ih hg (drop_succ h), Nat.add_right_comm i 1, Nat.add_assoc]

/-- Among the tokens found, `last` is the index of the one that decides whether a path may follow.
-/
structure Follows (source : List Char) (before : List Token) (last : Option Nat) (a : Bool) :
    Prop where
  none : last = none → a = false
  some : ∀ k, last = some k → ∃ t, before[k]? = some t ∧ t.Stands source ∧
    a = (t.kind == .ident && t.isAny ["include", "use"])

theorem followsInclude_eq {before : List Token} {last : Option Nat} {a : Bool}
    (h : Follows source before last a) :
    followsInclude source (before.map Token.mark) last = .ok a := by
  cases last with
  | none =>
    rw [h.none rfl]
    rfl
  | some k =>
    obtain ⟨t, ht, hstands, rfl⟩ := h.some k rfl
    have hmark : (before.map Token.mark)[k]? = some t.mark := by
      rw [List.getElem?_map, ht]
      rfl
    rw [followsInclude, index_of_getElem? hmark, ok_bind, Token.isAny_mark hstands]
    by_cases hk : t.kind = .ident
    · rw [if_pos (show t.mark.kind = .ident from hk)]
      simp [hk]
    · rw [if_neg (show ¬ t.mark.kind = .ident from hk)]
      simp [hk]

theorem Follows.snoc {before : List Token} {last : Option Nat} {a : Bool}
    (h : Follows source before last a) {t : Token} (ht : t.Stands source) :
    Follows source (before ++ [t]) (if t.isComment then last else .some before.length)
      (t.opensPath a) := by
  cases hc : t.isComment with
  | true =>
    rw [if_pos rfl, Token.opensPath, hc, if_pos rfl]
    refine ⟨h.none, fun k hk => ?_⟩
    obtain ⟨u, hu, hrest⟩ := h.some k hk
    exact ⟨u, List.getElem?_append_left (List.getElem?_eq_some_iff.1 hu).1 ▸ hu, hrest⟩
  | false =>
    rw [if_neg Bool.false_ne_true, Token.opensPath, hc, if_neg Bool.false_ne_true]
    refine ⟨fun hnone => (by cases hnone), fun k hk => ?_⟩
    obtain rfl := Option.some.inj hk
    exact ⟨t, List.getElem?_concat_length, ht, rfl⟩

/-- One round of the loop: the blanks, and the lexeme behind them. -/
theorem marksFrom_lexeme {a : Bool} {i : Nat} {s cs : List Char} {c : Char} {fuel : Nat}
    {before : List Token} {last : Option Nat} (h : source.drop i = s) (hfuel : s.length < fuel)
    (hs : s.dropWhile isBlank = c :: cs) (hf : Follows source before last a) :
    ∃ n, cs.length < n ∧
      marksFrom source fuel (before.map Token.mark) last i =
        match next a c cs with
        | .error cause => .ok (.error ⟨i + (s.takeWhile isBlank).length, cause⟩)
        | .ok l =>
          let t : Token := ⟨l.kind, i + (s.takeWhile isBlank).length, s.takeWhile isBlank, l.text⟩
          marksFrom source n ((before ++ [t]).map Token.mark)
            (if t.isComment then last else some before.length) t.stop := by
  obtain ⟨hg, hc, hcut⟩ := split_of_dropWhile hs
  have hdrop : source.drop (i + (s.takeWhile isBlank).length) = c :: cs :=
    drop_add (h.trans hcut.symm)
  have hlength := congrArg List.length hcut
  rw [List.length_append, List.length_cons] at hlength
  obtain ⟨n, rfl⟩ : ∃ n, fuel = n + 1 + (s.takeWhile isBlank).length :=
    ⟨fuel - 1 - (s.takeWhile isBlank).length, by omega⟩
  refine ⟨n, by omega, ?_⟩
  rw [marksFrom_gap hg (h.trans hcut.symm), marksFrom, if_pos (lt_of_drop hdrop),
    index_of_drop hdrop, ok_bind, if_neg (by simp [hc]), lexeme_eq hdrop (followsInclude_eq hf),
    ok_bind]
  cases next a c cs with
  | error cause => rfl
  | ok l =>
    simp only [Except.map, List.map_append, List.map_cons, List.map_nil, List.length_map]
    rfl

theorem marksFrom_eq {a : Bool} {i : Nat} {s : List Char} {fuel : Nat} {before : List Token}
    {last : Option Nat} (h : source.drop i = s) (hfuel : s.length < fuel)
    (hf : Follows source before last a) :
    marksFrom source fuel (before.map Token.mark) last i =
      .ok ((tokenizeFrom a i s).map fun ts => (before ++ ts).map Token.mark) := by
  fun_induction tokenizeFrom a i s generalizing fuel before last with
  | case1 a i s hs =>
    have hend : source.drop (i + s.length) = [] := drop_add (h.trans (List.append_nil s).symm)
    have hle := List.drop_eq_nil_iff.1 hend
    obtain ⟨n, rfl⟩ := Nat.exists_eq_add_of_lt hfuel
    rw [Nat.add_comm s.length, Nat.add_right_comm,
      marksFrom_gap (List.dropWhile_eq_nil_iff.1 hs) (h.trans (List.append_nil s).symm),
      marksFrom, if_neg (by omega)]
    simp [Except.map]
  | case2 a i s c cs hs gap cause =>
    rename_i hn
    obtain ⟨n, -, hstep⟩ := marksFrom_lexeme h hfuel hs hf
    rw [hstep, hn]
    rfl
  | case3 a i s c cs hs gap l =>
    rename_i hl t opens ih
    have hopens : opens = t.opensPath a := by simp only [opens, Token.opensPath, dite_eq_ite]
    obtain ⟨n, hn, hstep⟩ := marksFrom_lexeme h hfuel hs hf
    obtain ⟨-, -, hcut⟩ := split_of_dropWhile hs
    have hdrop : source.drop t.start = t.text ++ l.rest :=
      (drop_add (h.trans hcut.symm)).trans (next_append hl).symm
    have hlt := lt_of_drop (hdrop.trans (next_append hl))
    have hstands : t.Stands source := by
      refine ⟨source.take t.start, l.rest, ?_, ?_⟩
      · rw [List.append_assoc, ← hdrop, List.take_append_drop]
      · rw [List.length_take]
        omega
    have hrest : source.drop t.stop = l.rest := drop_add hdrop
    have hlength : l.rest.length < n := by
      have hlen := next_rest_length hl
      rw [List.length_cons] at hlen
      omega
    rw [hopens] at ih
    rw [hstep, hl, hopens]
    have hfollows := hf.snoc hstands
    have hmarks := ih hrest hlength hfollows
    refine hmarks.trans ?_
    cases tokenizeFrom (t.opensPath a) t.stop l.rest with
    | error e => rfl
    | ok ts => simp [Except.map]

end Loop

/-- No access fails, and the tokens are those of the source. -/
theorem marks_eq (source : List Char) :
    marks source = .ok ((tokenize source).map (List.map Token.mark)) := by
  have hf : Follows source [] none false := ⟨fun _ => rfl, fun k hk => by cases hk⟩
  exact marksFrom_eq rfl (Nat.lt_succ_self _) hf

end Checked
end Scad
