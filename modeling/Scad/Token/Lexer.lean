import Scad.Text.Blank
import Scad.Text.Letter
import Scad.Token

/-!
# Scad.Token.Lexer

From source text to tokens. Blanks separate tokens and are kept as the gap before the next one; at
every other character exactly one lexeme begins, and `Lexeme.next` cuts it off.

* `Lexeme.next`: the kind and text of the lexeme at the head of a text, and what follows it. The
  order of its cases is the order of preference where two of them could begin.
* `tokenize`: all tokens of a source, or the first failure with the offset where its lexeme begins.

`<` begins a path only where the last token that is not a comment is the identifier `include` or
`use`; `Lexeme.next` is told so by its first argument.
-/

namespace Scad

/-- Why a text has no lexeme at some offset. -/
inductive LexError.Cause where
  | unterminatedComment
  | unterminatedString
  | unterminatedPath
  | unexpected (c : Char)
  deriving DecidableEq, Repr

/-- A failure to read the lexeme that begins at `offset`. -/
structure LexError where
  offset : Nat
  cause : LexError.Cause
  deriving DecidableEq, Repr

namespace LexError

/-- The text shown for a failure. -/
def Cause.message : Cause → String
  | .unterminatedComment => "Unterminated block comment"
  | .unterminatedString => "Unterminated string literal"
  | .unterminatedPath => "Unterminated include path"
  | .unexpected c => "Unexpected character '" ++ String.singleton c ++ "'"

/-- The text shown for a failure. -/
def message (e : LexError) : String := e.cause.message

end LexError

namespace Lexeme

open Text

/-- Characters that may begin a name. -/
def isNameStart (c : Char) : Bool := isLetter c || c == '_' || c == '$'

/-- Characters that may continue a name. -/
def isNameRest (c : Char) : Bool := isAlphanumeric c || c == '_' || c == '$'

/-- The operators of two characters. -/
def operators : List (Char × Char) :=
  [('=', '='), ('!', '='), ('<', '='), ('>', '='), ('&', '&'), ('|', '|')]

/-- The punctuation of one character. -/
def punctuation : List Char :=
  ['(', ')', '{', '}', '[', ']', ';', ',', '=', '<', '>', '!', '+', '-', '*', '/', '%', '^', '?',
    ':', '.', '#', '&', '|', '~']

/-- The rest of a block comment up to its `*/`, and what follows. -/
def commentRest : List Char → Option (List Char × List Char)
  | '*' :: '/' :: cs => some (['*', '/'], cs)
  | c :: cs => (commentRest cs).map fun (body, rest) => (c :: body, rest)
  | [] => none

/-- The rest of a string up to its closing quote, and what follows. A backslash takes the next
character with it. -/
def stringRest : List Char → Option (List Char × List Char)
  | '\\' :: c :: cs => (stringRest cs).map fun (body, rest) => ('\\' :: c :: body, rest)
  | '"' :: cs => some (['"'], cs)
  | c :: cs => if c = '\\' then none else (stringRest cs).map fun (body, rest) => (c :: body, rest)
  | [] => none

/-- The rest of a path up to its `>`, which must stand on the same line, and what follows. -/
def pathRest : List Char → Option (List Char × List Char)
  | '>' :: cs => some (['>'], cs)
  | c :: cs => if c = '\n' then none else (pathRest cs).map fun (body, rest) => (c :: body, rest)
  | [] => none

/-- A text cut at the end of its longest beginning in which every character satisfies `p`. -/
def cut (p : Char → Bool) (s : List Char) : List Char × List Char := (s.takeWhile p, s.dropWhile p)

/-- The exponent at the head of a text, if there is a whole one: a mark, an optional sign and at
least one digit. -/
def exponent : List Char → List Char × List Char
  | e :: s :: d :: cs =>
    if (e == 'e' || e == 'E') && (s == '+' || s == '-') && isAsciiDigit d then
      let (digits, rest) := cut isAsciiDigit (d :: cs)
      (e :: s :: digits, rest)
    else if (e == 'e' || e == 'E') && isAsciiDigit s then
      let (digits, rest) := cut isAsciiDigit (s :: d :: cs)
      (e :: digits, rest)
    else ([], e :: s :: d :: cs)
  | [e, d] => if (e == 'e' || e == 'E') && isAsciiDigit d then ([e, d], []) else ([], [e, d])
  | cs => ([], cs)

/-- A number: digits and points in any mixture, then an exponent if one follows. -/
def number (s : List Char) : List Char × List Char :=
  let (mantissa, rest) := cut (fun c => isAsciiDigit c || c == '.') s
  let (power, rest) := exponent rest
  (mantissa ++ power, rest)

/-- Whether a number begins here: a digit, or a point before a digit. -/
def startsNumber : List Char → Bool
  | c :: cs => isAsciiDigit c || (c == '.' && cs.head?.any isAsciiDigit)
  | [] => false

/-- A piece of source: its kind, its text and what follows. -/
structure Cut where
  kind : Token.Kind
  text : List Char
  rest : List Char
  deriving DecidableEq, Repr

/-- The lexeme at the head of a text that begins with a character other than a blank. `afterInclude`
says that `<` begins a path here. -/
def next (afterInclude : Bool) (c : Char) (cs : List Char) : Except LexError.Cause Cut :=
  if c = '/' ∧ cs.head? = some '/' then
    .ok ⟨.lineComment, (c :: cs).takeWhile (· != '\n'), (c :: cs).dropWhile (· != '\n')⟩
  else if c = '/' ∧ cs.head? = some '*' then
    match commentRest cs.tail with
    | some (body, rest) => .ok ⟨.blockComment, c :: '*' :: body, rest⟩
    | none => .error .unterminatedComment
  else if c = '"' then
    match stringRest cs with
    | some (body, rest) => .ok ⟨.str, c :: body, rest⟩
    | none => .error .unterminatedString
  else if c = '<' ∧ afterInclude = true then
    match pathRest cs with
    | some (body, rest) => .ok ⟨.path, c :: body, rest⟩
    | none => .error .unterminatedPath
  else if isNameStart c then
    .ok ⟨.ident, c :: cs.takeWhile isNameRest, cs.dropWhile isNameRest⟩
  else if startsNumber (c :: cs) then
    let (text, rest) := number (c :: cs)
    .ok ⟨.number, text, rest⟩
  else
    match cs with
    | d :: ds =>
      if operators.contains (c, d) then .ok ⟨.punct, [c, d], ds⟩
      else if punctuation.contains c then .ok ⟨.punct, [c], d :: ds⟩
      else .error (.unexpected c)
    | [] => if punctuation.contains c then .ok ⟨.punct, [c], []⟩ else .error (.unexpected c)

/-! ## A lexeme and what follows it are the text -/

theorem commentRest_append {s body rest : List Char} (h : commentRest s = some (body, rest)) :
    body ++ rest = s := by
  fun_induction commentRest s generalizing body rest with
  | case1 cs => cases h; rfl
  | case2 c cs _ ih =>
    obtain ⟨⟨b, r⟩, hb, he⟩ := Option.map_eq_some_iff.1 h
    cases he
    simp [ih hb]
  | case3 => simp at h

theorem stringRest_append {s body rest : List Char} (h : stringRest s = some (body, rest)) :
    body ++ rest = s := by
  fun_induction stringRest s generalizing body rest with
  | case1 c cs ih =>
    obtain ⟨⟨b, r⟩, hb, he⟩ := Option.map_eq_some_iff.1 h
    cases he
    simp [ih hb]
  | case2 cs => cases h; rfl
  | case3 => simp at h
  | case4 c cs _ _ _ ih =>
    obtain ⟨⟨b, r⟩, hb, he⟩ := Option.map_eq_some_iff.1 h
    cases he
    simp [ih hb]
  | case5 => simp at h

theorem pathRest_append {s body rest : List Char} (h : pathRest s = some (body, rest)) :
    body ++ rest = s := by
  fun_induction pathRest s generalizing body rest with
  | case1 cs => cases h; rfl
  | case2 => simp at h
  | case3 c cs _ _ ih =>
    obtain ⟨⟨b, r⟩, hb, he⟩ := Option.map_eq_some_iff.1 h
    cases he
    simp [ih hb]
  | case4 => simp at h

theorem cut_append (p : Char → Bool) (s : List Char) : (cut p s).1 ++ (cut p s).2 = s :=
  List.takeWhile_append_dropWhile

theorem exponent_append (s : List Char) : (exponent s).1 ++ (exponent s).2 = s := by
  unfold exponent
  split
  · split
    · simp [cut]
    · split <;> simp [cut]
  · split <;> simp
  · simp

theorem number_append (s : List Char) : (number s).1 ++ (number s).2 = s := by
  simp only [number, List.append_assoc]
  rw [exponent_append, cut_append]

theorem number_ne_nil {s : List Char} (h : startsNumber s = true) : (number s).1 ≠ [] := by
  cases s with
  | nil => simp [startsNumber] at h
  | cons c cs =>
    have hc : (isAsciiDigit c || c == '.') = true := by
      simp only [startsNumber, Bool.or_eq_true, Bool.and_eq_true] at h
      simp only [Bool.or_eq_true]
      exact h.imp id And.left
    simp [number, cut, hc]

/-- The lexeme followed by the rest is the text. -/
theorem next_append {a : Bool} {c : Char} {cs : List Char} {l : Cut} (h : next a c cs = .ok l) :
    l.text ++ l.rest = c :: cs := by
  unfold next at h
  split at h
  · cases h; exact List.takeWhile_append_dropWhile
  split at h
  · rename_i hc
    split at h <;> cases h
    rename_i hb
    cases cs with
    | nil => simp at hc
    | cons d ds => simp_all [commentRest_append hb]
  split at h
  · split at h <;> cases h
    rename_i hb
    simp [stringRest_append hb]
  split at h
  · split at h <;> cases h
    rename_i hb
    simp [pathRest_append hb]
  split at h
  · cases h; simp
  split at h
  · cases h; exact number_append _
  · split at h
    · split at h
      · cases h; rfl
      · split at h <;> cases h
        rfl
    · split at h <;> cases h
      rfl

/-- A lexeme is never empty. -/
theorem next_text_ne_nil {a : Bool} {c : Char} {cs : List Char} {l : Cut}
    (h : next a c cs = .ok l) : l.text ≠ [] := by
  unfold next at h
  split at h
  · rename_i hc; cases h; simp [hc.1]
  split at h
  · split at h <;> cases h
    simp
  split at h
  · split at h <;> cases h
    simp
  split at h
  · split at h <;> cases h
    simp
  split at h
  · cases h; simp
  split at h
  · rename_i hn; cases h; exact number_ne_nil hn
  · split at h
    · split at h
      · cases h; simp
      · split at h <;> cases h
        simp
    · split at h <;> cases h
      simp

/-- Cutting off a lexeme leaves a shorter text. -/
theorem next_rest_length {a : Bool} {c : Char} {cs : List Char} {l : Cut}
    (h : next a c cs = .ok l) : l.rest.length < (c :: cs).length := by
  have h1 := congrArg List.length (next_append h)
  have h2 := List.length_pos_iff.2 (next_text_ne_nil h)
  simp only [List.length_append] at h1
  omega

end Lexeme

open Lexeme in
/-- The tokens of `s`, whose first character has offset `offset` in the source. -/
def tokenizeFrom (afterInclude : Bool) (offset : Nat) (s : List Char) :
    Except LexError (List Token) :=
  match _h : s.dropWhile Text.isBlank with
  | [] => .ok []
  | c :: cs =>
    let gap := s.takeWhile Text.isBlank
    match _hl : next afterInclude c cs with
    | .error cause => .error ⟨offset + gap.length, cause⟩
    | .ok l =>
      let t : Token := ⟨l.kind, offset + gap.length, gap, l.text⟩
      let opensPath :=
        if t.isComment then afterInclude else t.kind == .ident && t.isAny ["include", "use"]
      (tokenizeFrom opensPath t.stop l.rest).map (t :: ·)
termination_by s.length
decreasing_by
  have h1 := next_rest_length _hl
  have h2 := (List.dropWhile_sublist Text.isBlank (l := s)).length_le
  rw [_h] at h2
  omega

/-- The tokens of a source in order, or the first lexeme that cannot be read. -/
def tokenize (source : List Char) : Except LexError (List Token) := tokenizeFrom false 0 source

end Scad
