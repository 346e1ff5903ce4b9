import Scad.Proofs.Token.Reads

/-!
# Scad.Proofs.Checked.Access

Reading a source by offsets alone. A token is known by where it starts and where it stops, its text
is looked up in the source, and what is looked up has to be there: an index or a slice out of bounds
and a difference below zero end the computation.

* `Checked`: computations that may end so, with the `Misuse` that ends them.
* `Checked.index`, `Checked.slice`, `Checked.minus`, `Checked.update`: the accesses.
* `Mark`: a token without its text, which `Mark.text` looks up.
* `Token.Stands`: the text of a token is in the source where it starts. Tokens that were read stand
  in their source (`Token.stands_of_written`), and looking up their texts does not fail.
-/

namespace Scad

/-- An access to what is not there. -/
inductive Misuse where
  | index (i length : Nat)
  | slice (start stop length : Nat)
  | minus (a b : Nat)
  /-- A loop that has not ended when it should have. -/
  | endless
  deriving DecidableEq, Repr

/-- A computation that ends at the first access to what is not there. -/
abbrev Checked := Except Misuse

namespace Checked

@[simp] theorem ok_bind {α β : Type} (a : α) (f : α → Checked β) : (.ok a >>= f) = f a := rfl

@[simp] theorem pure_eq_ok {α : Type} (a : α) : (pure a : Checked α) = .ok a := rfl

variable {α : Type}

def index (xs : List α) (i : Nat) : Checked α :=
  match xs[i]? with
  | some x => .ok x
  | none => .error (.index i xs.length)

/-- The elements from index `start` up to index `stop`, which does not belong to them. -/
def slice (xs : List α) (start stop : Nat) : Checked (List α) :=
  if start ≤ stop ∧ stop ≤ xs.length then .ok ((xs.take stop).drop start)
  else .error (.slice start stop xs.length)

def minus (a b : Nat) : Checked Nat := if b ≤ a then .ok (a - b) else .error (.minus a b)

def update (xs : List α) (i : Nat) (f : α → α) : Checked (List α) := do
  let x ← index xs i
  return xs.set i (f x)

theorem index_of_getElem? {xs : List α} {i : Nat} {x : α} (h : xs[i]? = some x) :
    index xs i = .ok x := by
  rw [index, h]

theorem index_of_drop {xs ys : List α} {i : Nat} {x : α} (h : xs.drop i = x :: ys) :
    index xs i = .ok x := by
  refine index_of_getElem? ?_
  rw [← List.head?_drop, h, List.head?_cons]

theorem slice_append (before xs after : List α) {start stop : Nat} (hstart : start = before.length)
    (hstop : stop = start + xs.length) : slice (before ++ xs ++ after) start stop = .ok xs := by
  have hlen : stop = (before ++ xs).length := by
    rw [hstop, hstart, List.length_append]
  have htotal : (before ++ xs ++ after).length = (before ++ xs).length + after.length :=
    List.length_append
  have hbounds : start ≤ stop ∧ stop ≤ (before ++ xs ++ after).length := by omega
  rw [slice, if_pos hbounds, hlen, List.take_left, hstart, List.drop_left]

theorem slice_take (xs : List α) {n : Nat} (h : n ≤ xs.length) :
    slice xs 0 n = .ok (xs.take n) := by
  rw [slice, if_pos ⟨Nat.zero_le n, h⟩]
  rfl

theorem minus_of_le {a b : Nat} (h : b ≤ a) : minus a b = .ok (a - b) := if_pos h

theorem update_of_getElem? {xs : List α} {i : Nat} {x : α} (h : xs[i]? = some x) (f : α → α) :
    update xs i f = .ok (xs.set i (f x)) := by
  rw [update, index_of_getElem? h]
  rfl

theorem mapM_of_forall {β : Type} {f : α → Checked β} {g : α → β} {as : List α}
    (h : ∀ a ∈ as, f a = .ok (g a)) : as.mapM f = .ok (as.map g) := by
  induction as with
  | nil => rfl
  | cons a as ih =>
    obtain ⟨ha, has⟩ := List.forall_mem_cons.1 h
    rw [List.mapM_cons, ha, ok_bind, ih has]
    rfl

end Checked

open Checked

/-! ## Tokens without their texts -/

/-- The kind of a token, and where it starts and stops. -/
structure Mark where
  kind : Token.Kind
  start : Nat
  stop : Nat
  deriving DecidableEq, Repr

namespace Mark

def isComment (m : Mark) : Bool := m.kind == .lineComment || m.kind == .blockComment

def text (source : List Char) (m : Mark) : Checked (List Char) := slice source m.start m.stop

def is (source : List Char) (m : Mark) (s : String) : Checked Bool := do
  let length ← minus m.stop m.start
  if length = s.length then
    return (← slice source m.start m.stop) == s.toList
  else
    return false

def isAny (source : List Char) (m : Mark) : List String → Checked Bool
  | [] => return false
  | s :: ss => do
    if ← m.is source s then
      return true
    else
      m.isAny source ss

end Mark

namespace Token

def mark (t : Token) : Mark := ⟨t.kind, t.start, t.stop⟩

@[simp] theorem kind_mark (t : Token) : t.mark.kind = t.kind := rfl

@[simp] theorem start_mark (t : Token) : t.mark.start = t.start := rfl

@[simp] theorem stop_mark (t : Token) : t.mark.stop = t.stop := rfl

@[simp] theorem isComment_mark (t : Token) : t.mark.isComment = t.isComment := rfl

/-- The text of the token is in the source where the token starts. -/
def Stands (source : List Char) (t : Token) : Prop :=
  ∃ before after, source = before ++ t.text ++ after ∧ before.length = t.start

variable {source : List Char} {t : Token}

theorem Stands.stop_le (h : t.Stands source) : t.stop ≤ source.length := by
  obtain ⟨before, after, rfl, hstart⟩ := h
  simp only [stop, List.length_append]
  omega

/-- A part of the text of a token can be looked up. -/
theorem Stands.slice (h : t.Stands source) {a b c : List Char} (ht : t.text = a ++ b ++ c)
    {start stop : Nat} (hstart : start = t.start + a.length) (hstop : stop = start + b.length) :
    slice source start stop = .ok b := by
  obtain ⟨before, after, rfl, hbefore⟩ := h
  have hsplit : before ++ t.text ++ after = (before ++ a) ++ b ++ (c ++ after) := by
    rw [ht]
    simp only [List.append_assoc]
  rw [hsplit]
  exact slice_append _ _ _ (by rw [hstart, List.length_append, hbefore]) hstop

theorem text_mark (h : t.Stands source) : t.mark.text source = .ok t.text :=
  h.slice (a := []) (c := []) (by simp) rfl rfl

theorem minus_mark (t : Token) : minus t.mark.stop t.mark.start = .ok t.text.length := by
  have hstop : t.mark.stop = t.mark.start + t.text.length := rfl
  rw [hstop, minus_of_le (Nat.le_add_right _ _), Nat.add_sub_cancel_left]

theorem is_mark (h : t.Stands source) (s : String) : t.mark.is source s = .ok (t.is s) := by
  have htext : Checked.slice source t.mark.start t.mark.stop = .ok t.text := text_mark h
  rw [Mark.is, minus_mark, ok_bind]
  split
  · rw [htext]
    rfl
  · rename_i hne
    have hfalse : t.is s = false := by
      rw [is, beq_eq_false_iff_ne]
      intro heq
      exact hne (by rw [heq, String.length_toList])
    rw [hfalse]
    rfl

theorem isAny_mark (h : t.Stands source) (ss : List String) :
    t.mark.isAny source ss = .ok (t.isAny ss) := by
  induction ss with
  | nil => rfl
  | cons s ss ih =>
    rw [Mark.isAny, is_mark h, ok_bind, ih]
    cases hs : t.is s with
    | true => simp [isAny, hs]
    | false => simp [isAny, hs]

/-- Tokens that were read stand in the text they were read from. -/
theorem stands_of_written {tail : List Char} {ts : List Token} (hw : Written 0 tail ts)
    (ht : t ∈ ts) : t.Stands (spell ts ++ tail) := by
  obtain ⟨before, after, htext, hstart⟩ := text_of_written hw ht
  exact ⟨before, after, htext, by omega⟩

end Token
end Scad
