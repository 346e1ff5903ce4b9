import Scad.FilePath

/-!
# Scad.Proofs.FilePath

Paths are the same if they have the same components, whether these are in normal form or not. In
the lexical normal form a path has no `.`, and no `..` after a name or the root.

* `FilePath.normal`: the normal form of the components of a path.
* `FilePath.normal_eq_self_iff`: an absolute path is in normal form if and only if it has no `..`.
-/

namespace Scad
namespace FilePath

theorem same_iff {p q : FilePath} : p.same q = true ↔ p.components = q.components := beq_iff_eq

/-! ## Normal forms -/

/-- A component after those of a path in normal form, which are given last one first. -/
def push : List Component → Component → List Component
  | before, .current => before
  | .name _ :: before, .up => before
  | .root :: before, .up => .root :: before
  | before, c => c :: before

/-- The components of a path in normal form. -/
def normal (cs : List Component) : List Component := (cs.foldl push []).reverse

theorem push_of_plain {c : Component} (hup : c ≠ .up) (hcurrent : c ≠ .current)
    (before : List Component) : push before c = c :: before := by
  cases c with
  | up => exact absurd rfl hup
  | current => exact absurd rfl hcurrent
  | root => cases before <;> rfl
  | name n => cases before <;> rfl

theorem foldl_push_of_plain {cs : List Component} (hup : .up ∉ cs) (hcurrent : .current ∉ cs)
    (before : List Component) : cs.foldl push before = cs.reverse ++ before := by
  induction cs generalizing before with
  | nil => rfl
  | cons c cs ih =>
    rw [List.mem_cons, not_or] at hup hcurrent
    rw [List.foldl_cons, push_of_plain (Ne.symm hup.1) (Ne.symm hcurrent.1), ih hup.2 hcurrent.2,
      List.reverse_cons, List.append_assoc, List.singleton_append]

/-- The components, last one first, are names below the root. -/
inductive Below : List Component → Prop where
  | root : Below [.root]
  | name (n : List UInt8) {before : List Component} : Below before → Below (.name n :: before)

theorem Below.up_not_mem {before : List Component} (h : Below before) : .up ∉ before := by
  induction h with
  | root => simp
  | name n _ ih => simpa using ih

/-- Below the root a `..` takes a name away, or it stays at the root. -/
theorem Below.push {before : List Component} (h : Below before) {s : List UInt8} {c : Component}
    (hc : component? s = some c) : Below (push before c) := by
  unfold component? at hc
  split at hc
  · cases hc
  · split at hc
    · cases hc
      cases h with
      | root => exact .root
      | name n hbefore => exact hbefore
    · cases hc
      rw [push_of_plain (by simp) (by simp)]
      exact h.name s

theorem Below.foldl_push {before : List Component} (h : Below before)
    (pieces : List (List UInt8)) :
    Below ((pieces.filterMap component?).foldl FilePath.push before) := by
  induction pieces generalizing before with
  | nil => exact h
  | cons s pieces ih =>
    cases hc : component? s with
    | none => simpa [hc] using ih h
    | some c => simpa [hc] using ih (h.push hc)

theorem current_not_mem (pieces : List (List UInt8)) :
    .current ∉ pieces.filterMap component? := by
  intro h
  obtain ⟨s, -, hs⟩ := List.mem_filterMap.1 h
  unfold component? at hs
  split at hs
  · cases hs
  · split at hs <;> cases hs

theorem normal_eq_self_iff {p : FilePath} (h : p.isAbsolute = true) :
    normal p.components = p.components ↔ .up ∉ p.components := by
  have hcomponents : p.components = .root :: (segments p.bytes).filterMap component? := by
    simp only [components, h, if_true]
  rw [hcomponents]
  constructor
  · intro hnormal hmem
    rw [← hnormal, normal, List.mem_reverse] at hmem
    exact (Below.root.foldl_push _).up_not_mem hmem
  · intro hup
    have hcurrent := current_not_mem (segments p.bytes)
    rw [normal, foldl_push_of_plain hup (by simpa using hcurrent), List.append_nil,
      List.reverse_reverse]

end FilePath
end Scad
