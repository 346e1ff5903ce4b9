import Scad.Analysis

/-!
# Scad.Proofs.Forest

Members of a forest at any depth.

* `Occurs children a as`: `a` is one of `as`, or stands below one of them.
* `Occurs.map`: replacing every member by a function replaces the members at every depth.
* `Declaration.occurs_visible`: what is in scope somewhere in a file stands in its forest.
-/

namespace Scad

/-- The tree `a` stands in the forest `as`, at any depth. -/
inductive Occurs {α : Type} (children : α → List α) (a : α) : List α → Prop where
  | here {as : List α} : a ∈ as → Occurs children a as
  | under {b : α} {as : List α} : b ∈ as → Occurs children a (children b) → Occurs children a as

namespace Occurs

variable {α β : Type} {children : α → List α}

theorem mono {a : α} {as bs : List α} (h : Occurs children a as) (hs : as ⊆ bs) :
    Occurs children a bs := by
  cases h with
  | here hm => exact .here (hs hm)
  | under hm hb => exact .under (hs hm) hb

theorem child {a b : α} {as : List α} (h : Occurs children a as) (hb : b ∈ children a) :
    Occurs children b as := by
  induction h with
  | here hm => exact .under hm (.here hb)
  | under hm _ ih => exact .under hm ih

theorem append {a : α} {as bs : List α} (h : Occurs children a (as ++ bs)) :
    Occurs children a as ∨ Occurs children a bs := by
  cases h with
  | here hm =>
    rcases List.mem_append.1 hm with hm | hm
    · exact .inl (.here hm)
    · exact .inr (.here hm)
  | under hm hb =>
    rcases List.mem_append.1 hm with hm | hm
    · exact .inl (.under hm hb)
    · exact .inr (.under hm hb)

theorem singleton {a b : α} (h : Occurs children a [b]) :
    a = b ∨ Occurs children a (children b) := by
  cases h with
  | here hm => exact .inl (List.mem_singleton.1 hm)
  | under hm hb => exact .inr (List.mem_singleton.1 hm ▸ hb)

theorem nil {a : α} : ¬ Occurs children a [] := by
  intro h
  cases h with
  | here hm => cases hm
  | under hm _ => cases hm

/-- The members of a forest whose members were replaced are the replaced members. -/
theorem map {children' : β → List β} {f : α → β}
    (hf : ∀ a, children' (f a) = (children a).map f) {b : β} {as : List α}
    (h : Occurs children' b (as.map f)) : ∃ a, Occurs children a as ∧ f a = b := by
  generalize hbs : as.map f = bs at h
  induction h generalizing as with
  | here hm =>
    subst hbs
    obtain ⟨a, ha, rfl⟩ := List.mem_map.1 hm
    exact ⟨a, .here ha, rfl⟩
  | under hm _ ih =>
    subst hbs
    obtain ⟨c, hc, rfl⟩ := List.mem_map.1 hm
    obtain ⟨a, ha, rfl⟩ := ih (hf c).symm
    exact ⟨a, .under hc ha, rfl⟩

end Occurs

namespace Declaration

theorem mapAll_eq_map {P Q : Type} (f : P → Q) (ds : List (Declaration P)) :
    mapAll f ds = ds.map (map f) := by
  induction ds with
  | nil => rfl
  | cons d ds ih => rw [mapAll, ih, List.map_cons]

@[simp] theorem children_map {P Q : Type} (f : P → Q) (d : Declaration P) :
    (d.map f).children = d.children.map (map f) := by
  cases d with
  | mk name kind span nameSpan doc children => exact mapAll_eq_map f children

@[simp] theorem name_map {P Q : Type} (f : P → Q) (d : Declaration P) :
    (d.map f).name = d.name := by
  cases d; rfl

@[simp] theorem kind_map {P Q : Type} (f : P → Q) (d : Declaration P) :
    (d.map f).kind = d.kind := by
  cases d; rfl

@[simp] theorem span_map {P Q : Type} (f : P → Q) (d : Declaration P) :
    (d.map f).span = d.span.map f := by
  cases d; rfl

@[simp] theorem nameSpan_map {P Q : Type} (f : P → Q) (d : Declaration P) :
    (d.map f).nameSpan = d.nameSpan.map f := by
  cases d; rfl

mutual

theorem map_map {P Q R : Type} (f : P → Q) (g : Q → R) :
    ∀ d : Declaration P, (d.map f).map g = d.map (g ∘ f)
  | ⟨_, _, _, _, _, ds⟩ => by
    simp only [map, Span.map, Function.comp_apply]
    rw [mapAll_mapAll f g ds]

theorem mapAll_mapAll {P Q R : Type} (f : P → Q) (g : Q → R) :
    ∀ ds : List (Declaration P), mapAll g (mapAll f ds) = mapAll (g ∘ f) ds
  | [] => rfl
  | d :: ds => by
    simp only [mapAll]
    rw [map_map f g d, mapAll_mapAll f g ds]

end

mutual

theorem occurs_scope {offset : Nat} {e : Declaration Place} :
    ∀ d : Declaration Place, e ∈ d.scope offset → Occurs children e d.children
  | ⟨_, _, _, _, _, ds⟩ => by
    intro h
    rw [scope] at h
    rcases List.mem_append.1 h with h | h
    · exact occurs_enclosed ds h
    · exact .here h

theorem occurs_enclosed {offset : Nat} {e : Declaration Place} :
    ∀ ds : List (Declaration Place), e ∈ enclosed offset ds → Occurs children e ds
  | [] => by
    intro h
    cases h
  | d :: ds => by
    intro h
    rw [enclosed] at h
    split at h
    · exact .under List.mem_cons_self (occurs_scope d h)
    · exact (occurs_enclosed ds h).mono (List.subset_cons_self d ds)

end

/-- What is in scope at an offset stands in the forest. -/
theorem occurs_visible {ds : List (Declaration Place)} {offset : Nat} {e : Declaration Place}
    (h : e ∈ visible ds offset) : Occurs children e ds := by
  rcases List.mem_append.1 h with h | h
  · exact occurs_enclosed ds h
  · exact .here h

end Declaration

/-- All that a text declares is in its file. -/
theorem file_of_occurs {file : FilePath} {text : List Char} {d : Declaration Place}
    (h : Occurs Declaration.children d (Analysis.ofText file text).declarations) :
    d.file = file := by
  unfold Analysis.ofText at h
  dsimp only at h
  split at h
  · rw [Declaration.mapAll_eq_map] at h
    obtain ⟨e, -, rfl⟩ := h.map (Declaration.children_map _)
    simp [Declaration.file, Span.map, Place.at]
  · exact absurd h Occurs.nil

end Scad
