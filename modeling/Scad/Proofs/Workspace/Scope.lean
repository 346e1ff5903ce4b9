import Scad.Proofs.Workspace.Reference

/-!
# Scad.Proofs.Workspace.Scope

Suggestions and definitions agree. Both look at the declarations in scope, one to tell every name
and kind once, the other to find what a name means, and they settle on the same declarations.

* `Declaration.Scopes`: the scopes around an offset, innermost first.
* `Declaration.Firsts`: the first declaration of each name and kind, in order.
* `Workspace.first_of_resolve?`: what a name means is the first of its name and kind.
* `Workspace.candidates_agree`: the suggestions at an offset, and how the definition there is one of
  them.
-/

namespace Scad

namespace Declaration

/-! ## Scopes around an offset -/

/-- The scopes around an offset, innermost first. Each is inside the first module of the next one
that holds the offset. -/
inductive Scopes (offset : Nat) :
    List (Declaration Place) → List (List (Declaration Place)) → Prop where
  | outermost {ds : List (Declaration Place)} :
      (∀ d ∈ ds, d.kind = .module → d.span.contains offset = false) → Scopes offset ds [ds]
  | inside {before after : List (Declaration Place)} {d : Declaration Place}
      {scopes : List (List (Declaration Place))} :
      (∀ e ∈ before, e.kind = .module → e.span.contains offset = false) → d.kind = .module →
      d.span.contains offset = true → Scopes offset d.children scopes →
      Scopes offset (before ++ d :: after) (scopes ++ [before ++ d :: after])

/-- The first of the modules that holds the offset, if there is one, and the scopes in it. -/
inductive Entered (offset : Nat) (ds : List (Declaration Place)) :
    List (Declaration Place) → Prop where
  | none : (∀ d ∈ ds, d.kind = .module → d.span.contains offset = false) → Entered offset ds []
  | module (before after : List (Declaration Place)) (d : Declaration Place)
      (scopes : List (List (Declaration Place))) : ds = before ++ d :: after →
      (∀ e ∈ before, e.kind = .module → e.span.contains offset = false) → d.kind = .module →
      d.span.contains offset = true → Scopes offset d.children scopes →
      Entered offset ds scopes.flatten

theorem Entered.skip {offset : Nat} {d : Declaration Place} {ds found : List (Declaration Place)}
    (hd : d.kind = .module → d.span.contains offset = false) (h : Entered offset ds found) :
    Entered offset (d :: ds) found := by
  cases h with
  | none h => exact .none (List.forall_mem_cons.2 ⟨hd, h⟩)
  | module before after e scopes hds hbefore hkind hholds hscopes =>
    exact .module (d :: before) after e scopes (by rw [hds, List.cons_append])
      (List.forall_mem_cons.2 ⟨hd, hbefore⟩) hkind hholds hscopes

theorem Entered.scopes {offset : Nat} {ds found : List (Declaration Place)}
    (h : Entered offset ds found) :
    ∃ scopes, Scopes offset ds scopes ∧ found ++ ds = scopes.flatten := by
  cases h with
  | none h => exact ⟨[ds], .outermost h, by simp⟩
  | module before after d scopes hds hbefore hkind hholds hscopes =>
    subst hds
    exact ⟨_, .inside hbefore hkind hholds hscopes, by simp⟩

mutual

theorem scopes_scope {offset : Nat} :
    ∀ d : Declaration Place,
      ∃ scopes, Scopes offset d.children scopes ∧ d.scope offset = scopes.flatten
  | ⟨_, _, _, _, _, ds⟩ => (entered_enclosed ds).scopes

theorem entered_enclosed {offset : Nat} :
    ∀ ds : List (Declaration Place), Entered offset ds (enclosed offset ds)
  | [] => .none (by simp)
  | d :: ds => by
    rw [enclosed]
    split
    · rename_i hd
      obtain ⟨scopes, hscopes, hflat⟩ :
          ∃ scopes, Scopes offset d.children scopes ∧ d.scope offset = scopes.flatten :=
        scopes_scope d
      rw [hflat]
      exact .module [] ds d scopes rfl (by simp) hd.1 hd.2 hscopes
    · rename_i hd
      refine (entered_enclosed ds).skip fun hkind => ?_
      simpa [hkind] using hd

end

/-- What is visible at an offset are the scopes around it, innermost first. -/
theorem scopes_visible (ds : List (Declaration Place)) (offset : Nat) :
    ∃ scopes, Scopes offset ds scopes ∧ visible ds offset = scopes.flatten :=
  (entered_enclosed ds).scopes

/-! ## The first of each name and kind -/

/-- The declarations have the same name and kind. -/
def rivals (d e : Declaration Place) : Bool := decide (e.name = d.name ∧ e.kind = d.kind)

theorem rivals_congr {d e : Declaration Place} (hname : d.name = e.name) (hkind : d.kind = e.kind) :
    d.rivals = e.rivals := by
  funext f
  simp only [rivals, hname, hkind]

/-- `chosen` are the declarations of `ds` that come first with their name and kind, in order: each
name and kind is there, by its first declaration, and where it is first in `ds` decides its turn. -/
structure Firsts (chosen ds : List (Declaration Place)) : Prop where
  covers : ∀ d ∈ ds, ∃ e ∈ chosen, e.name = d.name ∧ e.kind = d.kind
  first : ∀ d ∈ chosen, ds.find? d.rivals = some d
  ordered : chosen.Pairwise fun d e => ds.findIdx d.rivals < ds.findIdx e.rivals

/-- A declaration that was found by a test that its rivals pass too is the first of them. -/
theorem first_of_find? {p : Declaration Place → Bool} {ds : List (Declaration Place)}
    {d : Declaration Place} (h : ds.find? p = some d)
    (hp : ∀ e, d.rivals e = true → p e = true) : ds.find? d.rivals = some d := by
  obtain ⟨-, before, after, hds, hbefore⟩ := List.find?_eq_some_iff_append.1 h
  refine List.find?_eq_some_iff_append.2 ⟨by simp [rivals], before, after, hds, fun e he => ?_⟩
  have hfails := hbefore e he
  cases hr : d.rivals e with
  | false => rfl
  | true => simp [hp e hr] at hfails

/-- A declaration of another name or kind is looked for behind the first one. -/
theorem find?_rivals_cons {d e : Declaration Place} (h : (e.name, e.kind) ≠ (d.name, d.kind))
    (ds : List (Declaration Place)) :
    (d :: ds).find? e.rivals = ds.find? e.rivals ∧
      (d :: ds).findIdx e.rivals = ds.findIdx e.rivals + 1 := by
  have hr : e.rivals d = false := by
    simp only [rivals, decide_eq_false_iff_not, not_and]
    intro hname hkind
    exact h (by rw [hname, hkind])
  exact ⟨by rw [List.find?_cons, hr], by rw [List.findIdx_cons, hr]; rfl⟩

/-- The first declarations of all names and kinds but those in `seen`. -/
structure FirstsBut (seen : List (String × Declaration.Kind))
    (chosen ds : List (Declaration Place)) : Prop where
  covers : ∀ d ∈ ds, (d.name, d.kind) ∉ seen → ∃ e ∈ chosen, e.name = d.name ∧ e.kind = d.kind
  fresh : ∀ d ∈ chosen, (d.name, d.kind) ∉ seen
  first : ∀ d ∈ chosen, ds.find? d.rivals = some d
  ordered : chosen.Pairwise fun d e => ds.findIdx d.rivals < ds.findIdx e.rivals

namespace FirstsBut

variable {seen : List (String × Declaration.Kind)} {chosen ds : List (Declaration Place)}
  {d : Declaration Place}

/-- Where nothing chosen has the name and kind of `d`, it may stand in front. -/
theorem ordered_cons (hne : ∀ e ∈ chosen, (e.name, e.kind) ≠ (d.name, d.kind))
    (h : chosen.Pairwise fun d e => ds.findIdx d.rivals < ds.findIdx e.rivals) :
    chosen.Pairwise fun e f => (d :: ds).findIdx e.rivals < (d :: ds).findIdx f.rivals := by
  refine h.imp_of_mem fun {e f} he hf hlt => ?_
  rw [(find?_rivals_cons (hne e he) ds).2, (find?_rivals_cons (hne f hf) ds).2]
  omega

theorem skip (hd : (d.name, d.kind) ∈ seen) (h : FirstsBut seen chosen ds) :
    FirstsBut seen chosen (d :: ds) := by
  have hne : ∀ e ∈ chosen, (e.name, e.kind) ≠ (d.name, d.kind) :=
    fun e he hsame => h.fresh e he (hsame ▸ hd)
  refine ⟨fun e he hfresh => ?_, h.fresh, fun e he => ?_, ordered_cons hne h.ordered⟩
  · rcases List.mem_cons.1 he with rfl | he
    · exact absurd hd hfresh
    · exact h.covers e he hfresh
  · rw [(find?_rivals_cons (hne e he) ds).1]
    exact h.first e he

theorem keep (hd : (d.name, d.kind) ∉ seen)
    (h : FirstsBut ((d.name, d.kind) :: seen) chosen ds) :
    FirstsBut seen (d :: chosen) (d :: ds) := by
  have hne : ∀ e ∈ chosen, (e.name, e.kind) ≠ (d.name, d.kind) :=
    fun e he hsame => h.fresh e he (hsame ▸ List.mem_cons_self)
  have hself : d.rivals d = true := by simp [rivals]
  refine ⟨fun e he hfresh => ?_, fun e he => ?_, fun e he => ?_, ?_⟩
  · by_cases hsame : (e.name, e.kind) = (d.name, d.kind)
    · obtain ⟨hname, hkind⟩ := Prod.mk.inj hsame
      exact ⟨d, List.mem_cons_self, hname.symm, hkind.symm⟩
    · rcases List.mem_cons.1 he with rfl | he
      · exact absurd rfl hsame
      · obtain ⟨f, hf, hfe⟩ := h.covers e he fun h => (List.mem_cons.1 h).elim hsame hfresh
        exact ⟨f, List.mem_cons_of_mem d hf, hfe⟩
  · rcases List.mem_cons.1 he with rfl | he
    · exact hd
    · exact fun hseen => h.fresh e he (List.mem_cons_of_mem _ hseen)
  · rcases List.mem_cons.1 he with rfl | he
    · rw [List.find?_cons, hself]
    · rw [(find?_rivals_cons (hne e he) ds).1]
      exact h.first e he
  · refine List.pairwise_cons.2 ⟨fun e he => ?_, ordered_cons hne h.ordered⟩
    rw [(find?_rivals_cons (hne e he) ds).2, List.findIdx_cons, hself]
    exact Nat.succ_pos _

end FirstsBut

theorem firstsBut_distinct (seen : List (String × Declaration.Kind))
    (ds : List (Declaration Place)) : FirstsBut seen (Candidate.distinct seen ds) ds := by
  induction ds generalizing seen with
  | nil => exact ⟨by simp, by simp [Candidate.distinct], by simp [Candidate.distinct], .nil⟩
  | cons d ds ih =>
    rw [Candidate.distinct]
    split
    · rename_i hseen
      exact (ih seen).skip (List.contains_iff_mem.1 hseen)
    · rename_i hseen
      exact (ih _).keep fun h => hseen (List.contains_iff_mem.2 h)

/-- Leaving out what came before leaves the first declarations. -/
theorem firsts_distinct (ds : List (Declaration Place)) : Firsts (Candidate.distinct [] ds) ds := by
  have h := firstsBut_distinct [] ds
  exact ⟨fun d hd => h.covers d hd (by simp), h.first, h.ordered⟩

/-- Each name and kind is chosen once. -/
theorem Firsts.eq_of_rivals {chosen ds : List (Declaration Place)} (h : Firsts chosen ds)
    {d e : Declaration Place} (hd : d ∈ chosen) (he : e ∈ chosen) (hname : d.name = e.name)
    (hkind : d.kind = e.kind) : d = e := by
  have hfirst := h.first d hd
  rw [rivals_congr hname hkind, h.first e he] at hfirst
  exact (Option.some.inj hfirst).symm

/-- The first declaration of a name and kind is chosen. -/
theorem Firsts.mem {chosen ds : List (Declaration Place)} (h : Firsts chosen ds)
    {d : Declaration Place} (hd : ds.find? d.rivals = some d) : d ∈ chosen := by
  obtain ⟨e, he, hname, hkind⟩ := h.covers d (List.mem_of_find?_eq_some hd)
  have hfirst := h.first e he
  rw [rivals_congr hname hkind, hd] at hfirst
  exact Option.some.inj hfirst ▸ he

end Declaration

namespace Analysis

/-! ## The token at an offset -/

theorem of_findToken? {p : Token → Bool} {ts after : List Token} {t : Token}
    (h : findToken? p ts = some (t, after)) : t ∈ ts ∧ p t = true := by
  induction ts with
  | nil => cases h
  | cons u ts ih =>
    rw [findToken?] at h
    split at h
    · rename_i hu
      cases h
      exact ⟨List.mem_cons_self, hu⟩
    · exact ⟨List.mem_cons_of_mem u (ih h).1, (ih h).2⟩

theorem findToken?_eq_none {p : Token → Bool} {ts : List Token} (h : findToken? p ts = none) :
    ∀ t ∈ ts, p t = false := by
  induction ts with
  | nil => simp
  | cons u ts ih =>
    rw [findToken?] at h
    split at h
    · cases h
    · rename_i hu
      exact List.forall_mem_cons.2 ⟨Bool.eq_false_iff.2 hu, ih h⟩

/-- A token that is no comment lies at the offset: it holds the character there, or it ends there
and no other token that is no comment holds the character. -/
def Touches (ts : List Token) (offset : Nat) (t : Token) : Prop :=
  t ∈ Token.significant ts ∧
    ((t.start ≤ offset ∧ offset < t.stop) ∨
      (t.stop = offset ∧ ∀ u ∈ Token.significant ts, ¬(u.start ≤ offset ∧ offset < u.stop)))

theorem touches_tokenAt? {a : Analysis} {ts after : List Token} {offset : Nat} {t : Token}
    (ht : a.tokens = some ts) (h : a.tokenAt? offset = some (t, after)) : Touches ts offset t := by
  unfold tokenAt? at h
  rw [ht, Option.getD_some] at h
  rcases Option.or_eq_some_iff.1 h with h | ⟨hnone, h⟩
  · obtain ⟨hmem, hholds⟩ := of_findToken? h
    simp only [Bool.and_eq_true, decide_eq_true_eq] at hholds
    exact ⟨hmem, .inl hholds⟩
  · obtain ⟨hmem, hends⟩ := of_findToken? h
    refine ⟨hmem, .inr ⟨beq_iff_eq.1 hends, fun u hu hholds => ?_⟩⟩
    have hfails := findToken?_eq_none hnone u hu
    simp [hholds] at hfails

end Analysis

namespace Workspace

/-! ## Suggestions and definitions -/

/-- What a name means is the first declaration of its name and kind. -/
theorem first_of_resolve? {preferred : List Declaration.Kind} {name : String}
    {ds : List (Declaration Place)} {d : Declaration Place}
    (h : resolve? preferred name ds = some d) : d.name = name ∧ ds.find? d.rivals = some d := by
  unfold resolve? at h
  dsimp only at h
  rw [List.find?_filter, List.head?_filter] at h
  rcases Option.or_eq_some_iff.1 h with h | ⟨-, h⟩
  · have hd := List.find?_some h
    simp only [beq_iff_eq, decide_eq_true_eq] at hd
    refine ⟨hd.1, Declaration.first_of_find? h fun e he => ?_⟩
    simp only [Declaration.rivals, decide_eq_true_eq] at he
    simpa [he, hd.1] using hd.2
  · have hd := List.find?_some h
    rw [beq_iff_eq] at hd
    refine ⟨hd, Declaration.first_of_find? h fun e he => ?_⟩
    simp only [Declaration.rivals, decide_eq_true_eq] at he
    simp [he, hd]

theorem scope_snd (w : Workspace) (disk : Disk) (a : Analysis) (offset : Nat) :
    (w.scope disk a offset).2 = Declaration.visible a.declarations offset ++
      (meant disk a.file w a.references).flatMap fun m => m.elim [] Analysis.declarations := by
  rw [← included_snd]
  rfl

/-- Outside the paths of references, the suggestions are the names in scope and the words of the
language. -/
theorem candidates_snd {w : Workspace} (disk : Disk) {file : FilePath} {a : Analysis}
    {ts : List Token} {offset : Nat} (ha : w.analysis? file = some a) (ht : a.tokens = some ts)
    (hpath : ∀ t ∈ ts, t.kind = .path → ¬(t.start < offset ∧ offset < t.stop)) :
    (w.candidates disk file offset).2 =
      (Candidate.distinct [] (w.scope disk a offset).2).map Candidate.ofDeclaration ++
        Candidate.keywords.map Candidate.ofKeyword := by
  have hnone : ts.find? (fun t =>
      t.kind == .path && decide (t.start < offset) && decide (offset < t.stop)) = none := by
    refine List.find?_eq_none.2 fun t hmem hinside => ?_
    simp only [Bool.and_eq_true, beq_iff_eq, decide_eq_true_eq] at hinside
    exact hpath t hmem hinside.1.1 ⟨hinside.1.2, hinside.2⟩
  unfold candidates
  simp only [ha, ht, hnone]

/-- The definition at an offset is what the name at the offset means in scope. -/
theorem resolve?_of_definition? {w : Workspace} {disk : Disk} {file : FilePath} {a : Analysis}
    {ts : List Token} {offset : Nat} {d : Declaration Place} (ha : w.analysis? file = some a)
    (ht : a.tokens = some ts) (h : (w.definition? disk file offset).2 = some d) :
    ∃ t, Analysis.Touches ts offset t ∧ t.kind = .ident ∧
      ∃ preferred,
        resolve? preferred (String.ofList t.text) (w.scope disk a offset).2 = some d := by
  unfold definition? at h
  rw [ha, Option.bind_some] at h
  cases hfound : a.tokenAt? offset with
  | none => simp [hfound] at h
  | some found =>
    obtain ⟨t, after⟩ := found
    simp only [hfound, Option.map_some] at h
    split at h
    · cases h
    · rename_i hname
      have hkind : t.kind = .ident := Decidable.of_not_not fun hkind => hname (.inl hkind)
      exact ⟨t, Analysis.touches_tokenAt? ht hfound, hkind, _, h⟩

/-- Where an offset of a readable file is not inside the path of a reference, the suggestions are
the first declaration of each name and kind in scope, in order, and then the words of the language:
in scope are the scopes around the offset, innermost first, then the files that the references mean.
The definition at the offset, if there is one, is the declaration of the only suggestion with its
name and kind, and has the name that is written at the offset. -/
theorem candidates_agree (w : Workspace) (disk : Disk) (file : FilePath) (a : Analysis)
    (ts : List Token) (offset : Nat) (ha : w.analysis? file = some a) (ht : a.tokens = some ts)
    (hpath : ∀ t ∈ ts, t.kind = .path → ¬(t.start < offset ∧ offset < t.stop)) :
    ∃ scopes chosen,
      Declaration.Scopes offset a.declarations scopes ∧
      Declaration.Firsts chosen (scopes.flatten ++
        (meant disk a.file w a.references).flatMap fun m => m.elim [] Analysis.declarations) ∧
      (w.candidates disk file offset).2 =
        chosen.map Candidate.ofDeclaration ++ Candidate.keywords.map Candidate.ofKeyword ∧
      ∀ d, (w.definition? disk file offset).2 = some d →
        Candidate.ofDeclaration d ∈ (w.candidates disk file offset).2 ∧
        (∀ c ∈ (w.candidates disk file offset).2,
          c.label = d.name → c.kind = .declared d.kind → c.declaration = some d) ∧
        ∃ t, Analysis.Touches ts offset t ∧ t.kind = .ident ∧ d.name = String.ofList t.text := by
  obtain ⟨scopes, hscopes, hvisible⟩ := Declaration.scopes_visible a.declarations offset
  have hscope := w.scope_snd disk a offset
  rw [hvisible] at hscope
  have hcandidates := candidates_snd disk ha ht hpath
  rw [hscope] at hcandidates
  have hfirsts := Declaration.firsts_distinct (scopes.flatten ++
    (meant disk a.file w a.references).flatMap fun m => m.elim [] Analysis.declarations)
  refine ⟨scopes, _, hscopes, hfirsts, hcandidates, fun d hd => ?_⟩
  obtain ⟨t, htouches, hkind, preferred, hresolve⟩ := resolve?_of_definition? ha ht hd
  rw [hscope] at hresolve
  obtain ⟨hname, hfirst⟩ := first_of_resolve? hresolve
  refine ⟨?_, fun c hc hlabel hdeclared => ?_, t, htouches, hkind, hname⟩
  · rw [hcandidates]
    exact List.mem_append_left _ (List.mem_map_of_mem (hfirsts.mem hfirst))
  · rw [hcandidates] at hc
    rcases List.mem_append.1 hc with hc | hc
    · obtain ⟨e, he, rfl⟩ := List.mem_map.1 hc
      have hsame := hfirsts.eq_of_rivals he (hfirsts.mem hfirst) hlabel
        (Candidate.Kind.declared.inj hdeclared)
      rw [hsame]
      rfl
    · obtain ⟨word, -, rfl⟩ := List.mem_map.1 hc
      cases hdeclared

/-- A text that declares one name as a variable and as a function, and again inside a module, where
the name is used. -/
def shadowingText : List Char := "use <l>x=2;function x()=1;module m(){x=3;y=x;}".toList

/-- The workspace in which the using file has that text. -/
def shadowing : Workspace := run sharedDisk .empty [.register usingFile shadowingText]

/-- The name used inside the module means the variable of the module, which is suggested; the
variables of the same name around it and in the other file are not. -/
theorem candidates_agree_shadowed :
    ∃ d, (shadowing.definition? sharedDisk usingFile 43).2 = some d ∧ d.span.start.offset = 37 ∧
      Candidate.ofDeclaration d ∈ (shadowing.candidates sharedDisk usingFile 43).2 ∧
      ∀ c ∈ (shadowing.candidates sharedDisk usingFile 43).2,
        c.label = "x" → c.kind = .declared .variable → c.declaration = some d := by
  have ht : (Analysis.ofText usingFile shadowingText).tokens =
      some ((Analysis.ofText usingFile shadowingText).tokens.getD []) := by decide +kernel
  obtain ⟨scopes, chosen, -, -, -, hdefinition⟩ :=
    candidates_agree shadowing sharedDisk usingFile (.ofText usingFile shadowingText) _ 43 rfl ht
      (by decide +kernel)
  have hfound : (shadowing.definition? sharedDisk usingFile 43).2.map
      (fun d => (d.name, d.kind, d.span.start.offset)) = some ("x", .variable, 37) := by
    decide +kernel
  obtain ⟨d, hd, hshown⟩ := Option.map_eq_some_iff.1 hfound
  simp only [Prod.mk.injEq] at hshown
  obtain ⟨hname, hkind, hoffset⟩ := hshown
  obtain ⟨hsuggested, honly, -⟩ := hdefinition d hd
  rw [hname, hkind] at honly
  exact ⟨d, hd, hoffset, hsuggested, honly⟩

end Workspace
end Scad
