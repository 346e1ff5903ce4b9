import Mathlib.Order.WellFounded

/-!
# Scad.Proofs.Descent.Plan

Recursive procedures with their calls in the open. What a call does is a plan: it ends with a
result, or asks for the answer to another call and goes on with that.

* `Plan.Runs body p a`: the plan comes to the result `a`, where `body` gives the plan of every call.
  A derivation is finite and holds the runs of all calls made on the way, so what never ends has
  none.
* `Plan.Asks body p q`: on its way the plan makes the call `q`.
* `Plan.Safe`: what holds of the calls and of the result of a plan, if answers are as promised.
* `Plan.existsUnique_runs`: if calls are made in a well-founded order, a plan comes to one result.
-/

namespace Scad

/-- A computation that may call the procedures `Q`, which answer with an `A`. -/
inductive Plan (Q A α : Type) where
  | done (a : α)
  | ask (q : Q) (next : A → Plan Q A α)

namespace Plan

variable {Q A α β : Type}

def bind (p : Plan Q A α) (f : α → Plan Q A β) : Plan Q A β :=
  match p with
  | done a => f a
  | ask q next => ask q fun ans => (next ans).bind f

instance : Monad (Plan Q A) where
  pure := done
  bind := bind

@[simp] theorem pure_eq_done (a : α) : (pure a : Plan Q A α) = done a := rfl

@[simp] theorem done_bind (a : α) (f : α → Plan Q A β) : (done a >>= f) = f a := rfl

@[simp] theorem ask_bind (q : Q) (next : A → Plan Q A α) (f : α → Plan Q A β) :
    (ask q next >>= f) = ask q fun ans => next ans >>= f := rfl

/-- The plan comes to the result, with all calls on the way. -/
inductive Runs (body : Q → Plan Q A A) : {α : Type} → Plan Q A α → α → Prop where
  | done {α : Type} (a : α) : Runs body (.done a) a
  | ask {α : Type} {q : Q} {next : A → Plan Q A α} {ans : A} {a : α} :
      Runs body (body q) ans → Runs body (next ans) a → Runs body (.ask q next) a

/-- The plan makes the call on its way. -/
inductive Asks (body : Q → Plan Q A A) : {α : Type} → Plan Q A α → Q → Prop where
  | here {α : Type} {q : Q} {next : A → Plan Q A α} : Asks body (.ask q next) q
  | later {α : Type} {q q' : Q} {next : A → Plan Q A α} {ans : A} :
      Runs body (body q) ans → Asks body (next ans) q' → Asks body (.ask q next) q'

/-- All calls of the plan satisfy `allowed`, and its result `good`, if the answer to each call is as
`post` says. -/
def Safe (allowed : Q → Prop) (post : Q → A → Prop) (good : α → Prop) : Plan Q A α → Prop
  | done a => good a
  | ask q next => allowed q ∧ ∀ ans, post q ans → (next ans).Safe allowed post good

/-! ## Runs -/

section Runs

variable {body : Q → Plan Q A A} {p : Plan Q A α} {a b : α}

theorem runs_done : Runs body (done a) b ↔ b = a := by
  constructor
  · intro h
    cases h
    rfl
  · rintro rfl
    exact .done b

theorem runs_ask {q : Q} {next : A → Plan Q A α} :
    Runs body (ask q next) a ↔ ∃ ans, Runs body (body q) ans ∧ Runs body (next ans) a := by
  constructor
  · intro h
    cases h with
    | ask hq hnext => exact ⟨_, hq, hnext⟩
  · rintro ⟨ans, hq, hnext⟩
    exact .ask hq hnext

theorem runs_bind {f : α → Plan Q A β} {c : β} :
    Runs body (p >>= f) c ↔ ∃ a, Runs body p a ∧ Runs body (f a) c := by
  induction p with
  | done a => simp only [done_bind, runs_done, exists_eq_left]
  | ask q next ih =>
    simp only [ask_bind, runs_ask, ih]
    constructor
    · rintro ⟨ans, hq, a, ha, hc⟩
      exact ⟨a, ⟨ans, hq, ha⟩, hc⟩
    · rintro ⟨a, ⟨ans, hq, ha⟩, hc⟩
      exact ⟨ans, hq, a, ha, hc⟩

theorem Runs.unique (ha : Runs body p a) (hb : Runs body p b) : a = b := by
  induction ha with
  | done a => exact (runs_done.1 hb).symm
  | ask _ _ ihq ihnext =>
    obtain ⟨ans, hq, hnext⟩ := runs_ask.1 hb
    obtain rfl := ihq hq
    exact ihnext hnext

end Runs

/-! ## Safe plans -/

section Safe

variable {allowed : Q → Prop} {post : Q → A → Prop} {p : Plan Q A α}

theorem Safe.bind {good : β → Prop} {f : α → Plan Q A β}
    (h : p.Safe allowed post fun a => (f a).Safe allowed post good) :
    (p >>= f).Safe allowed post good := by
  induction p with
  | done a => exact h
  | ask q next ih => exact ⟨h.1, fun ans hans => ih ans (h.2 ans hans)⟩

theorem Safe.mono {good good' : α → Prop} (h : p.Safe allowed post good)
    (hgood : ∀ a, good a → good' a) : p.Safe allowed post good' := by
  induction p with
  | done a => exact hgood a h
  | ask q next ih => exact ⟨h.1, fun ans hans => ih ans (h.2 ans hans)⟩

end Safe

/-! ## Calls in a well-founded order -/

section Ordered

variable {body : Q → Plan Q A A} {before : Q → Q → Prop} {post : Q → A → Prop}

/-- The result of a run is as promised. -/
theorem Runs.good (hbody : ∀ q, (body q).Safe (before · q) post (post q)) {p : Plan Q A α} {a : α}
    (h : Runs body p a) {allowed : Q → Prop} {good : α → Prop} (hp : p.Safe allowed post good) :
    good a := by
  induction h generalizing allowed with
  | done a => exact hp
  | @ask α q next ans a _ _ ihq ihnext => exact ihnext (hp.2 ans (ihq (hbody q)))

/-- Every call that is made is allowed. -/
theorem Asks.allowed (hbody : ∀ q, (body q).Safe (before · q) post (post q)) {p : Plan Q A α}
    {q : Q} (h : Asks body p q) {allowed : Q → Prop} {good : α → Prop}
    (hp : p.Safe allowed post good) : allowed q := by
  induction h with
  | here => exact hp.1
  | @later q q' next ans hq _ ih => exact ih (hp.2 ans (hq.good hbody (hbody q)))

/-- A plan of which all calls have answers comes to a result. -/
theorem exists_runs (hbody : ∀ q, (body q).Safe (before · q) post (post q)) {allowed : Q → Prop}
    (hcalls : ∀ q, allowed q → ∃ ans, Runs body (body q) ans) {good : α → Prop} (p : Plan Q A α)
    (hp : p.Safe allowed post good) : ∃ a, Runs body p a := by
  induction p with
  | done a => exact ⟨a, .done a⟩
  | ask q next ih =>
    obtain ⟨ans, hq⟩ := hcalls q hp.1
    obtain ⟨a, ha⟩ := ih ans (hp.2 ans (hq.good hbody (hbody q)))
    exact ⟨a, .ask hq ha⟩

/-- If every call makes only calls that come before it in a well-founded order, all calls have
answers, and a plan comes to one result. -/
theorem existsUnique_runs (hwf : WellFounded before)
    (hbody : ∀ q, (body q).Safe (before · q) post (post q)) {allowed : Q → Prop} {good : α → Prop}
    {p : Plan Q A α} (hp : p.Safe allowed post good) : ∃! a, Runs body p a := by
  have hcalls : ∀ q, ∃ ans, Runs body (body q) ans := by
    intro q
    induction q using hwf.induction with
    | h q ih => exact exists_runs hbody ih (body q) (hbody q)
  obtain ⟨a, ha⟩ := exists_runs hbody (fun q _ => hcalls q) p hp
  exact ⟨a, ha, fun b hb => hb.unique ha⟩

end Ordered
end Plan
end Scad
