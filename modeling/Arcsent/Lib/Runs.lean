/-
# Runs of a partial step function

A system with many parties is a partial step function: an event names the party that
moves and what the environment answers, and the step is `none` when that move is not
possible.  An interleaving is then just a list of events.  This file has the few notions
that the safety statements of the development are made of (a run, an invariant, a
condition met at every step of a run) and the induction rules between them.
-/
import Mathlib.Data.Option.Basic
import Mathlib.Logic.Basic
import Mathlib.Tactic.SplitIfs

namespace Arcsent.Lib

variable {σ ε : Type*}

/-- The state reached by performing a list of events in order; `none` when one of them is
not possible in the state it meets. -/
def run (step : σ → ε → Option σ) : σ → List ε → Option σ
  | s, [] => some s
  | s, e :: es => (step s e).bind fun t => run step t es

/-- Every step of a run meets `C`, a condition on the event and the state before it. -/
def Meets (step : σ → ε → Option σ) (C : σ → ε → Prop) : σ → List ε → Prop
  | _, [] => True
  | s, e :: es => C s e ∧ ∀ t, step s e = some t → Meets step C t es

/-- Every state of a run, its first one included, satisfies `P`. -/
def Always (step : σ → ε → Option σ) (P : σ → Prop) : σ → List ε → Prop
  | s, [] => P s
  | s, e :: es => P s ∧ ∀ t, step s e = some t → Always step P t es

variable {step : σ → ε → Option σ} {I P : σ → Prop} {C D : σ → ε → Prop}

/-- Whether a given run meets a condition can be computed. -/
instance decidableMeets [∀ s e, Decidable (C s e)] :
    ∀ (s : σ) (es : List ε), Decidable (Meets step C s es)
  | _, [] => isTrue trivial
  | s, e :: es =>
    match h : step s e with
    | none => decidable_of_iff (C s e) ⟨fun hc => ⟨hc, by simp [h]⟩, fun hc => hc.1⟩
    | some t =>
      have : Decidable (Meets step C t es) := decidableMeets t es
      decidable_of_iff (C s e ∧ Meets step C t es) (by simp [Meets, h])

@[simp] lemma run_nil (s : σ) : run step s [] = some s := rfl

lemma run_cons (s : σ) (e : ε) (es : List ε) :
    run step s (e :: es) = (step s e).bind fun t => run step t es := rfl

lemma run_cons_eq_some {s u : σ} {e : ε} {es : List ε} :
    run step s (e :: es) = some u ↔ ∃ t, step s e = some t ∧ run step t es = some u := by
  rw [run_cons, Option.bind_eq_some_iff]

lemma run_append (s : σ) (es fs : List ε) :
    run step s (es ++ fs) = (run step s es).bind fun t => run step t fs := by
  induction es generalizing s with
  | nil => rfl
  | cons e es ih =>
    rw [List.cons_append, run_cons, run_cons]
    cases step s e with
    | none => rfl
    | some t => exact ih t

/-- The invariant rule for runs whose steps all meet a condition. -/
theorem inv_of_meets (hstep : ∀ s e t, I s → C s e → step s e = some t → I t)
    {s t : σ} {es : List ε} (hs : I s) (hC : Meets step C s es)
    (hrun : run step s es = some t) : I t := by
  induction es generalizing s with
  | nil =>
    obtain rfl : s = t := by simpa using hrun
    exact hs
  | cons e es ih =>
    obtain ⟨u, hu, hrest⟩ := run_cons_eq_some.mp hrun
    exact ih (hstep s e u hs hC.1 hu) (hC.2 u hu) hrest

lemma meets_true (s : σ) (es : List ε) : Meets step (fun _ _ => True) s es := by
  induction es generalizing s with
  | nil => trivial
  | cons e es ih => exact ⟨trivial, fun t _ => ih t⟩

/-- The invariant rule for all runs. -/
theorem inv_of_run (hstep : ∀ s e t, I s → step s e = some t → I t)
    {s t : σ} {es : List ε} (hs : I s) (hrun : run step s es = some t) : I t :=
  inv_of_meets (C := fun _ _ => True) (fun s e t h _ => hstep s e t h) hs (meets_true s es) hrun

/-- The invariant rule for what a state has in common with the events that led to it. -/
theorem inv_of_run_history {J : List ε → σ → Prop}
    (hstep : ∀ before s e t, J before s → step s e = some t → J (before ++ [e]) t)
    {s t : σ} {es : List ε} (hs : J [] s) (hrun : run step s es = some t) : J es t := by
  have hrest : ∀ (es before : List ε) (s : σ), J before s → run step s es = some t →
      J (before ++ es) t := by
    intro es
    induction es with
    | nil =>
      intro before s hs hrun
      obtain rfl : s = t := by simpa using hrun
      rwa [List.append_nil]
    | cons e es ih =>
      intro before s hs hrun
      obtain ⟨u, hu, hrest⟩ := run_cons_eq_some.mp hrun
      rw [List.append_cons]
      exact ih (before ++ [e]) u (hstep before s e u hs hu) hrest
  exact hrest es [] s hs hrun

/-- The part of a run after a prefix meets what the whole run meets. -/
lemma meets_append {s t : σ} {es fs : List ε} (h : Meets step C s (es ++ fs))
    (hrun : run step s es = some t) : Meets step C t fs := by
  induction es generalizing s with
  | nil =>
    obtain rfl : s = t := by simpa using hrun
    exact h
  | cons e es ih =>
    obtain ⟨u, hu, hrest⟩ := run_cons_eq_some.mp hrun
    exact ih (h.2 u hu) hrest

/-- Two conditions that agree wherever an invariant holds are met by the same runs. -/
theorem meets_congr (hinv : ∀ s e t, I s → step s e = some t → I t)
    (hiff : ∀ s e, I s → (C s e ↔ D s e)) {s : σ} (hs : I s) (es : List ε) :
    Meets step C s es ↔ Meets step D s es := by
  induction es generalizing s with
  | nil => exact Iff.rfl
  | cons e es ih =>
    constructor
    · rintro ⟨hc, hrest⟩
      exact ⟨(hiff s e hs).mp hc, fun t ht => (ih (hinv s e t hs ht)).mp (hrest t ht)⟩
    · rintro ⟨hd, hrest⟩
      exact ⟨(hiff s e hs).mpr hd, fun t ht => (ih (hinv s e t hs ht)).mpr (hrest t ht)⟩

lemma always_head {s : σ} {es : List ε} (h : Always step P s es) : P s := by
  cases es with
  | nil => exact h
  | cons e es => exact h.1

/-- A property of states holds along the whole of a run exactly when every step meets the
condition under which a step keeps it.  The invariant that the condition rests on may
itself rest on the property having held so far. -/
theorem always_iff_meets (hinv : ∀ s e t, I s → P s → step s e = some t → P t → I t)
    (hiff : ∀ s e t, I s → P s → step s e = some t → (P t ↔ C s e))
    (hdead : ∀ s e, I s → step s e = none → C s e)
    {s : σ} (hs : I s) (hP : P s) (es : List ε) :
    Always step P s es ↔ Meets step C s es := by
  induction es generalizing s with
  | nil => exact ⟨fun _ => trivial, fun _ => hP⟩
  | cons e es ih =>
    cases hstep : step s e with
    | none =>
      constructor
      · intro _
        exact ⟨hdead s e hs hstep, fun t ht => by simp [hstep] at ht⟩
      · intro _
        exact ⟨hP, fun t ht => by simp [hstep] at ht⟩
    | some u =>
      constructor
      · rintro ⟨-, hrest⟩
        have hPu := always_head (hrest u hstep)
        refine ⟨(hiff s e u hs hP hstep).mp hPu, fun t ht => ?_⟩
        obtain rfl : u = t := Option.some.inj (hstep.symm.trans ht)
        exact (ih (hinv s e u hs hP hstep hPu) hPu).mp (hrest u hstep)
      · rintro ⟨hc, hrest⟩
        have hPu := (hiff s e u hs hP hstep).mpr hc
        refine ⟨hP, fun t ht => ?_⟩
        obtain rfl : u = t := Option.some.inj (hstep.symm.trans ht)
        exact (ih (hinv s e u hs hP hstep hPu) hPu).mpr (hrest u hstep)

/-- A property that follows from an invariant holds along every run whose steps all meet
the condition under which a step keeps the invariant. -/
theorem always_of_meets (hstep : ∀ s e t, I s → C s e → step s e = some t → I t)
    (hP : ∀ s, I s → P s) {s : σ} {es : List ε} (hs : I s) (hC : Meets step C s es) :
    Always step P s es := by
  induction es generalizing s with
  | nil => exact hP s hs
  | cons e es ih => exact ⟨hP s hs, fun t ht => ih (hstep s e t hs hC.1 ht) (hC.2 t ht)⟩

/-- A condition that follows from another one where an invariant holds is met by the runs
that meet the other one and thereby keep the invariant. -/
theorem meets_of_meets (hstep : ∀ s e t, I s → C s e → step s e = some t → I t)
    (himp : ∀ s e, I s → C s e → D s e) {s : σ} {es : List ε} (hs : I s)
    (hC : Meets step C s es) : Meets step D s es := by
  induction es generalizing s with
  | nil => trivial
  | cons e es ih =>
    exact ⟨himp s e hs hC.1, fun t ht => ih (hstep s e t hs hC.1 ht) (hC.2 t ht)⟩

lemma meets_and {s : σ} {es : List ε} (hC : Meets step C s es) (hD : Meets step D s es) :
    Meets step (fun s e => C s e ∧ D s e) s es := by
  induction es generalizing s with
  | nil => trivial
  | cons e es ih => exact ⟨⟨hC.1, hD.1⟩, fun t ht => ih (hC.2 t ht) (hD.2 t ht)⟩

/-- A condition on the events alone. -/
lemma meets_of_forall_mem {p : ε → Prop} {s : σ} {es : List ε} (h : ∀ e ∈ es, p e) :
    Meets step (fun _ e => p e) s es := by
  induction es generalizing s with
  | nil => trivial
  | cons e es ih =>
    exact ⟨h e (List.mem_cons_self ..), fun t _ => ih fun f hf => h f (List.mem_cons_of_mem _ hf)⟩

/-- What holds along a run holds in the state it ends in. -/
lemma Always.last {s t : σ} {es : List ε} (h : Always step P s es)
    (hrun : run step s es = some t) : P t := by
  induction es generalizing s with
  | nil =>
    obtain rfl : s = t := by simpa using hrun
    exact h
  | cons e es ih =>
    obtain ⟨u, hu, hrest⟩ := run_cons_eq_some.mp hrun
    exact ih (h.2 u hu) hrest

/-! ## Runs with events left out -/

/-- A run is simulated by the one that leaves out the events outside `p`, when the events
inside are simulated step by step and those outside do not get the states apart. -/
theorem exists_run_filter {R : σ → σ → Prop} {p : ε → Bool}
    (hkept : ∀ s s' e t, R s s' → p e = true → C s e → step s e = some t →
      ∃ t', step s' e = some t' ∧ R t t')
    (hleft : ∀ s s' e t, R s s' → p e = false → C s e → step s e = some t → R t s')
    {s s' t : σ} {es : List ε} (hs : R s s') (hC : Meets step C s es)
    (hrun : run step s es = some t) : ∃ t', run step s' (es.filter p) = some t' ∧ R t t' := by
  induction es generalizing s s' with
  | nil =>
    obtain rfl : s = t := by simpa using hrun
    exact ⟨s', rfl, hs⟩
  | cons e es ih =>
    obtain ⟨u, hu, hrest⟩ := run_cons_eq_some.mp hrun
    have hmeets := hC.2 u hu
    cases hp : p e with
    | true =>
      obtain ⟨u', hu', hR⟩ := hkept s s' e u hs hp hC.1 hu
      obtain ⟨t', ht', hlast⟩ := ih hR hmeets hrest
      refine ⟨t', ?_, hlast⟩
      rw [List.filter_cons_of_pos hp, run_cons, hu']
      exact ht'
    | false =>
      rw [List.filter_cons_of_neg (by simp [hp])]
      exact ih (hleft s s' e u hs hp hC.1 hu) hmeets hrest

/-! ## Loops that the first error ends -/

section EachUntil

variable {α : Type*} {body : α → σ → σ × Option ε} {s t : σ} {as : List α}

/-- The loop over a list in which each element acts on the state and can fail. -/
def eachUntil (body : α → σ → σ × Option ε) : List α → σ → σ × Option ε
  | [], s => (s, none)
  | a :: as, s =>
    match body a s with
    | (s, some err) => (s, some err)
    | (s, none) => eachUntil body as s

lemma eachUntil_cons (a : α) (as : List α) (s : σ) :
    eachUntil body (a :: as) s =
      if (body a s).2.isSome then body a s else eachUntil body as (body a s).1 := by
  rw [eachUntil]
  rcases body a s with ⟨t, err⟩
  cases err <;> rfl

/-- A loop that fails does so at an element, after all those before it. -/
lemma exists_of_eachUntil {err : ε} (h : eachUntil body as s = (t, some err)) :
    ∃ before a after u, as = before ++ a :: after ∧ eachUntil body before s = (u, none) ∧
      body a u = (t, some err) := by
  induction as generalizing s with
  | nil => cases h
  | cons a as ih =>
    rw [eachUntil_cons] at h
    split_ifs at h with hfails
    · exact ⟨[], a, as, s, rfl, rfl, h⟩
    · obtain ⟨before, b, after, u, rfl, hbefore, hb⟩ := ih h
      refine ⟨a :: before, b, after, u, rfl, ?_, hb⟩
      rw [eachUntil_cons, if_neg hfails, hbefore]

/-- The invariant rule for a loop that comes to its end. -/
theorem inv_of_eachUntil (hstep : ∀ a ∈ as, ∀ s t, I s → body a s = (t, none) → I t) (hs : I s)
    (h : eachUntil body as s = (t, none)) : I t := by
  induction as generalizing s with
  | nil =>
    obtain ⟨rfl, -⟩ := Prod.mk.inj h
    exact hs
  | cons a as ih =>
    rw [eachUntil_cons] at h
    split_ifs at h with hfails
    · rw [h] at hfails
      cases hfails
    · have hnone : (body a s).2 = none := by simpa using hfails
      have hfirst := hstep a List.mem_cons_self s _ hs (Prod.ext rfl hnone)
      exact ih (fun b hb => hstep b (List.mem_cons_of_mem _ hb)) hfirst h

end EachUntil

end Arcsent.Lib
