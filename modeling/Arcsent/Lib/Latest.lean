/-
# The last event about a key

In a log whose events are each about one key, the last event about a key decides what is
known of it: a state in which every event changes the value at its own key and no other
shows the effect of that event, wherever the others stand.
-/
import Mathlib.Data.List.Induction
import Mathlib.Logic.Function.Basic

namespace Arcsent.Lib

variable {ε κ σ β : Type*} [DecidableEq κ] (on : ε → κ)

/-- The last event of a log about a key. -/
def latest (log : List ε) (k : κ) : Option ε := (log.filter fun e => on e = k).getLast?

variable {on} {log : List ε} {e : ε} {k : κ}

@[simp] lemma latest_nil (k : κ) : latest on [] k = none := rfl

/-- A new event is the last one about its key, and about no other. -/
lemma latest_concat (log : List ε) (e : ε) :
    latest on (log ++ [e]) = Function.update (latest on log) (on e) (some e) := by
  funext k
  rw [latest, List.filter_append, List.getLast?_append]
  by_cases h : k = on e
  · subst h
    have hself : [e].filter (fun e' => on e' = on e) = [e] := by simp
    rw [Function.update_self, hself]
    rfl
  · have hother : [e].filter (fun e' => on e' = k) = [] := by simp [Ne.symm h]
    rw [Function.update_of_ne h, hother]
    rfl

/-- No event about the key comes after the last one. -/
lemma latest_eq_some_iff :
    latest on log k = some e ↔
      on e = k ∧ ∃ before after, log = before ++ e :: after ∧ ∀ e' ∈ after, on e' ≠ k := by
  rw [latest, List.getLast?_filter, List.find?_eq_some_iff_append, decide_eq_true_iff]
  refine and_congr_right fun _ => ?_
  constructor
  · rintro ⟨later, earlier, hlog, hlater⟩
    refine ⟨earlier.reverse, later.reverse, ?_, fun e' he' => ?_⟩
    · rw [← List.reverse_reverse log, hlog]
      simp
    · simpa using hlater e' (List.mem_reverse.mp he')
  · rintro ⟨before, after, rfl, hafter⟩
    refine ⟨after.reverse, before.reverse, by simp, fun e' he' => ?_⟩
    simpa using hafter e' (List.mem_reverse.mp he')

lemma isSome_latest : (latest on log k).isSome = true ↔ ∃ e ∈ log, on e = k := by
  rw [latest, List.getLast?_isSome]
  constructor
  · intro h
    obtain ⟨e, he⟩ := List.exists_mem_of_ne_nil _ h
    obtain ⟨hmem, hkey⟩ := List.mem_filter.mp he
    exact ⟨e, hmem, of_decide_eq_true hkey⟩
  · rintro ⟨e, hmem, hkey⟩
    exact List.ne_nil_of_mem (List.mem_filter.mpr ⟨hmem, decide_eq_true hkey⟩)

lemma on_of_latest (h : latest on log k = some e) : on e = k := (latest_eq_some_iff.mp h).1

/-- Logs with the same events about a key have the same last one. -/
lemma latest_congr {log' : List ε}
    (h : log'.filter (fun e => on e = k) = log.filter fun e => on e = k) :
    latest on log' k = latest on log k := by
  rw [latest, latest, h]

/-- A run shows the effect of the last event about the key, when every event changes what is
seen at its own key only. -/
theorem view_foldl {step : σ → ε → σ} (view : σ → β) (effect : ε → β) (s : σ)
    (hstep : ∀ t, ∀ e ∈ log, view (step t e) = if on e = k then effect e else view t) :
    view (log.foldl step s) = (latest on log k).elim (view s) effect := by
  induction log using List.reverseRecOn with
  | nil => rfl
  | append_singleton log e ih =>
    have hlog := ih fun t e' he' => hstep t e' (List.mem_append_left _ he')
    have hlast := hstep (log.foldl step s) e (List.mem_append_right _ List.mem_cons_self)
    rw [List.foldl_append, List.foldl_cons, List.foldl_nil, hlast, latest_concat]
    by_cases h : on e = k
    · rw [if_pos h, ← h, Function.update_self]
      rfl
    · rw [if_neg h, Function.update_of_ne (Ne.symm h), hlog]

end Arcsent.Lib
