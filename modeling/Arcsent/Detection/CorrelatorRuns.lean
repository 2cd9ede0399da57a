/-
# The correlator and its full history

A correlator keeps the events of its window only, and the time of its last finding.  Here
it is compared with what it is for: a finding whenever enough different scanners have
reported within the window, unless there was one a short while ago.
-/
import Mathlib.Data.Finset.Dedup
import Mathlib.Data.Finset.Card
import Mathlib.Data.List.Induction
import Mathlib.Tactic.Linarith
import Arcsent.Detection.Correlation

namespace Arcsent.Detection

open Arcsent.Go Arcsent.Scanner

/-- The calls of `Add` so far, each with its reading of the clock. -/
abbrev History := List (Time × Result)

/-- The calls that had findings. -/
def reports (h : History) : List CorrelationEvent :=
  (h.filter fun e => e.2.findings ≠ []).map fun e => ⟨e.1, e.2.scannerName⟩

/-- The scanners that have reported in the window that ends at a time. -/
def reporting (h : History) (window : Duration) (now : Time) : Finset String :=
  (((reports h).filter fun ev => now - window < ev.time ∧ ev.time ≤ now).map
    CorrelationEvent.scanner).toFinset

namespace Correlator

/-- The correlator after a sequence of calls. -/
def after (c : Correlator) (h : History) : Correlator :=
  h.foldl (fun c e => (c.add e.1 e.2).1) c

/-- The times at which a sequence of calls returned a finding. -/
def triggers : Correlator → History → List Time
  | _, [] => []
  | c, e :: h =>
    (if (c.add e.1 e.2).2.isEmpty then [] else [e.1]) ++ triggers (c.add e.1 e.2).1 h

lemma after_concat (c : Correlator) (h : History) (e : Time × Result) :
    c.after (h ++ [e]) = ((c.after h).add e.1 e.2).1 := by
  rw [after, List.foldl_concat]
  rfl

lemma triggers_concat (c : Correlator) (h : History) (e : Time × Result) :
    c.triggers (h ++ [e]) =
      c.triggers h ++ if ((c.after h).add e.1 e.2).2.isEmpty then [] else [e.1] := by
  induction h generalizing c with
  | nil => simp [triggers, after]
  | cons d h ih =>
    rw [List.cons_append, triggers, triggers, ih, List.append_assoc]
    rfl

/-! ## One call -/

/-- What the events are after a call with findings. -/
def fresh (c : Correlator) (now : Time) (result : Result) : List CorrelationEvent :=
  (c.events ++ [(⟨now, result.scannerName⟩ : CorrelationEvent)]).filter fun ev =>
    now - c.window < ev.time

/-- The correlator triggers: enough scanners, and no finding a short while ago. -/
def Ripe (c : Correlator) (now : Time) (result : Result) : Prop :=
  c.minScan ≤ ((c.fresh now result).map CorrelationEvent.scanner).toFinset.card ∧
    c.cooldown ≤ now - c.lastTriggered

lemma add_of_no_findings (c : Correlator) (now : Time) {result : Result}
    (h : result.findings = []) : c.add now result = (c, []) := by
  rw [add, h]
  rfl

/-- Everything that `Add` does with a result that has findings. -/
lemma add_cases (c : Correlator) (now : Time) {result : Result} (h : result.findings ≠ []) :
    (c.Ripe now result ∧ (c.add now result).1 =
        { c with events := c.fresh now result, lastTriggered := now } ∧
        (c.add now result).2 =
          [c.finding ((c.fresh now result).map CorrelationEvent.scanner).toFinset.card]) ∨
      (¬ c.Ripe now result ∧ c.add now result = ({ c with events := c.fresh now result }, [])) := by
  rw [add, if_neg (fun hlen => h (List.length_eq_zero_iff.mp hlen))]
  dsimp only [prune]
  rw [Ripe, List.card_toFinset]
  split_ifs with hfew hsoon
  · exact .inr ⟨fun hripe => absurd hripe.1 (not_le.mpr hfew), rfl⟩
  · exact .inr ⟨fun hripe => absurd hripe.2 (not_le.mpr hsoon), rfl⟩
  · exact .inl ⟨⟨not_lt.mp hfew, not_lt.mp hsoon⟩, rfl, rfl⟩

/-! ## The invariant -/

/-- The correlator has what it needs of the full history. -/
structure Tracks (c₀ c : Correlator) (h : History) : Prop where
  window : c.window = c₀.window
  minScan : c.minScan = c₀.minScan
  cooldown : c.cooldown = c₀.cooldown
  /-- No event that may still be in a window has been dropped, -/
  events : ∀ t, (∀ e ∈ h, e.1 ≤ t) →
    c.events.filter (fun ev => t - c₀.window < ev.time) =
      (reports h).filter fun ev => t - c₀.window < ev.time
  /-- and the time of the last finding is known. -/
  last : c.lastTriggered = (c₀.triggers h).getLastD c₀.lastTriggered

variable {c₀ c : Correlator} {h : History}

lemma tracks_nil (hc : c₀.events = []) : Tracks c₀ c₀ [] :=
  ⟨rfl, rfl, rfl, fun _ _ => by rw [hc]; rfl, rfl⟩

lemma reports_concat (h : History) (e : Time × Result) :
    reports (h ++ [e]) =
      reports h ++ if e.2.findings = [] then [] else [⟨e.1, e.2.scannerName⟩] := by
  rw [reports, List.filter_append, List.map_append, ← reports]
  by_cases he : e.2.findings = [] <;> simp [he]

/-- The events after a call with findings are those of the full history in the window. -/
lemma Tracks.fresh_eq (htracks : Tracks c₀ c h) {now : Time} {result : Result}
    (hnow : ∀ e ∈ h, e.1 ≤ now) (hresult : result.findings ≠ []) :
    c.fresh now result =
      (reports (h ++ [(now, result)])).filter fun ev => now - c₀.window < ev.time := by
  rw [fresh, htracks.window, reports_concat, if_neg hresult, List.filter_append,
    List.filter_append, htracks.events now hnow]

/-- What is in the window of a later time was in the window of an earlier one. -/
lemma filter_window_filter {u t : Time} (hut : u ≤ t) (w : Duration)
    (evs : List CorrelationEvent) :
    (evs.filter fun ev => u - w < ev.time).filter (fun ev => t - w < ev.time) =
      evs.filter fun ev => t - w < ev.time := by
  rw [List.filter_filter]
  refine List.filter_congr fun ev _ => ?_
  by_cases hev : t - w < ev.time
  · have hold : u - w < ev.time := by linarith
    simp [hev, hold]
  · simp [hev]

/-- A call keeps track. -/
lemma Tracks.add (htracks : Tracks c₀ c h) (hc : c = c₀.after h) {e : Time × Result}
    (hnow : ∀ d ∈ h, d.1 ≤ e.1) : Tracks c₀ (c.add e.1 e.2).1 (h ++ [e]) := by
  obtain ⟨now, result⟩ := e
  by_cases hresult : result.findings = []
  · refine ⟨?_, ?_, ?_, fun t ht => ?_, ?_⟩ <;> rw [add_of_no_findings c now hresult]
    · exact htracks.window
    · exact htracks.minScan
    · exact htracks.cooldown
    · rw [reports_concat, if_pos hresult, List.append_nil]
      exact htracks.events t fun d hd => ht d (List.mem_append_left _ hd)
    · rw [triggers_concat, ← hc, add_of_no_findings c now hresult, htracks.last]
      simp
  · have hevents (t : Time) (ht : ∀ d ∈ h ++ [(now, result)], d.1 ≤ t) :
        (c.fresh now result).filter (fun ev => t - c₀.window < ev.time) =
          (reports (h ++ [(now, result)])).filter fun ev => t - c₀.window < ev.time := by
      rw [htracks.fresh_eq hnow hresult]
      exact filter_window_filter (ht (now, result) (by simp)) _ _
    rcases c.add_cases now hresult with ⟨-, hadd, hsome⟩ | ⟨-, hadd⟩
    · refine ⟨?_, ?_, ?_, fun t ht => ?_, ?_⟩ <;> rw [hadd]
      · exact htracks.window
      · exact htracks.minScan
      · exact htracks.cooldown
      · exact hevents t ht
      · rw [triggers_concat, ← hc, hsome]
        simp
    · refine ⟨?_, ?_, ?_, fun t ht => ?_, ?_⟩ <;> rw [hadd]
      · exact htracks.window
      · exact htracks.minScan
      · exact htracks.cooldown
      · exact hevents t ht
      · rw [triggers_concat, ← hc, hadd, htracks.last]
        simp

/-- Calls at times that do not decrease keep track. -/
lemma tracks_after (hc : c₀.events = []) (h : History)
    (hsorted : (h.map Prod.fst).Pairwise (· ≤ ·)) : Tracks c₀ (c₀.after h) h := by
  induction h using List.reverseRecOn with
  | nil => exact tracks_nil hc
  | append_singleton h e ih =>
    rw [List.map_append, List.pairwise_append] at hsorted
    rw [after_concat]
    refine (ih hsorted.1).add rfl fun d hd => ?_
    exact hsorted.2.2 d.1 (List.mem_map_of_mem hd) e.1 (by simp)

/-- The scanners in the window are those of the events after the call. -/
lemma Tracks.reporting_eq (htracks : Tracks c₀ c h) {now : Time} {result : Result}
    (hnow : ∀ e ∈ h, e.1 ≤ now) (hresult : result.findings ≠ []) :
    reporting (h ++ [(now, result)]) c₀.window now =
      ((c.fresh now result).map CorrelationEvent.scanner).toFinset := by
  have hpast : ∀ ev ∈ reports (h ++ [(now, result)]), ev.time ≤ now := by
    intro ev hev
    obtain ⟨e, he, rfl⟩ := List.mem_map.mp hev
    rcases List.mem_append.mp (List.mem_filter.mp he).1 with he | he
    · exact hnow e he
    · rw [List.mem_singleton.mp he]
  rw [reporting, htracks.fresh_eq hnow hresult]
  congr 2
  refine List.filter_congr fun ev hev => ?_
  simp [hpast ev hev]

/-- **The correlator against its full history.**  A call with findings returns a
correlation finding exactly when enough scanners have reported in the window that ends with
it and the last finding, if there was one, is at least the cooldown ago; a call without
findings changes nothing. -/
theorem add_iff_reference (window : Duration) (minScanners : ℤ) (cooldown : Duration)
    (hwindow : window < 2 ^ 63) (hcooldown : cooldown < 2 ^ 63) (h : History) (now : Time)
    (result : Result) (hsorted : ((h ++ [(now, result)]).map Prod.fst).Pairwise (· ≤ ·))
    (hepoch : unixEpoch ≤ now) :
    let c := new window minScanners cooldown
    (result.findings = [] → (c.after h).add now result = (c.after h, [])) ∧
    (result.findings ≠ [] →
      ((∃ n, ((c.after h).add now result).2 = [c.finding n]) ↔
        c.minScan ≤ (reporting (h ++ [(now, result)]) c.window now).card ∧
          ∀ last ∈ (c.triggers h).getLast?, c.cooldown ≤ now - last)) := by
  intro c
  rw [List.map_append, List.pairwise_append] at hsorted
  have hnow : ∀ e ∈ h, e.1 ≤ now := fun e he =>
    hsorted.2.2 e.1 (List.mem_map_of_mem he) now (by simp)
  have htracks : Tracks c (c.after h) h := tracks_after rfl h hsorted.1
  refine ⟨add_of_no_findings _ now, fun hresult => ?_⟩
  have hfinding (n : ℕ) : (c.after h).finding n = c.finding n := by
    rw [finding, finding, htracks.window]
  -- the zero time of the start is longer ago than any cooldown
  have hlong : c.cooldown ≤ now - 0 := by
    have hbound : c.cooldown < 2 ^ 63 := by
      change (if cooldown ≤ 0 then (if window ≤ 0 then 5 * minute else window) else cooldown) < _
      have hminutes : 5 * minute < 2 ^ 63 := by decide
      split_ifs
      · exact hminutes
      · exact hwindow
      · exact hcooldown
    have hstart : (2 : ℤ) ^ 63 ≤ unixEpoch := by decide
    linarith
  have hcool : c.cooldown ≤ now - (c.after h).lastTriggered ↔
      ∀ last ∈ (c.triggers h).getLast?, c.cooldown ≤ now - last := by
    rw [htracks.last, List.getLastD_eq_getLast?]
    cases (c.triggers h).getLast? with
    | none =>
      have hzero : c.lastTriggered = 0 := rfl
      simpa [hzero] using hlong
    | some last => simp
  have hripe : (c.after h).Ripe now result ↔
      c.minScan ≤ (reporting (h ++ [(now, result)]) c.window now).card ∧
        ∀ last ∈ (c.triggers h).getLast?, c.cooldown ≤ now - last := by
    rw [Ripe, htracks.minScan, htracks.cooldown, htracks.reporting_eq hnow hresult, hcool]
  rw [← hripe]
  rcases (c.after h).add_cases now hresult with ⟨hyes, -, hsome⟩ | ⟨hno, hadd⟩
  · exact iff_of_true ⟨_, by rw [hsome, hfinding]⟩ hyes
  · refine iff_of_false ?_ hno
    rintro ⟨n, hn⟩
    rw [hadd] at hn
    cases hn

/-- The result of a scanner with one finding. -/
def oneFinding (scannerName : String) : Result where
  scannerName := scannerName
  status := .success
  findings := [⟨"f", .low, "c", "d", [], "r"⟩]
  startedAt := 0
  finishedAt := 0
  duration := 0
  metadata := .empty

/-- The second scanner to report in the window makes a finding. -/
theorem add_second_scanner : ∃ n,
    ((Correlator.after (new 0 2 0) [(unixEpoch, oneFinding "cpu")]).add (unixEpoch + second)
      (oneFinding "disk")).2 = [(new 0 2 0).finding n] :=
  ((add_iff_reference 0 2 0 (by decide) (by decide) [(unixEpoch, oneFinding "cpu")]
    (unixEpoch + second) (oneFinding "disk") (by decide) (by decide)).2 (by decide)).mpr
      (by decide +kernel)

end Correlator

end Arcsent.Detection
