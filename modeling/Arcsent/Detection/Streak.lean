/-
# Drift is a streak of anomalies

`DetectDrift` counts verdicts in the record that `Update` writes back in between.  Here
calls on any pairs of scanner and metric come one after the other, and the counter of a
pair is the number of the last verdicts on it that were all anomalous.
-/
import Arcsent.Detection.BaselineRuns

namespace Arcsent.Detection

open Arcsent.Go Arcsent.Storage

variable {V : Type} {codec : Codec Baseline V} {s : BadgerStore V} {scanner metric : String}

/-! ## Streaks -/

/-- The number of verdicts at the end that are all anomalous. -/
def streak (verdicts : List Bool) : ℕ := (verdicts.reverse.takeWhile id).length

@[simp] lemma streak_nil : streak [] = 0 := rfl

lemma streak_concat (verdicts : List Bool) (anomaly : Bool) :
    streak (verdicts ++ [anomaly]) = if anomaly then streak verdicts + 1 else 0 := by
  rw [streak, List.reverse_append, List.reverse_singleton, List.singleton_append]
  cases anomaly <;> simp [streak]

/-- The last `k` verdicts are all anomalous when the streak is that long. -/
lemma replicate_suffix_iff (k : ℕ) (verdicts : List Bool) :
    List.replicate k true <:+ verdicts ↔ k ≤ streak verdicts := by
  rw [← List.reverse_prefix, List.reverse_replicate, streak]
  generalize verdicts.reverse = l
  induction l generalizing k with
  | nil => cases k <;> simp [List.replicate_succ]
  | cons b l ih =>
    cases k with
    | zero => simp
    | succ k =>
      rw [List.replicate_succ, List.cons_prefix_cons, ih]
      cases b <;> simp

/-! ## Calls on any pairs -/

/-- A call on a pair of scanner and metric. -/
structure PairCall where
  scanner : String
  metric : String
  call : Call

/-- The store after a call. -/
def PairCall.perform (codec : Codec Baseline V) (s : BadgerStore V) (c : PairCall) :
    BadgerStore V :=
  c.call.perform codec c.scanner c.metric s

/-- The store after a sequence of calls. -/
def afterAll (codec : Codec Baseline V) (s : BadgerStore V) (calls : List PairCall) :
    BadgerStore V :=
  calls.foldl (PairCall.perform codec) s

/-- The verdict of `IsAnomaly` on the value of a call of `DetectDrift` on the pair, unless
the call returns an error. -/
def PairCall.verdict (codec : Codec Baseline V) (scanner metric : String) (s : BadgerStore V)
    (c : PairCall) : Option Bool :=
  match c.call with
  | .detectDrift now value consecutive =>
    if c.scanner = scanner ∧ c.metric = metric then
      match Manager.detectDrift codec s now scanner metric value consecutive with
      | .error _ => none
      | .ok _ => (Manager.isAnomaly codec s scanner metric value).toOption.map Prod.fst
    else none
  | _ => none

/-- The verdicts on a pair in a sequence of calls, each against the record as it stood at
the time of the call. -/
def verdicts (codec : Codec Baseline V) (scanner metric : String) :
    BadgerStore V → List PairCall → List Bool
  | _, [] => []
  | s, c :: calls =>
    (c.verdict codec scanner metric s).toList ++
      verdicts codec scanner metric (c.perform codec s) calls

/-! ## The counter of a record -/

/-- The record of the pair counts the streak of its verdicts. -/
structure Counted (codec : Codec Baseline V) (scanner metric : String) (s : BadgerStore V)
    (vs : List Bool) : Prop where
  ownKeys : OwnKeys codec s
  cell : ∃ cell, Cell codec s scanner metric cell ∧
    match cell with
    | none => vs = []
    | some r => r.driftCount = streak vs

/-- A verdict carries the streak on or ends it. -/
lemma judge_driftCount {r : Baseline} {vs : List Bool} (h : r.driftCount = streak vs) (now : Time)
    (value : ℚ) (anomaly : Bool) :
    (r.judge now value anomaly).driftCount = streak (vs ++ [anomaly]) := by
  rw [streak_concat, Baseline.judge, h]
  split_ifs <;> simp

lemma drifted_iff (r : Baseline) (consecutive : ℤ) (reason : String) :
    (Manager.drifted r consecutive reason).1 = true ↔ consecutive ≤ r.driftCount := by
  rw [Manager.drifted]
  split_ifs with h
  · simpa using h
  · simpa using h

/-- A call on a pair with another key leaves the record alone. -/
lemma Counted.perform_of_ne {vs : List Bool} (h : Counted codec scanner metric s vs)
    {c : PairCall} (hne : baselineKey c.scanner c.metric ≠ baselineKey scanner metric) :
    Counted codec scanner metric (c.perform codec s) vs := by
  have hkeep {s' : BadgerStore V} (hkeys : OwnKeys codec s')
      (hget : Manager.get codec s' scanner metric = Manager.get codec s scanner metric) :
      Counted codec scanner metric s' vs := by
    obtain ⟨cell, hcell, hcount⟩ := h.cell
    refine ⟨hkeys, cell, ?_, hcount⟩
    cases cell with
    | none => exact hget.trans hcell
    | some r => exact ⟨hget.trans hcell.1, hcell.2⟩
  rw [PairCall.perform]
  cases c.call with
  | update now value =>
    rw [Call.perform]
    split
    · next s' r hok =>
      exact hkeep ((Frame.update h.ownKeys hok).ownKeys h.ownKeys)
        (Manager.get_of_update h.ownKeys hok hne)
    · exact h
  | detectDrift now value consecutive =>
    rw [Call.perform]
    split
    · next s' answer hok =>
      exact hkeep ((Frame.detectDrift h.ownKeys hok).ownKeys h.ownKeys)
        (Manager.get_of_detectDrift h.ownKeys hok hne)
    · exact h
  | isAnomaly value => exact h

/-- A call on the pair itself. -/
lemma Counted.perform_self {vs : List Bool} (h : Counted codec scanner metric s vs) (call : Call) :
    Counted codec scanner metric (PairCall.perform codec s ⟨scanner, metric, call⟩)
      (vs ++ (PairCall.verdict codec scanner metric s ⟨scanner, metric, call⟩).toList) := by
  obtain ⟨cell, hcell, hcount⟩ := h.cell
  have hkeys : OwnKeys codec (call.perform codec scanner metric s) :=
    ownKeys_afterCalls h.ownKeys [call]
  refine ⟨hkeys, ?_⟩
  cases call with
  | update now value =>
    rw [PairCall.verdict, Option.toList_none, List.append_nil]
    by_cases hnames : scanner = "" ∨ metric = ""
    · have hrefused : Manager.update codec s now scanner metric value =
          .error (.text "scannerName and metric are required") := by
        rw [Manager.update, Manager.load, if_pos hnames]
      refine ⟨cell, ?_, hcount⟩
      rw [PairCall.perform, Call.perform, hrefused]
      exact hcell
    · obtain ⟨hs, hm⟩ := not_or.mp hnames
      obtain ⟨s', hupdate, hcell'⟩ := hcell.update hs hm now value
      refine ⟨_, by simpa only [PairCall.perform, Call.perform, hupdate] using hcell', ?_⟩
      cases cell with
      | none =>
        obtain rfl : vs = [] := hcount
        rfl
      | some r => exact hcount
  | detectDrift now value consecutive =>
    rw [PairCall.verdict]
    dsimp only
    rw [if_pos ⟨rfl, rfl⟩]
    cases cell with
    | none =>
      refine ⟨none, ?_, ?_⟩
      · rw [PairCall.perform, Call.perform, hcell.detectDrift_none]
        exact hcell
      · rw [hcell.detectDrift_none, Option.toList_none, List.append_nil]
        exact hcount
    | some r =>
      obtain ⟨s', hdrift, hcell'⟩ := hcell.detectDrift now value consecutive
      have hverdict : Manager.isAnomaly codec s scanner metric value = .ok (r.anomaly value) := by
        rw [Manager.isAnomaly, hcell.1]
      refine ⟨_, by simpa only [PairCall.perform, Call.perform, hdrift] using hcell', ?_⟩
      rw [hdrift, hverdict]
      exact judge_driftCount hcount now value (r.anomaly value).1
  | isAnomaly value =>
    rw [PairCall.verdict, Option.toList_none, List.append_nil]
    exact ⟨cell, hcell, hcount⟩

/-- One call keeps the count. -/
lemma Counted.perform {vs : List Bool} (h : Counted codec scanner metric s vs) {c : PairCall}
    (hc : baselineKey c.scanner c.metric = baselineKey scanner metric →
      c.scanner = scanner ∧ c.metric = metric) :
    Counted codec scanner metric (c.perform codec s)
      (vs ++ (c.verdict codec scanner metric s).toList) := by
  obtain ⟨scanner', metric', call⟩ := c
  by_cases hpair : scanner' = scanner ∧ metric' = metric
  · obtain ⟨rfl, rfl⟩ := hpair
    exact h.perform_self call
  · have hnone : PairCall.verdict codec scanner metric s ⟨scanner', metric', call⟩ = none := by
      rw [PairCall.verdict]
      split
      · rw [if_neg hpair]
      · rfl
    rw [hnone, Option.toList_none, List.append_nil]
    exact h.perform_of_ne fun hkey => hpair (hc hkey)

/-- All calls keep the count. -/
lemma Counted.afterAll {vs : List Bool} (h : Counted codec scanner metric s vs)
    (calls : List PairCall)
    (hcalls : ∀ c ∈ calls, baselineKey c.scanner c.metric = baselineKey scanner metric →
      c.scanner = scanner ∧ c.metric = metric) :
    Counted codec scanner metric (afterAll codec s calls)
      (vs ++ verdicts codec scanner metric s calls) := by
  induction calls generalizing s vs with
  | nil => simpa [verdicts, Detection.afterAll] using h
  | cons c calls ih =>
    rw [verdicts, ← List.append_assoc]
    exact ih (h.perform (hcalls c List.mem_cons_self)) fun d hd =>
      hcalls d (List.mem_cons_of_mem c hd)

/-- **Drift means `k` anomalies in a row.**  After any calls on pairs whose keys differ,
`DetectDrift` on a pair with a record reports drift exactly when its own verdict and the
last verdicts on the pair before it, `max 1 consecutive` in all, are anomalous. -/
theorem detectDrift_iff_anomalies (codec : Codec Baseline V) (s : BadgerStore V)
    (hkeys : OwnKeys codec s) (scanner metric : String)
    (hnone : Manager.get codec s scanner metric = .error .notFound) (calls : List PairCall)
    (hcalls : ∀ c ∈ calls, baselineKey c.scanner c.metric = baselineKey scanner metric →
      c.scanner = scanner ∧ c.metric = metric)
    {r : Baseline} (hget : Manager.get codec (afterAll codec s calls) scanner metric = .ok r)
    (now : Time) (value : ℚ) (consecutive : ℤ) :
    ∃ s' drift reason anomaly why,
      Manager.detectDrift codec (afterAll codec s calls) now scanner metric value consecutive
        = .ok (s', drift, reason) ∧
      Manager.isAnomaly codec (afterAll codec s calls) scanner metric value
        = .ok (anomaly, why) ∧
      (drift = true ↔ List.replicate (max 1 consecutive).toNat true <:+
        verdicts codec scanner metric s calls ++ [anomaly]) := by
  have hstart : Counted codec scanner metric s [] := ⟨hkeys, none, hnone, rfl⟩
  obtain ⟨cell, hcell, hcount⟩ := (hstart.afterAll calls hcalls).cell
  cases cell with
  | none =>
    have habsent : Manager.get codec (afterAll codec s calls) scanner metric
        = .error .notFound := hcell
    rw [hget] at habsent
    cases habsent
  | some r' =>
    obtain rfl : r' = r := Except.ok.inj (hcell.1.symm.trans hget)
    have hcount : r'.driftCount = streak (verdicts codec scanner metric s calls) := hcount
    obtain ⟨s', hdrift, -⟩ := hcell.detectDrift now value consecutive
    generalize hanswer : Manager.drifted (r'.judge now value (r'.anomaly value).1)
      (if consecutive < 1 then 1 else consecutive) (r'.anomaly value).2 = answer at hdrift
    refine ⟨s', answer.1, answer.2, (r'.anomaly value).1, (r'.anomaly value).2, hdrift, ?_, ?_⟩
    · rw [Manager.isAnomaly, hget]
    · have hjudged := judge_driftCount hcount now value (r'.anomaly value).1
      rw [← hanswer, replicate_suffix_iff, drifted_iff, hjudged]
      split_ifs <;> omega

/-- Twelve values of a load, a value far off, and calls in between. -/
def loadCalls : List PairCall :=
  ((List.range 12).map fun i => ⟨"system.cpu", "load", .update i (10 + i % 2 : ℕ)⟩) ++
    [⟨"system.cpu", "load", .detectDrift 13 1000 2⟩, ⟨"system.cpu", "load", .update 14 10⟩,
      ⟨"system.cpu", "temperature", .update 15 40⟩, ⟨"system.cpu", "load", .isAnomaly 10⟩]

/-- The second value in a row that is far off is a drift, whatever comes between them. -/
theorem detectDrift_second_anomaly :
    ∃ s' reason, Manager.detectDrift plainCodec (afterAll plainCodec .empty loadCalls) 16
      "system.cpu" "load" 1000 2 = .ok (s', true, reason) := by
  have hrecord : ∃ r ∈ (Manager.get plainCodec (afterAll plainCodec .empty loadCalls)
      "system.cpu" "load").toOption, r.count = 13 := by decide +kernel
  obtain ⟨r, hr, -⟩ := hrecord
  have hget : Manager.get plainCodec (afterAll plainCodec .empty loadCalls) "system.cpu" "load"
      = .ok r := by
    cases hcell : Manager.get plainCodec (afterAll plainCodec .empty loadCalls)
      "system.cpu" "load" with
    | error err => simp [hcell, Except.toOption] at hr
    | ok r' => simpa [hcell, Except.toOption] using hr
  obtain ⟨s', drift, reason, anomaly, why, hdrift, hverdict, hiff⟩ :=
    detectDrift_iff_anomalies plainCodec .empty (ownKeys_empty plainCodec) "system.cpu" "load" rfl
      loadCalls (by decide) hget 16 1000 2
  have hanomaly : (Manager.isAnomaly plainCodec (afterAll plainCodec .empty loadCalls)
      "system.cpu" "load" 1000).toOption.map Prod.fst = some true := by decide +kernel
  obtain rfl : anomaly = true := by simpa [hverdict, Except.toOption] using hanomaly
  have hlast : List.replicate (max 1 2 : ℤ).toNat true <:+
      verdicts plainCodec "system.cpu" "load" .empty loadCalls ++ [true] := by decide +kernel
  exact ⟨s', reason, by rw [hdrift, hiff.mpr hlast]⟩

end Arcsent.Detection
