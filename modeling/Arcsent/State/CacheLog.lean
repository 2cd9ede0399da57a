/-
# The cache against the log of the results

The three views of a cache are read off one list, that of all results added to it: the end of
the list is the history, whose findings are shown beside it, and the last result of each
scanner is its latest.
-/
import Mathlib.Data.List.Dedup
import Arcsent.Lib.Latest
import Arcsent.Lib.Window
import Arcsent.State.ResultCache

namespace Arcsent.State

open Arcsent.Go Arcsent.Scanner Arcsent.Lib

/-- The last result of a scanner in a log. -/
def lastOf (log : List Result) (name : String) : Option Result :=
  (log.filter (·.scannerName = name)).getLast?

lemma lastOf_eq_latest (log : List Result) : lastOf log = latest Result.scannerName log := rfl

lemma lastOf_concat (log : List Result) (result : Result) :
    lastOf (log ++ [result]) =
      Function.update (lastOf log) result.scannerName (some result) := by
  rw [lastOf_eq_latest, lastOf_eq_latest]
  exact latest_concat log result

lemma isSome_lastOf {log : List Result} {name : String} :
    (lastOf log name).isSome = true ↔ ∃ r ∈ log, r.scannerName = name := by
  rw [lastOf_eq_latest]
  exact isSome_latest

lemma scannerName_of_lastOf {log : List Result} {name : String} {r : Result}
    (h : lastOf log name = some r) : r.scannerName = name := by
  rw [lastOf_eq_latest] at h
  exact on_of_latest h

/-- The findings of one result, as `FindingsHistory` shows them. -/
def findingsOf (res : Result) : List FindingSummary :=
  res.findings.map fun finding =>
    { scannerName := res.scannerName
      severity := finding.severity
      category := finding.category
      description := finding.description
      occurredAt := res.finishedAt
      evidence := texts finding.evidence }

namespace ResultCache

/-- The limit that `NewResultCache` makes of its argument. -/
def limitOf (limit : ℤ) : ℕ := if limit ≤ 0 then 50 else limit.toNat

/-- The cache after some results. -/
def after (limit : ℤ) (log : List Result) : ResultCache := log.foldl add (new limit)

lemma after_concat (limit : ℤ) (log : List Result) (result : Result) :
    after limit (log ++ [result]) = (after limit log).add result := by
  rw [after, List.foldl_append]
  rfl

/-- The history is a window. -/
lemma add_eq (c : ResultCache) (result : Result) :
    c.add result = ⟨Function.update c.latest result.scannerName (some result),
      slide c.limit c.history result, c.limit⟩ := by
  rw [add, slide]
  congr 1
  split_ifs with h
  · rfl
  · exact (rtake_of_length_le (not_lt.mp h)).symm

/-- The cache holds what a log says. -/
structure Of (limit : ℕ) (log : List Result) (c : ResultCache) : Prop where
  latest : c.latest = lastOf log
  history : c.history = log.rtake limit
  limit : c.limit = limit

lemma Of.add {limit : ℕ} {log : List Result} {c : ResultCache} (h : Of limit log c)
    (result : Result) : Of limit (log ++ [result]) (c.add result) := by
  rw [add_eq, h.latest, h.history, h.limit]
  exact ⟨(lastOf_concat log result).symm, slide_rtake limit log result, rfl⟩

/-- The run: a cache holds what the log of its results says. -/
lemma of_after (limit : ℤ) (log : List Result) : Of (limitOf limit) log (after limit log) := by
  induction log using List.reverseRecOn with
  | nil => exact ⟨rfl, (List.rtake_nil _).symm, rfl⟩
  | append_singleton log result ih =>
    rw [after_concat]
    exact ih.add result

/-- Every entry of `Latest` is the summary of the last result of a scanner. -/
lemma mem_latestSummaries {c : ResultCache} {order : List String} {s : ResultSummary} :
    s ∈ c.latestSummaries order ↔
      ∃ name ∈ order, ∃ r, c.latest name = some r ∧ summarize r = s := by
  simp only [latestSummaries, List.mem_map, List.mem_filterMap]
  constructor
  · rintro ⟨r, ⟨name, hname, hr⟩, hs⟩
    exact ⟨name, hname, r, hr, hs⟩
  · rintro ⟨name, hname, r, hr, hs⟩
    exact ⟨r, ⟨name, hname, hr⟩, hs⟩

/-- The entries of `Latest` are those of the keys, one for one. -/
lemma map_scannerName_latestSummaries {limit : ℕ} {log : List Result} {c : ResultCache}
    (h : Of limit log c) (order : KeyOrder c.latest) :
    (c.latestSummaries order.keys).map (·.scannerName) = order.keys := by
  have hsome : ∀ name ∈ order.keys, (c.latest name).isSome = true :=
    fun name => (order.mem name).mp
  generalize order.keys = names at hsome ⊢
  induction names with
  | nil => rfl
  | cons name names ih =>
    obtain ⟨r, hr⟩ := Option.isSome_iff_exists.mp (hsome name List.mem_cons_self)
    have hname : r.scannerName = name := by
      rw [h.latest] at hr
      exact scannerName_of_lastOf hr
    have hrest := ih fun n hn => hsome n (List.mem_cons_of_mem _ hn)
    rw [latestSummaries] at hrest ⊢
    rw [List.filterMap_cons_some hr, List.map_cons, List.map_cons, hrest]
    exact congrArg (· :: names) hname

/-- **The views of a cache against its log.**  Whatever the limit and the results added, the
history is the summaries of the last results, the findings are theirs, and the latest results
are one for each scanner in the log: the summary of its last result, which is also its last
in the history if that has one. -/
theorem views_of_log (limit : ℤ) (log : List Result) (order : KeyOrder (after limit log).latest) :
    (after limit log).historySummaries =
        (log.rtake (min log.length (limitOf limit))).map summarize ∧
      ((after limit log).latestSummaries order.keys).map (·.scannerName) = order.keys ∧
      order.keys.Nodup ∧ (∀ name, name ∈ order.keys ↔ ∃ r ∈ log, r.scannerName = name) ∧
      (∀ s ∈ (after limit log).latestSummaries order.keys,
        (lastOf log s.scannerName).map summarize = some s ∧
        ∀ h, ((after limit log).historySummaries.filter
            (·.scannerName = s.scannerName)).getLast? = some h → h = s) ∧
      (after limit log).findingsHistory =
        (log.rtake (min log.length (limitOf limit))).flatMap findingsOf := by
  have hof := of_after limit log
  rw [rtake_min_length]
  refine ⟨?_, map_scannerName_latestSummaries hof order, order.nodup, ?_, ?_, ?_⟩
  · rw [historySummaries, hof.history]
  · intro name
    rw [order.mem, hof.latest, isSome_lastOf]
  · intro s hs
    obtain ⟨name, -, r, hr, rfl⟩ := mem_latestSummaries.mp hs
    rw [hof.latest] at hr
    obtain rfl : r.scannerName = name := scannerName_of_lastOf hr
    have hlast : lastOf log (summarize r).scannerName = some r := hr
    refine ⟨by rw [hlast]; rfl, fun h hh => ?_⟩
    -- the last in the history comes from the end of the log
    rw [historySummaries, hof.history, List.filter_map, List.getLast?_map] at hh
    obtain ⟨r', hr', rfl⟩ := Option.map_eq_some_iff.mp hh
    have hsame : lastOf log r.scannerName = some r' :=
      getLast?_filter_of_suffix (rtake_suffix _ log) hr'
    rw [Option.some.inj (hsame.symm.trans hr)]
  · rw [findingsHistory, hof.history]
    rfl

end ResultCache

end Arcsent.State
