/-
# What the listings of the store return

`ForEach` starts from the smallest key of the whole database and stops at the first key of
another bucket.  A bucket is therefore listed as a whole only when no other bucket with a
live key has a smaller name; otherwise none of its entries is visited.
-/
import Arcsent.Detection.Baseline

namespace Arcsent.Detection

open Arcsent.Go Arcsent.Storage Arcsent.Scanner

variable {V : Type}

lemma slash_notMem_resultsBucket : slash ∉ resultsBucket := by decide

lemma slash_notMem_baselineBucket : slash ∉ baselineBucket := by decide

/-- **Enumeration of buckets.**  After any sequence of writes to buckets without a slash
in their names, `ForEach` enumerates a bucket, and the two listings built on it return
every record, exactly when the bucket is empty or comes before every other bucket that
has a live key. -/
theorem enumerates_after_iff (ws : List (Write V)) (hws : ∀ w ∈ ws, slash ∉ w.bucket) :
    (∀ bucket, slash ∉ bucket →
      (Enumerates (.after ws) (live ws) bucket ↔ ScannedFirst (live ws) bucket)) ∧
    (∀ codec : ResultCodec V,
      (∀ key v, live ws resultsBucket key = some v → ∃ r, codec.unmarshal v = .ok r) →
      (ListsAll (ResultsStore.list codec (.after ws)) codec.unmarshal (live ws) resultsBucket ↔
        ScannedFirst (live ws) resultsBucket)) ∧
    (∀ codec : Codec Baseline V,
      (∀ key v, live ws baselineBucket key = some v → ∃ r, codec.unmarshal v = .ok r) →
      (ListsAll (Manager.list codec (.after ws)) codec.unmarshal (live ws) baselineBucket ↔
        ScannedFirst (live ws) baselineBucket)) := by
  have h := holds_after ws hws
  refine ⟨fun bucket hs => h.enumerates_iff hs, fun codec hdec => ?_, fun codec hdec => ?_⟩
  · exact h.listsAll_iff slash_notMem_resultsBucket (by decide) "result" hdec
  · exact h.listsAll_iff slash_notMem_baselineBucket (by decide) "baseline" hdec

/-- One baseline and one result. -/
def baselineAndResult : List (Write ℕ) :=
  [.put baselineBucket (bytes "system.cpu::load") 1, .put resultsBucket (bytes "1-cpu-ab") 2]

/-- The baselines are listed, as nothing sorts before them. -/
theorem enumerates_baselines :
    Enumerates (.after baselineAndResult) (live baselineAndResult) baselineBucket := by
  refine ((enumerates_after_iff baselineAndResult (by decide)).1 baselineBucket
    slash_notMem_baselineBucket).mpr ?_
  rintro - b k hk hne
  have hb : b = resultsBucket := by
    by_contra hb
    rw [live, baselineAndResult, List.foldl_cons, List.foldl_cons, List.foldl_nil,
      Buckets.perform_of_ne _ hb, Buckets.perform_of_ne _ hne] at hk
    exact hk rfl
  subst hb
  decide

/-- The result is not listed, although it is live: the scan ends at the baseline. -/
theorem not_enumerates_results :
    ¬ ∀ ws : List (Write ℕ), (∀ w ∈ ws, slash ∉ w.bucket ∧ w.key ≠ []) →
      ∀ bucket, slash ∉ bucket → Enumerates (.after ws) (live ws) bucket := by
  intro hall
  obtain ⟨calls, -, hmem, hcalls⟩ :=
    hall baselineAndResult (by decide) resultsBucket slash_notMem_resultsBucket
  have hlive : (bytes "1-cpu-ab", 2) ∈ calls := (hmem _ _).mpr (by decide)
  have hnone : (0 : ℕ) = calls.length := by
    have hcount := hcalls (fun (n : ℕ) _ _ => n + 1) 0
    have hvisited : ((BadgerStore.after baselineAndResult).forEach resultsBucket
        (fun n _ _ => (n + 1, none)) 0).1 = 0 := by decide
    rw [hvisited] at hcount
    simpa using hcount
  rw [List.length_eq_zero_iff.mp hnone.symm] at hlive
  exact absurd hlive List.not_mem_nil

end Arcsent.Detection
