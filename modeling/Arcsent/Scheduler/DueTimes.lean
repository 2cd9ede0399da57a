/-
# Due times that are computed when a job is added

`AddJob` computes when a job is next due, from the saved time of its last run and from the
current time.  When the daemon is started again while the job is waiting, that is done again.
-/
import Arcsent.Scheduler.Restart

namespace Arcsent.Scheduling

open Arcsent.Go Arcsent.Scanner Arcsent.Storage Arcsent.Lib

variable {κ V : Type} {cron : CronLib κ} {codec : Codec JobState V}
variable {j : Job κ} {d : Duration} {raw : String}

/-! ## Starting again while a job is waiting -/

/-- A job that has run is due in the future, an interval after its last run. -/
def JobState.Pending (st : JobState) (d : Duration) (now : Time) : Prop :=
  isZero st.lastRun = false ∧ now < st.lastRun + d

lemma computeNextRun_of_pending (hspec : j.spec = .interval d raw) {now : Time}
    (h : j.state.Pending d now) : j.computeNextRun cron now = j.state.lastRun + d := by
  rw [Job.computeNextRun, hspec]
  exact if_pos h

/-- Any other job is due an interval after the current time. -/
lemma computeNextRun_of_not_pending (hspec : j.spec = .interval d raw) {now : Time}
    (h : ¬ j.state.Pending d now) : j.computeNextRun cron now = now + d := by
  rw [Job.computeNextRun, hspec]
  exact if_neg h

/-- A job that is pending at a time is pending before it. -/
lemma JobState.Pending.mono {st : JobState} {t t' : Time} (h : st.Pending d t') (hle : t ≤ t') :
    st.Pending d t :=
  ⟨h.1, hle.trans_lt h.2⟩

/-- A later computation postpones the due time exactly when the job is not pending. -/
lemma computeNextRun_le_iff (hspec : j.spec = .interval d raw) (hd : 0 < d) {t t' : Time}
    (hle : t ≤ t') : j.computeNextRun cron t' ≤ max t' (j.computeNextRun cron t) ↔
      t = t' ∨ j.state.Pending d t' := by
  by_cases hpending : j.state.Pending d t'
  · rw [computeNextRun_of_pending hspec hpending,
      computeNextRun_of_pending hspec (hpending.mono hle)]
    exact iff_of_true (le_max_right _ _) (.inr hpending)
  · rw [computeNextRun_of_not_pending hspec hpending, or_iff_left hpending, le_max_iff,
      or_iff_right (not_le.mpr (lt_add_of_pos_right t' hd))]
    by_cases hbefore : j.state.Pending d t
    · -- the job was still pending at the earlier time: now it is overdue
      rw [computeNextRun_of_pending hspec hbefore]
      have hover : j.state.lastRun + d ≤ t' := not_lt.mp fun hlt => hpending ⟨hbefore.1, hlt⟩
      refine iff_of_false (fun hdue => ?_) ?_
      · exact absurd (hdue.trans hover) (not_le.mpr (lt_add_of_pos_right t' hd))
      · rintro rfl
        exact hpending hbefore
    · rw [computeNextRun_of_not_pending hspec hbefore, add_le_add_iff_right]
      exact ⟨fun h => le_antisymm hle h, fun h => h.ge⟩

/-- **What starting again does to the due time.**  A job with an interval is added at a time
and, with no execution in between, added again at a later time.  The later due time is at
most the earlier one, or the current time, exactly when the job has run and is not due yet;
otherwise it is a whole interval away. -/
theorem nextRun_le_iff (cron : CronLib κ) (codec : Codec JobState V)
    (store : Option (BadgerStore V)) {cfg : JobConfig} {d : Duration} {raw : String}
    (hcheck : cfg.check cron = .ok (.interval d raw)) {t t' : Time} (hle : t ≤ t') :
    ((newJob cron codec store cfg.normalize (.interval d raw) t').nextRun ≤
        max t' (newJob cron codec store cfg.normalize (.interval d raw) t).nextRun ↔
      t = t' ∨ (loadState codec store cfg.name).Pending d t') ∧
    (¬ (loadState codec store cfg.name).Pending d t' →
      (newJob cron codec store cfg.normalize (.interval d raw) t').nextRun = t' + d) := by
  have hd : 0 < d := (known_newJob codec store hcheck t).interval d rfl
  -- the object before its due time is computed, which is the same at both times
  let j : Job κ :=
    { newJob cron codec store cfg.normalize (.interval d raw) t with nextRun := 0 }
  exact ⟨computeNextRun_le_iff (j := j) rfl hd hle, computeNextRun_of_not_pending (j := j) rfl⟩

/-- The saved state of a job that has run once. -/
def ranOnce : Option (BadgerStore JobState) :=
  saveState stateCodec (some .empty)
    { newJob noCron stateCodec none scan (.interval (20 * millisecond) "20ms") unixEpoch with
      state := { JobState.none with lastRun := unixEpoch } }

/-- Started again five milliseconds before it is due, the job keeps its due time. -/
theorem nextRun_kept :
    (newJob noCron stateCodec ranOnce scan.normalize (.interval (20 * millisecond) "20ms")
        (unixEpoch + 15 * millisecond)).nextRun ≤
      max (unixEpoch + 15 * millisecond)
        (newJob noCron stateCodec ranOnce scan.normalize (.interval (20 * millisecond) "20ms")
          (unixEpoch + 10 * millisecond)).nextRun :=
  (nextRun_le_iff noCron stateCodec ranOnce (by decide +kernel) (by decide)).1.mpr
    (.inr (by unfold JobState.Pending; decide +kernel))

/-- Started again five milliseconds after it was due, the job is postponed by an interval. -/
theorem nextRun_postponed :
    ¬ (newJob noCron stateCodec ranOnce scan.normalize (.interval (20 * millisecond) "20ms")
        (unixEpoch + 25 * millisecond)).nextRun ≤
      max (unixEpoch + 25 * millisecond)
        (newJob noCron stateCodec ranOnce scan.normalize (.interval (20 * millisecond) "20ms")
          (unixEpoch + 10 * millisecond)).nextRun := by
  decide +kernel

end Arcsent.Scheduling
