/-
# Executions of a plugin

A plugin is executed in two ways, both in `internal/scheduler/scheduler.go`: a job executes
it on its schedule, with retries, and a request may trigger it at once.  Each way recovers a
panic for itself.  In `runOnce`, whose results have no names, a recovered panic leaves both
of them at their zero values, and the caller sees a missing result without an error.  The
scheduled path takes that for a failure; `RunOnce` passes it on.

The waits between the attempts of a job are doubled without a check for overflow.
-/
import Arcsent.Lib.Retry
import Arcsent.Scheduler.Loops
import Arcsent.Servers.Handlers

namespace Arcsent.Scheduling

open Arcsent.Go Arcsent.Scanner Arcsent.Storage Arcsent.Plugins Arcsent.Lib Arcsent.Servers

/-! ## The scheduled path -/

/-- What an attempt returns: an error, or no error and perhaps a result. -/
abbrev Returned := Except String (Option Result)

/-- The attempt has been successful. -/
def Returned.completed : Returned → Bool
  | .ok (some _) => true
  | _ => false

/-- The method `runOnce` of a job.  A recovered panic leaves the zero values. -/
def runOnce (mgr : Plugins.Manager) (cfg : JobConfig) (run : Plugin → PluginRun) : Returned :=
  match mgr.get cfg.plugin with
  | .error err => .error err
  | .ok p =>
    match run p with
    | .panic => .ok none
    | .error err => .error err
    | .nilResult => .ok none
    | .result r => .ok (some r)

/-- What the attempts of an execution meet: what the plugin does in each of them, and the
readings of the clock before and after it. -/
structure Attempts where
  run : ℕ → Plugin → PluginRun
  started : ℕ → Time
  finished : ℕ → Time

/-- What can be seen of an execution from outside. -/
inductive Mark
  /-- The plugin is run. -/
  | attempt (returned : Returned)
  /-- Nothing is done for some time. -/
  | wait (d : Duration)

/-- The function `time.Sleep`, which returns at once when the time is not positive. -/
def sleep (d : Duration) : List Mark := if 0 < d then [.wait d] else []

/-- The error that an execution ends with when this was its last attempt. -/
def Returned.failure : Returned → String
  | .error err => err
  | .ok _ => "job failed"

variable (mgr : Plugins.Manager) (cfg : JobConfig) (w : Attempts)

/-- The loop of `executeWithRetry` from an attempt on, with the number of attempts that are
still allowed after it. -/
def executeWithRetryFrom : (left attempt : ℕ) → List Mark × Except String Result
  | left, attempt =>
    let returned := runOnce mgr cfg (w.run attempt)
    match returned with
    | .ok (some r) =>
      ([.attempt returned], .ok { r with
        startedAt := w.started attempt, finishedAt := w.finished attempt
        duration := w.finished attempt - w.started attempt })
    | returned =>
      -- an error, `nil`, or a panic that has been recovered
      match left with
      | 0 => ([.attempt returned], .error returned.failure)
      | left + 1 =>
        let rest := executeWithRetryFrom left (attempt + 1)
        (.attempt returned :: (sleep (cfg.backoff attempt) ++ rest.1), rest.2)

/-- The method `executeWithRetry`.  A negative number of retries leaves no attempt. -/
def executeWithRetry : List Mark × Except String Result :=
  if cfg.maxRetries < 0 then ([], .error "job failed")
  else executeWithRetryFrom mgr cfg w cfg.maxRetries.toNat 0

/-- The method `executeJob` after the overlap check: what `updateState` is given, and what
the hook of the daemon is. -/
def executeJob : Except String Status × Option Result :=
  match (executeWithRetry mgr cfg w).2 with
  | .error err => (.error err, none)
  | .ok r => (.ok r.status, some r)

/-! ## The trace of an execution -/

/-- What the attempts of an execution return. -/
def returned (a : ℕ) : Returned := runOnce mgr cfg (w.run a)

/-- The result of an attempt, with the readings of the clock around it. -/
def stamped (a : ℕ) (r : Result) : Result :=
  { r with
    startedAt := w.started a, finishedAt := w.finished a
    duration := w.finished a - w.started a }

lemma Returned.exists_of_completed {ret : Returned} (h : ret.completed = true) :
    ∃ r, ret = .ok (some r) := by
  cases ret with
  | error err => cases h
  | ok r =>
    cases r with
    | none => cases h
    | some r => exact ⟨r, rfl⟩

section Cases

variable {mgr cfg w} {a : ℕ}

/-- A result ends the loop. -/
lemma executeWithRetryFrom_of_result {r : Result} (h : returned mgr cfg w a = .ok (some r))
    (left : ℕ) : executeWithRetryFrom mgr cfg w left a =
      ([.attempt (returned mgr cfg w a)], .ok (stamped w a r)) := by
  have hrun : runOnce mgr cfg (w.run a) = .ok (some r) := h
  rw [executeWithRetryFrom, returned, hrun]
  rfl

/-- So does the last attempt that is allowed. -/
lemma executeWithRetryFrom_zero (h : (returned mgr cfg w a).completed = false) :
    executeWithRetryFrom mgr cfg w 0 a =
      ([.attempt (returned mgr cfg w a)], .error (returned mgr cfg w a).failure) := by
  rw [returned] at h ⊢
  rw [executeWithRetryFrom]
  cases hrun : runOnce mgr cfg (w.run a) with
  | error err => rfl
  | ok r =>
    cases r with
    | none => rfl
    | some r => simp [hrun, Returned.completed] at h

/-- After any other attempt the next one is made. -/
lemma executeWithRetryFrom_succ (h : (returned mgr cfg w a).completed = false) (left : ℕ) :
    executeWithRetryFrom mgr cfg w (left + 1) a =
      (.attempt (returned mgr cfg w a) ::
          (sleep (cfg.backoff a) ++ (executeWithRetryFrom mgr cfg w left (a + 1)).1),
        (executeWithRetryFrom mgr cfg w left (a + 1)).2) := by
  rw [returned] at h ⊢
  rw [executeWithRetryFrom]
  cases hrun : runOnce mgr cfg (w.run a) with
  | error err => rfl
  | ok r =>
    cases r with
    | none => rfl
    | some r => simp [hrun, Returned.completed] at h

end Cases

/-- The loop is one that tries again. -/
lemma executeWithRetryFrom_trace (left a : ℕ) :
    (executeWithRetryFrom mgr cfg w left a).1 =
      retryLoop (fun a => (returned mgr cfg w a).completed)
        (fun a => .attempt (returned mgr cfg w a)) (fun a => sleep (cfg.backoff a)) (fun _ => [])
        left a := by
  induction left generalizing a with
  | zero =>
    rw [retryLoop]
    cases hgood : (returned mgr cfg w a).completed with
    | true =>
      obtain ⟨r, hr⟩ := Returned.exists_of_completed hgood
      rw [executeWithRetryFrom_of_result hr]
    | false => rw [executeWithRetryFrom_zero hgood]
  | succ left ih =>
    rw [retryLoop]
    cases hgood : (returned mgr cfg w a).completed with
    | true =>
      obtain ⟨r, hr⟩ := Returned.exists_of_completed hgood
      rw [executeWithRetryFrom_of_result hr, if_pos rfl]
    | false => rw [executeWithRetryFrom_succ hgood, ih, if_neg (by simp)]

/-- The loop returns a result when its last attempt has come to one. -/
lemma executeWithRetryFrom_isOk {last : ℕ} :
    ∀ {left a : ℕ}, a ≤ last →
      IsLast (fun a => (returned mgr cfg w a).completed) (a + left) last →
      (executeWithRetryFrom mgr cfg w left a).2.isOk = (returned mgr cfg w last).completed := by
  intro left
  induction left with
  | zero =>
    intro a hle h
    obtain rfl : a = last := le_antisymm hle h.le
    cases hgood : (returned mgr cfg w a).completed with
    | true =>
      obtain ⟨r, hr⟩ := Returned.exists_of_completed hgood
      rw [executeWithRetryFrom_of_result hr]
      rfl
    | false =>
      rw [executeWithRetryFrom_zero hgood]
      rfl
  | succ left ih =>
    intro a hle h
    rcases hle.eq_or_lt with rfl | hlt
    · -- attempts are left, so that the last one has been successful
      have hgood : (returned mgr cfg w a).completed = true := h.stop.resolve_right (by omega)
      obtain ⟨r, hr⟩ := Returned.exists_of_completed hgood
      rw [executeWithRetryFrom_of_result hr, hgood]
      rfl
    · have hlimit : a + (left + 1) = a + 1 + left := by omega
      rw [executeWithRetryFrom_succ (h.failed a hlt)]
      exact ih hlt (hlimit ▸ h)

/-! ## The loop of a job -/

section Loop

variable {κ V : Type} (cron : CronLib κ) (codec : Codec JobState V) (store : Option (BadgerStore V))
  (j : Job κ) (cancelled : Bool)

/-- What the loop of a job sees of what an attempt returns. -/
def Returned.runResult : Returned → RunResult
  | .error err => .error err
  | .ok none => .nilResult
  | .ok (some r) => .result r.status

/-- The loop of a job while it makes its attempts: it moves, or some time goes by. -/
def attemptStep : Time × Pc → Option ℕ → Option (Time × Pc)
  | (now, pc), some d => some (now + d, pc)
  | (now, .attempt origin a), none =>
    (loopMove cron codec now cancelled store j (.attempt origin a)
      (.ran (returned mgr j.cfg w a).runResult)).map fun r => (now, r.1.2)
  | (now, .backoff origin a deadline), none =>
    (loopMove cron codec now cancelled store j (.backoff origin a deadline) .go).map fun r =>
      (now, r.1.2)
  | _, none => none

/-- What an execution comes to from one of its attempts on. -/
def outcomeFrom (left a : ℕ) : Except String Status :=
  (executeWithRetryFrom mgr j.cfg w left a).2.map Result.status

/-- The attempts that are left at a position settle the outcome of the execution. -/
def OnTheWay (outcome : Except String Status) : Pc → Prop
  | .attempt _ a => ∃ left : ℕ, j.cfg.maxRetries = a + left ∧ outcomeFrom mgr w j left a = outcome
  | .backoff _ a _ =>
    ∃ left : ℕ, j.cfg.maxRetries = a + 1 + left ∧ outcomeFrom mgr w j left (a + 1) = outcome
  | .saving _ saved => saved = outcome
  | _ => True

variable {mgr w cron codec store j cancelled} {outcome : Except String Status}

/-- What the loop does after an attempt without a result. -/
lemma loopMove_failed {now : Time} {origin : Origin} {a : ℕ} {ret : Returned}
    (h : ret.completed = false) :
    loopMove cron codec now cancelled store j (.attempt origin a) (.ran ret.runResult) =
      if a < j.cfg.maxRetries then some ((j, .backoff origin a (now + j.cfg.backoff a)), store)
      else some ((j, .saving origin (.error ret.failure)), store) := by
  cases ret with
  | error err => rfl
  | ok r =>
    cases r with
    | none => rfl
    | some r => cases h

/-- After an attempt the loop is where what is left settles the outcome. -/
lemma onTheWay_attempt {now : Time} {origin : Origin} {a left : ℕ} {j' : Job κ} {pc' : Pc}
    {store' : Option (BadgerStore V)} (hlimit : j.cfg.maxRetries = a + left)
    (hmove : loopMove cron codec now cancelled store j (.attempt origin a)
      (.ran (returned mgr j.cfg w a).runResult) = some ((j', pc'), store')) :
    OnTheWay mgr w j (outcomeFrom mgr w j left a) pc' := by
  cases hgood : (returned mgr j.cfg w a).completed with
  | true =>
    obtain ⟨r, hr⟩ := Returned.exists_of_completed hgood
    rw [hr] at hmove
    obtain ⟨⟨-, rfl⟩, -⟩ : (j = j' ∧ .saving origin (.ok r.status) = pc') ∧ store = store' := by
      simpa [loopMove, Returned.runResult] using hmove
    change Except.ok r.status = outcomeFrom mgr w j left a
    rw [outcomeFrom, executeWithRetryFrom_of_result hr]
    rfl
  | false =>
    rw [loopMove_failed hgood] at hmove
    cases left with
    | zero =>
      -- the attempts are used up
      have hlast : ¬ (a : ℤ) < j.cfg.maxRetries := by omega
      rw [if_neg hlast] at hmove
      obtain ⟨⟨-, rfl⟩, -⟩ : (j = j' ∧ .saving origin _ = pc') ∧ store = store' := by
        simpa using hmove
      change Except.error _ = outcomeFrom mgr w j 0 a
      rw [outcomeFrom, executeWithRetryFrom_zero hgood]
      rfl
    | succ left =>
      -- a wait comes, and then the next attempt
      have hmore : (a : ℤ) < j.cfg.maxRetries := by omega
      rw [if_pos hmore] at hmove
      obtain ⟨⟨-, rfl⟩, -⟩ : (j = j' ∧ .backoff origin a _ = pc') ∧ store = store' := by
        simpa using hmove
      refine ⟨left, by rw [hlimit]; push_cast; ring, ?_⟩
      rw [outcomeFrom, outcomeFrom, executeWithRetryFrom_succ hgood]

/-- A step keeps the outcome in sight. -/
lemma onTheWay_step {s t : Time × Pc} {e : Option ℕ} (h : OnTheWay mgr w j outcome s.2)
    (hstep : attemptStep mgr w cron codec store j cancelled s e = some t) :
    OnTheWay mgr w j outcome t.2 := by
  obtain ⟨now, pc⟩ := s
  cases e with
  | some d =>
    obtain rfl := Option.some.inj hstep
    exact h
  | none =>
    cases pc with
    | attempt origin a =>
      obtain ⟨left, hlimit, rfl⟩ := h
      obtain ⟨⟨⟨j', pc'⟩, store'⟩, hmove, rfl⟩ := Option.map_eq_some_iff.mp hstep
      exact onTheWay_attempt hlimit hmove
    | backoff origin a deadline =>
      obtain ⟨left, hlimit, hout⟩ := h
      obtain ⟨⟨⟨j', pc'⟩, store'⟩, hmove, rfl⟩ := Option.map_eq_some_iff.mp hstep
      cases loopMove_cases hmove with
      | again => exact ⟨left, hlimit, hout⟩
    | _ => cases hstep

/-- **The loop of a job saves what `executeJob` comes to.** -/
theorem saves_executeJob (hretries : 0 ≤ j.cfg.maxRetries) {now now' : Time}
    {origin origin' : Origin} {saved : Except String Status} {es : List (Option ℕ)}
    (hrun : run (attemptStep mgr w cron codec store j cancelled) (now, .attempt origin 0) es =
      some (now', .saving origin' saved)) :
    saved = (executeJob mgr j.cfg w).1 := by
  have hway : OnTheWay mgr w j (outcomeFrom mgr w j j.cfg.maxRetries.toNat 0)
      (Pc.attempt origin 0) := ⟨j.cfg.maxRetries.toNat, by omega, rfl⟩
  have hsaved := inv_of_run
    (I := fun s => OnTheWay mgr w j (outcomeFrom mgr w j j.cfg.maxRetries.toNat 0) s.2)
    (fun _ _ _ h hstep => onTheWay_step h hstep) hway hrun
  rw [executeJob, executeWithRetry, if_neg (not_lt.mpr hretries)]
  refine Eq.trans hsaved ?_
  rw [outcomeFrom]
  cases (executeWithRetryFrom mgr j.cfg w j.cfg.maxRetries.toNat 0).2 <;> rfl

end Loop

/-! ## The waits -/

/-- The settings of the retries as `AddJob` leaves them. -/
structure RetrySettings (cfg : JobConfig) : Prop where
  retries : 0 ≤ cfg.maxRetries
  backoff : 0 < cfg.retryBackoff
  /-- It is a 64-bit number. -/
  backoff_lt : cfg.retryBackoff < 2 ^ 63
  max : 0 < cfg.retryMax

/-- The defaults that `AddJob` puts in are such settings. -/
lemma retrySettings_normalize {cfg : JobConfig} (h : cfg.retryBackoff < 2 ^ 63) :
    RetrySettings cfg.normalize := by
  refine ⟨?_, ?_, ?_, ?_⟩
  · change 0 ≤ if cfg.maxRetries < 0 then 0 else cfg.maxRetries
    split_ifs with hneg
    · exact le_rfl
    · exact not_lt.mp hneg
  · change 0 < if cfg.retryBackoff ≤ 0 then 2 * second else cfg.retryBackoff
    split_ifs with hneg
    · decide
    · exact not_le.mp hneg
  · change (if cfg.retryBackoff ≤ 0 then 2 * second else cfg.retryBackoff) < 2 ^ 63
    split_ifs
    · decide
    · exact h
  · change 0 < if cfg.retryMax ≤ 0 then 30 * second else cfg.retryMax
    split_ifs with hneg
    · decide
    · exact not_le.mp hneg

/-- The doubled time before attempt `a + 1`, never more than the maximum. -/
def JobConfig.pause (cfg : JobConfig) (a : ℕ) : Duration :=
  min (cfg.retryBackoff * 2 ^ a) cfg.retryMax

variable {cfg} in
lemma RetrySettings.pause_pos (h : RetrySettings cfg) (a : ℕ) : 0 < cfg.pause a :=
  lt_min (mul_pos h.backoff (pow_pos two_pos a)) h.max

variable {cfg} in
lemma RetrySettings.pause_mono (h : RetrySettings cfg) : Monotone cfg.pause := fun _ _ hab =>
  min_le_min_right _ (mul_le_mul_of_nonneg_left (pow_le_pow_right₀ (by norm_num) hab) h.backoff.le)

/-- What the source computes is the doubled time, as the 64-bit number it comes out as. -/
lemma backoff_eq (cfg : JobConfig) (a : ℕ) :
    cfg.backoff a = min ((cfg.retryBackoff * 2 ^ a).bmod (2 * 2 ^ 63)) cfg.retryMax := by
  have hwrap : wrap64 (cfg.retryBackoff * wrap64 (2 ^ a)) =
      (cfg.retryBackoff * 2 ^ a).bmod (2 * 2 ^ 63) := bmod_mul_pow _ _ _
  rw [JobConfig.backoff, hwrap]
  split_ifs with hmax
  · rw [min_eq_right hmax.le]
  · rw [min_eq_left (not_lt.mp hmax)]

variable {cfg} in
/-- The waits before an attempt are the planned ones when no product has overflowed. -/
lemma RetrySettings.sleeps_iff (h : RetrySettings cfg) (last : ℕ) :
    (∀ a < last, sleep (cfg.backoff a) = [.wait (cfg.pause a)]) ↔
      ∀ a < last, cfg.retryBackoff * 2 ^ a < 2 ^ 63 := by
  constructor
  · intro hsleep
    refine (fits_bits_iff_pos 63 h.backoff h.backoff_lt last).mpr fun a ha => ?_
    have hpos : 0 < cfg.backoff a := by
      by_contra hneg
      have hnone := hsleep a ha
      rw [sleep, if_neg hneg] at hnone
      simp at hnone
    rw [backoff_eq] at hpos
    exact (lt_min_iff.mp hpos).1
  · intro hlt a ha
    have hpow : 0 < cfg.retryBackoff * 2 ^ a := mul_pos h.backoff (pow_pos two_pos a)
    have hbackoff : cfg.backoff a = cfg.pause a := by
      rw [backoff_eq, bmod_of_fits hpow.le (hlt a ha), JobConfig.pause]
    rw [hbackoff, sleep, if_pos (h.pause_pos a)]

/-! ## The planned trace -/

/-- The trace up to attempt `last`, with the planned waits. -/
def planned (cfg : JobConfig) (returned : ℕ → Returned) (last : ℕ) : List Mark :=
  (List.range (last + 1)).flatMap fun a =>
    .attempt (returned a) ::
      if a < last then [.wait (min (cfg.retryBackoff * 2 ^ a) cfg.retryMax)] else []

/-- The waits of a trace, in order. -/
def waits (trace : List Mark) : List Duration :=
  trace.filterMap fun
    | .wait d => some d
    | .attempt _ => none

lemma planned_eq_flat (cfg : JobConfig) (returned : ℕ → Returned) (last : ℕ) :
    planned cfg returned last = flat (attemptBlocks (fun a => .attempt (returned a))
      (fun a => if a < last then [.wait (cfg.pause a)] else []) last) := by
  rw [flat, attemptBlocks, List.flatMap_map]
  rfl

/-- The planned waits are those between the attempts. -/
lemma waits_planned (cfg : JobConfig) (returned : ℕ → Returned) (last : ℕ) :
    waits (planned cfg returned last) = (List.range last).map cfg.pause := by
  have hblock : ∀ a, waits (.attempt (returned a) ::
      if a < last then [.wait (cfg.pause a)] else []) = if a < last then [cfg.pause a] else [] := by
    intro a
    split_ifs <;> rfl
  have hlt : (List.range last).flatMap (fun a => if a < last then [cfg.pause a] else []) =
      (List.range last).flatMap fun a => [cfg.pause a] := by
    refine List.flatMap_congr fun a ha => if_pos (List.mem_range.mp ha)
  rw [planned, waits, List.filterMap_flatMap]
  change (List.range (last + 1)).flatMap (fun a => waits (.attempt (returned a) ::
    if a < last then [.wait (cfg.pause a)] else [])) = _
  rw [List.flatMap_congr fun a _ => hblock a, List.range_succ, List.flatMap_append, hlt,
    List.map_eq_flatMap]
  simp

/-- The execution `r` of a job is as planned: attempts are made up to the first one that
comes to a result or to the limit, in the former case alone a result is returned, and the
waits are the doubled times, between the attempts only. -/
structure RetriesAsPlanned (cfg : JobConfig) (returned : ℕ → Returned)
    (r : List Mark × Except String Result) : Prop where
  trace : ∃ last, IsLast (fun a => (returned a).completed) cfg.maxRetries.toNat last ∧
    r.1 = planned cfg returned last ∧ r.2.isOk = (returned last).completed
  range : ∀ d ∈ waits r.1, 0 < d ∧ d ≤ cfg.retryMax
  mono : (waits r.1).Pairwise (· ≤ ·)

/-- No time that is waited for is doubled beyond what a 64-bit number holds. -/
def NoOverflow (cfg : JobConfig) (returned : ℕ → Returned) : Prop :=
  ∀ a < cfg.maxRetries.toNat, (∀ i ≤ a, (returned i).completed = false) →
    cfg.retryBackoff * 2 ^ a < 2 ^ 63

/-- The condition, in terms of the last attempt. -/
lemma noOverflow_iff {returned : ℕ → Returned} {last : ℕ}
    (h : IsLast (fun a => (returned a).completed) cfg.maxRetries.toNat last) :
    NoOverflow cfg returned ↔ ∀ a < last, cfg.retryBackoff * 2 ^ a < 2 ^ 63 :=
  h.forall_lt_iff fun a => cfg.retryBackoff * 2 ^ a < 2 ^ 63

variable {cfg} in
lemma executeWithRetry_eq (h : RetrySettings cfg) :
    executeWithRetry mgr cfg w = executeWithRetryFrom mgr cfg w cfg.maxRetries.toNat 0 := by
  rw [executeWithRetry, if_neg (not_lt.mpr h.retries)]

variable {cfg} in
/-- The trace is the planned one when nothing overflows on the way to the last attempt. -/
lemma trace_eq_planned_iff (h : RetrySettings cfg) {last : ℕ}
    (hlast : IsLast (fun a => (returned mgr cfg w a).completed) cfg.maxRetries.toNat last) :
    (executeWithRetry mgr cfg w).1 = planned cfg (returned mgr cfg w) last ↔
      ∀ a < last, cfg.retryBackoff * 2 ^ a < 2 ^ 63 := by
  -- the attempts stand between the waits, so that equal traces have equal gaps
  have hmarked : ∀ gap : ℕ → List Mark, (∀ a, ∀ e ∈ gap a, ∃ d, e = .wait d) →
      Blocked (fun e => ∃ ret, e = .attempt ret)
        (attemptBlocks (fun a => .attempt (returned mgr cfg w a)) gap last) := by
    intro gap hgap
    refine blocked_attemptBlocks (fun a => ⟨_, rfl⟩) fun a e he => ?_
    obtain ⟨d, rfl⟩ := hgap a e he
    simp
  have hsleep : ∀ d, ∀ e ∈ sleep d, ∃ d, e = .wait d := by
    intro d e he
    rw [sleep] at he
    split_ifs at he
    · exact ⟨d, List.mem_singleton.mp he⟩
    · cases he
  rw [executeWithRetry_eq mgr w h, executeWithRetryFrom_trace, retryLoop_eq hlast,
    planned_eq_flat, ← h.sleeps_iff]
  constructor
  · intro hflat a ha
    have hblocks := flat_inj (hmarked _ fun a e he => ?_) (hmarked _ fun a e he => ?_) hflat
    · have hgap := attemptBlocks_congr_iff.mp hblocks a ha.le
      rwa [if_pos ha, if_pos ha] at hgap
    · split_ifs at he
      · exact hsleep _ e he
      · cases he
    · split_ifs at he
      · exact ⟨_, List.mem_singleton.mp he⟩
      · cases he
  · intro hgaps
    refine congrArg flat (attemptBlocks_congr_iff.mpr fun a _ => ?_)
    split_ifs with ha
    · exact hgaps a ha
    · rfl

/-- **An execution is as planned exactly when no time that it waits for overflows.** -/
theorem retriesAsPlanned_iff (h : RetrySettings cfg) :
    RetriesAsPlanned cfg (returned mgr cfg w) (executeWithRetry mgr cfg w) ↔
      NoOverflow cfg (returned mgr cfg w) := by
  obtain ⟨last, hlast⟩ :=
    exists_isLast (fun a => (returned mgr cfg w a).completed) cfg.maxRetries.toNat
  rw [noOverflow_iff cfg hlast]
  constructor
  · rintro ⟨⟨last', hlast', htrace, -⟩, -, -⟩
    obtain rfl : last = last' := hlast.unique hlast'
    exact (trace_eq_planned_iff mgr w h hlast).mp htrace
  · intro hfits
    have htrace := (trace_eq_planned_iff mgr w h hlast).mpr hfits
    refine ⟨⟨last, hlast, htrace, ?_⟩, ?_, ?_⟩
    · rw [executeWithRetry_eq mgr w h]
      exact executeWithRetryFrom_isOk mgr cfg w (Nat.zero_le last) (by rwa [Nat.zero_add])
    · rw [htrace, waits_planned]
      intro d hd
      obtain ⟨a, -, rfl⟩ := List.mem_map.mp hd
      exact ⟨h.pause_pos a, min_le_right _ _⟩
    · rw [htrace, waits_planned]
      exact List.Pairwise.map _ (fun a b hab => h.pause_mono hab.le) List.pairwise_lt_range

/-- A job with the default waits. -/
def patientJob (maxRetries : ℤ) : JobConfig :=
  JobConfig.normalize ⟨"uptime", "system.uptime", "1h", 0, maxRetries, 0, 0, false, false⟩

/-- The plugin that the job is for. -/
def uptimeManager : Plugins.Manager := ⟨[("system.uptime", .uptime)]⟩

/-- Attempts none of which comes to a result. -/
def failingAttempts : Attempts := ⟨fun _ _ => .error "no uptime", fun _ => 0, fun _ => 0⟩

/-- With three retries the waits are two, four and eight seconds. -/
theorem retriesAsPlanned_three :
    RetriesAsPlanned (patientJob 3) (returned uptimeManager (patientJob 3) failingAttempts)
        (executeWithRetry uptimeManager (patientJob 3) failingAttempts) ∧
      waits (executeWithRetry uptimeManager (patientJob 3) failingAttempts).1 =
        [2 * second, 4 * second, 8 * second] := by
  have hsettings : RetrySettings (patientJob 3) := retrySettings_normalize (by decide)
  refine ⟨(retriesAsPlanned_iff _ _ _ hsettings).mpr ?_, by decide +kernel⟩
  intro a ha _
  have hfits : ∀ a < 3, (patientJob 3).retryBackoff * 2 ^ a < 2 ^ 63 := by decide
  exact hfits a ha

/-- With 34 retries the wait before the last of them is left out: `2 s * 2 ^ 33` is negative
as a 64-bit number. -/
theorem not_retriesAsPlanned_failing :
    ¬ RetriesAsPlanned (patientJob 34) (returned uptimeManager (patientJob 34) failingAttempts)
      (executeWithRetry uptimeManager (patientJob 34) failingAttempts) := by
  have hsettings : RetrySettings (patientJob 34) := retrySettings_normalize (by decide)
  rintro ⟨⟨last, hlast, htrace, -⟩, -, -⟩
  have hthis : IsLast (fun a =>
      (returned uptimeManager (patientJob 34) failingAttempts a).completed) 34 34 :=
    ⟨le_rfl, fun _ _ => rfl, .inr rfl⟩
  obtain rfl : 34 = last := hthis.unique hlast
  have hfits := (trace_eq_planned_iff _ _ hsettings hlast).mp htrace 33 (by decide)
  exact absurd hfits (by decide)

/-! ## A plugin that is triggered -/

section Trigger

variable {κ V : Type} (w : Surroundings) (s : Server κ V) (req : Request)

/-- The name of the plugin that a request triggers. -/
def triggered : String := trimPrefix req.path "/scanners/trigger/"

/-- The attempts of an execution in which the plugin always does the same. -/
def steady : Attempts := ⟨fun _ => w.run, fun _ => w.started, fun _ => w.finished⟩

/-- The results that the hook of the daemon has been given. -/
def givenResults (effects : List Effect) : List Result :=
  effects.filterMap fun
    | .onResult r => some r
    | _ => none

/-- The result that a call of `RunOnce` returns, if it is not `nil`. -/
def resultOf : Except String (Option Result) → List Result
  | .ok (some r) => [r]
  | _ => []

/-- A triggered run comes to a result or to an error. -/
structure ResultOrError : Prop where
  /-- `RunOnce` does not return `nil` twice. -/
  one : (Servers.runOnce w s.mgr (triggered req)).1 ≠ .ok none
  /-- The hook is given the result when there is one, and nothing otherwise. -/
  hook : givenResults (Servers.runOnce w s.mgr (triggered req)).2 =
    resultOf (Servers.runOnce w s.mgr (triggered req)).1
  /-- An answer that reports success has a result in it. -/
  answer : (handleTrigger w s req).1.status = 200 →
    ∃ r, (handleTrigger w s req).1.body = .json (.result (some r))
  /-- A job for the plugin counts the same behaviour as a success or as a failure. -/
  agrees : ∀ cfg : JobConfig, cfg.plugin = triggered req → 0 ≤ cfg.maxRetries →
    (executeJob s.mgr cfg (steady w)).1.isOk =
      (Servers.runOnce w s.mgr (triggered req)).1.isOk

/-- The plugin that the request names is there and panics. -/
def TriggerPanics : Prop := ∃ p, s.mgr.get (triggered req) = .ok p ∧ w.run p = .panic

variable {w s req}

/-- A job whose attempts are all alike succeeds when one of them does. -/
lemma executeJob_steady {cfg : JobConfig} (hretries : 0 ≤ cfg.maxRetries) :
    (executeJob s.mgr cfg (steady w)).1.isOk = (runOnce s.mgr cfg w.run).completed := by
  obtain ⟨last, hlast⟩ :=
    exists_isLast (fun a => (returned s.mgr cfg (steady w) a).completed) cfg.maxRetries.toNat
  have hok := executeWithRetryFrom_isOk s.mgr cfg (steady w) (Nat.zero_le last)
    (by rwa [Nat.zero_add])
  rw [executeJob, executeWithRetry, if_neg (not_lt.mpr hretries)]
  refine Eq.trans ?_ hok
  cases (executeWithRetryFrom s.mgr cfg (steady w) cfg.maxRetries.toNat 0).2 <;> rfl

/-- What `RunOnce` comes to when the plugin does not panic, and what an attempt of a job
for the same plugin does. -/
lemma runOnce_cases (hcalm : ¬ TriggerPanics w s req) {cfg : JobConfig}
    (hcfg : cfg.plugin = triggered req) :
    (∃ err effects, Servers.runOnce w s.mgr (triggered req) = (.error err, effects) ∧
      givenResults effects = [] ∧ (runOnce s.mgr cfg w.run).completed = false) ∨
    ∃ p r, Servers.runOnce w s.mgr (triggered req) = (.ok (some r), [.run p, .onResult r]) ∧
      (runOnce s.mgr cfg w.run).completed = true := by
  rw [Servers.runOnce, runOnce, hcfg]
  cases hget : s.mgr.get (triggered req) with
  | error err => exact .inl ⟨err, [], rfl, rfl, rfl⟩
  | ok p =>
    dsimp only
    cases hrun : w.run p with
    | result r => exact .inr ⟨p, _, rfl, rfl⟩
    | nilResult => exact .inl ⟨_, _, rfl, rfl, rfl⟩
    | error err => exact .inl ⟨err, _, rfl, rfl, rfl⟩
    | panic => exact absurd ⟨p, hget, hrun⟩ hcalm

/-- Whether `RunOnce` returns an error does not depend on the settings of a job. -/
lemma exists_job (req : Request) : ∃ cfg : JobConfig, cfg.plugin = triggered req :=
  ⟨⟨"", triggered req, "", 0, 0, 0, 0, false, false⟩, rfl⟩

/-- **A triggered run comes to a result or to an error exactly when the plugin does not
panic.** -/
theorem resultOrError_iff : ResultOrError w s req ↔ ¬ TriggerPanics w s req := by
  constructor
  · rintro ⟨hone, -, -, -⟩ ⟨p, hp, hpanic⟩
    refine hone ?_
    rw [Servers.runOnce, hp]
    dsimp only
    rw [hpanic]
  · intro hcalm
    -- without a panic the scheduled path and the endpoint see the same run
    have hagrees : ∀ cfg : JobConfig, cfg.plugin = triggered req → 0 ≤ cfg.maxRetries →
        (executeJob s.mgr cfg (steady w)).1.isOk =
          (Servers.runOnce w s.mgr (triggered req)).1.isOk := by
      intro cfg hcfg hretries
      rw [executeJob_steady hretries]
      obtain ⟨err, effects, hrun, -, hfailed⟩ | ⟨p, r, hrun, hgood⟩ := runOnce_cases hcalm hcfg
      · rw [hrun, hfailed]
        rfl
      · rw [hrun, hgood]
        rfl
    obtain ⟨cfg, hcfg⟩ := exists_job req
    obtain ⟨err, effects, hrun, hgiven, -⟩ | ⟨p, r, hrun, -⟩ := runOnce_cases hcalm hcfg
    · refine ⟨by simp [hrun], by rw [hrun]; exact hgiven, ?_, hagrees⟩
      rw [triggered] at hrun
      rw [handleTrigger, hrun]
      dsimp only
      split_ifs <;> exact fun h => absurd (show 400 = 200 from h) (by decide)
    · refine ⟨by simp [hrun], by rw [hrun]; rfl, ?_, hagrees⟩
      rw [triggered] at hrun
      rw [handleTrigger, hrun]
      dsimp only
      split_ifs
      · exact fun h => absurd h (by decide)
      · exact fun _ => ⟨r, rfl⟩

end Trigger

/-- A server with a single plugin. -/
def uptimeServer : Server Unit Unit where
  cfg := { enabled := true, bindAddr := "127.0.0.1:8788", readOnly := true, authToken := "t" }
  mgr := uptimeManager
  named := by decide
  sched := .new none
  results := .new 50
  baseline := none
  resultsStore := none
  sigStore := none
  sigUpdater := none

/-- The plugin panics. -/
def panicking : Surroundings where
  euid := 1000
  latestOrder := []
  run := fun _ => .panic
  started := unixEpoch
  finished := unixEpoch + second
  update := .error "no source"

/-- A panic is answered like a success, with `null` in the place of the result. -/
theorem not_resultOrError_panic :
    ¬ ResultOrError panicking uptimeServer
      (.plain "POST" "/scanners/trigger/system.uptime" [] (by decide)) := by
  intro h
  obtain ⟨r, hr⟩ := h.answer (by decide)
  cases hr

end Arcsent.Scheduling
