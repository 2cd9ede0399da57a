/-
# The delivery of an alert

The method `deliver` of `internal/alerting/engine.go`: the worker sends an alert to every
registered channel in order, and tries again on a channel that fails.  It sleeps after every
send that has failed, the last one included, and doubles the time without a check for
overflow.  All other alerts wait in the queue in the meantime.
-/
import Arcsent.Alerting.Engine
import Arcsent.Lib.Retry

namespace Arcsent.Alerting

open Arcsent.Go Arcsent.Lib

/-- A channel, with what its sends return, one after the other; `none` is a success. -/
structure Channel where
  name : String
  send : Alert → ℕ → Option String

/-- A send is successful. -/
def Channel.good (ch : Channel) (alert : Alert) (a : ℕ) : Bool := (ch.send alert a).isNone

/-- What can be seen of a delivery from outside. -/
inductive Delivery
  | send (channel : String) (err : Option String)
  /-- Nothing is done for some time. -/
  | wait (d : Duration)
  /-- The log line about a channel. -/
  | failed (channel err : String)
deriving DecidableEq

namespace Delivery

/-- A send or a log line. -/
def IsMark (x : Delivery) : Prop := ∀ d, x ≠ .wait d

/-- The function `time.Sleep`, which returns at once when the time is not positive. -/
def sleep (d : Duration) : List Delivery := if 0 < d then [.wait d] else []

end Delivery

namespace Engine

/-- The time that the worker sleeps for after send number `attempt`. -/
def backoff (e : Engine) (attempt : ℕ) : Duration := wrap64 (e.retryBackoff * wrap64 (2 ^ attempt))

variable (e : Engine) (alert : Alert) (ch : Channel)

/-- The loop over the attempts from one of them on, with the number of sends that are still
allowed after it, and the error it leaves behind. -/
def sendsFrom : (left attempt : ℕ) → List Delivery × Option String
  | left, attempt =>
    match ch.send alert attempt with
    | none => ([.send ch.name none], none)
    | some err =>
      match left with
      -- the source sleeps after the last send as well
      | 0 => (.send ch.name (some err) :: Delivery.sleep (e.backoff attempt), some err)
      | left + 1 =>
        let rest := sendsFrom left (attempt + 1)
        (.send ch.name (some err) :: (Delivery.sleep (e.backoff attempt) ++ rest.1), rest.2)

/-- The delivery to one channel.  With a negative number of retries nothing is sent. -/
def deliverTo : List Delivery :=
  let (trace, err) := if e.retryMax < 0 then ([], none) else e.sendsFrom alert ch e.retryMax.toNat 0
  match err with
  | none => trace
  | some err => trace ++ [.failed ch.name err]

/-- The method `deliver`. -/
def deliver (channels : List Channel) : List Delivery := channels.flatMap (e.deliverTo alert)

/-! ## The trace of one channel -/

/-- The log line about a channel whose last send is number `last`. -/
def report (last : ℕ) : List (Delivery × List Delivery) :=
  match ch.send alert last with
  | none => []
  | some err => [(.failed ch.name err, [])]

/-- The pause after a send: another one follows, or it was the last one. -/
def pauseAfter (last a : ℕ) : List Delivery :=
  if a < last then Delivery.sleep (e.backoff a)
  else if ch.good alert a then [] else Delivery.sleep (e.backoff a)

lemma sendsFrom_trace (left attempt : ℕ) :
    (e.sendsFrom alert ch left attempt).1 =
      retryLoop (ch.good alert) (fun a => .send ch.name (ch.send alert a))
        (fun a => Delivery.sleep (e.backoff a))
        (fun a => if ch.good alert a then [] else Delivery.sleep (e.backoff a)) left attempt := by
  induction left generalizing attempt with
  | zero =>
    rw [sendsFrom, retryLoop, Channel.good]
    cases ch.send alert attempt <;> rfl
  | succ left ih =>
    rw [sendsFrom, retryLoop, ← ih, Channel.good]
    cases ch.send alert attempt <;> rfl

/-- The error that is left behind is that of the last send. -/
lemma sendsFrom_err {last : ℕ} : ∀ {left attempt : ℕ}, attempt ≤ last →
    IsLast (ch.good alert) (attempt + left) last →
      (e.sendsFrom alert ch left attempt).2 = ch.send alert last := by
  intro left
  induction left with
  | zero =>
    intro attempt hle h
    obtain rfl : attempt = last := le_antisymm hle h.le
    rw [sendsFrom]
    cases ch.send alert attempt <;> rfl
  | succ left ih =>
    intro attempt hle h
    rw [sendsFrom]
    rcases hle.eq_or_lt with rfl | hlt
    · -- sends are left, so that the last one has been successful
      have hgood : ch.good alert attempt = true := h.stop.resolve_right (by omega)
      rw [Channel.good, Option.isNone_iff_eq_none] at hgood
      rw [hgood]
    · have hlimit : attempt + (left + 1) = attempt + 1 + left := by omega
      have hrest := ih hlt (hlimit ▸ h)
      have hfailed : (ch.send alert attempt).isNone = false := h.failed attempt hlt
      cases hsend : ch.send alert attempt with
      | none => simp [hsend] at hfailed
      | some err => exact hrest

/-- The delivery to a channel, in blocks. -/
lemma deliverTo_eq_flat (hretries : 0 ≤ e.retryMax) {last : ℕ}
    (h : IsLast (ch.good alert) e.retryMax.toNat last) :
    e.deliverTo alert ch =
      flat (attemptBlocks (fun a => .send ch.name (ch.send alert a)) (e.pauseAfter alert ch last)
        last ++ report alert ch last) := by
  have htrace : (e.sendsFrom alert ch e.retryMax.toNat 0).1 = _ :=
    (e.sendsFrom_trace alert ch _ _).trans (retryLoop_eq h)
  have herr := e.sendsFrom_err alert ch (Nat.zero_le last) (by rwa [Nat.zero_add])
  rw [deliverTo, if_neg (not_lt.mpr hretries), flat_append]
  change (match (e.sendsFrom alert ch e.retryMax.toNat 0).2 with
    | none => (e.sendsFrom alert ch e.retryMax.toNat 0).1
    | some err => (e.sendsFrom alert ch e.retryMax.toNat 0).1 ++ [Delivery.failed ch.name err]) = _
  rw [herr, htrace, report]
  cases ch.send alert last with
  | none => exact (List.append_nil _).symm
  | some err => rfl

/-! ## The planned trace -/

/-- The planned delivery to a channel whose last send is number `last`: the doubled times
between the sends, no other wait, and a log line when the last send has failed. -/
def plannedTo (last : ℕ) : List Delivery :=
  (List.range (last + 1)).flatMap (fun a =>
      .send ch.name (ch.send alert a) ::
        if a < last then [.wait (e.retryBackoff * 2 ^ a)] else []) ++
    match ch.send alert last with
    | none => []
    | some err => [.failed ch.name err]

lemma plannedTo_eq_flat (last : ℕ) : e.plannedTo alert ch last =
    flat (attemptBlocks (fun a => .send ch.name (ch.send alert a))
      (fun a => if a < last then [.wait (e.retryBackoff * 2 ^ a)] else []) last ++
        report alert ch last) := by
  rw [plannedTo, flat_append, report]
  have hsends (gap : ℕ → List Delivery) :
      flat (attemptBlocks (fun a => .send ch.name (ch.send alert a)) gap last) =
        (List.range (last + 1)).flatMap fun a => .send ch.name (ch.send alert a) :: gap a := by
    rw [flat, attemptBlocks, List.flatMap_map]
  rw [hsends]
  cases ch.send alert last <;> rfl

/-- The delivery of an alert is as planned: on every channel in order, sends up to the first
success or the limit. -/
def DeliversAsPlanned (channels : List Channel) (trace : List Delivery) : Prop :=
  ∃ last : Channel → ℕ,
    (∀ ch ∈ channels, IsLast (ch.good alert) e.retryMax.toNat (last ch)) ∧
    trace = channels.flatMap fun ch => e.plannedTo alert ch (last ch)

/-- On every channel, no time that is waited for is doubled beyond what a 64-bit number
holds; and where all sends fail, the time after the last one is. -/
def NoStrayWait (channels : List Channel) : Prop :=
  ∀ ch ∈ channels,
    (∀ a < e.retryMax.toNat, (∀ i ≤ a, ch.good alert i = false) →
      e.retryBackoff * 2 ^ a < 2 ^ 63) ∧
    ((∀ i ≤ e.retryMax.toNat, ch.good alert i = false) →
      2 ^ 63 ≤ e.retryBackoff * 2 ^ e.retryMax.toNat)

/-! ## When a delivery is as planned -/

/-- The settings of the retries, `retryBackoff` a positive 64-bit number. -/
structure RetrySettings : Prop where
  retries : 0 ≤ e.retryMax
  backoff : 0 < e.retryBackoff
  backoff_lt : e.retryBackoff < 2 ^ 63

variable {e alert ch}

lemma RetrySettings.double_pos (h : RetrySettings e) (a : ℕ) : 0 < e.retryBackoff * 2 ^ a :=
  mul_pos h.backoff (pow_pos two_pos a)

lemma backoff_eq (e : Engine) (a : ℕ) :
    e.backoff a = (e.retryBackoff * 2 ^ a).bmod (2 * 2 ^ 63) := bmod_mul_pow _ _ _

/-- The sleeps between the sends take the doubled times when no product has overflowed. -/
lemma RetrySettings.sleeps_iff (h : RetrySettings e) (last : ℕ) :
    (∀ a < last, Delivery.sleep (e.backoff a) = [.wait (e.retryBackoff * 2 ^ a)]) ↔
      ∀ a < last, e.retryBackoff * 2 ^ a < 2 ^ 63 := by
  constructor
  · intro hsleep
    refine (fits_bits_iff_pos 63 h.backoff h.backoff_lt last).mpr fun a ha => ?_
    rw [← backoff_eq]
    by_contra hneg
    have hnone := hsleep a ha
    rw [Delivery.sleep, if_neg hneg] at hnone
    cases hnone
  · intro hlt a ha
    rw [backoff_eq, bmod_of_fits (h.double_pos a).le (hlt a ha), Delivery.sleep,
      if_pos (h.double_pos a)]

/-- The sleep after the last send returns at once when its time is the first to overflow. -/
lemma RetrySettings.last_sleep_iff (h : RetrySettings e) {last : ℕ}
    (hfits : ∀ a < last, e.retryBackoff * 2 ^ a < 2 ^ 63) :
    Delivery.sleep (e.backoff last) = [] ↔ 2 ^ 63 ≤ e.retryBackoff * 2 ^ last := by
  constructor
  · intro hnone
    by_contra hlt
    rw [backoff_eq, bmod_of_fits (h.double_pos last).le (not_le.mp hlt), Delivery.sleep,
      if_pos (h.double_pos last)] at hnone
    cases hnone
  · intro hover
    have hless := double_lt h.backoff_lt (by norm_num) hfits
    have hneg : (e.retryBackoff * 2 ^ last).bmod (2 * 2 ^ 63) < 0 :=
      bmod_of_overflows (by exact_mod_cast hover) (by exact_mod_cast hless)
    rw [backoff_eq, Delivery.sleep, if_neg (not_lt.mpr hneg.le)]

/-- The pauses on a channel are the planned ones. -/
lemma RetrySettings.pauses_iff (h : RetrySettings e) {last : ℕ}
    (hlast : IsLast (ch.good alert) e.retryMax.toNat last) :
    (∀ a ≤ last, e.pauseAfter alert ch last a =
        if a < last then [.wait (e.retryBackoff * 2 ^ a)] else []) ↔
      (∀ a < e.retryMax.toNat, (∀ i ≤ a, ch.good alert i = false) →
        e.retryBackoff * 2 ^ a < 2 ^ 63) ∧
      ((∀ i ≤ e.retryMax.toNat, ch.good alert i = false) →
        2 ^ 63 ≤ e.retryBackoff * 2 ^ e.retryMax.toNat) := by
  rw [hlast.forall_lt_iff fun a => e.retryBackoff * 2 ^ a < 2 ^ 63,
    hlast.all_failed_iff fun a => 2 ^ 63 ≤ e.retryBackoff * 2 ^ a]
  constructor
  · intro hpauses
    have hfits : ∀ a < last, e.retryBackoff * 2 ^ a < 2 ^ 63 := by
      refine (h.sleeps_iff last).mp fun a ha => ?_
      have hpause := hpauses a ha.le
      rwa [pauseAfter, if_pos ha, if_pos ha] at hpause
    refine ⟨hfits, fun hfailed => ?_⟩
    -- the pause after a last send that has failed is a sleep in the source
    have hpause := hpauses last le_rfl
    rw [pauseAfter, if_neg (lt_irrefl _), if_neg (lt_irrefl _), hfailed,
      if_neg (by simp)] at hpause
    exact (h.last_sleep_iff hfits).mp hpause
  · rintro ⟨hfits, hover⟩ a ha
    rw [pauseAfter]
    split_ifs with hlt hgood
    · exact (h.sleeps_iff last).mpr hfits a hlt
    · rfl
    · obtain rfl : a = last := le_antisymm ha (not_lt.mp hlt)
      exact (h.last_sleep_iff hfits).mpr (hover (Bool.eq_false_iff.mpr hgood))

/-- The blocks of a delivery are marked by the sends and the log lines. -/
lemma blocked_channel {gap : ℕ → List Delivery} (last : ℕ)
    (hgap : ∀ a, ∀ x ∈ gap a, ∃ d, x = .wait d) :
    Blocked Delivery.IsMark
      (attemptBlocks (fun a => .send ch.name (ch.send alert a)) gap last ++
        report alert ch last) := by
  refine (blocked_attemptBlocks (fun a => by simp [Delivery.IsMark]) fun a x hx hmark => ?_).append
    ?_
  · obtain ⟨d, rfl⟩ := hgap a x hx
    exact hmark d rfl
  · intro b hb
    rw [report] at hb
    split at hb
    · cases hb
    · obtain rfl := List.mem_singleton.mp hb
      exact ⟨by simp [Delivery.IsMark], fun x hx => by cases hx⟩

lemma mem_sleep {d : Duration} {x : Delivery} (h : x ∈ Delivery.sleep d) :
    ∃ d, x = Delivery.wait d := by
  rw [Delivery.sleep] at h
  split_ifs at h
  · exact ⟨d, List.mem_singleton.mp h⟩
  · cases h

/-- The delivery to a list of channels is the planned one when that on every channel is. -/
lemma deliver_eq_planned_iff (h : RetrySettings e) {channels : List Channel} {last : Channel → ℕ}
    (hlast : ∀ ch ∈ channels, IsLast (ch.good alert) e.retryMax.toNat (last ch)) :
    e.deliver alert channels = channels.flatMap (fun ch => e.plannedTo alert ch (last ch)) ↔
      e.NoStrayWait alert channels := by
  have hcode : e.deliver alert channels = flat (channels.flatMap fun ch =>
      attemptBlocks (fun a => .send ch.name (ch.send alert a)) (e.pauseAfter alert ch (last ch))
        (last ch) ++ report alert ch (last ch)) := by
    rw [flat_flatMap, deliver]
    exact List.flatMap_congr fun ch hch => e.deliverTo_eq_flat alert ch h.retries (hlast ch hch)
  have hplan : channels.flatMap (fun ch => e.plannedTo alert ch (last ch)) =
      flat (channels.flatMap fun ch =>
        attemptBlocks (fun a => .send ch.name (ch.send alert a))
          (fun a => if a < last ch then [.wait (e.retryBackoff * 2 ^ a)] else []) (last ch) ++
          report alert ch (last ch)) := by
    rw [flat_flatMap]
    exact List.flatMap_congr fun ch _ => e.plannedTo_eq_flat alert ch (last ch)
  have hparts : (∀ ch ∈ channels, attemptBlocks (fun a => .send ch.name (ch.send alert a))
          (e.pauseAfter alert ch (last ch)) (last ch) ++ report alert ch (last ch) =
        attemptBlocks (fun a => .send ch.name (ch.send alert a))
          (fun a => if a < last ch then [.wait (e.retryBackoff * 2 ^ a)] else []) (last ch) ++
          report alert ch (last ch)) ↔ e.NoStrayWait alert channels := by
    refine forall₂_congr fun ch hch => ?_
    rw [List.append_cancel_right_eq, attemptBlocks_congr_iff, h.pauses_iff (hlast ch hch)]
  -- two traces of the same sends and log lines agree block by block
  rw [hcode, hplan, ← hparts, ← flatMap_eq_iff fun ch _ => by simp]
  constructor
  · refine @flat_inj _ Delivery.IsMark _ _ (Blocked.flatMap fun ch _ => ?_)
      (Blocked.flatMap fun ch _ => ?_)
    · refine blocked_channel (last ch) fun a x hx => ?_
      rw [pauseAfter] at hx
      split_ifs at hx
      · exact mem_sleep hx
      · cases hx
      · exact mem_sleep hx
    · refine blocked_channel (last ch) fun a x hx => ?_
      split_ifs at hx
      · exact ⟨_, List.mem_singleton.mp hx⟩
      · cases hx
  · exact fun heq => congrArg flat heq

/-- **An alert is delivered as planned exactly when no wait overflows between two sends, and
the one after a last failed send does.** -/
theorem deliversAsPlanned_iff (h : RetrySettings e) (channels : List Channel) :
    e.DeliversAsPlanned alert channels (e.deliver alert channels) ↔
      e.NoStrayWait alert channels := by
  have hexists : ∀ ch : Channel, ∃ last, IsLast (ch.good alert) e.retryMax.toNat last :=
    fun ch => exists_isLast _ _
  choose last hlast using hexists
  rw [← deliver_eq_planned_iff h fun ch _ => hlast ch]
  constructor
  · rintro ⟨last', hlast', htrace⟩
    refine htrace.trans (List.flatMap_congr fun ch hch => ?_)
    rw [(hlast' ch hch).unique (hlast ch)]
  · intro htrace
    exact ⟨last, fun ch _ => hlast ch, htrace⟩

end Engine

/-- The engine for a section that allows one retry and says nothing else. -/
def twoTries : Engine :=
  .new { enabled := true, dedupWindow := "", retryMax := 1, retryBackoff := "", channels := [] }

/-- The settings of the section come out as they should. -/
lemma retrySettings_twoTries : twoTries.RetrySettings := ⟨by decide, by decide, by decide⟩

def anAlert : Alert := ⟨"a", unixEpoch, .high, "system.uptime", ⟨"f", .high, "", "", [], ""⟩, ""⟩

/-- A channel that works from send number `first` on. -/
def flakyChannel (first : ℕ) : Channel :=
  ⟨"webhook", fun _ a => if a < first then some "refused" else none⟩

/-- The second send goes through, after two seconds. -/
theorem deliversAsPlanned_flaky :
    twoTries.DeliversAsPlanned anAlert [flakyChannel 1]
        (twoTries.deliver anAlert [flakyChannel 1]) ∧
      twoTries.deliver anAlert [flakyChannel 1] =
        [.send "webhook" (some "refused"), .wait (2 * second), .send "webhook" none] := by
  refine ⟨(Engine.deliversAsPlanned_iff retrySettings_twoTries _).mpr ?_, by decide +kernel⟩
  intro ch hch
  obtain rfl := List.mem_singleton.mp hch
  refine ⟨fun a ha _ => ?_, fun hfailed => ?_⟩
  · obtain rfl : a = 0 := Nat.lt_one_iff.mp ha
    decide
  · exact absurd (hfailed 1 le_rfl) (by decide)

/-- A channel that fails both times delays the channels after it by another four seconds. -/
theorem not_deliversAsPlanned_refused :
    ¬ twoTries.DeliversAsPlanned anAlert [flakyChannel 2]
      (twoTries.deliver anAlert [flakyChannel 2]) := by
  rintro ⟨last, hlast, htrace⟩
  have hstray := (Engine.deliver_eq_planned_iff retrySettings_twoTries hlast).mp htrace
  have hover := (hstray (flakyChannel 2) (List.mem_singleton_self _)).2 fun i hi => by
    have hrefused : (flakyChannel 2).send anAlert i = some "refused" :=
      if_pos (Nat.lt_succ_of_le hi)
    rw [Channel.good, hrefused]
    rfl
  exact absurd hover (by decide)

end Arcsent.Alerting
