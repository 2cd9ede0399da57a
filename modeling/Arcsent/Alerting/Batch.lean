/-
# Alerts sent together

The daemon sends the alerts of one result in a row, and each call of `Send` reads the clock
for itself.  An alert is put in a queue that has room exactly when it comes no less than the
window after the last send with its identity that got past the check, be it one before the
batch or an earlier one of it.
-/
import Arcsent.Alerting.Engine

namespace Arcsent.Alerting

open Arcsent.Go

/-- The identity that `Send` gives an alert. -/
def Alert.sentId (sha256 : String → String) (a : Alert) : String :=
  if a.id = "" then fingerprint sha256 a else a.id

@[simp] lemma Alert.complete_id (sha256 : String → String) (now : Time) (a : Alert) :
    (a.complete sha256 now).id = a.sentId sha256 := rfl

/-- A time is within the window after the last one. -/
def Within (window : Duration) (now : Time) (last : Option Time) : Prop :=
  ∃ l ∈ last, now - l < window

instance (window : Duration) (now : Time) : ∀ last, Decidable (Within window now last)
  | none => isFalse fun ⟨_, hl, _⟩ => nomatch hl
  | some l => decidable_of_iff (now - l < window) (by simp [Within])

section

variable (sha256 : String → String)

/-- The time at which an identity last got past the window check when alerts are sent, the
one in the place `i` at the time `clock i`, and `last` is the time before them. -/
def lastPassed (window : Duration) (id : String) :
    Option Time → (ℕ → Time) → List Alert → Option Time
  | last, _, [] => last
  | last, clock, a :: alerts =>
    lastPassed window id
      (if a.sentId sha256 = id ∧ ¬ Within window (clock 0) last then some (clock 0) else last)
      (fun i => clock (i + 1)) alerts

end

namespace Engine

variable (sha256 : String → String)

/-- A batch of sends; the call for the alert in the place `i` reads `clock i`. -/
def sendAll (e : Engine) (clock : ℕ → Time) : List Alert → Engine
  | [] => e
  | alert :: alerts =>
    sendAll (e.send sha256 (clock 0) alert).1 (fun i => clock (i + 1)) alerts

/-- What a send does to the times of the identities. -/
lemma send_lastSeen {e : Engine} (h : e.enabled = true) (now : Time) (alert : Alert)
    (id : String) :
    (e.send sha256 now alert).1.lastSeen id =
      if alert.sentId sha256 = id ∧ ¬ Within e.throttle now (e.lastSeen id) then some now
      else e.lastSeen id := by
  rcases send_cases sha256 h now alert with ⟨hseen, hsend⟩ | ⟨hnot, outcome, queue, hsend, -⟩
  · rw [hsend, if_neg]
    rintro ⟨rfl, hnot⟩
    exact hnot hseen
  · rw [hsend]
    by_cases hid : alert.sentId sha256 = id
    · subst hid
      rw [if_pos ⟨rfl, hnot⟩]
      exact Function.update_self ..
    · rw [if_neg fun hand => hid hand.1]
      exact Function.update_of_ne (Ne.symm hid) ..

/-- A send that finds room changes the queue by its alert, unless it was seen. -/
lemma send_of_free {e : Engine} (h : e.enabled = true) (hfree : e.queue.Free) (now : Time)
    (alert : Alert) :
    (e.send sha256 now alert).1.enabled = true ∧
    (e.send sha256 now alert).1.throttle = e.throttle ∧
    ((e.SeenWithin now (alert.complete sha256 now).id ∧
        (e.send sha256 now alert).1.queue.alerts = e.queue.alerts) ∨
      (¬ e.SeenWithin now (alert.complete sha256 now).id ∧
        (e.send sha256 now alert).1.queue.alerts
          = e.queue.alerts ++ [alert.complete sha256 now])) := by
  rcases send_cases sha256 h now alert with ⟨hseen, hsend⟩ | ⟨hnot, outcome, queue, hsend, hfate⟩
  · rw [hsend]
    exact ⟨h, rfl, .inl ⟨hseen, rfl⟩⟩
  · rw [hsend]
    rcases hfate with ⟨-, -, halerts⟩ | ⟨hfull, -, -⟩
    · exact ⟨h, rfl, .inr ⟨hnot, halerts⟩⟩
    · exact absurd hfree hfull

/-- An alert of a batch gets past the window check where it stands. -/
def Passes (e : Engine) (clock : ℕ → Time) (alerts : List Alert) (a : Alert) : Prop :=
  ∃ pre b post, alerts = pre ++ b :: post ∧ a = b.complete sha256 (clock pre.length) ∧
    ¬ Within e.throttle (clock pre.length)
      (lastPassed sha256 e.throttle a.id (e.lastSeen a.id) clock pre)

/-- The first alert of a batch has the say over those after it. -/
lemma passes_cons {e : Engine} (h : e.enabled = true) {clock : ℕ → Time} {alert : Alert}
    {alerts : List Alert} (hthrottle : (e.send sha256 (clock 0) alert).1.throttle = e.throttle)
    (a : Alert) :
    e.Passes sha256 clock (alert :: alerts) a ↔
      (a = alert.complete sha256 (clock 0) ∧ ¬ e.SeenWithin (clock 0) a.id) ∨
        (e.send sha256 (clock 0) alert).1.Passes sha256 (fun i => clock (i + 1)) alerts a := by
  constructor
  · rintro ⟨pre, b, post, hsplit, ha, hnot⟩
    cases pre with
    | nil =>
      obtain ⟨rfl, rfl⟩ := List.cons.inj hsplit
      exact .inl ⟨ha, hnot⟩
    | cons c pre =>
      obtain ⟨rfl, rfl⟩ := List.cons.inj hsplit
      refine .inr ⟨pre, b, post, rfl, ha, ?_⟩
      rw [hthrottle, send_lastSeen sha256 h]
      exact hnot
  · rintro (⟨ha, hnot⟩ | ⟨pre, b, post, rfl, ha, hnot⟩)
    · exact ⟨[], alert, alerts, rfl, ha, hnot⟩
    · rw [hthrottle, send_lastSeen sha256 h] at hnot
      exact ⟨alert :: pre, b, post, rfl, ha, hnot⟩

/-- **What a batch puts in a queue that has room for it.** -/
theorem sendAll_queue {e : Engine} (h : e.enabled = true) (clock : ℕ → Time)
    (alerts : List Alert) (hroom : e.queue.alerts.length + alerts.length ≤ queueSize) :
    ∃ put, (e.sendAll sha256 clock alerts).queue.alerts = e.queue.alerts ++ put ∧
      ∀ a, a ∈ put ↔ e.Passes sha256 clock alerts a := by
  induction alerts generalizing e clock with
  | nil => exact ⟨[], by simp [sendAll], fun a => by simp [Passes]⟩
  | cons alert alerts ih =>
    rw [List.length_cons] at hroom
    have hfree : e.queue.Free := by
      unfold Queue.Free
      omega
    obtain ⟨henabled, hthrottle, hqueue⟩ := send_of_free sha256 h hfree (clock 0) alert
    have hcons : ∀ a, e.Passes sha256 clock (alert :: alerts) a ↔ _ :=
      passes_cons sha256 h hthrottle
    rcases hqueue with ⟨hseen, hqueue⟩ | ⟨hnot, hqueue⟩
    · -- a repeat is held back, and takes no place
      obtain ⟨put, hput, hmem⟩ := ih henabled (fun i => clock (i + 1)) (by rw [hqueue]; omega)
      refine ⟨put, by rw [← hqueue]; exact hput, fun a => ?_⟩
      rw [hmem, hcons]
      refine ⟨.inr, fun hor => hor.resolve_left fun ⟨ha, hnot⟩ => hnot ?_⟩
      rw [ha]
      exact hseen
    · -- the alert takes the next place in the queue
      obtain ⟨put, hput, hmem⟩ := ih henabled (fun i => clock (i + 1)) (by
        rw [hqueue, List.length_append, List.length_singleton]
        omega)
      refine ⟨alert.complete sha256 (clock 0) :: put, ?_, fun a => ?_⟩
      · rw [List.append_cons, ← hqueue]
        exact hput
      · rw [List.mem_cons, hmem, hcons]
        refine or_congr_left ⟨fun ha => ⟨ha, ?_⟩, fun ha => ha.1⟩
        rw [ha]
        exact hnot

end Engine

end Arcsent.Alerting
