/-
# The alert engine

`internal/alerting/engine.go`: an alert is given an identity, passed over when one with
the same identity was seen within the dedup window, and put in a queue of fixed size from
which the worker delivers it.
-/
import Mathlib.Logic.Function.Basic
import Arcsent.Config.Types
import Arcsent.Scanner.Types

namespace Arcsent.Alerting

open Arcsent.Go Arcsent.Scanner

structure Alert where
  id : String
  timestamp : Time
  severity : Severity
  scannerName : String
  finding : Finding
  reason : String
deriving DecidableEq

/-- The capacity of the queue. -/
def queueSize : ℕ := 256

/-- The channel between `Send` and the worker. -/
structure Queue where
  alerts : List Alert
  /-- It never holds more than its capacity. -/
  bounded : alerts.length ≤ queueSize

namespace Queue

def empty : Queue := ⟨[], Nat.zero_le _⟩

/-- A slot is free. -/
def Free (q : Queue) : Prop := q.alerts.length < queueSize

instance (q : Queue) : Decidable q.Free := inferInstanceAs (Decidable (_ < _))

lemma length_concat_le {q : Queue} (h : q.Free) (a : Alert) :
    (q.alerts ++ [a]).length ≤ queueSize := by
  rw [List.length_append, List.length_singleton]
  exact h

/-- A send that does not wait. -/
def push (q : Queue) (a : Alert) : Option Queue :=
  if h : q.Free then some ⟨q.alerts ++ [a], length_concat_le h a⟩ else none

/-- The worker's receive. -/
def pop (q : Queue) : Option (Alert × Queue) :=
  match h : q.alerts with
  | [] => none
  | a :: rest => some (a, ⟨rest, by
      have hb := q.bounded
      rw [h, List.length_cons] at hb
      omega⟩)

end Queue

/-- The state of the engine.  Its channels are used by the delivery only. -/
structure Engine where
  throttle : Duration
  retryMax : ℤ
  retryBackoff : Duration
  enabled : Bool
  lastSeen : String → Option Time
  queue : Queue

/-- What a call of `Send` ends in: the last two are what it logs. -/
inductive Outcome
  | disabled
  | queued
  | throttled (id : String)
  | dropped (id : String)
deriving DecidableEq

namespace Engine

/-- The function `New`. -/
def new (cfg : AlertingConfig) : Engine where
  throttle := durationOr cfg.dedupWindow (5 * minute)
  retryMax := if cfg.retryMax < 0 then 0 else cfg.retryMax
  retryBackoff := durationOr cfg.retryBackoff (2 * second)
  enabled := cfg.enabled
  lastSeen := fun _ => none
  queue := .empty

/-- Whether an identity was seen within the window; if not, it is seen now. -/
def isThrottled (e : Engine) (now : Time) (id : String) : Bool × Engine :=
  let fresh := (false, { e with lastSeen := Function.update e.lastSeen id (some now) })
  match e.lastSeen id with
  | some last => if now - last < e.throttle then (true, e) else fresh
  | none => fresh

end Engine

/-- The text that the identity of an alert is computed from. -/
def fingerprintText (a : Alert) : String :=
  a.scannerName ++ "|" ++ a.severity.text ++ "|" ++ a.finding.id ++ "|" ++ a.finding.description

/-- The identity of an alert, `sha256` being the hash of a text as hexadecimal digits. -/
def fingerprint (sha256 : String → String) (a : Alert) : String := sha256 (fingerprintText a)

/-- An alert with the fields that `Send` fills in. -/
def Alert.complete (sha256 : String → String) (now : Time) (a : Alert) : Alert :=
  { a with
    id := if a.id = "" then fingerprint sha256 a else a.id
    timestamp := if isZero a.timestamp then now else a.timestamp }

namespace Engine

/-- The method `Send`, with one reading of the clock. -/
def send (sha256 : String → String) (e : Engine) (now : Time) (alert : Alert) :
    Engine × Outcome :=
  if e.enabled = false then (e, .disabled)
  else
    let alert := alert.complete sha256 now
    match e.isThrottled now alert.id with
    | (true, e) => (e, .throttled alert.id)
    | (false, e) =>
      match e.queue.push alert with
      | some queue => ({ e with queue := queue }, .queued)
      | none => (e, .dropped alert.id)

/-- The receive of the worker. -/
def take (e : Engine) : Option (Alert × Engine) :=
  (e.queue.pop).map fun (a, queue) => (a, { e with queue := queue })

/-- An identity was seen within the window. -/
def SeenWithin (e : Engine) (now : Time) (id : String) : Prop :=
  ∃ last, e.lastSeen id = some last ∧ now - last < e.throttle

lemma isThrottled_of_seen {e : Engine} {now : Time} {id : String} (h : e.SeenWithin now id) :
    e.isThrottled now id = (true, e) := by
  obtain ⟨last, hlast, hlt⟩ := h
  rw [isThrottled, hlast]
  exact if_pos hlt

lemma isThrottled_of_not_seen {e : Engine} {now : Time} {id : String}
    (h : ¬ e.SeenWithin now id) : e.isThrottled now id
      = (false, { e with lastSeen := Function.update e.lastSeen id (some now) }) := by
  rw [isThrottled]
  cases hlast : e.lastSeen id with
  | none => rfl
  | some last => exact if_neg fun hlt => h ⟨last, hlast, hlt⟩

/-- Everything that `Send` of an enabled engine can do. -/
lemma send_cases (sha256 : String → String) {e : Engine} (h : e.enabled = true) (now : Time)
    (alert : Alert) :
    (e.SeenWithin now (alert.complete sha256 now).id ∧
      e.send sha256 now alert = (e, .throttled (alert.complete sha256 now).id)) ∨
    (¬ e.SeenWithin now (alert.complete sha256 now).id ∧ ∃ outcome queue,
      e.send sha256 now alert = ({ e with
        lastSeen := Function.update e.lastSeen (alert.complete sha256 now).id (some now)
        queue := queue }, outcome) ∧
      ((e.queue.Free ∧ outcome = .queued ∧
          queue.alerts = e.queue.alerts ++ [alert.complete sha256 now]) ∨
        (¬ e.queue.Free ∧ outcome = .dropped (alert.complete sha256 now).id ∧
          queue = e.queue))) := by
  rw [send, if_neg (by simp [h])]
  dsimp only
  generalize alert.complete sha256 now = a
  by_cases hseen : e.SeenWithin now a.id
  · left
    rw [isThrottled_of_seen hseen]
    exact ⟨hseen, rfl⟩
  · right
    refine ⟨hseen, ?_⟩
    rw [isThrottled_of_not_seen hseen]
    by_cases hfree : e.queue.Free
    · have hpush : e.queue.push a = some ⟨e.queue.alerts ++ [a], Queue.length_concat_le hfree a⟩ :=
        dif_pos hfree
      simp only [hpush]
      exact ⟨.queued, _, rfl, .inl ⟨hfree, rfl, rfl⟩⟩
    · have hpush : e.queue.push a = none := dif_neg hfree
      simp only [hpush]
      exact ⟨.dropped a.id, _, rfl, .inr ⟨hfree, rfl, rfl⟩⟩

end Engine

end Arcsent.Alerting
