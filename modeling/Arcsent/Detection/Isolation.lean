/-
# When baselines are isolated from each other

The key of a record joins the names of scanner and metric with two colons, and both names
are free texts.  Two pairs of names can have one key; then they share one record.  Among
pairs that do not collide in this way the calls on one are not seen by another.
-/
import Arcsent.Detection.BaselineRuns
import Arcsent.Lib.Separators

namespace Arcsent.Detection

open Arcsent.Go Arcsent.Storage Arcsent.Lib

variable {V : Type} {codec : Codec Baseline V} {s : BadgerStore V}

/-- The names of a scanner and of a metric. -/
abbrev Pair := String × String

variable {p q : Pair}

/-- Text can be shifted over the colons of the key from one pair of names to the other. -/
def Collide (p q : Pair) : Prop :=
  Shifted ':' p.1.toList p.2.toList q.1.toList q.2.toList ∨
  Shifted ':' q.1.toList q.2.toList p.1.toList p.2.toList

lemma baselineKey_eq_iff :
    baselineKey p.1 p.2 = baselineKey q.1 q.2 ↔ p = q ∨ Collide p q := by
  have hkey : ∀ p : Pair, (baselineKey p.1 p.2).toList
      = p.1.toList ++ ':' :: ':' :: p.2.toList := by
    intro p
    simp [baselineKey]
  rw [← String.toList_inj, hkey, hkey, doubled_eq_iff, String.toList_inj, String.toList_inj,
    ← Prod.ext_iff]
  rfl

/-- The record that is read for a pair. -/
def read (codec : Codec Baseline V) (s : BadgerStore V) (p : Pair) : Except Error Baseline :=
  Manager.get codec s p.1 p.2

lemma read_congr (h : baselineKey p.1 p.2 = baselineKey q.1 q.2) (s : BadgerStore V) :
    read codec s p = read codec s q := by
  rw [read, read, Manager.get, Manager.get, h]

/-- A record carries the names of a pair. -/
def Names (p : Pair) (r : Baseline) : Prop := r.scannerName = p.1 ∧ r.metric = p.2

/-- The records that are read for the pairs of a set carry the names of their pairs. -/
def OwnNames (codec : Codec Baseline V) (P : Set Pair) (s : BadgerStore V) : Prop :=
  ∀ p ∈ P, ∀ r, read codec s p = .ok r → Names p r

/-- The calls on a pair of the set leave what is read for the others unchanged. -/
def Framed (codec : Codec Baseline V) (P : Set Pair) (s : BadgerStore V) : Prop :=
  ∀ p ∈ P, ∀ q ∈ P, p ≠ q → ∀ c : Call,
    read codec (c.perform codec p.1 p.2 s) q = read codec s q

/-- A call writes nothing, or a record under the names of its pair. -/
lemma perform_cases (hown : ∀ r, read codec s p = .ok r → Names p r) (c : Call) :
    c.perform codec p.1 p.2 s = s ∨
      ∃ r, Names p r ∧ Manager.put codec s r = .ok (c.perform codec p.1 p.2 s) := by
  cases c with
  | update now value =>
    rw [Call.perform]
    split
    · rename_i s' r hupdate
      have hput := Manager.put_of_update (N := fun a b => a = p.1 ∧ b = p.2) ⟨rfl, rfl⟩ hown hupdate
      exact .inr ⟨r, hput⟩
    · exact .inl rfl
  | detectDrift now value consecutive =>
    rw [Call.perform]
    split
    · rename_i s' answer hdrift
      exact .inr (Manager.put_of_detectDrift (N := fun a b => a = p.1 ∧ b = p.2) hown hdrift)
    · exact .inl rfl
  | isAnomaly value => exact .inl rfl

variable {P : Set Pair}

/-- No two different pairs of the set collide. -/
def CollisionFree (P : Set Pair) : Prop := ∀ p ∈ P, ∀ q ∈ P, p ≠ q → ¬ Collide p q

lemma CollisionFree.key_ne (h : CollisionFree P) (hp : p ∈ P) (hq : q ∈ P) (hne : p ≠ q) :
    baselineKey p.1 p.2 ≠ baselineKey q.1 q.2 := by
  rw [Ne, baselineKey_eq_iff, not_or]
  exact ⟨hne, h p hp q hq hne⟩

/-- Among pairs that do not collide a call is not seen by the other pairs. -/
lemma CollisionFree.framed (h : CollisionFree P) (hown : OwnNames codec P s) :
    Framed codec P s := by
  intro p hp q hq hne c
  rcases perform_cases (hown p hp) c with hsame | ⟨r, ⟨hscanner, hmetric⟩, hput⟩
  · rw [hsame]
  · refine Manager.get_of_put hput ?_
    rw [hscanner, hmetric]
    exact h.key_ne hp hq hne

/-- The step: a call keeps the names. -/
lemma CollisionFree.ownNames_perform (h : CollisionFree P) (hown : OwnNames codec P s)
    (hp : p ∈ P) (c : Call) : OwnNames codec P (c.perform codec p.1 p.2 s) := by
  intro q hq r hread
  by_cases hne : p = q
  · subst hne
    rcases perform_cases (hown p hp) c with hsame | ⟨r', hnames, hput⟩
    · rw [hsame] at hread
      exact hown p hp r hread
    · -- what is read is what has been written
      have hkey : baselineKey r'.scannerName r'.metric = baselineKey p.1 p.2 := by
        rw [hnames.1, hnames.2]
      obtain ⟨s', hput', hcell⟩ := Manager.put_eq codec s hkey
      obtain rfl := Except.ok.inj (hput'.symm.trans hput)
      obtain rfl := Except.ok.inj (hcell.1.symm.trans hread)
      exact hnames
  · rw [h.framed hown p hp q hq hne c] at hread
    exact hown q hq r hread

/-- The store after calls on several pairs. -/
def afterCallsOn (codec : Codec Baseline V) (s : BadgerStore V) (calls : List (Pair × Call)) :
    BadgerStore V :=
  calls.foldl (fun s c => c.2.perform codec c.1.1 c.1.2 s) s

/-- The run: all calls keep the names. -/
lemma CollisionFree.ownNames_afterCallsOn (h : CollisionFree P) (hown : OwnNames codec P s)
    (calls : List (Pair × Call)) (hcalls : ∀ c ∈ calls, c.1 ∈ P) :
    OwnNames codec P (afterCallsOn codec s calls) := by
  induction calls generalizing s with
  | nil => exact hown
  | cons c calls ih =>
    have hfirst := h.ownNames_perform hown (hcalls c List.mem_cons_self) c.2
    exact ih hfirst fun c' hc' => hcalls c' (List.mem_cons_of_mem _ hc')

lemma read_empty (codec : Codec Baseline V) (p : Pair) :
    read codec .empty p = .error .notFound := by
  simp [read, Manager.get, BadgerStore.get, names_ne_nil, BadgerStore.empty]

lemma ownNames_empty (codec : Codec Baseline V) (P : Set Pair) : OwnNames codec P .empty := by
  intro p _ r hread
  rw [read_empty] at hread
  cases hread

variable (codec) in
/-- A first value for one of two pairs with the same key is read for the other too. -/
lemma read_update_of_key_eq (hp : p.1 ≠ "" ∧ p.2 ≠ "")
    (hkey : baselineKey p.1 p.2 = baselineKey q.1 q.2) (now : Time) (value : ℚ) :
    ∃ r, read codec ((Call.update now value).perform codec p.1 p.2 .empty) q = .ok r ∧
      Names p r := by
  have hcell : Cell codec (.empty : BadgerStore V) p.1 p.2 none := read_empty codec p
  obtain ⟨s', hupdate, hcell'⟩ := hcell.update hp.1 hp.2 now value
  refine ⟨(start none p.1 p.2 value).observe now value, ?_, rfl, rfl⟩
  rw [← read_congr hkey, Call.perform, hupdate]
  exact hcell'.1

/-- **When baselines are isolated.**  Calls are made on pairs of a set, from a store whose
records carry the names of their pairs.  In every store reached every record carries them
and a call on one pair leaves what is read for the others unchanged, for all such runs,
exactly when no two pairs of the set collide. -/
theorem isolated_iff (codec : Codec Baseline V) {P : Set Pair}
    (hP : ∀ p ∈ P, p.1 ≠ "" ∧ p.2 ≠ "") :
    (∀ s, OwnNames codec P s → ∀ calls : List (Pair × Call), (∀ c ∈ calls, c.1 ∈ P) →
      OwnNames codec P (afterCallsOn codec s calls) ∧
        Framed codec P (afterCallsOn codec s calls)) ↔ CollisionFree P := by
  constructor
  · intro h p hp q hq hne hcollide
    have hkey := baselineKey_eq_iff.mpr (Or.inr hcollide)
    obtain ⟨r, hread, -⟩ := read_update_of_key_eq codec (hP p hp) hkey 1 0
    have hframed : Framed codec P .empty :=
      (h .empty (ownNames_empty codec P) [] fun _ hc => absurd hc List.not_mem_nil).2
    have hsame := hframed p hp q hq hne (.update 1 0)
    rw [hread, read_empty] at hsame
    cases hsame
  · intro h s hown calls hcalls
    have hafter := h.ownNames_afterCallsOn hown calls hcalls
    exact ⟨hafter, h.framed hafter⟩

/-- The load and the memory in use of two plugins, each updated once. -/
theorem isolated_load_memory :
    Framed plainCodec {("system.cpu", "load"), ("system.memory", "used")}
      (afterCallsOn plainCodec .empty
        [(("system.cpu", "load"), .update 1 10), (("system.memory", "used"), .update 2 5)]) := by
  refine ((isolated_iff plainCodec ?_).mpr ?_ .empty (ownNames_empty _ _) _ ?_).2
  · rintro p (rfl | rfl) <;> decide
  · rintro p (rfl | rfl) q (rfl | rfl) hne hcollide
    · exact hne rfl
    · exact absurd (baselineKey_eq_iff.mpr (.inr hcollide)) (by decide)
    · exact absurd (baselineKey_eq_iff.mpr (.inr hcollide)) (by decide)
    · exact hne rfl
  · simp

/-- Two metrics of two plugins that share a record: the first value of the one is read for
the other, under the names of the first. -/
theorem shared_record :
    read plainCodec .empty ("disk", "sda::load") = .error .notFound ∧
      ∃ r, read plainCodec ((Call.update 1 0).perform plainCodec "disk::sda" "load" .empty)
          ("disk", "sda::load") = .ok r ∧ r.scannerName = "disk::sda" ∧ r.metric = "load" :=
  ⟨read_empty plainCodec _, read_update_of_key_eq plainCodec (p := ("disk::sda", "load"))
    (q := ("disk", "sda::load")) ⟨by decide, by decide⟩ (by decide) 1 0⟩

end Arcsent.Detection
