/-
# Baselines in the store

Every record is written under the key made of its own scanner and metric.  For one pair
the store is therefore a cell that holds at most one record, and what is written for one
metric is not seen by another.
-/
import Arcsent.Detection.Baseline

namespace Arcsent.Detection

open Arcsent.Go Arcsent.Storage Arcsent.Scanner

variable {V : Type} {codec : Codec Baseline V} {s : BadgerStore V} {scanner metric : String}

/-! ## The cell of a pair -/

/-- What the store holds for a pair of scanner and metric: no record, or a record whose
own key is the one it is found under. -/
def Cell (codec : Codec Baseline V) (s : BadgerStore V) (scanner metric : String) :
    Option Baseline → Prop
  | none => Manager.get codec s scanner metric = .error .notFound
  | some r => Manager.get codec s scanner metric = .ok r ∧
      baselineKey r.scannerName r.metric = baselineKey scanner metric

lemma bytes_baselineKey_ne_nil (scanner metric : String) :
    bytes (baselineKey scanner metric) ≠ [] := by
  have hsep : bytes "::" ≠ [] := by decide
  rw [baselineKey, bytes_append, bytes_append]
  simp [hsep]

/-- The store never refuses the names that the manager uses. -/
lemma names_ne_nil (scanner metric : String) :
    ¬ (baselineBucket = [] ∨ bytes (baselineKey scanner metric) = []) :=
  not_or.mpr ⟨by decide, bytes_baselineKey_ne_nil scanner metric⟩

/-- Writing a record succeeds, and the record is found under its key. -/
lemma Manager.put_eq (codec : Codec Baseline V) (s : BadgerStore V) {r : Baseline}
    (hkey : baselineKey r.scannerName r.metric = baselineKey scanner metric) :
    ∃ s', Manager.put codec s r = .ok s' ∧ Cell codec s' scanner metric (some r) := by
  obtain ⟨s', hput, hget⟩ := s.exists_put (names_ne_nil scanner metric) (codec.marshal r)
  refine ⟨s', ?_, ?_, hkey⟩
  · rw [Manager.put, hkey, hput]
  · rw [Manager.get, hget]
    dsimp only
    rw [codec.unmarshal_marshal]

/-- The record that an `Update` starts from. -/
def start (cell : Option Baseline) (scanner metric : String) (value : ℚ) : Baseline :=
  cell.getD (.fresh scanner metric value)

lemma Cell.load (hs : scanner ≠ "") (hm : metric ≠ "") {cell : Option Baseline}
    (h : Cell codec s scanner metric cell) (value : ℚ) :
    Manager.load codec s scanner metric value = .ok (start cell scanner metric value) := by
  have hnames : ¬ (scanner = "" ∨ metric = "") := not_or.mpr ⟨hs, hm⟩
  rw [Manager.load, if_neg hnames]
  cases cell with
  | none =>
    have hget : Manager.get codec s scanner metric = .error .notFound := h
    rw [hget]
    rfl
  | some r =>
    rw [h.1]
    rfl

lemma Cell.start_key {cell : Option Baseline} (h : Cell codec s scanner metric cell) (value : ℚ) :
    baselineKey (start cell scanner metric value).scannerName
        (start cell scanner metric value).metric = baselineKey scanner metric := by
  cases cell with
  | none => rfl
  | some r => exact h.2

/-- `Update` on a cell. -/
lemma Cell.update (hs : scanner ≠ "") (hm : metric ≠ "") {cell : Option Baseline}
    (h : Cell codec s scanner metric cell) (now : Time) (value : ℚ) :
    ∃ s', Manager.update codec s now scanner metric value
        = .ok (s', (start cell scanner metric value).observe now value) ∧
      Cell codec s' scanner metric
        (some ((start cell scanner metric value).observe now value)) := by
  obtain ⟨s', hput, hcell⟩ := Manager.put_eq codec s
    (r := (start cell scanner metric value).observe now value) (h.start_key value)
  refine ⟨s', ?_, hcell⟩
  rw [Manager.update, h.load hs hm value]
  dsimp only
  rw [hput]

/-- `DetectDrift` on a cell that holds a record. -/
lemma Cell.detectDrift {r : Baseline} (h : Cell codec s scanner metric (some r)) (now : Time)
    (value : ℚ) (consecutive : ℤ) :
    ∃ s', Manager.detectDrift codec s now scanner metric value consecutive
        = .ok (s', Manager.drifted (r.judge now value (r.anomaly value).1)
            (if consecutive < 1 then 1 else consecutive) (r.anomaly value).2) ∧
      Cell codec s' scanner metric (some (r.judge now value (r.anomaly value).1)) := by
  obtain ⟨s', hput, hcell⟩ := Manager.put_eq codec s
    (r := r.judge now value (r.anomaly value).1) h.2
  refine ⟨s', ?_, hcell⟩
  rw [Manager.detectDrift, Manager.isAnomaly, h.1]
  dsimp only
  rw [hput]

/-- `DetectDrift` on an empty cell returns the store's error. -/
lemma Cell.detectDrift_none (h : Cell codec s scanner metric none) (now : Time) (value : ℚ)
    (consecutive : ℤ) :
    Manager.detectDrift codec s now scanner metric value consecutive = .error .notFound := by
  have hget : Manager.get codec s scanner metric = .error .notFound := h
  rw [Manager.detectDrift, hget]

/-! ## Records of other metrics -/

/-- The record is written back under the key of the pair. -/
def OwnKey (scanner metric : String) (r : Baseline) : Prop :=
  baselineKey r.scannerName r.metric = baselineKey scanner metric

/-- Every record of a store is found under its own key. -/
def OwnKeys (codec : Codec Baseline V) (s : BadgerStore V) : Prop :=
  ∀ scanner metric r, Manager.get codec s scanner metric = .ok r → OwnKey scanner metric r

lemma ownKeys_empty (codec : Codec Baseline V) : OwnKeys codec (.empty : BadgerStore V) := by
  intro scanner metric r h
  simp [Manager.get, BadgerStore.get, names_ne_nil, BadgerStore.empty] at h

lemma baselineKey_inj {scanner metric metric' : String}
    (h : baselineKey scanner metric = baselineKey scanner metric') : metric = metric' := by
  rw [baselineKey, baselineKey, ← bytes_inj, bytes_append, bytes_append (scanner ++ "::")] at h
  exact bytes_inj.mp (List.append_cancel_left h)

/-- What is written under one key is not seen under another. -/
lemma Manager.get_of_put {s' : BadgerStore V} {r : Baseline}
    (h : Manager.put codec s r = .ok s')
    (hne : baselineKey r.scannerName r.metric ≠ baselineKey scanner metric) :
    Manager.get codec s' scanner metric = Manager.get codec s scanner metric := by
  have hkey : makeKey baselineBucket (bytes (baselineKey r.scannerName r.metric))
      ≠ makeKey baselineBucket (bytes (baselineKey scanner metric)) := by
    intro he
    exact hne (bytes_inj.mp ((makeKey_inj (by decide) (by decide)).mp he).2)
  rw [Manager.get, Manager.get, BadgerStore.get_of_put h hkey]

/-- A store that differs from another in the record of one pair only. -/
structure Frame (codec : Codec Baseline V) (scanner metric : String) (s s' : BadgerStore V) :
    Prop where
  ownKeys : OwnKeys codec s → OwnKeys codec s'
  others : ∀ metric', metric' ≠ metric →
    Manager.get codec s' scanner metric' = Manager.get codec s scanner metric'

lemma Frame.refl (codec : Codec Baseline V) (scanner metric : String) (s : BadgerStore V) :
    Frame codec scanner metric s s :=
  ⟨id, fun _ _ => rfl⟩

lemma Frame.trans {s s' s'' : BadgerStore V} (h : Frame codec scanner metric s s')
    (h' : Frame codec scanner metric s' s'') : Frame codec scanner metric s s'' :=
  ⟨fun hs => h'.ownKeys (h.ownKeys hs),
    fun metric' hne => (h'.others metric' hne).trans (h.others metric' hne)⟩

lemma Frame.put {s' : BadgerStore V} {r : Baseline} (hown : OwnKey scanner metric r)
    (h : Manager.put codec s r = .ok s') : Frame codec scanner metric s s' := by
  refine ⟨fun hkeys scanner' metric' r' hget => ?_, fun metric' hne => ?_⟩
  · by_cases hkey : baselineKey r.scannerName r.metric = baselineKey scanner' metric'
    · obtain ⟨s'', hput, hcell⟩ := Manager.put_eq codec s hkey
      obtain rfl := Except.ok.inj (hput.symm.trans h)
      obtain rfl := Except.ok.inj (hcell.1.symm.trans hget)
      exact hkey
    · rw [Manager.get_of_put h hkey] at hget
      exact hkeys scanner' metric' r' hget
  · refine Manager.get_of_put h fun hkey => hne ?_
    exact (baselineKey_inj (hown.symm.trans hkey)).symm

/-- `Update` writes the record that it returns back.  What holds of the names of its pair, and
of the names in the record that it finds, holds of the names in what it writes. -/
lemma Manager.put_of_update {N : String → String → Prop} {s' : BadgerStore V} {now : Time}
    {value : ℚ} {r : Baseline} (hpair : N scanner metric)
    (hold : ∀ b, Manager.get codec s scanner metric = .ok b → N b.scannerName b.metric)
    (h : Manager.update codec s now scanner metric value = .ok (s', r)) :
    N r.scannerName r.metric ∧ Manager.put codec s r = .ok s' := by
  rw [Manager.update, Manager.load] at h
  split_ifs at h with hnames
  cases hget : Manager.get codec s scanner metric with
  | error err =>
    cases err with
    | notFound =>
      -- a new record carries the names of the pair, an old one those that it has
      simp only [hget] at h
      split at h
      · cases h
      · rename_i hput
        obtain ⟨rfl, rfl⟩ := Prod.mk.inj (Except.ok.inj h)
        exact ⟨hpair, hput⟩
    | text msg => simp [hget] at h
  | ok b =>
    simp only [hget] at h
    split at h
    · cases h
    · rename_i hput
      obtain ⟨rfl, rfl⟩ := Prod.mk.inj (Except.ok.inj h)
      exact ⟨hold b hget, hput⟩

/-- So does `DetectDrift`. -/
lemma Manager.put_of_detectDrift {N : String → String → Prop} {s' : BadgerStore V} {now : Time}
    {value : ℚ} {consecutive : ℤ} {answer : Bool × String}
    (hold : ∀ b, Manager.get codec s scanner metric = .ok b → N b.scannerName b.metric)
    (h : Manager.detectDrift codec s now scanner metric value consecutive = .ok (s', answer)) :
    ∃ r : Baseline, N r.scannerName r.metric ∧ Manager.put codec s r = .ok s' := by
  rw [Manager.detectDrift, Manager.isAnomaly] at h
  cases hget : Manager.get codec s scanner metric with
  | error err => simp [hget] at h
  | ok b =>
    simp only [hget] at h
    split at h
    · cases h
    · rename_i hput
      obtain ⟨rfl, -⟩ := Prod.mk.inj (Except.ok.inj h)
      exact ⟨b.judge now value (b.anomaly value).1, hold b hget, hput⟩

/-- The calls on a pair leave the records under other keys alone. -/
lemma Manager.get_of_update {s' : BadgerStore V} {now : Time} {value : ℚ} {r : Baseline}
    (hkeys : OwnKeys codec s) (h : Manager.update codec s now scanner metric value = .ok (s', r))
    {scanner' metric' : String} (hne : baselineKey scanner metric ≠ baselineKey scanner' metric') :
    Manager.get codec s' scanner' metric' = Manager.get codec s scanner' metric' := by
  obtain ⟨hown, hput⟩ := Manager.put_of_update
    (N := fun scanner' metric' => baselineKey scanner' metric' = baselineKey scanner metric)
    rfl (hkeys scanner metric) h
  exact Manager.get_of_put hput fun hkey => hne (hown.symm.trans hkey)

lemma Manager.get_of_detectDrift {s' : BadgerStore V} {now : Time} {value : ℚ} {consecutive : ℤ}
    {answer : Bool × String} (hkeys : OwnKeys codec s)
    (h : Manager.detectDrift codec s now scanner metric value consecutive = .ok (s', answer))
    {scanner' metric' : String} (hne : baselineKey scanner metric ≠ baselineKey scanner' metric') :
    Manager.get codec s' scanner' metric' = Manager.get codec s scanner' metric' := by
  obtain ⟨r, hown, hput⟩ := Manager.put_of_detectDrift
    (N := fun scanner' metric' => baselineKey scanner' metric' = baselineKey scanner metric)
    (hkeys scanner metric) h
  exact Manager.get_of_put hput fun hkey => hne (hown.symm.trans hkey)

lemma Frame.update {s' : BadgerStore V} {now : Time} {value : ℚ} {r : Baseline}
    (hkeys : OwnKeys codec s) (h : Manager.update codec s now scanner metric value = .ok (s', r)) :
    Frame codec scanner metric s s' := by
  obtain ⟨hown, hput⟩ := Manager.put_of_update
    (N := fun scanner' metric' => baselineKey scanner' metric' = baselineKey scanner metric)
    rfl (hkeys scanner metric) h
  exact Frame.put hown hput

lemma Frame.detectDrift {s' : BadgerStore V} {now : Time} {value : ℚ} {consecutive : ℤ}
    {answer : Bool × String} (hkeys : OwnKeys codec s)
    (h : Manager.detectDrift codec s now scanner metric value consecutive = .ok (s', answer)) :
    Frame codec scanner metric s s' := by
  obtain ⟨r, hown, hput⟩ := Manager.put_of_detectDrift
    (N := fun scanner' metric' => baselineKey scanner' metric' = baselineKey scanner metric)
    (hkeys scanner metric) h
  exact Frame.put hown hput

end Arcsent.Detection
