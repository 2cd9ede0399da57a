/-
# What retention keeps

At its start the daemon prunes old results and old baselines.  Both live in one store with
the states of the jobs and the status of the signatures, and `ForEach` does not get beyond
the bucket that comes first.
-/
import Arcsent.Storage.Prune
import Arcsent.Detection.Listings
import Arcsent.Scheduler.Loops
import Arcsent.Signatures.Updater

namespace Arcsent.Detection

open Arcsent.Go Arcsent.Storage

/-- The method `PruneOlderThan` of the baseline manager. -/
def Manager.pruneOlderThan {V : Type} (codec : Codec Baseline V) (cutoff : Time)
    (b : BadgerStore V) : BadgerStore V × Option Error :=
  pruneRecords baselineBucket codec.unmarshal Baseline.updatedAt cutoff b

end Arcsent.Detection

namespace Arcsent.Daemon

open Arcsent.Go Arcsent.Lib Arcsent.Storage Arcsent.Scanner Arcsent.Detection Arcsent.Scheduling
open Arcsent.Signatures (signaturesBucket signaturesStatusKey saveStatus)

variable {κ V : Type}

/-! ## What is saved -/

/-- How the records of the store are written. -/
structure Records (V : Type) where
  result : ResultCodec V
  baseline : Codec Baseline V
  state : Codec JobState V
  status : Codec Signatures.Status V

/-- The buckets of the store. -/
def buckets : List Bytes := [baselineBucket, resultsBucket, stateBucket, signaturesBucket]

/-- Something is saved. -/
inductive Save (κ V : Type)
  | result (now : Time) (suffix : String) (result : Result)
  | baseline (baseline : Baseline)
  | state (job : Job κ)
  | status (status : Signatures.Status)
  /-- Another version of the daemon saves a record of its own. -/
  | other (bucket : Bytes) (ours : bucket ∈ buckets) (key : Bytes) (value : V)

variable (records : Records V)

/-- The store after something is saved; a save that fails leaves it as it was. -/
def Save.perform (b : BadgerStore V) : Save κ V → BadgerStore V
  | result now suffix res =>
    ((ResultsStore.save records.result b now suffix res).toOption).getD b
  | baseline bl => ((Manager.put records.baseline b bl).toOption).getD b
  | state j => (saveState records.state (some b) j).getD b
  | status st => (saveStatus records.status (some b) st).getD b
  | other bucket _ key value => ((b.put bucket key value).toOption).getD b

/-- The store after a sequence of saves on a fresh database. -/
def storeAfter (saves : List (Save κ V)) : BadgerStore V :=
  saves.foldl (Save.perform records) .empty

/-- The call of the store that a save makes. -/
def Save.write : Save κ V → Write V
  | result now suffix res =>
    .put resultsBucket
      (bytes (toString (unixNano now) ++ "-" ++ res.scannerName ++ "-" ++ suffix))
      (records.result.marshal res)
  | baseline bl =>
    .put baselineBucket (bytes (baselineKey bl.scannerName bl.metric))
      (records.baseline.marshal bl)
  | state j => .put stateBucket (bytes j.cfg.name) (records.state.marshal j.state)
  | status st => .put signaturesBucket signaturesStatusKey (records.status.marshal st)
  | other bucket _ key value => .put bucket key value

lemma Save.perform_eq (b : BadgerStore V) (save : Save κ V) :
    save.perform records b = b.perform (save.write records) := by
  cases save <;> rfl

lemma Save.bucket_mem (save : Save κ V) : (save.write records).bucket ∈ buckets := by
  cases save with
  | result | baseline | state | status => simp [buckets, Save.write, Write.bucket]
  | other bucket ours => exact ours

/-- The saves as calls of the store. -/
lemma storeAfter_eq (saves : List (Save κ V)) :
    storeAfter records saves = .after (saves.map (Save.write records)) := by
  have hperform : (Save.perform records : BadgerStore V → Save κ V → BadgerStore V) =
      fun b save => b.perform (save.write records) := by
    funext b save
    exact save.perform_eq records b
  rw [storeAfter, BadgerStore.after, List.foldl_map, hperform]

/-- Nothing is live outside the buckets of the store. -/
lemma mem_buckets_of_live {ws : List (Write V)} (hws : ∀ w ∈ ws, w.bucket ∈ buckets)
    {bucket key : Bytes} (hlive : live ws bucket key ≠ none) : bucket ∈ buckets := by
  by_contra hout
  -- by induction on the calls, none of which is for this bucket
  suffices hkept : ∀ m : Buckets V, m bucket = (fun _ => none) →
      (ws.foldl Buckets.perform m) bucket = fun _ => none from
    hlive (congrFun (hkept _ rfl) key)
  clear hlive
  induction ws with
  | nil => exact fun m hm => hm
  | cons w ws ih =>
    intro m hm
    have hne : bucket ≠ w.bucket := fun heq => hout (heq ▸ hws w List.mem_cons_self)
    refine ih (fun v hv => hws v (List.mem_cons_of_mem _ hv)) _ ?_
    rw [m.perform_of_ne hne, hm]

/-- A store that holds entries of these buckets only. -/
structure Tidy (b : BadgerStore V) (m : Buckets V) : Prop where
  holds : Holds b m
  ours : ∀ bucket key, m bucket key ≠ none → bucket ∈ buckets

lemma tidy_storeAfter (saves : List (Save κ V)) :
    Tidy (storeAfter records saves) (live (saves.map (Save.write records))) := by
  have hmem : ∀ w ∈ saves.map (Save.write records), w.bucket ∈ buckets := by
    intro w hw
    obtain ⟨save, -, rfl⟩ := List.mem_map.mp hw
    exact save.bucket_mem records
  have hslash : ∀ bucket ∈ buckets, slash ∉ bucket := by decide
  rw [storeAfter_eq]
  exact ⟨holds_after _ fun w hw => hslash _ (hmem w hw), fun _ _ => mem_buckets_of_live hmem⟩

/-! ## What retention is to do -/

/-- A result that retention keeps. -/
def FreshResult (cutoff : Time) : V → Prop :=
  Fresh records.result.unmarshal Result.finishedAt cutoff

/-- A baseline that retention keeps. -/
def FreshBaseline (cutoff : Time) : V → Prop :=
  Fresh records.baseline.unmarshal Baseline.updatedAt cutoff

/-- Of the results and of the baselines exactly the fresh ones are left, and of everything
else all. -/
structure Retained (cutoff : Time) (b b' : BadgerStore V) : Prop where
  results : ∀ key v, b'.get resultsBucket key = .ok v ↔
    b.get resultsBucket key = .ok v ∧ FreshResult records cutoff v
  baselines : ∀ key v, b'.get baselineBucket key = .ok v ↔
    b.get baselineBucket key = .ok v ∧ FreshBaseline records cutoff v
  others : ∀ bucket key v, slash ∉ bucket → bucket ≠ resultsBucket → bucket ≠ baselineBucket →
    (b'.get bucket key = .ok v ↔ b.get bucket key = .ok v)

/-- Once both prunings have returned `nil`, the fresh records are what is left. -/
def KeepsFresh (cutoff : Time) (b : BadgerStore V) : Prop :=
  ∀ b₁ b₂, ResultsStore.pruneOlderThan records.result cutoff b = (b₁, none) →
    Manager.pruneOlderThan records.baseline cutoff b₁ = (b₂, none) →
    Retained records cutoff b b₂

variable {b : BadgerStore V} {m : Buckets V} {cutoff : Time}

lemma Tidy.baselines_first (h : Tidy b m) : ScannedFirst m baselineBucket := by
  rintro - bucket key hlive hne
  have hfirst : ∀ bucket ∈ buckets, bucket ≠ baselineBucket →
      compare (groupPrefix slash baselineBucket) (groupPrefix slash bucket) = .lt := by decide
  exact hfirst bucket (h.ours bucket key hlive) hne

lemma Tidy.results_first (h : Tidy b m) (hnone : ∀ key, m baselineBucket key = none) :
    ScannedFirst m resultsBucket := by
  rintro - bucket key hlive hne
  have hsecond : ∀ bucket ∈ buckets, bucket ≠ baselineBucket → bucket ≠ resultsBucket →
      compare (groupPrefix slash resultsBucket) (groupPrefix slash bucket) = .lt := by decide
  refine hsecond bucket (h.ours bucket key hlive) ?_ hne
  rintro rfl
  exact hlive (hnone key)

/-- Pruning the baselines takes the stale ones away, and nothing else. -/
lemma Tidy.prune_baselines (h : Tidy b m) (cutoff : Time) :
    ∃ b' m', Manager.pruneOlderThan records.baseline cutoff b = (b', none) ∧ Holds b' m' ∧
      Pruned baselineBucket (FreshBaseline records cutoff) m m' :=
  h.holds.pruneRecords_of_scannedFirst slash_notMem_baselineBucket (by decide) h.baselines_first
    _ _ cutoff

/-- So does pruning the results where there is no baseline. -/
lemma Tidy.prune_results (h : Tidy b m) (hnone : ∀ key, m baselineBucket key = none)
    (cutoff : Time) :
    ∃ b' m', ResultsStore.pruneOlderThan records.result cutoff b = (b', none) ∧ Holds b' m' ∧
      Pruned resultsBucket (FreshResult records cutoff) m m' :=
  h.holds.pruneRecords_of_scannedFirst slash_notMem_resultsBucket (by decide)
    (h.results_first hnone) _ _ cutoff

/-- Where there is a baseline, pruning the results does nothing. -/
lemma Tidy.prune_results_eq (h : Tidy b m) {key : Bytes} {v : V}
    (hlive : m baselineBucket key = some v) (cutoff : Time) :
    ResultsStore.pruneOlderThan records.result cutoff b = (b, none) := by
  have hnil := h.holds.scanned_eq_nil slash_notMem_resultsBucket hlive (by decide)
  have hb : resultsBucket ≠ [] := by decide
  rw [ResultsStore.pruneOlderThan, pruneRecords, b.forEach_eq_visit hb, hnil]
  rfl

/-- What a pruning leaves is tidy. -/
lemma Tidy.pruned (h : Tidy b m) {b' : BadgerStore V} {m' : Buckets V} (hholds : Holds b' m')
    {bucket : Bytes} {keep : V → Prop} (hpruned : Pruned bucket keep m m') : Tidy b' m' := by
  refine ⟨hholds, ?_⟩
  intro bucket key hlive
  obtain ⟨v, hv⟩ := Option.ne_none_iff_exists'.mp hlive
  have hold := ((hpruned bucket key v).mp hv).1
  exact h.ours bucket key (by simp [hold])

/-- **Both prunings return `nil`**, whatever has been saved. -/
theorem exists_pruned (saves : List (Save κ V)) (cutoff : Time) :
    ∃ b₁ b₂,
      ResultsStore.pruneOlderThan records.result cutoff (storeAfter records saves) = (b₁, none) ∧
      Manager.pruneOlderThan records.baseline cutoff b₁ = (b₂, none) := by
  have h := tidy_storeAfter records saves
  by_cases hnone : ∀ key, live (saves.map (Save.write records)) baselineBucket key = none
  · obtain ⟨b₁, m₁, hresults, hholds, hm₁⟩ := h.prune_results records hnone cutoff
    obtain ⟨b₂, -, hbaselines, -, -⟩ := (h.pruned hholds hm₁).prune_baselines records cutoff
    exact ⟨b₁, b₂, hresults, hbaselines⟩
  · push Not at hnone
    obtain ⟨key, hkey⟩ := hnone
    obtain ⟨v, hv⟩ := Option.ne_none_iff_exists'.mp hkey
    obtain ⟨b₂, -, hbaselines, -, -⟩ := h.prune_baselines records cutoff
    exact ⟨_, b₂, h.prune_results_eq records hv cutoff, hbaselines⟩

/-- Behind a baseline a stale result stays. -/
lemma Tidy.fresh_of_keepsFresh (h : Tidy b m) {key key' : Bytes} {v w : V}
    (hlive : m baselineBucket key = some v) (hkeeps : KeepsFresh records cutoff b)
    (hw : m resultsBucket key' = some w) : FreshResult records cutoff w := by
  have hresults := h.prune_results_eq records hlive cutoff
  obtain ⟨b₂, m₂, hbaselines, hholds₂, hm₂⟩ := h.prune_baselines records cutoff
  -- the results have not been scanned, so that all of them are left
  have hne : resultsBucket ≠ baselineBucket := by decide
  have hleft : m₂ resultsBucket key' = some w :=
    (hm₂ _ _ _).mpr ⟨hw, fun heq => absurd heq hne⟩
  rw [← hholds₂.get_eq_ok_iff slash_notMem_resultsBucket] at hleft
  exact (((hkeeps b b₂ hresults hbaselines).results key' w).mp hleft).2

/-- What is left, read off from the entries that are live. -/
lemma retained_of_live (h : Holds b m) {b' : BadgerStore V} {m' : Buckets V} (h' : Holds b' m')
    (hleft : ∀ bucket key v, m' bucket key = some v ↔ m bucket key = some v ∧
      (bucket = resultsBucket → FreshResult records cutoff v) ∧
      (bucket = baselineBucket → FreshBaseline records cutoff v)) :
    Retained records cutoff b b' := by
  have hne : resultsBucket ≠ baselineBucket := by decide
  refine ⟨?_, ?_, ?_⟩
  · intro key v
    rw [h.get_eq_ok_iff slash_notMem_resultsBucket, h'.get_eq_ok_iff slash_notMem_resultsBucket,
      hleft]
    simp [hne]
  · intro key v
    rw [h.get_eq_ok_iff slash_notMem_baselineBucket, h'.get_eq_ok_iff slash_notMem_baselineBucket,
      hleft]
    simp [hne.symm]
  · intro bucket key v hs hresults hbaselines
    rw [h.get_eq_ok_iff hs, h'.get_eq_ok_iff hs, hleft]
    simp [hresults, hbaselines]

/-- **Retention keeps exactly the fresh records** when the store holds no baseline or no
stale result. -/
theorem keepsFresh_iff (records : Records V) (saves : List (Save κ V)) (cutoff : Time) :
    KeepsFresh records cutoff (storeAfter records saves) ↔
      (∀ key v, (storeAfter records saves).get baselineBucket key ≠ .ok v) ∨
        ∀ key v, (storeAfter records saves).get resultsBucket key = .ok v →
          FreshResult records cutoff v := by
  have h := tidy_storeAfter records saves
  generalize storeAfter records saves = b at h ⊢
  generalize live (saves.map (Save.write records)) = m at h
  have hget {bucket : Bytes} (hs : slash ∉ bucket) (key : Bytes) (v : V) :
      b.get bucket key = .ok v ↔ m bucket key = some v := h.holds.get_eq_ok_iff hs key v
  simp only [hget slash_notMem_baselineBucket, hget slash_notMem_resultsBucket, Ne]
  by_cases hnone : ∀ key, m baselineBucket key = none
  · -- both buckets are scanned from their first entry on
    refine iff_of_true ?_ (.inl fun key v hv => by simp [hnone key] at hv)
    obtain ⟨b₁, m₁, hresults, hholds₁, hm₁⟩ := h.prune_results records hnone cutoff
    obtain ⟨b₂, m₂, hbaselines, hholds₂, hm₂⟩ :=
      (h.pruned hholds₁ hm₁).prune_baselines records cutoff
    intro b₁' b₂' h₁ h₂
    obtain rfl : b₁ = b₁' := (Prod.mk.inj (hresults.symm.trans h₁)).1
    obtain rfl : b₂ = b₂' := (Prod.mk.inj (hbaselines.symm.trans h₂)).1
    refine retained_of_live records h.holds hholds₂ fun bucket key v => ?_
    rw [hm₂, hm₁, and_assoc]
  · push Not at hnone
    obtain ⟨key, hkey⟩ := hnone
    obtain ⟨v, hv⟩ := Option.ne_none_iff_exists'.mp hkey
    -- a baseline stands before the results, so that their scan ends at once
    have hresults := h.prune_results_eq records hv cutoff
    obtain ⟨b₂, m₂, hbaselines, hholds₂, hm₂⟩ := h.prune_baselines records cutoff
    constructor
    · exact fun hkeeps => .inr fun _ _ hw => h.fresh_of_keepsFresh records hv hkeeps hw
    · rintro (hempty | hfresh)
      · exact absurd hv (hempty key v)
      · intro b₁' b₂' h₁ h₂
        obtain rfl : b = b₁' := (Prod.mk.inj (hresults.symm.trans h₁)).1
        obtain rfl : b₂ = b₂' := (Prod.mk.inj (hbaselines.symm.trans h₂)).1
        refine retained_of_live records h.holds hholds₂ fun bucket key v => ?_
        rw [hm₂]
        refine and_congr_right fun hlive => ?_
        rw [iff_and_self]
        rintro - rfl
        exact hfresh key v hlive

/-- Records that are stored as they are. -/
inductive Stored
  | result (r : Result)
  | baseline (b : Baseline)
  | state (st : JobState)
  | status (st : Signatures.Status)
deriving DecidableEq

def storedRecords : Records Stored where
  result :=
    { marshal := .result
      unmarshal := fun v =>
        match v with
        | .result r => .ok (r.readBack id)
        | _ => .error "not a result"
      rest := id
      unmarshal_marshal := fun _ => rfl }
  baseline :=
    { marshal := .baseline
      unmarshal := fun v => match v with | .baseline b => .ok b | _ => .error "not a baseline"
      unmarshal_marshal := fun _ => rfl }
  state :=
    { marshal := .state
      unmarshal := fun v => match v with | .state st => .ok st | _ => .error "not a state"
      unmarshal_marshal := fun _ => rfl }
  status :=
    { marshal := .status
      unmarshal := fun v => match v with | .status st => .ok st | _ => .error "not a status"
      unmarshal_marshal := fun _ => rfl }

/-- A result that ended in the first second, and a baseline of the same scanner. -/
def oldResult : Result :=
  ⟨"cpu", .success, [], unixEpoch, unixEpoch + second, second, .empty⟩

def oneOfEach : List (Save Unit Stored) :=
  [.result (unixEpoch + second) "ab" oldResult, .baseline (.fresh "cpu" "load" 1)]

/-- The result is stale an hour later, but it is behind the baseline. -/
theorem not_keepsFresh_oneOfEach :
    ¬ KeepsFresh storedRecords (unixEpoch + hour) (storeAfter storedRecords oneOfEach) := by
  intro hkeeps
  have h := tidy_storeAfter storedRecords oneOfEach
  have hbaseline : live (oneOfEach.map (Save.write storedRecords)) baselineBucket
      (bytes "cpu::load") = some (.baseline (.fresh "cpu" "load" 1)) := by decide +kernel
  have hresult : live (oneOfEach.map (Save.write storedRecords)) resultsBucket
      (bytes "1000000000-cpu-ab") = some (.result oldResult) := by decide +kernel
  have hfresh := h.fresh_of_keepsFresh storedRecords hbaseline hkeeps hresult
  rcases hfresh oldResult rfl with hzero | hlate
  · revert hzero
    decide
  · revert hlate
    decide

end Arcsent.Daemon
