/-
# The results that are listed

Every result is saved under the time of the save, the name of its scanner and a random text,
and the results are listed by their keys.  In a store without baselines that is the order of
the times; where there is a baseline, none is listed.
-/
import Arcsent.Daemon.Retention
import Arcsent.Detection.BaselineStore
import Arcsent.Go.Filepath
import Arcsent.Lib.Decimal

namespace Arcsent.Daemon

open Arcsent.Go Arcsent.Lib Arcsent.Storage Arcsent.Scanner Arcsent.Detection

variable {κ V : Type}

/-! ## Saved results -/

/-- A result with the time and the random text of its key. -/
structure SavedResult where
  now : Time
  suffix : String
  result : Result
deriving DecidableEq

namespace SavedResult

/-- The key that `Save` makes. -/
def key (s : SavedResult) : String :=
  toString (unixNano s.now) ++ "-" ++ s.result.scannerName ++ "-" ++ s.suffix

/-- What stands in the key behind the time. -/
def tail (s : SavedResult) : String := "-" ++ s.result.scannerName ++ "-" ++ s.suffix

/-- The order of the keys: by the time of the save, and at one time by name and random text. -/
def Before (s s' : SavedResult) : Prop :=
  s.now < s'.now ∨ s.now = s'.now ∧ compare (bytes s.tail) (bytes s'.tail) = .lt

/-- What tells two saves apart. -/
def names (s : SavedResult) : Time × String × String := (s.now, s.result.scannerName, s.suffix)

/-- The time of the save has nineteen digits, as it has from 2001 to 2262, the last year whose
nanoseconds fit into an `int64`, and the random text is one of hexadecimal digits. -/
structure Usual (s : SavedResult) : Prop where
  after : 10 ^ 18 ≤ unixNano s.now
  before : unixNano s.now < 2 ^ 63
  suffix : '-' ∉ s.suffix.toList

variable {s s' : SavedResult}

/-- The time of the save as a natural number. -/
def nanos (s : SavedResult) : ℕ := (unixNano s.now).toNat

lemma Usual.unixNano_eq (h : s.Usual) : unixNano s.now = s.nanos := by
  have hpos := h.after
  rw [nanos, Int.toNat_of_nonneg (by omega)]

lemma Usual.length_eq (h : s.Usual) : (Nat.toDigits 10 s.nanos).length = 19 := by
  have hafter := h.after
  have hbefore := h.before
  rw [h.unixNano_eq] at hafter hbefore
  have hlast : s.nanos < 10 ^ 19 := by
    have hnanos : s.nanos < 2 ^ 63 := by exact_mod_cast hbefore
    omega
  exact length_toDigits (k := 18) (by exact_mod_cast hafter) hlast

lemma Usual.key_toList (h : s.Usual) :
    s.key.toList = Nat.toDigits 10 s.nanos ++ '-' :: (s.result.scannerName.toList ++
      '-' :: s.suffix.toList) := by
  have htext : toString (unixNano s.now) = String.ofList (Nat.toDigits 10 s.nanos) := by
    rw [h.unixNano_eq]
    rfl
  rw [key, htext]
  simp [String.toList_append]

/-- **The key tells the three parts apart.** -/
lemma names_eq_of_key_eq (h : s.Usual) (h' : s'.Usual) (heq : s.key = s'.key) :
    s.names = s'.names := by
  have hdash (n : ℕ) : '-' ∉ Nat.toDigits 10 n := fun hmem =>
    absurd (Nat.isDigit_of_mem_toDigits (by decide) (by decide) hmem) (by decide)
  have hlist := congrArg String.toList heq
  rw [h.key_toList, h'.key_toList] at hlist
  obtain ⟨hdigits, hrest⟩ := flatKey_inj (hdash _) (hdash _) hlist
  -- the random text is the part after the last dash
  have hback := congrArg List.reverse hrest
  simp only [List.reverse_append, List.reverse_cons, List.append_assoc, List.singleton_append]
    at hback
  obtain ⟨hsuffix, hname⟩ := flatKey_inj (by simpa using h.suffix) (by simpa using h'.suffix) hback
  have hnanos : s.nanos = s'.nanos := by
    have hnum := congrArg (fun ds => Nat.ofDigitChars 10 ds 0) hdigits
    simpa using hnum
  have hnow : unixNano s.now = unixNano s'.now := by
    rw [h.unixNano_eq, h'.unixNano_eq, hnanos]
  rw [names, names, Prod.mk.injEq, Prod.mk.injEq]
  refine ⟨?_, ?_, ?_⟩
  · exact sub_left_injective hnow
  · exact String.toList_inj.mp (List.reverse_injective hname)
  · exact String.toList_inj.mp (List.reverse_injective hsuffix)

/-- The byte of a digit. -/
def digitByte (c : Char) : UInt8 := UInt8.ofNat c.toNat

lemma increasing_digitByte : IncreasingDigits digitByte := by
  have hall : ∀ j < 10, ∀ i < j,
      compare (digitByte (Nat.digitChar i)) (digitByte j.digitChar) = .lt := by
    decide
  exact fun i j hij hj => hall j hj i hij

lemma bytes_digits (n : ℕ) :
    bytes (String.ofList (Nat.toDigits 10 n)) = (Nat.toDigits 10 n).map digitByte := by
  have hbyte : ∀ c : Char, c.isDigit → String.utf8EncodeChar c = [digitByte c] := by
    intro c hc
    have hlt : c.toNat ≤ 127 := by
      have hrange := Char.isDigit_iff_toNat.mp hc
      have hnine : '9'.toNat = 57 := rfl
      omega
    unfold String.utf8EncodeChar
    extract_lets v
    have hv : v = c.toNat := rfl
    rw [if_pos (by omega)]
    rfl
  rw [Filepath.bytes_eq_flatMap, String.toList_ofList, List.map_eq_flatMap]
  refine List.flatMap_congr fun c hc => ?_
  exact hbyte c (Nat.isDigit_of_mem_toDigits (by decide) (by decide) hc)

lemma Usual.bytes_key (h : s.Usual) :
    bytes s.key = (Nat.toDigits 10 s.nanos).map digitByte ++ bytes s.tail := by
  have htext : toString (unixNano s.now) = String.ofList (Nat.toDigits 10 s.nanos) := by
    rw [h.unixNano_eq]
    rfl
  rw [key, htext, String.append_assoc, String.append_assoc, String.append_assoc, bytes_append,
    bytes_digits, tail, String.append_assoc, String.append_assoc]

lemma Usual.nanos_lt (h : s.Usual) (h' : s'.Usual) (hlt : s.now < s'.now) :
    s.nanos < s'.nanos := by
  have hunix : unixNano s.now < unixNano s'.now := sub_lt_sub_right hlt unixEpoch
  rw [h.unixNano_eq, h'.unixNano_eq] at hunix
  exact Int.ofNat_lt.mp hunix

/-- **The order of the keys is that of the times, and at one time that of the rest.** -/
lemma before_of_key_lt (h : s.Usual) (h' : s'.Usual)
    (hlt : compare (bytes s.key) (bytes s'.key) = .lt) : s.Before s' := by
  have hlen : (Nat.toDigits 10 s'.nanos).length = (Nat.toDigits 10 s.nanos).length := by
    rw [h.length_eq, h'.length_eq]
  rcases lt_trichotomy s.now s'.now with hearly | hnow | hlate
  · exact .inl hearly
  · -- the same digits stand in front
    have hnanos : s.nanos = s'.nanos := by rw [nanos, nanos, hnow]
    rw [h.bytes_key, h'.bytes_key, hnanos, compare_append rfl, Std.ReflOrd.compare_self] at hlt
    exact .inr ⟨hnow, hlt⟩
  · have hback : compare (bytes s'.key) (bytes s.key) = .lt := by
      rw [h.bytes_key, h'.bytes_key]
      exact compare_append_of_lt (by simpa using hlen)
        (compare_toDigits_of_lt increasing_digitByte hlen (h'.nanos_lt h hlate)) _ _
    exact absurd hback (compare_asymm hlt)

end SavedResult

/-! ## The entries of the results -/

/-- A save of a result. -/
def Save.result? : Save κ V → Option SavedResult
  | .result now suffix r => some ⟨now, suffix, r⟩
  | _ => none

/-- The results among the saves. -/
def savedResults (saves : List (Save κ V)) : List SavedResult := saves.filterMap Save.result?

variable (records : Records V)

/-- The entry of a saved result. -/
def SavedResult.entry (s : SavedResult) : Bytes × V :=
  (bytes s.key, records.result.marshal s.result)

lemma SavedResult.bytes_key_ne_nil (s : SavedResult) : bytes s.key ≠ [] := by
  have hdash : bytes "-" ≠ [] := by decide
  rw [SavedResult.key, bytes_append, bytes_append, bytes_append, bytes_append]
  simp [hdash]

/-- The call that saves a result. -/
lemma perform_result (m : Buckets V) (s : SavedResult) (key : Bytes) :
    m.perform ((Save.result s.now s.suffix s.result : Save κ V).write records) resultsBucket key =
      if key = bytes s.key then some (records.result.marshal s.result)
      else m resultsBucket key := by
  have hwrite : (Save.result s.now s.suffix s.result : Save κ V).write records =
      .put resultsBucket (bytes s.key) (records.result.marshal s.result) := rfl
  have hnames : ¬ (resultsBucket = [] ∨ bytes s.key = []) :=
    not_or_intro (by decide) s.bytes_key_ne_nil
  rw [hwrite, Buckets.perform, Write.bucket, Write.key, if_neg hnames]
  simp [Write.value]

/-- The saves of one daemon: none of another version, every result under names of its own. -/
structure OwnSaves (saves : List (Save κ V)) : Prop where
  ours : ∀ bucket h key value, .other bucket h key value ∉ saves
  usual : ∀ s ∈ savedResults saves, s.Usual
  distinct : ((savedResults saves).map SavedResult.names).Nodup

variable {saves : List (Save κ V)}

lemma savedResults_concat (saves : List (Save κ V)) (save : Save κ V) :
    savedResults (saves ++ [save]) = savedResults saves ++ save.result?.toList := by
  rw [savedResults, List.filterMap_append, savedResults]
  cases hsave : save.result? <;> simp [hsave]

lemma OwnSaves.of_concat {save : Save κ V} (h : OwnSaves (saves ++ [save])) : OwnSaves saves := by
  refine ⟨fun bucket hb key value hmem => ?_, fun s hs => ?_, ?_⟩
  · exact h.ours bucket hb key value (List.mem_append_left _ hmem)
  · exact h.usual s (savedResults_concat saves save ▸ List.mem_append_left _ hs)
  · have hdistinct := h.distinct
    rw [savedResults_concat, List.map_append] at hdistinct
    exact hdistinct.of_append_left

/-- A result is saved under a key that no result has been saved under before. -/
lemma OwnSaves.key_notMem {s : SavedResult}
    (h : OwnSaves (saves ++ [Save.result s.now s.suffix s.result])) :
    ∀ old ∈ savedResults saves, old.key ≠ s.key := by
  intro old hold hkey
  have hsaved : savedResults (saves ++ [Save.result s.now s.suffix s.result]) =
      savedResults saves ++ [s] := savedResults_concat saves _
  have hdistinct := h.distinct
  have hs := h.usual s (hsaved ▸ List.mem_append_right _ List.mem_cons_self)
  rw [hsaved, List.map_append, List.nodup_append] at hdistinct
  exact hdistinct.2.2 _ (List.mem_map_of_mem hold) _ List.mem_cons_self
    (SavedResult.names_eq_of_key_eq (h.of_concat.usual old hold) hs hkey)

/-- The live results are those that have been saved. -/
lemma OwnSaves.live_results_iff (h : OwnSaves saves) (key : Bytes) (v : V) :
    live (saves.map (Save.write records)) resultsBucket key = some v ↔
      (key, v) ∈ (savedResults saves).map (SavedResult.entry records) := by
  induction saves using List.reverseRecOn with
  | nil => simp [live, savedResults]
  | append_singleton saves save ih =>
    have hlive : live ((saves ++ [save]).map (Save.write records)) =
        (live (saves.map (Save.write records))).perform (save.write records) := by
      simp [live, List.foldl_append]
    rw [hlive, savedResults_concat, List.map_append, List.mem_append]
    by_cases hresult : ∃ s : SavedResult, save = .result s.now s.suffix s.result
    · obtain ⟨s, rfl⟩ := hresult
      have hone : (Save.result s.now s.suffix s.result : Save κ V).result?.toList = [s] := rfl
      rw [perform_result, hone, List.map_singleton, List.mem_singleton]
      split_ifs with hkey
      · -- nothing else has been saved under this key
        have hfresh : (key, v) ∉ (savedResults saves).map (SavedResult.entry records) := by
          intro hmem
          obtain ⟨old, hold, heq⟩ := List.mem_map.mp hmem
          exact h.key_notMem old hold (bytes_inj.mp ((Prod.mk.inj heq).1.trans hkey))
        rw [or_iff_right hfresh, SavedResult.entry, Prod.mk.injEq, and_iff_right hkey,
          Option.some_inj, eq_comm]
      · have hother : (key, v) ≠ s.entry records := fun heq => hkey (Prod.mk.inj heq).1
        rw [or_iff_left hother, ih h.of_concat]
    · -- the save is for another bucket
      obtain ⟨hne, hnone⟩ : resultsBucket ≠ (save.write records).bucket ∧ save.result? = none := by
        cases save with
        | result now suffix r => exact absurd ⟨⟨now, suffix, r⟩, rfl⟩ hresult
        | baseline bl => exact ⟨by simp only [Save.write, Write.bucket]; decide, rfl⟩
        | state job => exact ⟨by simp only [Save.write, Write.bucket]; decide, rfl⟩
        | status st => exact ⟨by simp only [Save.write, Write.bucket]; decide, rfl⟩
        | other bucket hb key' value =>
          exact absurd (List.mem_append_right saves List.mem_cons_self)
            (h.ours bucket hb key' value)
      rw [Buckets.perform_of_ne _ hne, hnone, ih h.of_concat]
      simp

/-! ## Buckets in use -/

/-- Without a deletion a bucket is in use once something has been put there. -/
lemma exists_live_iff {ws : List (Write V)} (hputs : ∀ w ∈ ws, w.value ≠ none) (bucket : Bytes) :
    (∃ key, live ws bucket key ≠ none) ↔
      ∃ w ∈ ws, w.bucket = bucket ∧ ¬ (w.bucket = [] ∨ w.key = []) := by
  induction ws using List.reverseRecOn with
  | nil => simp [live]
  | append_singleton ws w ih =>
    have hlive : live (ws ++ [w]) = (live ws).perform w := by simp [live, List.foldl_append]
    have hw := hputs w (List.mem_append_right _ List.mem_cons_self)
    specialize ih fun v hv => hputs v (List.mem_append_left _ hv)
    simp only [List.mem_append, List.mem_singleton, or_and_right, exists_or, exists_eq_left, ← ih,
      hlive]
    by_cases hnames : w.bucket = [] ∨ w.key = []
    · -- a key with an empty name is not written
      rw [Buckets.perform, if_pos hnames]
      simp [hnames]
    · simp only [Buckets.perform, hnames, if_false, not_false_eq_true, and_true]
      constructor
      · rintro ⟨key, hkey⟩
        by_cases hentry : bucket = w.bucket ∧ key = w.key
        · exact Or.inr hentry.1.symm
        · rw [if_neg hentry] at hkey
          exact Or.inl ⟨key, hkey⟩
      · rintro (⟨key, hkey⟩ | rfl)
        · refine ⟨key, ?_⟩
          split_ifs
          · exact hw
          · exact hkey
        · exact ⟨w.key, by simpa using hw⟩

lemma Save.value_ne_none {save : Save κ V} : (save.write records).value ≠ none := by
  cases save <;> exact Option.some_ne_none _

/-- A baseline is live once one has been saved. -/
lemma OwnSaves.exists_live_baseline_iff (h : OwnSaves saves) :
    (∃ key, live (saves.map (Save.write records)) baselineBucket key ≠ none) ↔
      ∃ bl, .baseline bl ∈ saves := by
  rw [exists_live_iff fun w hw => ?_]
  · constructor
    · rintro ⟨w, hw, hbucket, -⟩
      obtain ⟨save, hsave, rfl⟩ := List.mem_map.mp hw
      cases save with
      | baseline bl => exact ⟨bl, hsave⟩
      | result now suffix r =>
        exact absurd hbucket (by simp only [Save.write, Write.bucket]; decide)
      | state job => exact absurd hbucket (by simp only [Save.write, Write.bucket]; decide)
      | status st => exact absurd hbucket (by simp only [Save.write, Write.bucket]; decide)
      | other bucket hb key value => exact absurd hsave (h.ours bucket hb key value)
    · rintro ⟨bl, hbl⟩
      exact ⟨_, List.mem_map_of_mem hbl, rfl, names_ne_nil bl.scannerName bl.metric⟩
  · obtain ⟨save, -, rfl⟩ := List.mem_map.mp hw
    exact Save.value_ne_none records

/-! ## The listing -/

/-- A rearrangement of an image is the image of a rearrangement. -/
lemma exists_perm_map {α β : Type*} {f : α → β} {l : List β} {xs : List α} (h : l.Perm (xs.map f)) :
    ∃ ys : List α, ys.Perm xs ∧ ys.map f = l := by
  induction l generalizing xs with
  | nil =>
    obtain rfl : xs = [] := by simpa using h.nil_eq.symm
    exact ⟨[], .nil, rfl⟩
  | cons a l ih =>
    obtain ⟨x, hx, rfl⟩ := List.mem_map.mp (h.subset List.mem_cons_self)
    obtain ⟨before, after, rfl⟩ := List.append_of_mem hx
    have hrest : l.Perm ((before ++ after).map f) := by
      rw [List.map_append, List.map_cons] at h
      rw [List.map_append]
      exact (h.trans List.perm_middle).cons_inv
    obtain ⟨ys, hys, rfl⟩ := ih hrest
    exact ⟨x :: ys, (hys.cons x).trans List.perm_middle.symm, rfl⟩

/-- What the listing shows of a saved result. -/
def SavedResult.shown (s : SavedResult) : Result := s.result.readBack records.result.rest

/-- Everything that has been saved is listed, in the order of the keys. -/
def ListsSaved (saves : List (Save κ V)) : Prop :=
  ∃ sorted : List SavedResult, sorted.Perm (savedResults saves) ∧
    sorted.Pairwise SavedResult.Before ∧
    ResultsStore.list records.result (storeAfter records saves) =
      .ok (sorted.map (SavedResult.shown records))

/-- The entries of the results, as saved results. -/
lemma OwnSaves.exists_sorted (h : OwnSaves saves) :
    ∃ sorted : List SavedResult, sorted.Perm (savedResults saves) ∧
      sorted.Pairwise SavedResult.Before ∧
      sorted.map (SavedResult.entry records) =
        (storeAfter records saves).entries resultsBucket := by
  have htidy := tidy_storeAfter records saves
  have hsorted := htidy.holds.entries_sorted slash_notMem_resultsBucket
  have hnodup : ((storeAfter records saves).entries resultsBucket).Nodup := by
    refine hsorted.imp ?_
    rintro x y hlt rfl
    exact compare_asymm hlt hlt
  -- there is one entry for each saved result, so that it is a matter of the order only
  have hperm : ((storeAfter records saves).entries resultsBucket).Perm
      ((savedResults saves).map (SavedResult.entry records)) := by
    refine (List.perm_ext_iff_of_nodup hnodup ?_).mpr ?_
    · refine List.Nodup.map_on (fun s hs s' hs' heq => ?_) h.distinct.of_map
      have hkey : s.key = s'.key := bytes_inj.mp (Prod.mk.inj heq).1
      exact List.inj_on_of_nodup_map h.distinct hs hs'
        (SavedResult.names_eq_of_key_eq (h.usual s hs) (h.usual s' hs') hkey)
    · rintro ⟨key, v⟩
      rw [htidy.holds.mem_entries slash_notMem_resultsBucket, h.live_results_iff]
  obtain ⟨sorted, hsaved, hmap⟩ := exists_perm_map hperm
  refine ⟨sorted, hsaved, ?_, hmap⟩
  rw [← hmap, List.pairwise_map] at hsorted
  refine hsorted.imp_of_mem fun hs hs' hlt => ?_
  exact SavedResult.before_of_key_lt (h.usual _ (hsaved.subset hs))
    (h.usual _ (hsaved.subset hs')) hlt

/-- A whole bucket is listed as the results that were saved. -/
lemma list_eq_of_scanned (sorted : List SavedResult) {b : BadgerStore V}
    (h : b.scanned resultsBucket = sorted.map (SavedResult.entry records)) :
    ResultsStore.list records.result b = .ok (sorted.map (SavedResult.shown records)) := by
  refine listRecords_eq (by decide) "result" ?_
  rw [h, List.forall₂_map_left_iff, List.forall₂_map_right_iff]
  refine List.forall₂_same.mpr fun s _ => ?_
  exact records.result.unmarshal_marshal s.result

/-- **The results are listed, in the order of their saves, exactly when there is none or no
baseline stands before them.** -/
theorem listsSaved_iff (h : OwnSaves saves) :
    ListsSaved records saves ↔ savedResults saves = [] ∨ ∀ bl, .baseline bl ∉ saves := by
  have htidy := tidy_storeAfter records saves
  obtain ⟨sorted, hperm, hpairwise, hentries⟩ := h.exists_sorted records
  constructor
  · rintro ⟨listed, hlistedperm, -, hlist⟩
    by_contra hboth
    obtain ⟨hsome, hbaseline⟩ := not_or.mp hboth
    push Not at hbaseline
    obtain ⟨key, hkey⟩ := (h.exists_live_baseline_iff records).mpr hbaseline
    obtain ⟨v, hv⟩ := Option.ne_none_iff_exists'.mp hkey
    -- the scan ends at the first baseline, before any result
    have hnil := htidy.holds.scanned_eq_nil slash_notMem_resultsBucket hv (by decide)
    rw [list_eq_of_scanned records [] hnil] at hlist
    have hempty : listed = [] := List.map_eq_nil_iff.mp (Except.ok.inj hlist).symm
    exact hsome (hempty ▸ hlistedperm).nil_eq.symm
  · intro hcase
    have hscanned : (storeAfter records saves).scanned resultsBucket =
        (storeAfter records saves).entries resultsBucket := by
      rcases hcase with hnone | hnone
      · -- with nothing saved there is nothing to be scanned
        have hsub := (storeAfter records saves).scanned_sublist_entries resultsBucket
        rw [hnone] at hperm
        rw [← hentries, hperm.eq_nil, List.map_nil] at hsub ⊢
        exact List.sublist_nil.mp hsub
      · refine (htidy.holds.scanned_eq_entries_iff slash_notMem_resultsBucket).mpr
          (htidy.results_first fun key => ?_)
        by_contra hlive
        obtain ⟨bl, hbl⟩ := (h.exists_live_baseline_iff records).mp ⟨key, hlive⟩
        exact hnone bl hbl
    exact ⟨sorted, hperm, hpairwise,
      list_eq_of_scanned records sorted (hscanned.trans hentries.symm)⟩

/-- Two results, the second of a scanner whose name comes first, with a status between. -/
def twoResults : List (Save Unit Stored) :=
  [.result (unixEpoch + 1700000000 * second) "0a"
      ⟨"system.uptime", .success, [], 0, 0, 0, .empty⟩,
    .status ⟨0, 0, false, "", []⟩,
    .result (unixEpoch + 1700000060 * second) "ff"
      ⟨"system.auth_log", .success, [], 0, 0, 0, .empty⟩]

lemma ownSaves_twoResults (more : List (Save Unit Stored)) (hours : savedResults more = [])
    (hother : ∀ bucket h key value, .other bucket h key value ∉ more) :
    OwnSaves (twoResults ++ more) := by
  have hsaved : savedResults (twoResults ++ more) = savedResults twoResults := by
    rw [savedResults, List.filterMap_append]
    exact (congrArg _ hours).trans (List.append_nil _)
  refine ⟨fun bucket hb key value hmem => ?_, ?_, ?_⟩
  · rcases List.mem_append.mp hmem with htwo | hmore
    · simp [twoResults] at htwo
    · exact hother bucket hb key value hmore
  · rw [hsaved]
    intro s hs
    have hcases : ∀ s ∈ savedResults twoResults,
        10 ^ 18 ≤ unixNano s.now ∧ unixNano s.now < 2 ^ 63 ∧ '-' ∉ s.suffix.toList := by decide
    obtain ⟨hafter, hbefore, hsuffix⟩ := hcases s hs
    exact ⟨hafter, hbefore, hsuffix⟩
  · rw [hsaved]
    decide

/-- Both are listed until a baseline is saved. -/
theorem listsSaved_twoResults :
    ListsSaved storedRecords twoResults ∧
      ¬ ListsSaved storedRecords (twoResults ++ [.baseline (.fresh "cpu" "load" 1)]) := by
  constructor
  · have hown : OwnSaves twoResults := by simpa using ownSaves_twoResults [] rfl (by simp)
    exact (listsSaved_iff storedRecords hown).mpr (.inr (by simp [twoResults]))
  · have hown := ownSaves_twoResults [.baseline (.fresh "cpu" "load" 1)] rfl (by simp)
    intro hlists
    rcases (listsSaved_iff storedRecords hown).mp hlists with hnone | hnone
    · exact absurd hnone (by decide)
    · exact hnone (.fresh "cpu" "load" 1) (by simp)

end Arcsent.Daemon
