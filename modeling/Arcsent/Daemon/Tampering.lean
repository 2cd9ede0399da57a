/-
# Changed files and alerts

The hook of the daemon looks at the numbers in the metadata of a result, at its findings and
at the name of its scanner.  The hashes of the files are none of these: they are saved with
the result, and whatever a file holds, the same findings are made and the same alerts are
sent.
-/
import Arcsent.Daemon.DriftAlerts
import Arcsent.Daemon.MapOrder
import Arcsent.Plugins.FileIntegrity

namespace Arcsent.Daemon

open Arcsent.Go Arcsent.Storage Arcsent.Scanner Arcsent.Detection Arcsent.Alerting
open Arcsent.Plugins (Disk HoldsFile Reported callFinding scanFiles runFileIntegrity visits)

variable {V : Type} {codec : Codec Baseline V} {results : ResultCodec V}

/-! ## Stores with the same baselines -/

/-- Two stores give the same answers about baselines. -/
def SameBaselines (codec : Codec Baseline V) (s s' : BadgerStore V) : Prop :=
  ∀ scanner metric, Manager.get codec s scanner metric = Manager.get codec s' scanner metric

/-- Two calls on stores end alike: with the same error, or with the same answer and stores
that are related again. -/
inductive EndAlike {α : Type} (codec : Codec Baseline V) :
    Except Error (BadgerStore V × α) → Except Error (BadgerStore V × α) → Prop
  | error (err : Error) : EndAlike codec (.error err) (.error err)
  | ok {s s' : BadgerStore V} (h : SameBaselines codec s s') (a : α) :
    EndAlike codec (.ok (s, a)) (.ok (s', a))

variable {s s' : BadgerStore V} {scanner metric : String}

/-- A record is put into both stores. -/
lemma SameBaselines.put (h : SameBaselines codec s s') (r : Baseline) :
    ∃ t t', Manager.put codec s r = .ok t ∧ Manager.put codec s' r = .ok t' ∧
      SameBaselines codec t t' := by
  obtain ⟨t, hput, hcell⟩ := Manager.put_eq codec s (r := r) rfl
  obtain ⟨t', hput', hcell'⟩ := Manager.put_eq codec s' (r := r) rfl
  refine ⟨t, t', hput, hput', fun scanner metric => ?_⟩
  by_cases hkey : baselineKey r.scannerName r.metric = baselineKey scanner metric
  · have hsame (u : BadgerStore V) : Manager.get codec u scanner metric =
        Manager.get codec u r.scannerName r.metric := by
      rw [Manager.get, Manager.get, hkey]
    rw [hsame t, hsame t', hcell.1, hcell'.1]
  · rw [Manager.get_of_put hput hkey, Manager.get_of_put hput' hkey]
    exact h scanner metric

lemma SameBaselines.update (h : SameBaselines codec s s') (now : Time) (scanner metric : String)
    (value : ℚ) : EndAlike codec (Manager.update codec s now scanner metric value)
      (Manager.update codec s' now scanner metric value) := by
  have hload : Manager.load codec s scanner metric value =
      Manager.load codec s' scanner metric value := by
    rw [Manager.load, Manager.load, h scanner metric]
  rw [Manager.update, Manager.update, hload]
  cases Manager.load codec s' scanner metric value with
  | error err => exact .error err
  | ok r =>
    obtain ⟨t, t', hput, hput', hsame⟩ := h.put (r.observe now value)
    simp only [hput, hput']
    exact .ok hsame _

lemma SameBaselines.detectDrift (h : SameBaselines codec s s') (now : Time)
    (scanner metric : String) (value : ℚ) (consecutive : ℤ) :
    EndAlike codec (Manager.detectDrift codec s now scanner metric value consecutive)
      (Manager.detectDrift codec s' now scanner metric value consecutive) := by
  rw [Manager.detectDrift, Manager.detectDrift, Manager.isAnomaly, Manager.isAnomaly,
    h scanner metric]
  cases Manager.get codec s' scanner metric with
  | error err => exact .error err
  | ok r =>
    obtain ⟨t, t', hput, hput', hsame⟩ := h.put (r.judge now value (r.anomaly value).1)
    simp only [hput, hput']
    exact .ok hsame _

/-- One round of the loop over the metadata. -/
lemma SameBaselines.checked (h : SameBaselines codec s s') (now : Time) (consecutive : ℤ)
    (scanner key : String) (value : ℚ) :
    SameBaselines codec (checkDrift codec now consecutive scanner s key value).1
        (checkDrift codec now consecutive scanner s' key value).1 ∧
      (checkDrift codec now consecutive scanner s key value).2 =
        (checkDrift codec now consecutive scanner s' key value).2 := by
  have hend := h.detectDrift now scanner key value consecutive
  rw [checkDrift, checkDrift]
  revert hend
  generalize Manager.detectDrift codec s now scanner key value consecutive = x
  generalize Manager.detectDrift codec s' now scanner key value consecutive = x'
  intro hend
  cases hend with
  | error err => exact ⟨h, rfl⟩
  | ok hsame answer =>
    obtain ⟨drifted, reason⟩ := answer
    cases drifted with
    | true => exact ⟨hsame, rfl⟩
    | false => exact ⟨hsame, rfl⟩

lemma SameBaselines.learned (h : SameBaselines codec s s') (now : Time) (scanner key : String)
    (value : ℚ) : SameBaselines codec (learn codec now scanner s key value)
      (learn codec now scanner s' key value) := by
  have hend := h.update now scanner key value
  rw [learn, learn]
  revert hend
  generalize Manager.update codec s now scanner key value = x
  generalize Manager.update codec s' now scanner key value = x'
  intro hend
  cases hend with
  | error err => exact h
  | ok hsame r => exact hsame

/-! ## Results with the same numbers -/

/-- The numbers among the metadata, in the order of an iteration. -/
def numbers (order : List (String × Value)) : List (String × ℚ) :=
  order.filterMap fun e => (toFloat e.2).map (e.1, ·)

/-- The loop over the numbers. -/
def watchNumbers (codec : Codec Baseline V) (clocks : Clocks) (consecutive : ℤ)
    (scanner : String) : List (String × ℚ) → BadgerStore V → BadgerStore V × List Finding
  | [], s => (s, [])
  | (key, value) :: rest, s =>
    let checked := checkDrift codec (clocks.check key) consecutive scanner s key value
    let rest := watchNumbers codec clocks consecutive scanner rest
      (learn codec (clocks.learn key) scanner checked.1 key value)
    (rest.1, checked.2 ++ rest.2)

lemma watch_eq_watchNumbers (clocks : Clocks) (consecutive : ℤ) (scanner : String)
    (order : List (String × Value)) (s : BadgerStore V) :
    watch codec clocks consecutive scanner order s =
      watchNumbers codec clocks consecutive scanner (numbers order) s := by
  induction order generalizing s with
  | nil => rfl
  | cons e order ih =>
    obtain ⟨key, raw⟩ := e
    rw [watch, numbers]
    cases hvalue : toFloat raw with
    | none =>
      rw [List.filterMap_cons_none (by simp [hvalue])]
      exact ih s
    | some value =>
      rw [List.filterMap_cons_some (b := (key, value)) (by simp [hvalue]), watchNumbers]
      dsimp only
      rw [ih]
      rfl

lemma SameBaselines.watched (h : SameBaselines codec s s') (clocks : Clocks) (consecutive : ℤ)
    (scanner : String) (entries : List (String × ℚ)) :
    SameBaselines codec (watchNumbers codec clocks consecutive scanner entries s).1
        (watchNumbers codec clocks consecutive scanner entries s').1 ∧
      (watchNumbers codec clocks consecutive scanner entries s).2 =
        (watchNumbers codec clocks consecutive scanner entries s').2 := by
  induction entries generalizing s s' with
  | nil => exact ⟨h, rfl⟩
  | cons e entries ih =>
    obtain ⟨key, value⟩ := e
    obtain ⟨hstore, hfindings⟩ := h.checked (clocks.check key) consecutive scanner key value
    obtain ⟨hrest, hmore⟩ := ih (hstore.learned (clocks.learn key) scanner key value)
    rw [watchNumbers, watchNumbers]
    exact ⟨hrest, by rw [hfindings, hmore]⟩

/-- Two results that differ in metadata which are no numbers at most. -/
structure SameNumbers (r r' : Result) : Prop where
  scannerName : r.scannerName = r'.scannerName
  findings : r.findings = r'.findings
  metrics : ∀ metric, (r.metadata.get? metric).bind toFloat = (r'.metadata.get? metric).bind toFloat

/-- Two hooks that differ in what is kept about results at most. -/
structure SameDetection (codec : Codec Baseline V) (h h' : Hook V) : Prop where
  baselines : SameBaselines codec h.store h'.store
  rules : h.rules = h'.rules
  correlator : h.correlator = h'.correlator
  engine : h.engine = h'.engine

lemma SameNumbers.evaluate {r r' : Result} (h : SameNumbers r r') (rules : List Rule) :
    evaluate rules r = evaluate rules r' := by
  have hrule (rule : Rule) (r : Result) : rule.evaluate r =
      if rule.scanner ≠ r.scannerName ∧ rule.scanner ≠ "*" then none
      else ((r.metadata.get? rule.metric).bind toFloat).bind fun value =>
        if compare value rule.operator rule.threshold then some (rule.finding value) else none := by
    rw [Option.bind_assoc]
    rfl
  rw [Detection.evaluate, Detection.evaluate]
  refine List.filterMap_congr fun rule _ => ?_
  rw [hrule, hrule, h.scannerName, h.metrics]

/-- A result at the hook, with the readings of the clock, the random end of its key and the
order in which its metadata are gone through. -/
structure Arrival where
  clocks : Clocks
  suffix : String
  order : List (String × Value)
  result : Result

/-- Two results that the hook treats alike. -/
structure Arrival.Alike (a a' : Arrival) : Prop where
  clocks : a.clocks = a'.clocks
  numbers : numbers a.order = numbers a'.order
  result : SameNumbers a.result a'.result

/-- The hook on a result. -/
def arrive (codec : Codec Baseline V) (results : ResultCodec V) (sha256 : String → String)
    (consecutive : ℤ) (h : Hook V) (a : Arrival) : Hook V :=
  onResult codec results sha256 consecutive a.clocks a.suffix a.order h a.result

/-- A result is saved, which is not seen among the baselines. -/
lemma sameBaselines_save (s : BadgerStore V) (now : Time) (suffix : String) (result : Result) :
    SameBaselines codec ((ResultsStore.save results s now suffix result).toOption.getD s) s := by
  intro scanner metric
  cases hsave : ResultsStore.save results s now suffix result with
  | error err => rfl
  | ok s' =>
    show Manager.get codec s' scanner metric = _
    rw [Manager.get, Manager.get, BadgerStore.get_of_put hsave]
    exact fun hkey => absurd ((makeKey_inj (by decide) (by decide)).mp hkey).1 (by decide)

/-- A result with more findings. -/
def withFindings (r : Result) (more : List Finding) : Result :=
  { r with findings := r.findings ++ more }

lemma SameNumbers.more {r r' : Result} (h : SameNumbers r r') (more : List Finding) :
    SameNumbers (withFindings r more) (withFindings r' more) :=
  ⟨h.scannerName, congrArg (· ++ more) h.findings, h.metrics⟩

/-- The steps of the hook, one after the other. -/
lemma process_eq (consecutive : ℤ) (clocks : Clocks) (order : List (String × Value)) (h : Hook V)
    (r watched ruled : Result)
    (hwatched : watched =
      withFindings r (watch codec clocks consecutive r.scannerName order h.store).2)
    (hruled : ruled = withFindings watched (evaluate h.rules watched)) :
    process codec consecutive clocks order h r =
      ((watch codec clocks consecutive r.scannerName order h.store).1,
        (h.correlator.add clocks.correlate ruled).1,
        withFindings ruled (h.correlator.add clocks.correlate ruled).2) := by
  subst hruled hwatched
  rfl

/-- The part of the hook that makes findings. -/
lemma SameDetection.processed {h h' : Hook V} (hsame : SameDetection codec h h') {a a' : Arrival}
    (halike : a.Alike a') (consecutive : ℤ) :
    SameBaselines codec (process codec consecutive a.clocks a.order h a.result).1
        (process codec consecutive a'.clocks a'.order h' a'.result).1 ∧
      (process codec consecutive a.clocks a.order h a.result).2.1 =
        (process codec consecutive a'.clocks a'.order h' a'.result).2.1 ∧
      SameNumbers (process codec consecutive a.clocks a.order h a.result).2.2
        (process codec consecutive a'.clocks a'.order h' a'.result).2.2 := by
  obtain ⟨hbaselines, hdrifts⟩ := hsame.baselines.watched a.clocks consecutive
    a.result.scannerName (numbers a.order)
  -- the loop over the metadata looks at the numbers only
  have hwatch : watch codec a'.clocks consecutive a'.result.scannerName a'.order h'.store =
      watchNumbers codec a.clocks consecutive a.result.scannerName (numbers a.order) h'.store := by
    rw [watch_eq_watchNumbers, ← halike.clocks, ← halike.numbers, ← halike.result.scannerName]
  rw [process_eq _ _ _ _ _ _ _ rfl rfl, process_eq _ _ _ _ _ _ _ rfl rfl, hwatch,
    watch_eq_watchNumbers, hdrifts, hsame.rules, hsame.correlator, ← halike.clocks]
  have hwatched := halike.result.more (watchNumbers codec a.clocks consecutive a.result.scannerName
    (numbers a.order) h'.store).2
  have hruled := hwatched.more (evaluate h'.rules (withFindings a.result
    (watchNumbers codec a.clocks consecutive a.result.scannerName (numbers a.order) h'.store).2))
  rw [hwatched.evaluate] at hruled ⊢
  rw [correlator_add_congr h'.correlator a.clocks.correlate hruled.scannerName
    (congrArg List.length hruled.findings)]
  exact ⟨hbaselines, rfl, hruled.more _⟩

/-- The alerts are those of the findings that have been made. -/
lemma engine_arrive (sha256 : String → String) (consecutive : ℤ) (h : Hook V) (a : Arrival) :
    (arrive codec results sha256 consecutive h a).engine =
      h.engine.sendAll sha256 a.clocks.send
        ((process codec consecutive a.clocks a.order h a.result).2.2.findings.map
          (alertFor (process codec consecutive a.clocks a.order h a.result).2.2.scannerName)) := rfl

/-- **The hook treats alike what has the same numbers.** -/
lemma SameDetection.arrived {h h' : Hook V} (hsame : SameDetection codec h h') {a a' : Arrival}
    (halike : a.Alike a') (sha256 : String → String) (consecutive : ℤ) :
    SameDetection codec (arrive codec results sha256 consecutive h a)
      (arrive codec results sha256 consecutive h' a') := by
  obtain ⟨hbaselines, hcorrelator, hresult⟩ := hsame.processed halike consecutive
  refine ⟨fun scanner metric => ?_, hsame.rules, hcorrelator, ?_⟩
  · exact (sameBaselines_save _ _ _ _ scanner metric).trans
      ((hbaselines scanner metric).trans (sameBaselines_save _ _ _ _ scanner metric).symm)
  · rw [engine_arrive, engine_arrive, hsame.engine, hresult.findings, hresult.scannerName,
      halike.clocks]

/-! ## Files that are changed -/

/-- Two disks with the same entries, of which the same can be read. -/
structure SameShape (disk disk' : Disk) : Prop where
  listing : disk.listing = disk'.listing
  unreadable : ∀ path err, disk.read path = .error err ↔ disk'.read path = .error err

/-- The findings about files do not depend on what the files hold. -/
lemma SameShape.findings {disk disk' : Disk} (h : SameShape disk disk') (sha256 : Bytes → String)
    (paths : List String) :
    (scanFiles sha256 disk paths).1 = (scanFiles sha256 disk' paths).1 := by
  have hvisits : visits disk paths = visits disk' paths := by
    have hwalk : Plugins.walkDir disk = Plugins.walkDir disk' := by
      funext root
      rw [Plugins.walkDir, Plugins.walkDir, h.listing]
    rw [visits, visits, hwalk]
  have hcall : callFinding sha256 disk = callFinding sha256 disk' := by
    funext call
    refine Option.ext fun f => ?_
    rw [Plugins.callFinding_eq_some, Plugins.callFinding_eq_some]
    simp only [h.unreadable]
  rw [Plugins.scanFiles_eq, Plugins.scanFiles_eq, Plugins.findings_foldl_visit,
    Plugins.findings_foldl_visit, hvisits, hcall]

/-- The hashes are no number. -/
lemma numbers_files {sha256 : Bytes → String} {disk : Disk} {paths : List String}
    {timestamp : String} {order : List (String × Value)}
    (horder : (runFileIntegrity sha256 disk paths timestamp).metadata.IterationOrder order) :
    numbers order = [] := by
  rw [numbers, List.filterMap_eq_nil_iff]
  intro e he
  have hmem : e ∈ [("timestamp", Value.string timestamp),
      ("hashes", .stringMap (scanFiles sha256 disk paths).2)] := horder.subset he
  simp only [List.mem_cons, List.not_mem_nil, or_false] at hmem
  rcases hmem with rfl | rfl
  · rfl
  · rfl

lemma sameNumbers_files {disk disk' : Disk} (h : SameShape disk disk') (sha256 : Bytes → String)
    (paths : List String) (timestamp : String) :
    SameNumbers (runFileIntegrity sha256 disk paths timestamp)
      (runFileIntegrity sha256 disk' paths timestamp) := by
  refine ⟨rfl, h.findings sha256 paths, fun metric => ?_⟩
  simp only [StringMap.get?, runFileIntegrity, List.lookup_cons]
  by_cases htimestamp : metric = "timestamp"
  · simp [htimestamp]
  · rw [beq_eq_false_iff_ne.mpr htimestamp]
    by_cases hhashes : metric = "hashes"
    · simp [hhashes, toFloat, Detection.toFloat]
    · rw [beq_eq_false_iff_ne.mpr hhashes]

/-- The times of a run of a plugin. -/
structure RunTimes where
  started : Time
  finished : Time

/-- The result of a run of a plugin as the scheduler hands it to the hook. -/
def timed (times : RunTimes) (r : Result) : Result :=
  { r with
    startedAt := times.started
    finishedAt := times.finished
    duration := times.finished - times.started }

/-- Two results of which the one may come from a disk where files have been changed, which may
also take longer or not as long to go through. -/
inductive Tampered (sha256 : Bytes → String) (paths : List String) : Arrival → Arrival → Prop
  | same (a : Arrival) : Tampered sha256 paths a a
  | files {disk disk' : Disk} (hshape : SameShape disk disk') (clocks : Clocks) (suffix : String)
    (timestamp : String) (times times' : RunTimes) {order order' : List (String × Value)}
    (horder : (runFileIntegrity sha256 disk paths timestamp).metadata.IterationOrder order)
    (horder' : (runFileIntegrity sha256 disk' paths timestamp).metadata.IterationOrder order') :
    Tampered sha256 paths
      ⟨clocks, suffix, order, timed times (runFileIntegrity sha256 disk paths timestamp)⟩
      ⟨clocks, suffix, order', timed times' (runFileIntegrity sha256 disk' paths timestamp)⟩

lemma Tampered.alike {sha256 : Bytes → String} {paths : List String} {a a' : Arrival}
    (h : Tampered sha256 paths a a') : a.Alike a' := by
  cases h with
  | same a => exact ⟨rfl, rfl, rfl, rfl, fun _ => rfl⟩
  | files hshape clocks suffix timestamp times times' horder horder' =>
    -- the times are no metadata
    have hsame := sameNumbers_files hshape sha256 paths timestamp
    exact ⟨rfl, (numbers_files horder).trans (numbers_files horder').symm,
      hsame.scannerName, hsame.findings, hsame.metrics⟩

lemma SameDetection.run {as as' : List Arrival} (halike : List.Forall₂ Arrival.Alike as as')
    {h h' : Hook V} (hsame : SameDetection codec h h') (sha256 : String → String)
    (consecutive : ℤ) :
    SameDetection codec (as.foldl (arrive codec results sha256 consecutive) h)
      (as'.foldl (arrive codec results sha256 consecutive) h') := by
  induction halike generalizing h h' with
  | nil => exact hsame
  | cons hfirst _ ih => exact ih (hsame.arrived hfirst sha256 consecutive)

/-- **A changed file is never alerted**: in whatever run of results, the contents of the files
make no difference to the alerts, the correlation and the baselines, as long as the same files
are there and the same can be read. -/
theorem tampering_unseen (codec : Codec Baseline V) (results : ResultCodec V)
    (sha256 : String → String) (fileSha256 : Bytes → String) (paths : List String)
    (consecutive : ℤ) (h : Hook V) {as as' : List Arrival}
    (htampered : List.Forall₂ (Tampered fileSha256 paths) as as') :
    (as.foldl (arrive codec results sha256 consecutive) h).engine =
        (as'.foldl (arrive codec results sha256 consecutive) h).engine ∧
      (as.foldl (arrive codec results sha256 consecutive) h).correlator =
        (as'.foldl (arrive codec results sha256 consecutive) h).correlator ∧
      SameBaselines codec (as.foldl (arrive codec results sha256 consecutive) h).store
        (as'.foldl (arrive codec results sha256 consecutive) h).store := by
  have hsame : SameDetection codec h h := ⟨fun _ _ => rfl, rfl, rfl, rfl⟩
  have halike : List.Forall₂ Arrival.Alike as as' := htampered.imp fun _ _ ha => ha.alike
  have hrun : SameDetection codec (as.foldl (arrive codec results sha256 consecutive) h)
      (as'.foldl (arrive codec results sha256 consecutive) h) :=
    hsame.run halike sha256 consecutive
  exact ⟨hrun.engine, hrun.correlator, hrun.baselines⟩

/-- A disk with one file. -/
def oneFile (content : Bytes) : Disk where
  listing path :=
    if path = "/etc" then .ok (.dir none [("passwd", .leaf)]) else .error "no such file"
  distinct path t h := by
    split_ifs at h
    obtain rfl := Except.ok.inj h
    exact ⟨List.nodup_singleton _, trivial, trivial⟩
  read path := if path = "/etc/passwd" then .ok content else .error "no such file"

/-- The bytes of a file as decimal digits. -/
def digits (content : Bytes) : String := ",".intercalate (content.map fun b => toString b.toNat)

/-- The result of a run over the one file that ends at a time. -/
def fileArrival (finished : Time) (content : Bytes) : Arrival :=
  ⟨.at 9, "ab", (runFileIntegrity digits (oneFile content) ["/etc"] "").metadata.entries,
    timed ⟨1, finished⟩ (runFileIntegrity digits (oneFile content) ["/etc"] "")⟩

/-- An account is added to the file: the hash is another, the alerts are the same. -/
theorem tampering_unseen_passwd :
    (scanFiles digits (oneFile [1]) ["/etc"]).2 ≠ (scanFiles digits (oneFile [1, 2]) ["/etc"]).2 ∧
      (arrive baselineCodec resultCodec id 1 steadyHook (fileArrival 3 [1])).engine =
        (arrive baselineCodec resultCodec id 1 steadyHook (fileArrival 4 [1, 2])).engine := by
  have hshape : SameShape (oneFile [1]) (oneFile [1, 2]) := by
    refine ⟨rfl, fun path err => ?_⟩
    simp only [oneFile]
    split_ifs <;> simp
  refine ⟨by decide +kernel, ?_⟩
  exact (tampering_unseen baselineCodec resultCodec id digits ["/etc"] 1 steadyHook
    (.cons (.files hshape (.at 9) "ab" "" ⟨1, 3⟩ ⟨1, 4⟩ (List.Perm.refl _) (List.Perm.refl _))
      .nil)).1

end Arcsent.Daemon
