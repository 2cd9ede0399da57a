/-
# The exports as texts

The handlers of `/export/results` and `/export/baselines` can answer in comma-separated
values.  The answer is a text here, and it is read back with the reader of the same package.
-/
import Arcsent.Go.Csv
import Arcsent.Go.Format
import Arcsent.Servers.Alias

namespace Arcsent.Servers

open Arcsent.Go Arcsent.Lib Arcsent.Storage

/-! ## Cells -/

/-- The text of a cell.  A time is shown in a zone, which may depend on the time. -/
def Cell.format (zone : Time → ℤ) : Cell → String
  | .text s => s
  | .int n => toString n
  | .float x => formatFloat x
  | .time t => rfc3339 (zone t) t
  | .duration d => durationString d

/-- The records of a table, its headers first. -/
def csvRecords (zone : Time → ℤ) (headers : List String) (rows : List (List Cell)) :
    List (List Csv.Field) :=
  headers.map String.toList :: rows.map (·.map fun cell => (cell.format zone).toList)

/-- The text that `writeCSV` sends. -/
def csvText (zone : Time → ℤ) (headers : List String) (rows : List (List Cell)) : List Char :=
  Csv.writeAll (csvRecords zone headers rows)

/-! ## Texts without carriage returns -/

/-- A text of one line. -/
def NoReturn (s : String) : Prop := '\r' ∉ s.toList

instance (s : String) : Decidable (NoReturn s) := inferInstanceAs (Decidable ('\r' ∉ s.toList))

lemma NoReturn.append {s t : String} (hs : NoReturn s) (ht : NoReturn t) : NoReturn (s ++ t) := by
  rw [NoReturn, String.toList_append, List.mem_append]
  exact not_or_intro hs ht

lemma noReturn_toDigits (n : ℕ) : '\r' ∉ Nat.toDigits 10 n := by
  intro hmem
  exact absurd (Nat.isDigit_of_mem_toDigits (by decide) (by decide) hmem) (by decide)

lemma noReturn_nat (n : ℕ) : NoReturn (toString n) := by
  rw [NoReturn, Nat.toString_eq_ofList_toDigits, String.toList_ofList]
  exact noReturn_toDigits n

lemma noReturn_int (n : ℤ) : NoReturn (toString n) := by
  cases n with
  | ofNat n => exact noReturn_nat n
  | negSucc n =>
    have hsign : NoReturn "-" := by decide
    exact hsign.append (noReturn_nat (n + 1))

lemma noReturn_zeroPad (width n : ℕ) : NoReturn (zeroPad width n) := by
  rw [NoReturn, zeroPad, String.toList_ofList, List.leftpad, List.mem_append]
  refine not_or_intro (fun hzero => ?_) (noReturn_toDigits n)
  exact absurd (List.eq_of_mem_replicate hzero) (by decide)

lemma noReturn_ite {p : Prop} [Decidable p] {s t : String} (hs : NoReturn s) (ht : NoReturn t) :
    NoReturn (if p then s else t) := by
  split_ifs
  · exact hs
  · exact ht

lemma noReturn_formatFloat (x : ℚ) : NoReturn (formatFloat x) := by
  have hsign : NoReturn (if x < 0 then "-" else "") := noReturn_ite (by decide) (by decide)
  exact ((hsign.append (noReturn_nat _)).append (by decide)).append (noReturn_zeroPad 6 _)

lemma noReturn_zoneText (offset : ℤ) : NoReturn (zoneText offset) := by
  have hsign : NoReturn (if offset < 0 then "-" else "+") := noReturn_ite (by decide) (by decide)
  refine noReturn_ite (by decide) ?_
  exact ((hsign.append (noReturn_zeroPad 2 _)).append (by decide)).append (noReturn_zeroPad 2 _)

lemma noReturn_yearText (year : ℤ) : NoReturn (yearText year) := by
  have hsign : NoReturn (if year < 0 then "-" else "") := noReturn_ite (by decide) (by decide)
  exact hsign.append (noReturn_zeroPad 4 _)

lemma noReturn_rfc3339 (offset : ℤ) (t : Time) : NoReturn (rfc3339 offset t) := by
  have hdash : NoReturn "-" := by decide
  have hcolon : NoReturn ":" := by decide
  have hT : NoReturn "T" := by decide
  have hpad := noReturn_zeroPad 2
  exact ((((((((((((noReturn_yearText _).append hdash).append (hpad _)).append hdash).append
    (hpad _)).append hT).append (hpad _)).append hcolon).append (hpad _)).append hcolon).append
    (hpad _))).append (noReturn_zoneText offset)

lemma noReturn_fractionText (v prec : ℕ) : NoReturn (fractionText v prec) := by
  have hdigits : '\r' ∉ (toString (v + 10 ^ prec)).toList.drop 1 := fun hmem =>
    noReturn_nat _ (List.mem_of_mem_drop hmem)
  refine noReturn_ite (by decide) (NoReturn.append (by decide) ?_)
  rw [NoReturn, String.toList_ofList, List.mem_reverse]
  exact fun hmem => hdigits (List.mem_reverse.mp ((List.dropWhile_sublist _).subset hmem))

lemma noReturn_durationString (d : Duration) : NoReturn (durationString d) := by
  have hdecimal (v prec : ℕ) : NoReturn (decimalText v prec) :=
    (noReturn_nat _).append (noReturn_fractionText _ _)
  -- the parts of a duration of at least a second
  have hhours (a : ℕ) : NoReturn (toString a ++ "h") := (noReturn_nat a).append (by decide)
  have hminutes (a : ℕ) : NoReturn (toString a ++ "m") := (noReturn_nat a).append (by decide)
  have hseconds (a b : ℕ) : NoReturn (toString a ++ fractionText b 9 ++ "s") :=
    ((noReturn_nat a).append (noReturn_fractionText b 9)).append (by decide)
  simp only [durationString]
  refine noReturn_ite (NoReturn.append (by decide) ?_) ?_
  all_goals
    split_ifs
    · decide
    · exact (noReturn_nat _).append (by decide)
    · exact (hdecimal _ 3).append (by decide)
    · exact (hdecimal _ 6).append (by decide)
    · exact hseconds _ _
    · exact (hminutes _).append (hseconds _ _)
    · exact (((hhours _).append (noReturn_nat _)).append (by decide)).append (hseconds _ _)

/-- Only a text that the daemon has been given can have a carriage return in it. -/
lemma noReturn_format {zone : Time → ℤ} {cell : Cell} (h : ∀ s, cell ≠ .text s) :
    NoReturn (cell.format zone) := by
  cases cell with
  | text s => exact absurd rfl (h s)
  | int n => exact noReturn_int n
  | float x => exact noReturn_formatFloat x
  | time t => exact noReturn_rfc3339 (zone t) t
  | duration d => exact noReturn_durationString d

/-! ## The tables of the API -/

/-- A table has at least two columns and a cell for each of them in every row. -/
structure IsTable (headers : List String) (rows : List (List Cell)) : Prop where
  columns : 2 ≤ headers.length
  header : ∀ name ∈ headers, NoReturn name
  row : ∀ row ∈ rows, row.length = headers.length

variable {κ V : Type} (codecs : Codecs V) (w : Surroundings) (s : Server κ V)

lemma isTable_of_exportResults {req : Request} {headers : List String} {rows : List (List Cell)}
    (h : (handleExportResults codecs s req).body = .csv headers rows) : IsTable headers rows := by
  unfold handleExportResults at h
  split at h
  · cases h
  · split at h
    · cases h
    · split at h
      · cases h
        refine ⟨by decide, by decide, fun row hrow => ?_⟩
        obtain ⟨res, -, rfl⟩ := List.mem_map.mp hrow
        rfl
      · cases h

lemma isTable_of_exportBaselines {req : Request} {headers : List String} {rows : List (List Cell)}
    (h : (handleExportBaselines codecs s req).body = .csv headers rows) : IsTable headers rows := by
  unfold handleExportBaselines at h
  split at h
  · cases h
  · split at h
    · cases h
    · split at h
      · cases h
        refine ⟨by decide, by decide, fun row hrow => ?_⟩
        obtain ⟨b, -, rfl⟩ := List.mem_map.mp hrow
        rfl
      · cases h

/-- Only the two exports answer with a table. -/
lemma isTable_of_respond {req : Request} {headers : List String} {rows : List (List Cell)}
    (h : (respond codecs w s req).1.body = .csv headers rows) : IsTable headers rows := by
  unfold respond at h
  split at h
  · next code _ =>
    by_cases hcode : code = 404
    · simp [plainAnswer, hcode] at h
    · simp [plainAnswer, hcode] at h
  · by_cases hget : req.method = "GET"
    · simp [redirect, hget] at h
    · simp [redirect, hget] at h
  · next e _ =>
    -- every other handler answers with another kind of body
    cases e with
    | exportResults => exact isTable_of_exportResults codecs s h
    | exportBaselines => exact isTable_of_exportBaselines codecs s h
    | trigger =>
      simp only [handle, handleTrigger] at h
      split at h
      · cases h
      · split at h
        · cases h
        · cases h
    | baselines =>
      simp only [handle, handleBaselines] at h
      split at h
      · cases h
      · split at h
        · cases h
        · cases h
    | signaturesStatus =>
      simp only [handle, handleSignaturesStatus] at h
      split at h
      · cases h
      · split at h
        · cases h
        · cases h
    | signaturesUpdate =>
      simp only [handle, handleSignaturesUpdate] at h
      split at h
      · cases h
      · split at h
        · cases h
        · split at h
          · cases h
          · cases h
    | health | status | scanners | resultsLatest | resultsHistory | findings | metrics => cases h

/-! ## The round trip -/

lemma IsTable.length_of_mem {headers : List String} {rows : List (List Cell)}
    (h : IsTable headers rows) (zone : Time → ℤ) :
    ∀ r ∈ csvRecords zone headers rows, r.length = headers.length := by
  intro r hr
  rcases List.mem_cons.mp hr with rfl | hr
  · exact List.length_map _
  · obtain ⟨row, hrow, rfl⟩ := List.mem_map.mp hr
    rw [List.length_map, h.row row hrow]

/-- A record has a carriage return before a newline only in a text cell. -/
lemma IsTable.forall_iff {headers : List String} {rows : List (List Cell)}
    (h : IsTable headers rows) (zone : Time → ℤ) :
    (∀ r ∈ csvRecords zone headers rows, ∀ field ∈ r, ¬ ['\r', '\n'] <:+: field) ↔
      ∀ row ∈ rows, ∀ s, .text s ∈ row → ¬ ['\r', '\n'] <:+: s.toList := by
  have hline {s : String} (hs : NoReturn s) : ¬ ['\r', '\n'] <:+: s.toList := fun hinside =>
    hs (hinside.subset List.mem_cons_self)
  constructor
  · intro hall row hrow s hs
    have hrec : row.map (fun cell => (cell.format zone).toList) ∈ csvRecords zone headers rows :=
      List.mem_cons_of_mem _ (List.mem_map_of_mem hrow)
    exact hall _ hrec _ (List.mem_map_of_mem (f := fun cell => (cell.format zone).toList) hs)
  · intro hall r hr field hfield
    rcases List.mem_cons.mp hr with rfl | hr
    · obtain ⟨name, hname, rfl⟩ := List.mem_map.mp hfield
      exact hline (h.header name hname)
    · obtain ⟨row, hrow, rfl⟩ := List.mem_map.mp hr
      obtain ⟨cell, hcell, rfl⟩ := List.mem_map.mp hfield
      by_cases htext : ∃ s, cell = .text s
      · obtain ⟨s, rfl⟩ := htext
        exact hall row hrow s hcell
      · exact hline (noReturn_format (not_exists.mp htext))

/-- **Every table that the API sends is read back up to the carriage returns before newlines,
and exactly when the names in it have none.** -/
theorem respond_csv_readAll (zone : Time → ℤ) {req : Request} {headers : List String}
    {rows : List (List Cell)} (h : (respond codecs w s req).1.body = .csv headers rows) :
    Csv.readAll (csvText zone headers rows) =
        some ((csvRecords zone headers rows).map (·.map Csv.unixLines)) ∧
      (Csv.readAll (csvText zone headers rows) = some (csvRecords zone headers rows) ↔
        ∀ row ∈ rows, ∀ s, .text s ∈ row → ¬ ['\r', '\n'] <:+: s.toList) := by
  have htable := isTable_of_respond codecs w s h
  have hlen := htable.length_of_mem zone
  rw [csvText, Csv.readAll_writeAll_eq_iff htable.columns hlen, htable.forall_iff zone]
  exact ⟨Csv.readAll_writeAll htable.columns hlen, Iff.rfl⟩

/-- A result whose scanner has a carriage return in its name. -/
def oddResult : Scanner.Result := ⟨"a,\r\nb", .success, [], unixEpoch, unixEpoch, second, .empty⟩

/-- A store with this result alone. -/
def oddStore : BadgerStore Stored :=
  .after [.put resultsBucket (bytes "1") (storedCodecs.result.marshal oddResult)]

lemma list_oddStore : ResultsStore.list storedCodecs.result oddStore = .ok [oddResult] := by
  have hslash : slash ∉ resultsBucket := by decide
  have hholds : Holds oddStore _ := holds_after _ (by simpa [Write.bucket] using hslash)
  have hlive (bucket key : Bytes) (v : Stored) :
      live [.put resultsBucket (bytes "1") (storedCodecs.result.marshal oddResult)] bucket key =
        some v ↔ (bucket = resultsBucket ∧ key = bytes "1") ∧ .inl oddResult = v := by
    have hnames : ¬ (resultsBucket = [] ∨ bytes "1" = []) := by decide
    simp only [live, List.foldl_cons, List.foldl_nil, Buckets.perform, Write.bucket, Write.key,
      Write.value, hnames, if_false]
    split_ifs with hkey
    · simp [hkey, storedCodecs]
    · simp [hkey]
  have hentries : oddStore.entries resultsBucket = [(bytes "1", .inl oddResult)] := by
    refine eq_of_sorted (hholds.entries_sorted hslash) (List.pairwise_singleton _ _) ?_
    rintro ⟨key, v⟩
    rw [hholds.mem_entries hslash, hlive]
    simp [eq_comm]
  have hfirst : oddStore.scanned resultsBucket = oddStore.entries resultsBucket := by
    refine (hholds.scanned_eq_entries_iff hslash).mpr ?_
    rintro - bucket key hsome hne
    obtain ⟨v, hv⟩ := Option.ne_none_iff_exists'.mp hsome
    exact absurd ((hlive bucket key v).mp hv).1.1 hne
  refine listRecords_eq (by decide) "result" ?_
  rw [hfirst, hentries]
  exact List.Forall₂.cons rfl .nil

def exportServer : Server Unit Stored := { plainServer with resultsStore := some oddStore }

def exportRequest : Request :=
  { withToken "GET" "/export/results" (by decide) with
    rawQuery := bytes "format=csv" }

/-- The name is not read back as it is. -/
theorem respond_csv_readAll_oddStore :
    (respond storedCodecs failingRuns exportServer exportRequest).1.body =
        .csv ["scanner", "status", "findings", "started_at", "finished_at", "duration"]
          (resultsToRows [oddResult]) ∧
      Csv.readAll (csvText (fun _ => 0)
        ["scanner", "status", "findings", "started_at", "finished_at", "duration"]
        (resultsToRows [oddResult])) ≠
      some (csvRecords (fun _ => 0)
        ["scanner", "status", "findings", "started_at", "finished_at", "duration"]
        (resultsToRows [oddResult])) := by
  have hbody : (respond storedCodecs failingRuns exportServer exportRequest).1.body =
      .csv ["scanner", "status", "findings", "started_at", "finished_at", "duration"]
        (resultsToRows [oddResult]) := by
    have hserve : serveAPI exportServer.cfg exportRequest = .handler .exportResults := by
      decide +kernel
    rw [respond, hserve]
    have hformat : getFirst exportRequest.query (bytes "format") = bytes "csv" := by decide
    simp only [handle, handleExportResults, exportServer, list_oddStore, hformat, if_true, writeCSV]
  refine ⟨hbody, fun heq => ?_⟩
  have hall := (respond_csv_readAll storedCodecs failingRuns exportServer _ hbody).2.mp heq
  refine hall _ List.mem_cons_self _ List.mem_cons_self ?_
  exact ⟨['a', ','], ['b'], by decide⟩

end Arcsent.Servers
