/-
# Where downloads are put

A source is downloaded into a directory of its own below the cache.  The directory is named
after the identifier of the source and the file after the last part of its address, and
both come from the configuration.  The check of the configuration lets an identifier pass
that begins with `custom:`, whatever follows.
-/
import Arcsent.Config.Validate
import Arcsent.Go.Filepath
import Arcsent.Signatures.Updater

namespace Arcsent

open Go Signatures

/-- The settings of the updater, as `Run` passes them on. -/
def SignaturesConfig.updaterConfig (s : SignaturesConfig) : UpdaterConfig where
  enabled := s.enabled
  updateInterval := s.updateIntervalDuration
  sources := s.sources
  cacheDir := s.cacheDir
  airgapImportPath := s.airgapImportPath
  sourceURLs := s.sourceURLs.entries

namespace Signatures

open Filepath Lib

/-- The function `path.Base`. -/
def base (path : String) : String :=
  if path = "" then "."
  else
    let last := (path.toList.rdropWhile (· = '/')).rtakeWhile (· ≠ '/')
    if last = [] then "/" else String.ofList last

def filenameForURL (raw : String) : String :=
  let parsed := String.ofList (raw.toList.takeWhile (· ≠ '?'))
  let base := trimSpace (base parsed)
  if base = "." ∨ base = "/" ∨ base = "" then "" else base

/-- The name that `Update` gives a file. -/
def filename (url : String) : String :=
  if filenameForURL url = "" then "latest.data" else filenameForURL url

/-- What `Update` does outside the program. -/
inductive FetchOp
  | mkdirAll (dir : Bytes)
  | createTemp (dir : Bytes)
  | newRequest (url : String)
  | get (url : String)
  | copy
  | close
  | rename (dest : Bytes)
deriving DecidableEq

/-- What these calls return: an error, if there is one, and what is read besides. -/
structure Replies where
  mkdirAll : Option String
  createTemp : Option String
  get : Option String
  statusCode : ℕ
  copy : Option String
  written : ℤ
  close : Option String
  rename : Option String
  /-- The clock at the beginning, after the rename, and where the duration is taken. -/
  start : Time
  updatedAt : Time
  done : Time

/-- The first error of a series of calls ends it. -/
def untilError : List (FetchOp × Option String) → List FetchOp × Option String
  | [] => ([], none)
  | (op, some err) :: _ => ([op], some err)
  | (op, none) :: rest =>
    let (ops, err) := untilError rest
    (op :: ops, err)

variable (client : HTTPClient)

/-- The answer to a request, which has to be 200. -/
def Replies.download (r : Replies) (url : String) : Option String :=
  (((client.unsent url).or r.get).map ("download: " ++ ·)).or
    (if r.statusCode ≠ 200 then some ("download status " ++ toString r.statusCode) else none)

/-- The text of a path. -/
def text (path : Bytes) : String := (String.fromUTF8? ⟨path.toArray⟩).getD ""

/-- The method `Update`.  The temporary file is taken away at the end in any case. -/
def HTTPSource.update (src : HTTPSource) (destDir : Bytes) (r : Replies) :
    List FetchOp × SourceStatus × Option String :=
  let status : SourceStatus := ⟨src.id, src.url, "", 0, 0, "", ""⟩
  if src.url = "" then ([], status, some ("no URL configured for source " ++ src.id))
  else
    let dest := join [destDir, bytes (filename src.url)]
    let (ops, err) := untilError
      [(.mkdirAll destDir, r.mkdirAll.map ("create dest dir: " ++ ·)),
        (.createTemp destDir, r.createTemp.map ("create temp file: " ++ ·)),
        (.newRequest src.url, (client.newRequest src.url).map ("build request: " ++ ·)),
        (.get src.url, r.download client src.url),
        (.copy, r.copy.map ("write download: " ++ ·)),
        (.close, r.close.map ("close temp file: " ++ ·)),
        (.rename dest, r.rename.map ("rename download: " ++ ·))]
    if err.isSome then (ops, status, err)
    else
      (ops, { status with
        path := text dest
        bytes := r.written
        updatedAt := r.updatedAt
        duration := durationString (r.done - r.start) }, none)

/-- The loop of `runOnce` over the sources; the replies are those to its rounds. -/
def updateEach (cfg : UpdaterConfig) (sources : String → Option HTTPSource) :
    List String → (ℕ → Replies) → Status → List FetchOp × Status
  | [], _, status => ([], status)
  | id :: ids, replies, status =>
    match sources id with
    | none =>
      updateEach cfg sources ids (fun round => replies (round + 1))
        (status.setSource id ⟨id, "", "", 0, 0, "", "source not registered"⟩)
    | some src =>
      let srcDir := join [bytes cfg.cacheDir, bytes id]
      let (ops, st, err) := src.update client srcDir (replies 0)
      let st := match err with | none => st | some err => { st with error := err }
      let (more, status) := updateEach cfg sources ids (fun round => replies (round + 1))
        (status.setSource id st)
      (ops ++ more, status)

/-- The function `runOnce`, as far as the file system and the network are concerned, given
the end of an import. -/
def runOnce (cfg : UpdaterConfig) (sources : String → Option HTTPSource) (now nextRun : Time)
    (imported : Option String) (replies : ℕ → Replies) : List FetchOp × Status :=
  let status := newStatus cfg now nextRun
  if cfg.airgapImportPath ≠ "" then
    ([], status.setSource "airgap" (importStatus cfg now imported))
  else updateEach client cfg sources cfg.sources replies status

/-! ## The moves of a run -/

/-- The moves of a caller through the loop over the sources, its updates included. -/
def turns (cfg : UpdaterConfig) (sources : String → Option HTTPSource) :
    List String → (ℕ → Replies) → List Move
  | [], _ => []
  | id :: ids, replies =>
    let rest := turns cfg sources ids fun round => replies (round + 1)
    match sources id with
    | none => .go :: rest
    | some src =>
      let (_, st, err) := src.update client (join [bytes cfg.cacheDir, bytes id]) (replies 0)
      .go :: .updated st err :: rest

/-- The moves of a whole run, from where the configuration is read. -/
def runMoves (cfg : UpdaterConfig) (sources : String → Option HTTPSource)
    (imported : Option String) (replies : ℕ → Replies) : List Move :=
  if cfg.airgapImportPath ≠ "" then [.go, .imported imported]
  else .go :: (turns client cfg sources cfg.sources replies ++ [.go])

section Moves

variable {client : HTTPClient}
  {V : Type} {codec : Codec Status V} {s t : System V} {i : ℕ} {pc pc' : Pc} {move : Move}
  {caller : Caller} {r : Run}

/-- A move of a caller is a step of the system, after which it is where the move takes it. -/
lemma exists_step (hi : s.clients[i]? = some pc)
    (hmove : clientMove codec s i pc move = some (t, pc')) (hclients : t.clients = s.clients) :
    ∃ u, step codec s (.client i move) = some u ∧ u.clients[i]? = some pc' ∧
      u.sources = t.sources ∧ u.store = t.store ∧ u.holder = t.holder ∧ u.clock = t.clock := by
  have hsize : i < t.clients.length := hclients ▸ (List.getElem?_eq_some_iff.mp hi).1
  exact ⟨{ t with clients := t.clients.set i pc' }, by simp [step, hi, hmove],
    List.getElem?_set_self hsize, rfl, rfl, rfl, rfl⟩

variable (client codec) in
/-- The loop over the sources comes to what `updateEach` does. -/
lemma run_turns (hi : s.clients[i]? = some (.running caller r))
    (hids : ∀ id src, s.sources id = some src → src.id = id) (replies : ℕ → Replies) :
    ∃ t, run (step codec) s ((turns client r.cfg s.sources r.left replies).map (.client i)) =
        some t ∧
      t.clients[i]? = some (.running caller { r with
        left := []
        status := (updateEach client r.cfg s.sources r.left replies r.status).2 }) ∧
      t.store = s.store := by
  obtain ⟨number, version, cfg, left, status⟩ := r
  dsimp only at hi ⊢
  induction left generalizing s status replies with
  | nil => exact ⟨s, rfl, hi, rfl⟩
  | cons id ids ih =>
    have hgo : clientMove codec s i (.running caller ⟨number, version, cfg, id :: ids, status⟩)
        .go = some (s.lookup caller ⟨number, version, cfg, id :: ids, status⟩ id ids) := rfl
    cases hsrc : s.sources id with
    | none =>
      rw [System.lookup, hsrc] at hgo
      obtain ⟨u, hstep, hi', hsources, hstore, -⟩ := exists_step hi hgo rfl
      obtain ⟨t, hrun, ht, hstore'⟩ :=
        ih (hsources ▸ hids) (fun round => replies (round + 1)) _ hi'
      rw [hsources] at hrun ht
      refine ⟨t, ?_, ?_, hstore'.trans hstore⟩
      · rw [turns, hsrc]
        exact run_cons_eq_some.mpr ⟨u, hstep, hrun⟩
      · rw [updateEach, hsrc]
        exact ht
    | some src =>
      -- the source is looked up in one move and its update ends in another one
      rw [System.lookup, hsrc] at hgo
      obtain ⟨u, hstep, hi', hsources, hstore, -⟩ := exists_step hi hgo rfl
      have hdone (st : SourceStatus) (err : Option String) :
          clientMove codec u i (.updating caller ⟨number, version, cfg, ids, status⟩ src)
            (.updated st err) = some (u, .running caller ⟨number, version, cfg, ids,
              status.setSource src.id
                (match err with | none => st | some err => { st with error := err })⟩) := rfl
      rcases hupdate : src.update client (join [bytes cfg.cacheDir, bytes id]) (replies 0) with
        ⟨ops, st, err⟩
      obtain ⟨v, hstep', hi'', hsources', hstore', -⟩ := exists_step hi' (hdone st err) rfl
      have hsame : v.sources = s.sources := hsources'.trans hsources
      obtain ⟨t, hrun, ht, hlast⟩ := ih (hsame ▸ hids) (fun round => replies (round + 1)) _ hi''
      rw [hsame] at hrun ht
      rw [hids id src hsrc] at ht
      refine ⟨t, ?_, ?_, hlast.trans (hstore'.trans hstore)⟩
      · rw [turns, hsrc]
        dsimp only
        rw [hupdate]
        exact run_cons_eq_some.mpr ⟨u, hstep, run_cons_eq_some.mpr ⟨v, hstep', hrun⟩⟩
      · rw [updateEach, hsrc]
        dsimp only
        rw [hupdate]
        exact ht

/-- The time of the next run is in the status only when there is an interval. -/
lemma newStatus_beginRun (cfg : UpdaterConfig) (now nextRun : Time) :
    newStatus cfg now (if cfg.updateInterval > 0 then now + cfg.updateInterval else nextRun) =
      newStatus cfg now (now + cfg.updateInterval) := by
  rw [newStatus, newStatus]
  split_ifs <;> rfl

variable (client codec) in
/-- **A run of the updater comes to the status that `runOnce` returns**, and saves it. -/
theorem run_runMoves (hi : s.clients[i]? = some (.reading caller))
    (hsources : s.sources = builtInSources s.cfg.sourceURLs) (imported : Option String)
    (replies : ℕ → Replies) :
    ∃ t, run (step codec) s ((runMoves client s.cfg s.sources imported replies).map (.client i)) =
        some t ∧
      t.clients[i]? = some caller.resume ∧ t.holder = none ∧
      t.store = saveStatus codec s.store
        (runOnce client s.cfg s.sources s.clock (s.clock + s.cfg.updateInterval) imported
          replies).2 := by
  have hids (id : String) (src : HTTPSource) (h : s.sources id = some src) : src.id = id :=
    id_of_builtInSources (hsources ▸ h)
  have hread : clientMove codec s i (.reading caller) .go = some (s.beginRun caller) := rfl
  rw [System.beginRun, newStatus_beginRun] at hread
  rw [runMoves, runOnce]
  by_cases hairgap : s.cfg.airgapImportPath = ""
  · -- the sources one after the other, and then the end of the run
    rw [if_neg (not_not.mpr hairgap)] at hread
    rw [if_neg (not_not.mpr hairgap), if_neg (not_not.mpr hairgap)]
    obtain ⟨u, hstep, hi', hsame, hstore, -, -⟩ := exists_step hi hread rfl
    obtain ⟨v, hrun, hi'', hstore'⟩ := run_turns client codec hi' (hsame ▸ hids) replies
    rw [hsame] at hrun hi''
    have hend (r : Run) (hleft : r.left = []) : clientMove codec v i (.running caller r) .go =
        some (v.endRun codec caller r.status) := by
      rw [clientMove, hleft]
    obtain ⟨t, hlast, ht, -, hsaved, hholder, -⟩ := exists_step hi'' (hend _ rfl) rfl
    refine ⟨t, ?_, ht, hholder, ?_⟩
    · rw [List.map_cons, List.map_append, run_cons, hstep, Option.bind_some, run_append, hrun]
      exact run_cons_eq_some.mpr ⟨t, hlast, rfl⟩
    · rw [hsaved]
      show saveStatus codec v.store _ = _
      rw [hstore', hstore]
  · -- a single move: the import
    rw [if_pos hairgap] at hread
    rw [if_pos hairgap, if_pos hairgap]
    obtain ⟨u, hstep, hi', -, hstore, -, hclock⟩ := exists_step hi hread rfl
    have hend (r : Run) : clientMove codec u i (.importing caller r) (.imported imported) =
        some (u.endRun codec caller
          (r.status.setSource "airgap" (importStatus r.cfg u.clock imported))) := rfl
    obtain ⟨t, hlast, ht, -, hsaved, hholder, -⟩ := exists_step hi' (hend _) rfl
    refine ⟨t, ?_, ht, hholder, ?_⟩
    · exact run_cons_eq_some.mpr ⟨u, hstep, run_cons_eq_some.mpr ⟨t, hlast, rfl⟩⟩
    · rw [hsaved]
      show saveStatus codec u.store _ = _
      rw [hstore, hclock]

end Moves

/-! ## What is renamed -/

variable {client : HTTPClient} {cfg : UpdaterConfig} {sources : String → Option HTTPSource}
  {dest : Bytes}

lemma mem_untilError {steps : List (FetchOp × Option String)} {op : FetchOp}
    (h : op ∈ (untilError steps).1) : op ∈ steps.map Prod.fst := by
  induction steps with
  | nil => exact h
  | cons step rest ih =>
    obtain ⟨first, err⟩ := step
    rw [List.map_cons]
    cases err with
    | some err =>
      rw [List.mem_singleton.mp h]
      exact List.mem_cons_self
    | none =>
      rcases List.mem_cons.mp h with rfl | hrest
      · exact List.mem_cons_self
      · exact List.mem_cons_of_mem _ (ih hrest)

/-- The last of a series of calls is made only if the others work out. -/
lemma eq_none_of_last_mem {steps : List (FetchOp × Option String)}
    {last : FetchOp × Option String} {op : FetchOp}
    (h : op ∈ (untilError (steps ++ [last])).1) (hop : op ∉ steps.map Prod.fst) :
    ∀ s ∈ steps, s.2 = none := by
  induction steps with
  | nil => exact fun s hs => absurd hs List.not_mem_nil
  | cons step rest ih =>
    obtain ⟨first, err⟩ := step
    obtain ⟨hfirst, hrest⟩ := not_or.mp (mt List.mem_cons.mpr hop)
    cases err with
    | some err => exact absurd (List.mem_singleton.mp h) hfirst
    | none =>
      have hmore := ih ((List.mem_cons.mp h).resolve_left hfirst) hrest
      exact List.forall_mem_cons.mpr ⟨rfl, hmore⟩

lemma untilError_of_none {steps : List (FetchOp × Option String)} (h : ∀ s ∈ steps, s.2 = none) :
    untilError steps = (steps.map Prod.fst, none) := by
  induction steps with
  | nil => rfl
  | cons step rest ih =>
    obtain ⟨first, err⟩ := step
    obtain rfl : err = none := h _ List.mem_cons_self
    rw [untilError, ih fun s hs => h s (List.mem_cons_of_mem _ hs), List.map_cons]

/-- A download that works out at every point. -/
def Replies.fine : Replies := ⟨none, none, none, 200, none, 0, none, none, 0, 0, 0⟩

/-- Whatever is renamed has been asked for, and gets the name of the source's file in its
directory. -/
lemma eq_of_rename_mem_update {src : HTTPSource} {destDir : Bytes} {r : Replies}
    (h : .rename dest ∈ (src.update client destDir r).1) :
    src.url ≠ "" ∧ client.Takes src.url ∧ dest = join [destDir, bytes (filename src.url)] := by
  rw [HTTPSource.update] at h
  dsimp only at h
  split_ifs at h with hurl herr
  · exact absurd h List.not_mem_nil
  all_goals
    have hsteps := @eq_none_of_last_mem [(.mkdirAll destDir, _), (.createTemp destDir, _),
      (.newRequest src.url, _), (.get src.url, _), (.copy, _), (.close, _)] _ _ h (by simp)
    simp only [List.forall_mem_cons, Option.map_eq_none_iff, Replies.download,
      Option.or_eq_none_iff] at hsteps
    obtain ⟨-, -, hrequest, ⟨⟨hsent, -⟩, -⟩, -⟩ := hsteps
    exact ⟨hurl, ⟨hrequest, hsent⟩, by simpa using mem_untilError h⟩

lemma rename_mem_update_fine {src : HTTPSource} (hurl : src.url ≠ "")
    (htakes : client.Takes src.url) (destDir : Bytes) :
    .rename (join [destDir, bytes (filename src.url)]) ∈ (src.update client destDir .fine).1 := by
  rw [HTTPSource.update, if_neg hurl]
  dsimp only
  rw [untilError_of_none (by simp [Replies.fine, Replies.download, htakes.request, htakes.sent])]
  simp

/-- A run renames what the updates of its sources rename. -/
lemma exists_of_rename_mem_updateEach {ids : List String} {replies : ℕ → Replies}
    {status : Status} (h : .rename dest ∈ (updateEach client cfg sources ids replies status).1) :
    ∃ id ∈ ids, ∃ src, sources id = some src ∧ src.url ≠ "" ∧ client.Takes src.url ∧
      dest = join [join [bytes cfg.cacheDir, bytes id], bytes (filename src.url)] := by
  induction ids generalizing replies status with
  | nil => exact absurd h List.not_mem_nil
  | cons id ids ih =>
    rw [updateEach] at h
    split at h
    · obtain ⟨id', hid', hrest⟩ := ih h
      exact ⟨id', List.mem_cons_of_mem _ hid', hrest⟩
    · next src hsrc =>
      rcases List.mem_append.mp h with hfirst | hmore
      · exact ⟨id, List.mem_cons_self, src, hsrc, eq_of_rename_mem_update hfirst⟩
      · obtain ⟨id', hid', hrest⟩ := ih hmore
        exact ⟨id', List.mem_cons_of_mem _ hid', hrest⟩

lemma rename_mem_updateEach_fine {id : String} {src : HTTPSource} (hsrc : sources id = some src)
    (hurl : src.url ≠ "") (htakes : client.Takes src.url) {ids : List String} (hid : id ∈ ids)
    (status : Status) :
    .rename (join [join [bytes cfg.cacheDir, bytes id], bytes (filename src.url)]) ∈
      (updateEach client cfg sources ids (fun _ => .fine) status).1 := by
  induction ids generalizing status with
  | nil => exact absurd hid List.not_mem_nil
  | cons first ids ih =>
    rw [updateEach]
    rcases List.mem_cons.mp hid with rfl | hrest
    · rw [hsrc]
      exact List.mem_append_left _ (rename_mem_update_fine hurl htakes _)
    · cases sources first with
      | none => exact ih hrest _
      | some other => exact List.mem_append_right _ (ih hrest _)

/-! ## The name of the file -/

lemma base_eq_or (path : String) : base path = "/" ∨ '/' ∉ (base path).toList := by
  rw [base]
  dsimp only
  split_ifs
  · exact .inr (by decide)
  · exact .inl rfl
  · refine .inr ?_
    rw [String.toList_ofList]
    intro hmem
    have hne := List.mem_rtakeWhile_imp hmem
    simp at hne

lemma mem_of_mem_trimSpace {s : String} {c : Char} (h : c ∈ (trimSpace s).toList) :
    c ∈ s.toList := by
  rw [trimSpace, String.toList_ofList, List.mem_reverse] at h
  have hfront := (List.dropWhile_suffix isSpace).subset h
  exact (List.dropWhile_suffix isSpace).subset (List.mem_reverse.mp hfront)

/-- The name of a file is one component, and what it can do at most is to go up. -/
lemma filename_spec (url : String) :
    '/' ∉ (filename url).toList ∧ filename url ≠ "" ∧ filename url ≠ "." := by
  rw [filename]
  by_cases hempty : filenameForURL url = ""
  · rw [if_pos hempty]
    decide
  · rw [if_neg hempty]
    simp only [filenameForURL] at hempty ⊢
    split_ifs at hempty ⊢ with hspecial
    · exact absurd rfl hempty
    · obtain ⟨hdot, hroot, hne⟩ : _ ≠ "." ∧ _ ≠ "/" ∧ _ ≠ "" := by
        simpa only [not_or] using hspecial
      refine ⟨?_, hne, hdot⟩
      intro hmem
      rcases base_eq_or (String.ofList (url.toList.takeWhile (· ≠ '?'))) with hslash | hslash
      · rw [hslash] at hroot
        exact hroot (by decide)
      · exact hslash (mem_of_mem_trimSpace hmem)

/-! ## The directory of a source -/

/-- Read as a path from the cache, an identifier comes out a number of levels below it. -/
def ComesOut (cacheDir id : Bytes) (levels : ℕ) : Prop :=
  ∃ names, names.length = levels ∧
    resolve dot true (cacheDir.splitOn separator ++ id.splitOn separator) =
      resolve dot true (cacheDir.splitOn separator) ++ names

/-- An identifier that goes nowhere up comes out as far below as it has names. -/
lemma comesOut_of_no_up {cacheDir id : Bytes} (h : [dot, dot] ∉ id.splitOn separator) :
    ComesOut cacheDir id ((id.splitOn separator).filter (IsName dot)).length :=
  ⟨_, rfl, resolve_append h⟩

/-- An identifier without a slash that the check of the configuration lets pass. -/
lemma comesOut_one {id : String} (hknown : unknownSource id = false) (hslash : '/' ∉ id.toList)
    (cacheDir : Bytes) : ComesOut cacheDir (bytes id) 1 := by
  have hsplit : (bytes id).splitOn separator = [bytes id] :=
    List.splitOn_eq_singleton (separator_notMem_bytes hslash)
  have hne (other : String) (hother : unknownSource other = true) : bytes id ≠ bytes other := by
    intro heq
    rw [bytes_inj.mp heq, hother] at hknown
    cases hknown
  have hname : IsName dot (bytes id) :=
    ⟨hne "" (by decide), hne "." (by decide), hne ".." (by decide)⟩
  have hup : [dot, dot] ∉ (bytes id).splitOn separator := by
    rw [hsplit, List.mem_singleton]
    exact hname.2.2.symm
  have hone : ((bytes id).splitOn separator).filter (IsName dot) = [bytes id] := by
    rw [hsplit, List.filter_eq_self]
    intro c hc
    rw [List.mem_singleton.mp hc]
    exact decide_eq_true hname
  have hlevels : ComesOut cacheDir (bytes id) _ := comesOut_of_no_up hup
  rwa [hone, List.length_singleton] at hlevels

/-- A list with a further element goes on from another one with one element more. -/
lemma exists_concat_eq_append_iff {α : Type*} (xs ys : List α) (a : α) (n : ℕ) :
    (∃ names, names.length = n + 1 ∧ ys ++ [a] = xs ++ names) ↔
      ∃ names, names.length = n ∧ ys = xs ++ names := by
  constructor
  · rintro ⟨names, hlength, heq⟩
    rcases List.eq_nil_or_concat names with rfl | ⟨init, last, rfl⟩
    · cases hlength
    · rw [List.concat_eq_append] at hlength heq
      rw [← List.append_assoc] at heq
      refine ⟨init, by simpa using hlength, (List.append_inj' heq rfl).1⟩
  · rintro ⟨names, hlength, rfl⟩
    exact ⟨names ++ [a], by rw [List.length_append, hlength]; rfl, List.append_assoc _ _ _⟩

/-- A list without its last element goes on from another one with one element less. -/
lemma exists_dropLast_eq_append_iff {α : Type*} (xs ys : List α) (n : ℕ) :
    (∃ names, names.length = n + 1 ∧ ys.dropLast = xs ++ names) ↔
      ∃ names, names.length = n + 2 ∧ ys = xs ++ names := by
  rcases List.eq_nil_or_concat ys with rfl | ⟨init, last, rfl⟩
  · refine iff_of_false ?_ ?_
    all_goals
      rintro ⟨names, hlength, heq⟩
      obtain rfl := (List.append_eq_nil_iff.mp heq.symm).2
      cases hlength
  · rw [List.concat_eq_append, List.dropLast_concat]
    exact (exists_concat_eq_append_iff xs init last (n + 1)).symm

/-- Two levels below the cache is where a file of the directory lies, or what a file that
goes up makes of a directory three levels below. -/
lemma below_two_iff {cacheDir id file : Bytes} (hrooted : cacheDir.head? = some separator)
    (hsep : separator ∉ file) (hne : file ≠ []) (hdot : file ≠ [dot]) :
    Below (clean cacheDir) 2 (join [join [cacheDir, id], file]) ↔
      file ≠ [dot, dot] ∧ ComesOut cacheDir id 1 ∨ file = [dot, dot] ∧ ComesOut cacheDir id 3 := by
  have hcache := names_resolve cacheDir
  have hdir := names_resolve_append cacheDir id
  have hfile : file.splitOn separator = [file] := List.splitOn_eq_singleton hsep
  rw [join_join_of_rooted hrooted, clean_of_rooted hrooted, hfile]
  rw [ComesOut, ComesOut]
  generalize cacheDir.splitOn separator ++ id.splitOn separator = parts at hdir ⊢
  generalize resolve dot true (cacheDir.splitOn separator) = top at hcache ⊢
  by_cases hup : file = [dot, dot]
  · -- the last component of the directory is taken back
    have hnames : Names (resolve dot true parts).dropLast :=
      fun c hc => hdir c (List.mem_of_mem_dropLast hc)
    subst hup
    rw [resolve_concat_up, below_fromRoot_iff hcache hnames]
    simp only [ne_eq, not_true, false_and, true_and, false_or]
    exact exists_dropLast_eq_append_iff top (resolve dot true parts) 1
  · have hname : IsName dot file := ⟨hne, hdot, hup⟩
    have hkept : resolve dot true (parts ++ [file]) = resolve dot true parts ++ [file] := by
      rw [resolve_append (by simpa using Ne.symm hup)]
      simp [hname]
    have hnames : Names (resolve dot true parts ++ [file]) :=
      names_append hdir fun c hc => by
        rw [List.mem_singleton.mp hc]
        exact ⟨hname, hsep⟩
    rw [hkept, below_fromRoot_iff hcache hnames]
    simp only [ne_eq, hup, not_false_iff, true_and, false_and, or_false]
    exact exists_concat_eq_append_iff top (resolve dot true parts) file 1

/-- Every download of the runs with a configuration lands two levels below its cache. -/
def StaysInCache (client : HTTPClient) (cfg : UpdaterConfig)
    (sources : String → Option HTTPSource) : Prop :=
  ∀ now nextRun imported replies dest,
    .rename dest ∈ (runOnce client cfg sources now nextRun imported replies).1 →
    Below (clean (bytes cfg.cacheDir)) 2 dest

/-- Where a validated configuration has its cache. -/
lemma cacheDir_rooted {euid : ℕ} {c : Config} (h : c.validate euid = .ok ())
    (henabled : c.signatures.enabled = true) :
    (bytes c.signatures.cacheDir).head? = some separator := by
  rw [Config.validate_eq_ok] at h
  simp only [Config.validateErrors, List.append_eq_nil_iff, SignaturesConfig.errors, henabled,
    if_true] at h
  have habs := h.1.1.1.1.1.1.2.1.2
  rw [Config.absErrors] at habs
  split_ifs at habs with hempty
  rw [Config.failing_eq_nil, Bool.not_eq_false', Config.isAbs] at habs
  obtain ⟨rest, hrest⟩ := List.isPrefixOf_iff_prefix.mp habs
  rw [bytes_eq_flatMap, ← hrest]
  rfl

/-- **Downloads stay in the cache** exactly when every source that has an address, and one to
which requests are sent, comes out one level below the cache, or three levels when the file of
its address goes up. -/
theorem staysInCache_iff (client : HTTPClient) {euid : ℕ} {c : Config}
    (h : c.validate euid = .ok ())
    (henabled : c.signatures.enabled = true) (overrides : List (String × String)) :
    StaysInCache client c.signatures.updaterConfig (builtInSources overrides) ↔
      c.signatures.airgapImportPath ≠ "" ∨
        ∀ id ∈ c.signatures.sources, ∀ src, builtInSources overrides id = some src →
          src.url = "" ∨ ¬ client.Takes src.url ∨
            filename src.url ≠ ".." ∧ ComesOut (bytes c.signatures.cacheDir) (bytes id) 1 ∨
            filename src.url = ".." ∧ ComesOut (bytes c.signatures.cacheDir) (bytes id) 3 := by
  have hrooted := cacheDir_rooted h henabled
  -- the file name that is ".." takes one more level away than it adds
  have hplace (id url : String) :
      Below (clean (bytes c.signatures.cacheDir)) 2
          (join [join [bytes c.signatures.cacheDir, bytes id], bytes (filename url)]) ↔
        filename url ≠ ".." ∧ ComesOut (bytes c.signatures.cacheDir) (bytes id) 1 ∨
        filename url = ".." ∧ ComesOut (bytes c.signatures.cacheDir) (bytes id) 3 := by
    obtain ⟨hslash, hne, hdot⟩ := filename_spec url
    have hne' : bytes (filename url) ≠ bytes "" := mt bytes_inj.mp hne
    have hdot' : bytes (filename url) ≠ bytes "." := mt bytes_inj.mp hdot
    rw [below_two_iff hrooted (separator_notMem_bytes hslash) hne' hdot']
    have hup : bytes (filename url) = [dot, dot] ↔ filename url = ".." :=
      bytes_inj (t := "..")
    rw [Ne, hup]
  constructor
  · intro hstays
    by_cases hairgap : c.signatures.airgapImportPath = ""
    · right
      intro id hid src hsrc
      by_cases hurl : src.url = ""
      · exact .inl hurl
      by_cases htakes : client.Takes src.url
      · -- the run in which every download works out
        right; right
        refine (hplace id src.url).mp (hstays 0 0 none (fun _ => .fine) _ ?_)
        have hruns : ¬ c.signatures.updaterConfig.airgapImportPath ≠ "" := not_not.mpr hairgap
        rw [runOnce, if_neg hruns]
        exact rename_mem_updateEach_fine hsrc hurl htakes hid _
      · exact .inr (.inl htakes)
    · exact .inl hairgap
  · intro hwhen now nextRun imported replies dest hdest
    rw [runOnce] at hdest
    split_ifs at hdest with hairgap
    · exact absurd hdest List.not_mem_nil
    · obtain ⟨id, hid, src, hsrc, hurl, htakes, rfl⟩ := exists_of_rename_mem_updateEach hdest
      rcases hwhen with hwhen | hwhen
      · exact absurd hwhen hairgap
      · refine (hplace id src.url).mpr ?_
        exact ((hwhen id hid src hsrc).resolve_left hurl).resolve_left (not_not.mpr htakes)

/-- A configuration with sources of its own, at the addresses given. -/
def customConfig (entries : StringMap String) : Config :=
  { Config.default with
    signatures :=
      { Config.default.signatures with
        enabled := true
        sources := entries.entries.map Prod.fst
        sourceURLs := entries } }

def feedsConfig : Config :=
  customConfig ⟨[("custom:feeds", "https://feeds.example/daily/list.json?full=1")], by decide⟩

/-- One that names its directory with a plain word. -/
theorem staysInCache_feeds :
    StaysInCache .any feedsConfig.signatures.updaterConfig
      (builtInSources feedsConfig.signatures.sourceURLs.entries) := by
  have hvalid : feedsConfig.validate 0 = .ok () := by decide
  refine (staysInCache_iff .any hvalid rfl _).mpr (.inr ?_)
  intro id hid src hsrc
  obtain rfl := List.mem_singleton.mp hid
  obtain rfl : _ = src := Option.some.inj hsrc
  right; right; left
  exact ⟨by decide, comesOut_one (by decide) (by decide) _⟩

def cronConfig : Config :=
  customConfig ⟨[("custom:/../../../../../etc/cron.d", "https://feeds.example/job")], by decide⟩

/-- One that leaves the cache, and the file that a download writes over. -/
theorem not_staysInCache_cron :
    cronConfig.validate 0 = .ok () ∧ cronConfig.signatures.enabled = true ∧
      .rename (bytes "/etc/cron.d/job") ∈
        (runOnce .any cronConfig.signatures.updaterConfig
          (builtInSources cronConfig.signatures.sourceURLs.entries) 0 0 none fun _ => .fine).1 ∧
      ¬ StaysInCache .any cronConfig.signatures.updaterConfig
        (builtInSources cronConfig.signatures.sourceURLs.entries) := by
  have hmem : .rename (bytes "/etc/cron.d/job") ∈
      (runOnce .any cronConfig.signatures.updaterConfig
        (builtInSources cronConfig.signatures.sourceURLs.entries) 0 0 none fun _ => .fine).1 := by
    decide +kernel
  refine ⟨by decide, rfl, hmem, ?_⟩
  intro hstays
  have hbelow := (hstays _ _ _ _ _ hmem).below
  revert hbelow
  decide +kernel

end Signatures

end Arcsent
