/-
# Failed downloads

An update that fails is to leave the cache as it was, and one source is to be as if the
others were not there.  What a run does to a file is done by the renames of its updates, and
there are two ways in which a rename and the rest get into each other's way: a file can have
a name that the temporary file can get, so that the deferred removal takes it away, and a
file whose name goes up can be the same as another source's.
-/
import Arcsent.Signatures.CacheFiles
import Mathlib.Data.List.Nodup

namespace Arcsent.Signatures

open Arcsent.Go Arcsent.Go.Filepath Arcsent.Lib

variable {client : HTTPClient} {cfg : UpdaterConfig} {sources : String → Option HTTPSource}

/-! ## Where a source is downloaded to -/

/-- The directory of a source. -/
def sourceDir (cfg : UpdaterConfig) (id : String) : Bytes := join [bytes cfg.cacheDir, bytes id]

/-- The file of a source. -/
def destination (cfg : UpdaterConfig) (src : HTTPSource) : List Bytes :=
  components (join [sourceDir cfg src.id, bytes (filename src.url)])

/-- The name that the temporary file has with a number. -/
def tempFilename (random : UInt32) : String := "download-" ++ toString random.toNat

/-- A cleaned directory from the root. -/
lemma exists_sourceDir (hrooted : (bytes cfg.cacheDir).head? = some separator) (id : String) :
    ∃ parts, Names parts ∧ sourceDir cfg id = fromRoot separator parts :=
  ⟨_, names_resolve_append _ _, join_pair_of_rooted hrooted _⟩

lemma isName_filename {url : String} (hup : filename url ≠ "..") :
    IsName dot (bytes (filename url)) ∧ separator ∉ bytes (filename url) := by
  obtain ⟨hslash, hne, hdot⟩ := filename_spec url
  have hne' : bytes (filename url) ≠ bytes "" := mt bytes_inj.mp hne
  have hdot' : bytes (filename url) ≠ bytes "." := mt bytes_inj.mp hdot
  have hup' : bytes (filename url) ≠ bytes ".." := mt bytes_inj.mp hup
  exact ⟨⟨hne', hdot', hup'⟩, separator_notMem_bytes hslash⟩

lemma isName_tempFilename (random : UInt32) :
    IsName dot (bytes (tempFilename random)) ∧ separator ∉ bytes (tempFilename random) := by
  have hne (other : String) (hother : other.toList.head? ≠ some 'd') :
      bytes (tempFilename random) ≠ bytes other := by
    intro heq
    apply hother
    rw [← bytes_inj.mp heq, tempFilename, String.toList_append]
    rfl
  refine ⟨⟨hne "" (by decide), hne "." (by decide), hne ".." (by decide)⟩, ?_⟩
  refine separator_notMem_bytes ?_
  rw [tempFilename, String.toList_append]
  intro hslash
  rcases List.mem_append.mp hslash with hword | hnumber
  · exact absurd hword (by decide)
  · have hdigits : '/' ∈ Nat.toDigits 10 random.toNat := by
      rw [← Nat.toList_repr]
      exact hnumber
    exact absurd (Nat.isDigit_of_mem_toDigits (by decide) (by decide) hdigits) (by decide)

/-- The file of a source lies in its directory, unless its name goes up. -/
lemma destination_eq {src : HTTPSource} {parts : List Bytes} (hparts : Names parts)
    (hdir : sourceDir cfg src.id = fromRoot separator parts) :
    destination cfg src =
      if filename src.url = ".." then parts.dropLast else parts ++ [bytes (filename src.url)] := by
  rw [destination, hdir]
  split_ifs with hup
  · rw [hup]
    exact components_join_up hparts
  · exact components_join hparts (isName_filename hup).1 (isName_filename hup).2

/-- Files in different directories are different. -/
lemma destination_ne (hrooted : (bytes cfg.cacheDir).head? = some separator)
    {src other : HTTPSource} (hdir : sourceDir cfg src.id ≠ sourceDir cfg other.id)
    (hsrc : filename src.url ≠ "..") (hother : filename other.url ≠ "..") :
    destination cfg src ≠ destination cfg other := by
  obtain ⟨parts, hparts, heq⟩ := exists_sourceDir hrooted src.id
  obtain ⟨parts', hparts', heq'⟩ := exists_sourceDir hrooted other.id
  rw [destination_eq hparts heq, destination_eq hparts' heq', if_neg hsrc, if_neg hother]
  intro hsame
  apply hdir
  rw [heq, heq', (List.append_inj' hsame (by simp)).1]

/-- The temporary file is the file of the source when their names are the same. -/
lemma tempName_eq_destination_iff (hrooted : (bytes cfg.cacheDir).head? = some separator)
    {src : HTTPSource} (hup : filename src.url ≠ "..") (random : UInt32) :
    components (tempName (sourceDir cfg src.id) random) = destination cfg src ↔
      filename src.url = tempFilename random := by
  obtain ⟨parts, hparts, heq⟩ := exists_sourceDir hrooted src.id
  have htemp : components (tempName (sourceDir cfg src.id) random) =
      parts ++ [bytes (tempFilename random)] := by
    rw [tempName, heq]
    exact components_join hparts (isName_tempFilename random).1 (isName_tempFilename random).2
  rw [htemp, destination_eq hparts heq, if_neg hup, List.append_cancel_left_eq]
  simp only [List.cons.injEq, and_true]
  rw [bytes_inj, eq_comm]

/-! ## One round -/

/-- A listed source with an address. -/
structure Addressed (sources : String → Option HTTPSource) (ids : List String)
    (src : HTTPSource) : Prop where
  listed : src.id ∈ ids
  registered : sources src.id = some src
  url : src.url ≠ ""

/-- The sources have the names they are registered under. -/
def Named (sources : String → Option HTTPSource) : Prop :=
  ∀ id src, sources id = some src → src.id = id

section Round

variable {id : String} {a : Attempt} {t u : Files} {st : SourceStatus} {status : Status}
  {ids more : List String} {attempts : ℕ → Attempt} {path : List Bytes}

/-- No file gets the place of the directory above. -/
lemma filename_ne_up (hrooted : (bytes cfg.cacheDir).head? = some separator) {src : HTTPSource}
    (hdir : t.node (components (sourceDir cfg src.id)) = some .dir)
    (hfile : t.node (destination cfg src) ≠ some .dir) : filename src.url ≠ ".." := by
  intro hup
  obtain ⟨parts, hparts, heq⟩ := exists_sourceDir hrooted src.id
  have hparent := t.parent _ (hdir.symm ▸ Option.some_ne_none _)
  rw [heq, components_fromRoot hparts] at hparent
  rw [destination_eq hparts heq, if_pos hup] at hfile
  exact hfile hparent

/-- A round either fails and changes nothing or writes the file of its source, which it takes
away again when that has the name of the temporary file. -/
lemma roundOn_spec (hrooted : (bytes cfg.cacheDir).head? = some separator)
    (hnamed : Named sources) (h : roundOn client cfg sources id a t = (u, st)) :
    (st.error ≠ "" ∧ u.content = t.content) ∨
      ∃ src, sources id = some src ∧ src.url ≠ "" ∧ client.Takes src.url ∧
        filename src.url ≠ ".." ∧ st.error = "" ∧
        u.content = if filename src.url = tempFilename a.random then t.content
          else Function.update t.content (destination cfg src) (some a.body) := by
  rw [roundOn] at h
  cases hsrc : sources id with
  | none =>
    rw [hsrc] at h
    obtain ⟨rfl, rfl⟩ := Prod.mk.inj h
    have hne : "source not registered" ≠ "" := by decide
    exact .inl ⟨hne, rfl⟩
  | some src =>
    rw [hsrc] at h
    dsimp only at h
    obtain rfl : src.id = id := hnamed id src hsrc
    rcases hupdate : src.updateOn client (sourceDir cfg src.id) a t with ⟨v, st', err⟩
    rw [← sourceDir, hupdate] at h
    by_cases hurl : src.url = ""
    · rw [HTTPSource.updateOn, if_pos hurl] at hupdate
      simp only [Prod.mk.injEq] at hupdate
      obtain ⟨rfl, rfl, rfl⟩ := hupdate
      obtain ⟨rfl, rfl⟩ := Prod.mk.inj h
      -- a source without an address is reported as such
      exact .inl ⟨append_ne_empty (by decide) src.id, rfl⟩
    · rcases updateOn_spec hurl hupdate with
        ⟨text, rfl, hne, hsame⟩ | ⟨rfl, htakes, hok, ⟨w, hw, hfile⟩, hdone⟩
      · obtain ⟨rfl, rfl⟩ := Prod.mk.inj h
        exact .inl ⟨hne, hsame⟩
      · obtain ⟨rfl, rfl⟩ := Prod.mk.inj h
        have hup : filename src.url ≠ ".." := filename_ne_up hrooted hw hfile
        have htemp := tempName_eq_destination_iff hrooted hup a.random
        rw [destination] at htemp
        refine .inr ⟨src, rfl, hurl, htakes, hup, hok, ?_⟩
        rw [hdone, destination]
        simp only [htemp]

/-! ## The rounds of a run -/

lemma updateEachOn_append (client : HTTPClient) (cfg : UpdaterConfig)
    (sources : String → Option HTTPSource)
    (ids more : List String) (attempts : ℕ → Attempt) (t : Files) (status : Status) :
    updateEachOn client cfg sources (ids ++ more) attempts t status =
      updateEachOn client cfg sources more (fun round => attempts (ids.length + round))
        (updateEachOn client cfg sources ids attempts t status).1
        (updateEachOn client cfg sources ids attempts t status).2 := by
  induction ids generalizing attempts t status with
  | nil => simp [updateEachOn]
  | cons id ids ih =>
    rw [List.cons_append, updateEachOn_cons, ih, ← updateEachOn_cons]
    congr 1
    funext round
    rw [List.length_cons, Nat.add_right_comm]

/-- The round of a source is between those of the others. -/
lemma updateEachOn_split (client : HTTPClient) (cfg : UpdaterConfig)
    (sources : String → Option HTTPSource)
    (ids more : List String) (id : String) (attempts : ℕ → Attempt) (t : Files)
    (status : Status) :
    ∃ t₁ status₁, updateEachOn client cfg sources ids attempts t status = (t₁, status₁) ∧
      updateEachOn client cfg sources (ids ++ id :: more) attempts t status =
        updateEachOn client cfg sources more (fun round => attempts (ids.length + (round + 1)))
          (roundOn client cfg sources id (attempts ids.length) t₁).1
          (status₁.setSource id (roundOn client cfg sources id (attempts ids.length) t₁).2) := by
  refine ⟨_, _, rfl, ?_⟩
  rw [updateEachOn_append, updateEachOn_cons]
  rfl

variable (t status attempts) in
/-- A file that no source is downloaded to keeps what it holds. -/
lemma content_updateEachOn (hrooted : (bytes cfg.cacheDir).head? = some separator)
    (hnamed : Named sources)
    (hpath : ∀ src, Addressed sources ids src → client.Takes src.url → filename src.url ≠ ".." →
      path ≠ destination cfg src) :
    (updateEachOn client cfg sources ids attempts t status).1.content path = t.content path := by
  induction ids generalizing attempts t status with
  | nil => rfl
  | cons id ids ih =>
    have hrest (src : HTTPSource) (hsrc : Addressed sources ids src) :
        Addressed sources (id :: ids) src :=
      ⟨List.mem_cons_of_mem _ hsrc.listed, hsrc.registered, hsrc.url⟩
    rw [updateEachOn_cons, ih _ _ _ fun src hsrc => hpath src (hrest src hsrc)]
    rcases hround : roundOn client cfg sources id (attempts 0) t with ⟨u, st⟩
    rcases roundOn_spec hrooted hnamed hround with
      ⟨-, hsame⟩ | ⟨src, hsrc, hurl, htakes, hup, -, hdone⟩
    · rw [hsame]
    · obtain rfl : src.id = id := hnamed id src hsrc
      have hne : path ≠ destination cfg src :=
        hpath src ⟨List.mem_cons_self, hsrc, hurl⟩ htakes hup
      rw [hdone]
      split_ifs
      · rfl
      · exact Function.update_of_ne hne _ _

lemma lookup_updateEachOn_of_notMem (h : id ∉ ids) :
    (updateEachOn client cfg sources ids attempts t status).2.sources.lookup id =
      status.sources.lookup id := by
  obtain ⟨replies, hreplies⟩ := exists_updateEachOn_eq client cfg sources ids attempts t status
  rw [hreplies, lookup_updateEach_of_notMem h]

variable (t status attempts) in
/-- What becomes of a source and its file when the other sources have other files. -/
lemma exists_lookup_updateEachOn (hrooted : (bytes cfg.cacheDir).head? = some separator)
    (hnamed : Named sources) (hid : id ∉ more)
    (hothers : ∀ src other, sources id = some src → src.url ≠ "" →
      Addressed sources ids other ∨ Addressed sources more other → client.Takes other.url →
      filename other.url ≠ ".." → destination cfg src ≠ destination cfg other) :
    ∃ st, (updateEachOn client cfg sources (ids ++ id :: more) attempts t
        status).2.sources.lookup id = some st ∧
      ((st.error ≠ "" ∧ ∀ src, sources id = some src → src.url ≠ "" →
          (updateEachOn client cfg sources (ids ++ id :: more) attempts t status).1.content
            (destination cfg src) = t.content (destination cfg src)) ∨
        ∃ src, sources id = some src ∧ src.url ≠ "" ∧ client.Takes src.url ∧ st.error = "" ∧
          (updateEachOn client cfg sources (ids ++ id :: more) attempts t status).1.content
            (destination cfg src) =
            if filename src.url = tempFilename (attempts ids.length).random then
              t.content (destination cfg src)
            else some (attempts ids.length).body) := by
  obtain ⟨t₁, status₁, hfirst, hwhole⟩ :=
    updateEachOn_split client cfg sources ids more id attempts t status
  rcases hround : roundOn client cfg sources id (attempts ids.length) t₁ with ⟨u, st⟩
  rw [hwhole, hround]
  -- the file is that of the rounds before up to this round, and stays so after it
  have hbefore (src : HTTPSource) (hsrc : sources id = some src) (hurl : src.url ≠ "") :
      t₁.content (destination cfg src) = t.content (destination cfg src) := by
    have hkeep := content_updateEachOn t status attempts hrooted hnamed
      fun other hother htakes hup => hothers src other hsrc hurl (.inl hother) htakes hup
    rwa [hfirst] at hkeep
  have hafter (src : HTTPSource) (hsrc : sources id = some src) (hurl : src.url ≠ "") :=
    content_updateEachOn u (status₁.setSource id st)
      (fun round => attempts (ids.length + (round + 1))) hrooted hnamed
      fun other hother htakes hup => hothers src other hsrc hurl (.inr hother) htakes hup
  refine ⟨st, ?_, ?_⟩
  · rw [lookup_updateEachOn_of_notMem hid]
    exact lookup_setSource_self _ _ _
  · rcases roundOn_spec hrooted hnamed hround with
      ⟨hne, hsame⟩ | ⟨src, hsrc, hurl, htakes, -, hok, hdone⟩
    · refine .inl ⟨hne, fun src hsrc hurl => ?_⟩
      rw [hafter src hsrc hurl, hsame, hbefore src hsrc hurl]
    · refine .inr ⟨src, hsrc, hurl, htakes, hok, ?_⟩
      rw [hafter src hsrc hurl, hdone]
      split_ifs
      · exact hbefore src hsrc hurl
      · exact Function.update_self _ _ _

end Round

/-! ## Intact files -/

/-- After a run, the file of each source holds its new body or what it did before, as the
entry of the source says, and nothing else has changed; in particular no temporary file is
left. -/
structure Intact (cfg : UpdaterConfig) (sources : String → Option HTTPSource)
    (attempts : ℕ → Attempt) (t u : Files) (status : Status) : Prop where
  entries : (status.sources.map Prod.fst).Perm cfg.sources
  outcome : ∀ round id, cfg.sources[round]? = some id →
    ∃ st, status.sources.lookup id = some st ∧
      (st.error = "" ∧ (∃ src, sources id = some src ∧ src.url ≠ "" ∧
          u.content (destination cfg src) = some (attempts round).body) ∨
        st.error ≠ "" ∧ ∀ src, sources id = some src → src.url ≠ "" →
          u.content (destination cfg src) = t.content (destination cfg src))
  others : ∀ path, (∀ src, Addressed sources cfg.sources src → path ≠ destination cfg src) →
    u.content path = t.content path

/-- The names of the files that are downloaded keep out of the way of the others and of the
temporary files. -/
structure ClearNames (client : HTTPClient) (cfg : UpdaterConfig)
    (sources : String → Option HTTPSource) : Prop where
  temp : ∀ src, Addressed sources cfg.sources src → client.Takes src.url → ∀ random,
    filename src.url ≠ tempFilename random
  above : ∀ src other, Addressed sources cfg.sources src → Addressed sources cfg.sources other →
    client.Takes other.url → filename src.url = ".." → filename other.url ≠ ".." →
      destination cfg src ≠ destination cfg other

/-- The files of the other sources are not the file of a source. -/
lemma ClearNames.destination_ne (hclear : ClearNames client cfg sources)
    (hrooted : (bytes cfg.cacheDir).head? = some separator)
    (hdirs : (cfg.sources.map (sourceDir cfg)).Nodup) {src other : HTTPSource}
    (hsrc : Addressed sources cfg.sources src) (hother : Addressed sources cfg.sources other)
    (htakes : client.Takes other.url) (hne : src.id ≠ other.id) (hup : filename other.url ≠ "..") :
    destination cfg src ≠ destination cfg other := by
  by_cases hsrcup : filename src.url = ".."
  · exact hclear.above src other hsrc hother htakes hsrcup hup
  · refine Signatures.destination_ne hrooted ?_ hsrcup hup
    exact fun heq => hne (List.inj_on_of_nodup_map hdirs hsrc.listed hother.listed heq)

/-- A list around the element at a position. -/
lemma exists_split {l : List String} {round : ℕ} {id : String} (h : l[round]? = some id) :
    ∃ before after, l = before ++ id :: after ∧ before.length = round := by
  obtain ⟨hround, rfl⟩ := List.getElem?_eq_some_iff.mp h
  refine ⟨l.take round, l.drop (round + 1), ?_, ?_⟩
  · rw [← List.drop_eq_getElem_cons hround, List.take_append_drop]
  · rw [List.length_take, min_eq_left hround.le]

lemma intact_of_clearNames (hrooted : (bytes cfg.cacheDir).head? = some separator)
    (hnamed : Named sources) (hdirs : (cfg.sources.map (sourceDir cfg)).Nodup)
    (hclear : ClearNames client cfg sources) (now nextRun : Time) (attempts : ℕ → Attempt)
    (t : Files) :
    Intact cfg sources attempts t
      (updateEachOn client cfg sources cfg.sources attempts t (newStatus cfg now nextRun)).1
      (updateEachOn client cfg sources cfg.sources attempts t (newStatus cfg now nextRun)).2 := by
  have hnodup : cfg.sources.Nodup := List.Nodup.of_map _ hdirs
  refine ⟨?_, ?_, ?_⟩
  · -- each source is reported once: the table has the listed ids, the last one first
    obtain ⟨replies, hreplies⟩ := exists_updateEachOn_eq client cfg sources cfg.sources attempts t
      (newStatus cfg now nextRun)
    rw [hreplies, map_fst_updateEach hnodup fun id _ => List.not_mem_nil]
    rw [newStatus, List.map_nil, List.append_nil]
    exact List.reverse_perm cfg.sources
  · intro round id hround
    obtain ⟨before, after, hsplit, rfl⟩ := exists_split hround
    have hnodup' := hsplit ▸ hnodup
    obtain ⟨hbefore, hcons, hbetween⟩ := List.nodup_append.mp hnodup'
    have hafter : id ∉ after := (List.nodup_cons.mp hcons).1
    -- the rounds before and after this one do not touch the file of its source
    have hothers (src other : HTTPSource) (hsrc : sources id = some src) (hurl : src.url ≠ "")
        (hother : Addressed sources before other ∨ Addressed sources after other)
        (htakes : client.Takes other.url) (hup : filename other.url ≠ "..") :
        destination cfg src ≠ destination cfg other := by
      obtain rfl := hnamed id src hsrc
      have hlisted : Addressed sources cfg.sources src := ⟨by simp [hsplit], hsrc, hurl⟩
      rcases hother with hother | hother
      · refine hclear.destination_ne hrooted hdirs hlisted
          ⟨by simp [hsplit, hother.listed], hother.registered, hother.url⟩ htakes ?_ hup
        exact (hbetween _ hother.listed _ List.mem_cons_self).symm
      · refine hclear.destination_ne hrooted hdirs hlisted
          ⟨by simp [hsplit, hother.listed], hother.registered, hother.url⟩ htakes ?_ hup
        exact fun heq => hafter (heq ▸ hother.listed)
    obtain ⟨st, hst, hcases⟩ := exists_lookup_updateEachOn t (newStatus cfg now nextRun)
      attempts hrooted hnamed hafter hothers
    rw [hsplit]
    refine ⟨st, hst, ?_⟩
    rcases hcases with ⟨hne, hsame⟩ | ⟨src, hsrc, hurl, htakes, hok, hdone⟩
    · exact .inr ⟨hne, hsame⟩
    · obtain rfl := hnamed id src hsrc
      rw [if_neg (hclear.temp src ⟨by simp [hsplit], hsrc, hurl⟩ htakes _)] at hdone
      exact .inl ⟨hok, src, hsrc, hurl, hdone⟩
  · intro path hpath
    exact content_updateEachOn _ _ _ hrooted hnamed fun src hsrc _ _ => hpath src hsrc

/-- Whatever happens in a run, it leaves the files intact. -/
def LeavesIntact (client : HTTPClient) (cfg : UpdaterConfig)
    (sources : String → Option HTTPSource) : Prop :=
  ∀ now nextRun imported attempts t, Intact cfg sources attempts t
    (runOnceOn client cfg sources now nextRun imported attempts t).1
    (runOnceOn client cfg sources now nextRun imported attempts t).2

/-! ## Runs in which one source is downloaded -/

section Only

variable {id : String} {a : Attempt} {t : Files} {status : Status} {ids more : List String}
  {attempts : ℕ → Attempt} {random : UInt32} {body : Bytes}

/-- An update that comes to nothing, as no directory can be made. -/
def idle : Attempt := ⟨{ Replies.fine with mkdirAll := some "permission denied" }, 0, 0, [], 0⟩

/-- An update that works out. -/
def downloaded (random : UInt32) (body : Bytes) : Attempt := ⟨.fine, 0, random, body, 0⟩

/-- A run in which only one round does not come to nothing. -/
def only (round : ℕ) (a : Attempt) : ℕ → Attempt := fun i => if i = round then a else idle

lemma roundOn_idle : (roundOn client cfg sources id idle t).1 = t := by
  rw [roundOn]
  cases sources id with
  | none => rfl
  | some src =>
    dsimp only
    rw [HTTPSource.updateOn]
    split_ifs <;> rfl

lemma updateEachOn_idle (h : ∀ round < ids.length, attempts round = idle) :
    (updateEachOn client cfg sources ids attempts t status).1 = t := by
  induction ids generalizing attempts t status with
  | nil => rfl
  | cons id ids ih =>
    have hfirst : attempts 0 = idle := h 0 (by simp)
    rw [updateEachOn_cons, hfirst, roundOn_idle]
    exact ih fun round hround => h (round + 1) (by simpa using hround)

lemma updateEachOn_only (client : HTTPClient) (cfg : UpdaterConfig)
    (sources : String → Option HTTPSource)
    (ids more : List String) (id : String) (a : Attempt) (t : Files) (status : Status)
    (hid : id ∉ more) :
    (updateEachOn client cfg sources (ids ++ id :: more) (only ids.length a) t status).1 =
        (roundOn client cfg sources id a t).1 ∧
      (updateEachOn client cfg sources (ids ++ id :: more) (only ids.length a) t
        status).2.sources.lookup id = some (roundOn client cfg sources id a t).2 := by
  obtain ⟨t₁, status₁, hfirst, hwhole⟩ :=
    updateEachOn_split client cfg sources ids more id (only ids.length a) t status
  have hbefore : (updateEachOn client cfg sources ids (only ids.length a) t status).1 = t :=
    updateEachOn_idle fun round hround => if_neg hround.ne
  rw [hfirst] at hbefore
  obtain rfl : t₁ = t := hbefore
  have hround : only ids.length a ids.length = a := if_pos rfl
  rw [hwhole, hround]
  refine ⟨updateEachOn_idle fun round _ => if_neg (by omega), ?_⟩
  rw [lookup_updateEachOn_of_notMem hid]
  exact lookup_setSource_self _ _ _

/-- The files before anything has been downloaded. -/
def noFiles : Files := .empty

/-- Where only a directory has been made, nothing is in it. -/
lemma node_makeDirs_concat (parts : List Bytes) (name : Bytes) :
    (noFiles.makeDirs parts.inits).node (parts ++ [name]) = none := by
  rcases FileTree.node_makeDirs noFiles parts.inits (parts ++ [name]) with hsame | ⟨hmem, -, -⟩
  · exact hsame.trans (if_neg (by simp))
  · have hlength := ((List.mem_inits _ _).mp hmem).length_le
    rw [List.length_append, List.length_singleton] at hlength
    omega

/-- Where nothing is, a download works out unless its name goes up. -/
lemma updateOn_downloaded {src : HTTPSource} (hurl : src.url ≠ "")
    (htakes : client.Takes src.url) {destDir : Bytes}
    {parts : List Bytes} {temp file : Bytes} (hdir : components destDir = parts)
    (htemp : components (tempName destDir random) = parts ++ [temp])
    (hfile : components (join [destDir, bytes (filename src.url)]) = parts ++ [file]) :
    (src.updateOn client destDir (downloaded random body) noFiles).2.2 = none := by
  -- the directory is made, and nothing is in it
  have hmade : (noFiles.makeDirs parts.inits).node parts = some .dir :=
    FileTree.node_makeDirs_inits FileTree.content_empty parts
  have hfresh := node_makeDirs_concat parts
  have hmkdir : mkdirAll destDir (downloaded random body) noFiles =
      (noFiles.makeDirs parts.inits, none) := by
    rw [mkdirAll, hdir]
    show (_, if _ then _ else _) = _
    rw [if_pos hmade]
  generalize noFiles.makeDirs parts.inits = t₁ at hmade hfresh hmkdir
  -- the temporary file is created, and then filled
  obtain ⟨t₂, ht₂⟩ : ∃ t₂, t₁.write (parts ++ [temp]) [] = some t₂ :=
    FileTree.exists_set ⟨by simp [hfresh], fun _ => by rwa [List.dropLast_concat]⟩
  have hcreate : createTemp destDir (downloaded random body) t₁ = (t₂, none) := by
    simp [createTemp, downloaded, Replies.fine, htemp, hfresh, ht₂]
  have htempty : t₂.content (parts ++ [temp]) = some [] := by
    rw [FileTree.content_of_write ht₂, Function.update_self]
  obtain ⟨t₃, ht₃⟩ : ∃ t₃, t₂.write (parts ++ [temp]) body = some t₃ :=
    FileTree.exists_write htempty body
  have hkeep : t₃.node parts = some .dir := FileTree.dir_of_set ht₃ (FileTree.dir_of_set ht₂ hmade)
  -- it is renamed, be it to its own name
  obtain ⟨t₄, ht₄⟩ : ∃ t₄, t₃.rename (parts ++ [temp]) (parts ++ [file]) = some t₄ := by
    refine FileTree.exists_rename (c := body) ?_ ?_ (by rwa [List.dropLast_concat])
    · rw [FileTree.content_of_write ht₃, Function.update_self]
    · rw [(FileTree.node_of_set ht₃).2, (FileTree.node_of_set ht₂).2, Function.update_idem]
      by_cases heq : parts ++ [file] = parts ++ [temp]
      · rw [heq, Function.update_self]
        exact fun h => by cases h
      · rw [Function.update_of_ne heq, hfresh]
        exact fun h => by cases h
  have hrequest : ((client.newRequest src.url).map ("build request: " ++ ·)).or
      ((downloaded random body).replies.download client src.url) = none := by
    simp [Replies.download, downloaded, Replies.fine, htakes.request, htakes.sent]
  have hfetch : fetch client src.url (tempName destDir random)
      (join [destDir, bytes (filename src.url)]) (downloaded random body) t₂ = (t₄, none) := by
    rw [fetch, hrequest, htemp, hfile]
    simp [downloaded, Replies.fine, ht₃, ht₄]
  rw [HTTPSource.updateOn, if_neg hurl, hmkdir]
  dsimp only
  rw [hcreate]
  dsimp only
  have hrandom : (downloaded random body).random = random := rfl
  rw [hrandom, hfetch]

/-- The file of such a download, unless it is removed as a temporary file. -/
lemma roundOn_downloaded (hrooted : (bytes cfg.cacheDir).head? = some separator)
    (hnamed : Named sources) {src : HTTPSource} (hsrc : sources src.id = some src)
    (hurl : src.url ≠ "") (htakes : client.Takes src.url) (hup : filename src.url ≠ "..")
    (random : UInt32) (body : Bytes) :
    (roundOn client cfg sources src.id (downloaded random body) noFiles).2.error = "" ∧
      (roundOn client cfg sources src.id (downloaded random body) noFiles).1.content
          (destination cfg src) =
        if filename src.url = tempFilename random then none else some body := by
  obtain ⟨parts, hparts, hdir⟩ := exists_sourceDir hrooted src.id
  have hdest := destination_eq hparts hdir
  rw [if_neg hup, destination] at hdest
  have htemp : components (tempName (sourceDir cfg src.id) random) =
      parts ++ [bytes (tempFilename random)] := by
    rw [tempName, hdir]
    exact components_join hparts (isName_tempFilename random).1 (isName_tempFilename random).2
  -- nothing fails, so that the case of `roundOn_spec` is the one without an error
  have hok :
      (src.updateOn client (sourceDir cfg src.id) (downloaded random body) noFiles).2.2 = none :=
    updateOn_downloaded hurl htakes (hdir ▸ components_fromRoot hparts) htemp hdest
  rcases hround : roundOn client cfg sources src.id (downloaded random body) noFiles with ⟨u, st⟩
  have hst : st.error = "" := by
    have hrun := hround
    rw [roundOn, hsrc] at hrun
    dsimp only at hrun
    rcases hupdate :
      src.updateOn client (sourceDir cfg src.id) (downloaded random body) noFiles with ⟨v, st', err⟩
    rw [hupdate] at hok
    obtain rfl : err = none := hok
    rw [← sourceDir, hupdate] at hrun
    obtain ⟨rfl, rfl⟩ := Prod.mk.inj hrun
    rcases updateOn_spec hurl hupdate with ⟨text, herr, -⟩ | ⟨-, -, hst, -⟩
    · cases herr
    · exact hst
  rcases roundOn_spec hrooted hnamed hround with ⟨hne, -⟩ | ⟨src', hsrc', -, -, -, -, hdone⟩
  · exact absurd hst hne
  · obtain rfl : src' = src := Option.some.inj (hsrc'.symm.trans hsrc)
    refine ⟨hst, ?_⟩
    have hcontent : u.content = if filename src'.url = tempFilename random then noFiles.content
        else Function.update noFiles.content (destination cfg src') (some body) := hdone
    rw [hcontent]
    split_ifs
    · exact FileTree.content_empty _
    · exact Function.update_self _ _ _

end Only

/-- What a run would have to leave of a file that the deferred removal takes away. -/
lemma ne_tempFilename_of_intact (hrooted : (bytes cfg.cacheDir).head? = some separator)
    (hnamed : Named sources) (hnodup : cfg.sources.Nodup)
    (hintact : ∀ attempts t, Intact cfg sources attempts t
      (updateEachOn client cfg sources cfg.sources attempts t (newStatus cfg 0 0)).1
      (updateEachOn client cfg sources cfg.sources attempts t (newStatus cfg 0 0)).2)
    {src : HTTPSource} (hsrc : Addressed sources cfg.sources src) (htakes : client.Takes src.url)
    (random : UInt32) :
    filename src.url ≠ tempFilename random := by
  intro heq
  have hup : filename src.url ≠ ".." := by
    rw [heq]
    exact fun h => (isName_tempFilename random).1.2.2 (congrArg bytes h)
  obtain ⟨round, hround⟩ := List.mem_iff_getElem?.mp hsrc.listed
  obtain ⟨before, after, hsplit, rfl⟩ := exists_split hround
  have hafter : src.id ∉ after :=
    (List.nodup_cons.mp (List.nodup_append.mp (hsplit ▸ hnodup)).2.1).1
  -- only this source is downloaded, and its temporary file has that name
  obtain ⟨hfiles, hentry⟩ := updateEachOn_only client cfg sources before after src.id
    (downloaded random []) noFiles (newStatus cfg 0 0) hafter
  obtain ⟨hok, hcontent⟩ :=
    roundOn_downloaded hrooted hnamed hsrc.registered hsrc.url htakes hup random []
  rw [← hsplit] at hfiles hentry
  rw [if_pos heq] at hcontent
  obtain ⟨st, hst, hcases⟩ :=
    (hintact (only before.length (downloaded random [])) noFiles).outcome _ _ hround
  obtain rfl := Option.some.inj (hst.symm.trans hentry)
  rcases hcases with ⟨-, src', hsrc', -, hbody⟩ | ⟨hne, -⟩
  · obtain rfl : src' = src := Option.some.inj (hsrc'.symm.trans hsrc.registered)
    rw [hfiles, hcontent] at hbody
    cases hbody
  · exact hne hok

/-- What a run would have to leave of a file that another source has replaced. -/
lemma destination_ne_of_intact (hrooted : (bytes cfg.cacheDir).head? = some separator)
    (hnamed : Named sources) (hnodup : cfg.sources.Nodup)
    (hintact : ∀ attempts t, Intact cfg sources attempts t
      (updateEachOn client cfg sources cfg.sources attempts t (newStatus cfg 0 0)).1
      (updateEachOn client cfg sources cfg.sources attempts t (newStatus cfg 0 0)).2)
    {src other : HTTPSource} (hsrc : Addressed sources cfg.sources src)
    (hother : Addressed sources cfg.sources other) (htakes : client.Takes other.url)
    (hup : filename src.url = "..")
    (hotherup : filename other.url ≠ "..") : destination cfg src ≠ destination cfg other := by
  intro hsame
  obtain ⟨round, hround⟩ := List.mem_iff_getElem?.mp hother.listed
  obtain ⟨before, after, hsplit, rfl⟩ := exists_split hround
  have hafter : other.id ∉ after :=
    (List.nodup_cons.mp (List.nodup_append.mp (hsplit ▸ hnodup)).2.1).1
  obtain ⟨hfiles, -⟩ := updateEachOn_only client cfg sources before after other.id
    (downloaded 0 [1]) noFiles (newStatus cfg 0 0) hafter
  obtain ⟨-, hcontent⟩ :=
    roundOn_downloaded hrooted hnamed hother.registered hother.url htakes hotherup 0 [1]
  rw [← hsplit] at hfiles
  rw [if_neg (ne_tempFilename_of_intact hrooted hnamed hnodup hintact hother htakes 0)] at hcontent
  -- the source whose name goes up has a round of its own, which comes to nothing
  obtain ⟨round, hsrcround⟩ := List.mem_iff_getElem?.mp hsrc.listed
  have hne : round ≠ before.length := by
    rintro rfl
    have hid : src.id = other.id := Option.some.inj (hsrcround.symm.trans hround)
    have hregistered := hsrc.registered
    rw [hid, hother.registered] at hregistered
    rw [Option.some.inj hregistered] at hotherup
    exact hotherup hup
  obtain ⟨st, -, hcases⟩ :=
    (hintact (only before.length (downloaded 0 [1])) noFiles).outcome _ _ hsrcround
  have hidle : only before.length (downloaded 0 [1]) round = idle := if_neg hne
  rcases hcases with ⟨-, src', hsrc', -, hbody⟩ | ⟨-, hkept⟩
  · obtain rfl : src' = src := Option.some.inj (hsrc'.symm.trans hsrc.registered)
    rw [hfiles, hsame, hcontent, hidle] at hbody
    cases hbody
  · have hcontent' := hkept src hsrc.registered hsrc.url
    rw [hfiles, hsame, hcontent, noFiles, FileTree.content_empty] at hcontent'
    cases hcontent'

/-- **Failed downloads leave the files intact** exactly when no file has a name that a
temporary file can get, and none whose name goes up is the file of another source. -/
theorem intact_iff (client : HTTPClient) {euid : ℕ} {c : Config} (h : c.validate euid = .ok ())
    (henabled : c.signatures.enabled = true) (hairgap : c.signatures.airgapImportPath = "")
    (overrides : List (String × String))
    (hdirs : (c.signatures.sources.map fun id =>
      join [bytes c.signatures.cacheDir, bytes id]).Nodup) :
    LeavesIntact client c.signatures.updaterConfig (builtInSources overrides) ↔
      ClearNames client c.signatures.updaterConfig (builtInSources overrides) := by
  have hrooted : (bytes c.signatures.updaterConfig.cacheDir).head? = some separator :=
    cacheDir_rooted h henabled
  have hnamed : Named (builtInSources overrides) := fun id src hsrc => id_of_builtInSources hsrc
  have hruns : ¬ c.signatures.updaterConfig.airgapImportPath ≠ "" := not_not.mpr hairgap
  generalize builtInSources overrides = sources at hnamed ⊢
  generalize hcfg : c.signatures.updaterConfig = cfg at hrooted hruns ⊢
  have hdirs : (cfg.sources.map (sourceDir cfg)).Nodup := by
    rw [← hcfg]
    exact hdirs
  have hnodup : cfg.sources.Nodup := List.Nodup.of_map _ hdirs
  simp only [LeavesIntact, runOnceOn, if_neg hruns]
  constructor
  · intro hintact
    have hintact' (attempts : ℕ → Attempt) (t : Files) := hintact 0 0 (noFiles, none) attempts t
    exact ⟨fun src hsrc => ne_tempFilename_of_intact hrooted hnamed hnodup hintact' hsrc,
      fun src other => destination_ne_of_intact hrooted hnamed hnodup hintact'⟩
  · intro hclear now nextRun imported attempts t
    exact intact_of_clearNames hrooted hnamed hdirs hclear now nextRun attempts t

def listsConfig : Config :=
  customConfig
    ⟨[("custom:kev", "https://kev.example/list"), ("custom:epss", "https://epss.example/list")],
      by decide⟩

/-- Two files of the same name, in different directories. -/
theorem leavesIntact_lists :
    LeavesIntact .any listsConfig.signatures.updaterConfig
      (builtInSources listsConfig.signatures.sourceURLs.entries) := by
  have hvalid : listsConfig.validate 0 = .ok () := by decide
  have hnames : ∀ id ∈ listsConfig.signatures.sources,
      ∀ src ∈ builtInSources listsConfig.signatures.sourceURLs.entries id,
        filename src.url = "list" := by
    decide +kernel
  refine (intact_iff .any hvalid rfl rfl _ (by decide +kernel)).mpr ⟨?_, ?_⟩
  · intro src hsrc _ random heq
    rw [hnames _ hsrc.listed src hsrc.registered] at heq
    have hhead : "list".toList.head? = some 'd' := by
      rw [heq, tempFilename, String.toList_append]
      rfl
    exact absurd hhead (by decide)
  · intro src other hsrc _ _ hup
    rw [hnames _ hsrc.listed src hsrc.registered] at hup
    exact absurd hup (by decide)

def numberedConfig : Config :=
  customConfig ⟨[("custom:feeds", "https://feeds.example/download-7")], by decide⟩

/-- A run in which the temporary file gets that name. -/
def numberedRun : Files × Status :=
  runOnceOn .any numberedConfig.signatures.updaterConfig
    (builtInSources numberedConfig.signatures.sourceURLs.entries) 0 0 (noFiles, none)
    (fun _ => downloaded 7 (bytes "feed")) noFiles

lemma numberedRun_error :
    (numberedRun.2.sources.lookup "custom:feeds").map SourceStatus.error = some "" := by
  decide +kernel

lemma numberedRun_content :
    numberedRun.1.content (destination numberedConfig.signatures.updaterConfig
      ⟨"custom:feeds", "https://feeds.example/download-7"⟩) = none := by
  decide +kernel

/-- The file is reported as downloaded and is gone. -/
theorem not_leavesIntact_numbered :
    numberedConfig.validate 0 = .ok () ∧ numberedConfig.signatures.enabled = true ∧
      numberedConfig.signatures.airgapImportPath = "" ∧
      (numberedConfig.signatures.sources.map fun id =>
        join [bytes numberedConfig.signatures.cacheDir, bytes id]).Nodup ∧
      ¬ LeavesIntact .any numberedConfig.signatures.updaterConfig
        (builtInSources numberedConfig.signatures.sourceURLs.entries) := by
  refine ⟨by decide, rfl, rfl, by decide +kernel, ?_⟩
  intro hintact
  have hrun : Intact _ _ _ noFiles numberedRun.1 numberedRun.2 :=
    hintact 0 0 (noFiles, none) (fun _ => downloaded 7 (bytes "feed")) noFiles
  obtain ⟨st, hst, hcases⟩ := hrun.outcome 0 "custom:feeds" rfl
  have herror := numberedRun_error
  rw [hst] at herror
  rcases hcases with ⟨-, src, hsrc, -, hbody⟩ | ⟨hne, -⟩
  · obtain rfl : _ = src := Option.some.inj hsrc
    rw [numberedRun_content] at hbody
    cases hbody
  · exact hne (Option.some.inj herror)

end Arcsent.Signatures
