/-
# Downloads and the files of the cache

An update writes a temporary file and renames it when everything has worked out.  Here its
calls act on a tree of files: each can fail as the world has it, and some fail because of
the files there are.  The removal of the temporary file is deferred, so it comes last on
every way out once the file is made, the successful one included.
-/
import Arcsent.Lib.FileTree
import Arcsent.Signatures.SourceTable

namespace Arcsent.Signatures

open Arcsent.Go Arcsent.Go.Filepath Arcsent.Lib

/-- The directories and files, by the components of their paths. -/
abbrev Files := FileTree Bytes Bytes

/-- What the world has in store for an update. -/
structure Attempt where
  /-- The answers to its calls, unless the files say otherwise. -/
  replies : Replies
  /-- How many directories of the path are made when making them fails. -/
  made : ℕ
  /-- The number in the name of the temporary file. -/
  random : UInt32
  /-- The body of the response, and how much of it is copied when copying fails. -/
  body : Bytes
  copied : ℕ

/-- The text of a `PathError`. -/
def pathError (op : String) (path : Bytes) (err : String) : String :=
  op ++ " " ++ text path ++ ": " ++ err

/-- The function `os.MkdirAll`. -/
def mkdirAll (destDir : Bytes) (a : Attempt) (t : Files) : Files × Option String :=
  match a.replies.mkdirAll with
  | some err => (t.makeDirs ((components destDir).inits.take a.made), some err)
  | none =>
    let t := t.makeDirs (components destDir).inits
    (t, if t.node (components destDir) = some .dir then none
      else some (pathError "mkdir" destDir "not a directory"))

/-- The name of the temporary file, `download-*` with a number for the star. -/
def tempName (destDir : Bytes) (random : UInt32) : Bytes :=
  join [destDir, bytes ("download-" ++ toString random.toNat)]

/-- The function `os.CreateTemp`, which makes a file where nothing is. -/
def createTemp (destDir : Bytes) (a : Attempt) (t : Files) : Files × Option String :=
  let tmp := tempName destDir a.random
  match a.replies.createTemp with
  | some err => (t, some err)
  | none =>
    if t.node (components tmp) = none then
      match t.write (components tmp) [] with
      | none => (t, some (pathError "open" tmp "no such file or directory"))
      | some t => (t, none)
    else (t, some (pathError "createtemp" tmp "file exists"))

variable (client : HTTPClient)

/-- The method `Update` from the request to the rename. -/
def fetch (url : String) (tmp dest : Bytes) (a : Attempt) (t : Files) : Files × Option String :=
  match ((client.newRequest url).map ("build request: " ++ ·)).or
      (a.replies.download client url) with
  | some err => (t, some err)
  | none =>
    match a.replies.copy with
    | some err =>
      ((t.write (components tmp) (a.body.take a.copied)).getD t, some ("write download: " ++ err))
    | none =>
      let t := (t.write (components tmp) a.body).getD t
      match a.replies.close with
      | some err => (t, some ("close temp file: " ++ err))
      | none =>
        match a.replies.rename with
        | some err => (t, some ("rename download: " ++ err))
        | none =>
          match t.rename (components tmp) (components dest) with
          | none =>
            (t, some ("rename download: " ++
              pathError ("rename " ++ text tmp) dest "file exists"))
          | some t => (t, none)

/-- The method `Update` on the files. -/
def HTTPSource.updateOn (src : HTTPSource) (destDir : Bytes) (a : Attempt) (t : Files) :
    Files × SourceStatus × Option String :=
  let status : SourceStatus := ⟨src.id, src.url, "", 0, 0, "", ""⟩
  if src.url = "" then (t, status, some ("no URL configured for source " ++ src.id))
  else
    match mkdirAll destDir a t with
    | (t, some err) => (t, status, some ("create dest dir: " ++ err))
    | (t, none) =>
      let dest := join [destDir, bytes (filename src.url)]
      match createTemp destDir a t with
      | (t, some err) => (t, status, some ("create temp file: " ++ err))
      | (t, none) =>
        let tmp := tempName destDir a.random
        match fetch client src.url tmp dest a t with
        -- the deferred call of `os.Remove` in both cases
        | (t, some err) => (t.unlink (components tmp), status, some err)
        | (t, none) =>
          (t.unlink (components tmp), { status with
            path := text dest
            bytes := a.replies.written
            updatedAt := a.replies.updatedAt
            duration := durationString (a.replies.done - a.replies.start) }, none)

/-- A round of the loop of `runOnce`. -/
def roundOn (cfg : UpdaterConfig) (sources : String → Option HTTPSource) (id : String)
    (a : Attempt) (t : Files) : Files × SourceStatus :=
  match sources id with
  | none => (t, ⟨id, "", "", 0, 0, "", "source not registered"⟩)
  | some src =>
    match src.updateOn client (join [bytes cfg.cacheDir, bytes id]) a t with
    | (t, st, none) => (t, st)
    | (t, st, some err) => (t, { st with error := err })

/-- The loop of `runOnce` over the sources, on the files. -/
def updateEachOn (cfg : UpdaterConfig) (sources : String → Option HTTPSource) :
    List String → (ℕ → Attempt) → Files → Status → Files × Status
  | [], _, t, status => (t, status)
  | id :: ids, attempts, t, status =>
    let (t, st) := roundOn client cfg sources id (attempts 0) t
    updateEachOn cfg sources ids (fun round => attempts (round + 1)) t (status.setSource id st)

/-- The function `runOnce` on the files, given the end of an import. -/
def runOnceOn (cfg : UpdaterConfig) (sources : String → Option HTTPSource) (now nextRun : Time)
    (imported : Files × Option String) (attempts : ℕ → Attempt) (t : Files) : Files × Status :=
  let status := newStatus cfg now nextRun
  if cfg.airgapImportPath ≠ "" then
    (imported.1, status.setSource "airgap" (importStatus cfg now imported.2))
  else updateEachOn client cfg sources cfg.sources attempts t status

/-! ## One update -/

section Update

variable {client : HTTPClient} {src : HTTPSource} {destDir tmp dest : Bytes} {a : Attempt}
  {t u : Files}
  {st : SourceStatus} {err : Option String} {path : List Bytes}

lemma mkdirAll_spec (h : mkdirAll destDir a t = (u, err)) :
    u.content = t.content ∧ (err = none → u.node (components destDir) = some .dir) := by
  rw [mkdirAll] at h
  split at h
  · obtain ⟨rfl, rfl⟩ := Prod.mk.inj h
    exact ⟨FileTree.content_makeDirs _ _, fun herr => by cases herr⟩
  · obtain ⟨rfl, rfl⟩ := Prod.mk.inj h
    refine ⟨FileTree.content_makeDirs _ _, fun herr => ?_⟩
    by_contra hdir
    rw [if_neg hdir] at herr
    cases herr

/-- The temporary file is made where nothing was, or nothing changes. -/
lemma createTemp_spec (h : createTemp destDir a t = (u, err)) :
    (∃ text, err = some text ∧ u = t) ∨
      err = none ∧ t.node (components (tempName destDir a.random)) = none ∧
        t.write (components (tempName destDir a.random)) [] = some u := by
  rw [createTemp] at h
  split at h
  · obtain ⟨rfl, rfl⟩ := Prod.mk.inj h
    exact .inl ⟨_, rfl, rfl⟩
  · split_ifs at h with hnone
    · split at h
      · obtain ⟨rfl, rfl⟩ := Prod.mk.inj h
        exact .inl ⟨_, rfl, rfl⟩
      · next hwrite =>
        obtain ⟨rfl, rfl⟩ := Prod.mk.inj h
        exact .inr ⟨rfl, hnone, hwrite⟩
    · obtain ⟨rfl, rfl⟩ := Prod.mk.inj h
      exact .inl ⟨_, rfl, rfl⟩

lemma append_ne_empty {s : String} (h : s.toList ≠ []) (t : String) : s ++ t ≠ "" := by
  intro heq
  have hempty := congrArg String.toList heq
  rw [String.toList_append] at hempty
  exact h (List.append_eq_nil_iff.mp hempty).1

lemma request_ne_empty {r : Replies} {url text : String}
    (h : ((client.newRequest url).map ("build request: " ++ ·)).or (r.download client url) =
      some text) : text ≠ "" := by
  rcases Option.or_eq_some_iff.mp h with hrequest | ⟨-, hdownload⟩
  · obtain ⟨err, -, rfl⟩ := Option.map_eq_some_iff.mp hrequest
    exact append_ne_empty (by decide) err
  · rcases Option.or_eq_some_iff.mp hdownload with hget | ⟨-, hstatus⟩
    · obtain ⟨err, -, rfl⟩ := Option.map_eq_some_iff.mp hget
      exact append_ne_empty (by decide) err
    · split_ifs at hstatus
      rw [← Option.some.inj hstatus]
      exact append_ne_empty (by decide) _

/-- What is asked for and answered is an address that the client takes. -/
lemma takes_of_request {r : Replies} {url : String}
    (h : ((client.newRequest url).map ("build request: " ++ ·)).or (r.download client url) = none) :
    client.Takes url := by
  simp only [Replies.download, Option.or_eq_none_iff, Option.map_eq_none_iff] at h
  obtain ⟨hrequest, ⟨hsent, -⟩, -⟩ := h
  exact ⟨hrequest, hsent⟩

/-- A download fails with the temporary file as it was or with something in it, or it has
written the body and renamed it. -/
lemma fetch_cases {url : String} {old : Bytes} (htmp : t.content (components tmp) = some old)
    (h : fetch client url tmp dest a t = (u, err)) :
    (∃ text, err = some text ∧ text ≠ "" ∧ (u = t ∨ ∃ c, t.write (components tmp) c = some u)) ∨
      err = none ∧ client.Takes url ∧ ∃ v, t.write (components tmp) a.body = some v ∧
        v.rename (components tmp) (components dest) = some u := by
  rw [fetch] at h
  split at h
  · next text herr =>
    obtain ⟨rfl, rfl⟩ := Prod.mk.inj h
    exact .inl ⟨text, rfl, request_ne_empty herr, .inl rfl⟩
  next hrequest =>
  have htakes : client.Takes url := takes_of_request hrequest
  split at h
  · next text herr =>
    obtain ⟨rfl, rfl⟩ := Prod.mk.inj h
    obtain ⟨v, hv⟩ := FileTree.exists_write htmp (a.body.take a.copied)
    rw [hv, Option.getD_some]
    exact .inl ⟨_, rfl, append_ne_empty (by decide) text, .inr ⟨_, hv⟩⟩
  -- the whole body is in the temporary file
  obtain ⟨v, hv⟩ := FileTree.exists_write htmp a.body
  rw [hv, Option.getD_some] at h
  dsimp only at h
  split at h
  · next text herr =>
    obtain ⟨rfl, rfl⟩ := Prod.mk.inj h
    exact .inl ⟨_, rfl, append_ne_empty (by decide) text, .inr ⟨_, hv⟩⟩
  split at h
  · next text herr =>
    obtain ⟨rfl, rfl⟩ := Prod.mk.inj h
    exact .inl ⟨_, rfl, append_ne_empty (by decide) text, .inr ⟨_, hv⟩⟩
  split at h
  · obtain ⟨rfl, rfl⟩ := Prod.mk.inj h
    exact .inl ⟨_, rfl, append_ne_empty (by decide) _, .inr ⟨_, hv⟩⟩
  · next hrename =>
    obtain ⟨rfl, rfl⟩ := Prod.mk.inj h
    exact .inr ⟨rfl, htakes, v, hv, hrename⟩

/-- Besides the temporary file, a download that works out has written its own file, which is
no directory, and one that does not has changed nothing. -/
lemma fetch_spec {url : String} {old : Bytes} (htmp : t.content (components tmp) = some old)
    (h : fetch client url tmp dest a t = (u, err)) :
    (∃ text, err = some text ∧ text ≠ "" ∧
        ∀ path ≠ components tmp, u.content path = t.content path) ∨
      err = none ∧ client.Takes url ∧
        (∃ v : Files, (∀ path, t.node path = some .dir → v.node path = some .dir) ∧
          v.node (components dest) ≠ some .dir) ∧
        ∀ path ≠ components tmp,
          u.content path = Function.update t.content (components dest) (some a.body) path := by
  rcases fetch_cases htmp h with ⟨text, rfl, hne, rfl | ⟨c, hc⟩⟩ | ⟨rfl, htakes, v, hv, hrename⟩
  · exact .inl ⟨text, rfl, hne, fun _ _ => rfl⟩
  · refine .inl ⟨text, rfl, hne, fun path hpath => ?_⟩
    rw [FileTree.content_of_write hc, Function.update_of_ne hpath]
  · refine .inr ⟨rfl, htakes, ⟨v, fun path hdir => FileTree.dir_of_set hv hdir,
      FileTree.notDir_of_rename hrename⟩, ?_⟩
    -- the temporary file has the whole body when it is renamed
    have hcontent := FileTree.content_of_write hv
    obtain ⟨c, hc, hrenamed⟩ := FileTree.content_of_rename hrename
    obtain rfl : a.body = c := by
      rw [hcontent, Function.update_self] at hc
      exact Option.some.inj hc
    intro path hpath
    rw [hrenamed]
    split_ifs with hsame
    · rw [hcontent, ← hsame, Function.update_of_ne hpath]
    · rw [Function.update_of_ne hpath, hcontent, Function.update_comm hsame,
        Function.update_of_ne hpath]

/-- An update fails before there is a temporary file, or it goes on to the download and
removes that file in the end. -/
lemma updateOn_cases (hurl : src.url ≠ "") (h : src.updateOn client destDir a t = (u, st, err)) :
    (∃ text, err = some text ∧ text ≠ "" ∧ u.content = t.content) ∨
      st.error = "" ∧ ∃ t₁ t₂ t₃, mkdirAll destDir a t = (t₁, none) ∧
        createTemp destDir a t₁ = (t₂, none) ∧
        fetch client src.url (tempName destDir a.random)
          (join [destDir, bytes (filename src.url)]) a t₂ = (t₃, err) ∧
        u = t₃.unlink (components (tempName destDir a.random)) := by
  rw [HTTPSource.updateOn, if_neg hurl] at h
  rcases hmkdir : mkdirAll destDir a t with ⟨t₁, err₁⟩
  have hcontent := (mkdirAll_spec hmkdir).1
  rw [hmkdir] at h
  cases err₁ with
  | some text =>
    simp only [Prod.mk.injEq] at h
    obtain ⟨rfl, rfl, rfl⟩ := h
    exact .inl ⟨_, rfl, append_ne_empty (by decide) text, hcontent⟩
  | none =>
    rcases htemp : createTemp destDir a t₁ with ⟨t₂, err₂⟩
    dsimp only at h
    rw [htemp] at h
    rcases createTemp_spec htemp with ⟨text, rfl, rfl⟩ | ⟨rfl, -, -⟩
    · simp only [Prod.mk.injEq] at h
      obtain ⟨rfl, rfl, rfl⟩ := h
      exact .inl ⟨_, rfl, append_ne_empty (by decide) text, hcontent⟩
    · -- from here on the temporary file is there, and is removed at the end
      rcases hfetch : fetch client src.url (tempName destDir a.random)
        (join [destDir, bytes (filename src.url)]) a t₂ with ⟨t₃, err₃⟩
      dsimp only at h
      rw [hfetch] at h
      cases err₃ with
      | some text =>
        simp only [Prod.mk.injEq] at h
        obtain ⟨rfl, rfl, rfl⟩ := h
        exact .inr ⟨rfl, t₁, t₂, t₃, rfl, htemp, hfetch, rfl⟩
      | none =>
        simp only [Prod.mk.injEq] at h
        obtain ⟨rfl, rfl, rfl⟩ := h
        exact .inr ⟨rfl, t₁, t₂, t₃, rfl, htemp, hfetch, rfl⟩

/-- An update that works out has written its own file, unless that is what it removes at the
end; one that does not has changed nothing. -/
lemma updateOn_spec (hurl : src.url ≠ "") (h : src.updateOn client destDir a t = (u, st, err)) :
    (∃ text, err = some text ∧ text ≠ "" ∧ u.content = t.content) ∨
      err = none ∧ client.Takes src.url ∧ st.error = "" ∧
        (∃ v : Files, v.node (components destDir) = some .dir ∧
          v.node (components (join [destDir, bytes (filename src.url)])) ≠ some .dir) ∧
        u.content =
          if components (tempName destDir a.random) =
              components (join [destDir, bytes (filename src.url)]) then t.content
          else Function.update t.content (components (join [destDir, bytes (filename src.url)]))
            (some a.body) := by
  rcases updateOn_cases hurl h with hfailed | ⟨hok, t₁, t₂, t₃, hmkdir, htemp, hfetch, rfl⟩
  · exact .inl hfailed
  obtain ⟨hcontent₁, hdir⟩ := mkdirAll_spec hmkdir
  obtain ⟨text, herr, -⟩ | ⟨-, hnone, hwrite⟩ := createTemp_spec htemp
  · cases herr
  generalize tempName destDir a.random = tmp at hnone hwrite hfetch ⊢
  generalize join [destDir, bytes (filename src.url)] = dest at hfetch ⊢
  have hcontent₂ : t₂.content = Function.update t.content (components tmp) (some []) :=
    hcontent₁ ▸ FileTree.content_of_write hwrite
  have hempty : t.content (components tmp) = none := by
    rw [← hcontent₁, FileTree.content, hnone]
    rfl
  have hthere : t₂.content (components tmp) = some [] := by
    rw [hcontent₂, Function.update_self]
  -- in both cases the temporary file is removed, which was not there before
  rcases fetch_spec hthere hfetch with ⟨text, rfl, hne, hsame⟩ |
      ⟨rfl, htakes, ⟨v, hv, hfile⟩, hdone⟩
  · refine .inl ⟨text, rfl, hne, FileTree.content_unlink_eq hempty fun path hpath => ?_⟩
    rw [hsame path hpath, hcontent₂, Function.update_of_ne hpath]
  · refine .inr ⟨rfl, htakes, hok, ⟨v, hv _ (FileTree.dir_of_set hwrite (hdir rfl)), hfile⟩, ?_⟩
    split_ifs with heq
    · refine FileTree.content_unlink_eq hempty fun path hpath => ?_
      rw [hdone path hpath, hcontent₂, ← heq, Function.update_of_ne hpath,
        Function.update_of_ne hpath]
    · refine FileTree.content_unlink_eq ?_ fun path hpath => ?_
      · rw [Function.update_of_ne heq, hempty]
      · rw [hdone path hpath, hcontent₂, Function.update_comm heq, Function.update_of_ne hpath]

end Update

/-! ## The same status -/

/-- The answer to the rename is all that the files have a say in. -/
lemma exists_fetch_eq {tmp dest : Bytes} {a : Attempt} {t u : Files} {err : Option String}
    {client : HTTPClient} {url : String} (h : fetch client url tmp dest a t = (u, err)) :
    ∃ rename : Option String, err = (untilError
      [(.newRequest url, (client.newRequest url).map ("build request: " ++ ·)),
        (.get url, a.replies.download client url),
        (.copy, a.replies.copy.map ("write download: " ++ ·)),
        (.close, a.replies.close.map ("close temp file: " ++ ·)),
        (.rename dest, rename.map ("rename download: " ++ ·))]).2 := by
  rw [fetch] at h
  cases hrequest : client.newRequest url with
  | some text =>
    rw [hrequest] at h
    exact ⟨none, (congrArg Prod.snd h).symm⟩
  | none =>
    rw [hrequest, Option.map_none, Option.none_or] at h
    cases hdownload : a.replies.download client url with
    | some text =>
      rw [hdownload] at h
      exact ⟨none, (congrArg Prod.snd h).symm⟩
    | none =>
      rw [hdownload] at h
      dsimp only at h
      cases hcopy : a.replies.copy with
      | some text =>
        rw [hcopy] at h
        exact ⟨none, (congrArg Prod.snd h).symm⟩
      | none =>
        rw [hcopy] at h
        dsimp only at h
        cases hclose : a.replies.close with
        | some text =>
          rw [hclose] at h
          exact ⟨none, (congrArg Prod.snd h).symm⟩
        | none =>
          rw [hclose] at h
          dsimp only at h
          cases hrename : a.replies.rename with
          | some text =>
            rw [hrename] at h
            exact ⟨some text, (congrArg Prod.snd h).symm⟩
          | none =>
            rw [hrename] at h
            dsimp only at h
            split at h
            · exact ⟨some _, (congrArg Prod.snd h).symm⟩
            · exact ⟨none, (congrArg Prod.snd h).symm⟩

/-- What an update returns is what it returns for some answers to its calls. -/
lemma exists_updateOn_eq (client : HTTPClient) (src : HTTPSource) (destDir : Bytes) (a : Attempt)
    (t : Files) :
    ∃ r, (src.updateOn client destDir a t).2 = (src.update client destDir r).2 := by
  -- an error of the disk is given to the other model as the reply of its call
  rw [HTTPSource.updateOn]
  by_cases hurl : src.url = ""
  · refine ⟨a.replies, ?_⟩
    rw [HTTPSource.update, if_pos hurl, if_pos hurl]
  · rw [if_neg hurl]
    rcases mkdirAll destDir a t with ⟨t₁, err₁⟩
    cases err₁ with
    | some text =>
      refine ⟨{ a.replies with mkdirAll := some text }, ?_⟩
      rw [HTTPSource.update, if_neg hurl]
      rfl
    | none =>
      dsimp only
      rcases createTemp destDir a t₁ with ⟨t₂, err₂⟩
      cases err₂ with
      | some text =>
        refine ⟨{ a.replies with mkdirAll := none, createTemp := some text }, ?_⟩
        rw [HTTPSource.update, if_neg hurl]
        rfl
      | none =>
        dsimp only
        rcases hfetch : fetch client src.url (tempName destDir a.random)
          (join [destDir, bytes (filename src.url)]) a t₂ with ⟨t₃, err₃⟩
        obtain ⟨rename, hrename⟩ := exists_fetch_eq hfetch
        refine ⟨{ a.replies with mkdirAll := none, createTemp := none, rename := rename }, ?_⟩
        rw [HTTPSource.update, if_neg hurl]
        dsimp only [Option.map_none]
        rw [untilError, untilError]
        simp only [Replies.download] at hrename ⊢
        rw [← hrename]
        cases err₃ <;> rfl

/-- A round puts into the status what it does for some answers. -/
lemma exists_roundOn_eq (client : HTTPClient) (cfg : UpdaterConfig)
    (sources : String → Option HTTPSource) (id : String) (a : Attempt) (t : Files) :
    ∃ r, (roundOn client cfg sources id a t).2 = roundEntry client cfg sources id r := by
  rw [roundOn]
  cases hsrc : sources id with
  | none => exact ⟨a.replies, by rw [roundEntry, hsrc]⟩
  | some src =>
    obtain ⟨r, hr⟩ := exists_updateOn_eq client src (join [bytes cfg.cacheDir, bytes id]) a t
    refine ⟨r, ?_⟩
    rw [roundEntry, hsrc]
    dsimp only
    rcases hupdate : src.update client (join [bytes cfg.cacheDir, bytes id]) r with ⟨ops, st, err⟩
    rcases hon : src.updateOn client (join [bytes cfg.cacheDir, bytes id]) a t with ⟨u, st', err'⟩
    rw [hupdate, hon] at hr
    obtain ⟨rfl, rfl⟩ := Prod.mk.inj hr
    cases err' <;> rfl

lemma updateEachOn_cons (client : HTTPClient) (cfg : UpdaterConfig)
    (sources : String → Option HTTPSource) (id : String)
    (ids : List String) (attempts : ℕ → Attempt) (t : Files) (status : Status) :
    updateEachOn client cfg sources (id :: ids) attempts t status =
      updateEachOn client cfg sources ids (fun round => attempts (round + 1))
        (roundOn client cfg sources id (attempts 0) t).1
        (status.setSource id (roundOn client cfg sources id (attempts 0) t).2) := rfl

lemma exists_updateEachOn_eq (client : HTTPClient) (cfg : UpdaterConfig)
    (sources : String → Option HTTPSource)
    (ids : List String) (attempts : ℕ → Attempt) (t : Files) (status : Status) :
    ∃ replies, (updateEachOn client cfg sources ids attempts t status).2 =
      (updateEach client cfg sources ids replies status).2 := by
  induction ids generalizing attempts t status with
  | nil => exact ⟨fun _ => .fine, rfl⟩
  | cons id ids ih =>
    obtain ⟨r, hr⟩ := exists_roundOn_eq client cfg sources id (attempts 0) t
    obtain ⟨replies, hreplies⟩ := ih (fun round => attempts (round + 1))
      (roundOn client cfg sources id (attempts 0) t).1
      (status.setSource id (roundEntry client cfg sources id r))
    refine ⟨fun round => Nat.casesOn round r replies, ?_⟩
    rw [updateEachOn_cons, updateEach_cons, hr]
    exact hreplies

/-- **A run on the files has the status of a run** of the updater with some answers. -/
theorem exists_runOnceOn_eq (client : HTTPClient) (cfg : UpdaterConfig)
    (sources : String → Option HTTPSource)
    (now nextRun : Time) (imported : Files × Option String) (attempts : ℕ → Attempt) (t : Files) :
    ∃ replies, (runOnceOn client cfg sources now nextRun imported attempts t).2 =
      (runOnce client cfg sources now nextRun imported.2 replies).2 := by
  rw [runOnceOn]
  by_cases hairgap : cfg.airgapImportPath = ""
  · rw [if_neg (not_not.mpr hairgap)]
    obtain ⟨replies, hreplies⟩ :=
      exists_updateEachOn_eq client cfg sources cfg.sources attempts t (newStatus cfg now nextRun)
    refine ⟨replies, ?_⟩
    rw [runOnce, if_neg (not_not.mpr hairgap)]
    exact hreplies
  · refine ⟨fun _ => .fine, ?_⟩
    rw [runOnce, if_pos hairgap, if_pos hairgap]

end Arcsent.Signatures
