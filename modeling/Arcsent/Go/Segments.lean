/-
# The segments of an encoded path

A path is cut at its slashes first and decoded afterwards, so that an encoded slash belongs
to a segment.  The decoded path is made up of the decoded segments all the same.
-/
import Arcsent.Go.CleanPath

namespace Arcsent.Go

open Arcsent.Lib Url
open Filepath (separator dot)

variable {c p rest : Bytes} {parts : List Bytes}

/-! ## One segment -/

lemma pathUnescape_of_notMem (h : percent ∉ c) : pathUnescape c = c := by
  rw [pathUnescape, unescape_path_eq_self_iff.mpr h, Option.getD_some]

lemma pathUnescape_escape (c : Bytes) : pathUnescape (escape c) = c := by
  rw [pathUnescape, unescape_escape, Option.getD_some]

lemma escape_injective : Function.Injective escape := fun s t h => by
  rw [← pathUnescape_escape s, h, pathUnescape_escape]

/-- What is decoded to a name has been one. -/
lemma isName_of_pathUnescape (h : IsName dot (pathUnescape c)) : IsName dot c := by
  refine ⟨?_, ?_, ?_⟩
  · rintro rfl
    exact absurd h (by decide)
  · rintro rfl
    exact absurd h (by decide)
  · rintro rfl
    exact absurd h (by decide)

lemma isName_escape : IsName dot (escape c) ↔ IsName dot c := by
  have hself : ∀ s ∈ ([[], [dot], [dot, dot]] : List Bytes), escape s = s := by decide
  have hiff {s : Bytes} (hs : s ∈ ([[], [dot], [dot, dot]] : List Bytes)) :
      escape c = s ↔ c = s := by
    conv_lhs => rw [← hself s hs]
    exact escape_injective.eq_iff
  rw [IsName, IsName, Ne, Ne, Ne, hiff (by simp), hiff (by simp), hiff (by simp)]

lemma separator_notMem_escape (h : separator ∉ c) : separator ∉ escape c := by
  have hdigits : ∀ n < 16, upperHex n ≠ separator := by decide
  intro hmem
  obtain ⟨b, hb, hbyte⟩ := List.mem_flatMap.mp hmem
  split_ifs at hbyte with hescaped
  · have hlt := b.toNat_lt
    simp only [List.mem_cons, List.not_mem_nil, or_false] at hbyte
    rcases hbyte with hpercent | hhi | hlo
    · exact absurd hpercent (by decide)
    · exact hdigits _ (by omega) hhi.symm
    · exact hdigits _ (by omega) hlo.symm
  · exact h (List.mem_singleton.mp hbyte ▸ hb)

/-! ## The segments of a path -/

@[simp] lemma segments_cons (b : UInt8) (rest : Bytes) :
    segments (b :: rest) = (rest.splitOn separator).map pathUnescape := rfl

/-- A path with a slash at the end has an empty segment more. -/
lemma segments_concat (b : UInt8) (rest : Bytes) :
    segments (b :: rest ++ [separator]) = segments (b :: rest) ++ [[]] := by
  rw [List.cons_append, segments_cons, segments_cons, List.splitOn_append_cons_self,
    List.map_append]
  rfl

/-- A path below a directory has the name of the directory as its first segment. -/
lemma segments_append {dir : Bytes} (hsep : separator ∉ dir) (hpercent : percent ∉ dir)
    (b b' : UInt8) (rest : Bytes) :
    segments (b :: (dir ++ separator :: rest)) = dir :: segments (b' :: rest) := by
  rw [segments_cons, segments_cons, List.splitOn_append_cons_self_of_not_mem hsep, List.map_cons,
    pathUnescape_of_notMem hpercent]

lemma length_splitOn (rest : Bytes) :
    (rest.splitOn separator).length = rest.count separator + 1 := by
  induction rest with
  | nil => rfl
  | cons b rest ih =>
    rw [List.splitOn_cons_eq_if_modifyHead, List.count_cons]
    split_ifs
    · rw [List.length_cons, ih]
    · rw [List.length_modifyHead, ih]

/-- A path from the root has as many segments as slashes. -/
lemma length_segments (rest : Bytes) :
    (segments (separator :: rest)).length = (separator :: rest).count separator := by
  rw [segments_cons, List.length_map, length_splitOn, List.count_cons_self]

/-- **The decoded path is made up of the decoded segments.** -/
theorem fromRoot_segments (h : unescape .path (separator :: rest) = some p) :
    fromRoot separator (segments (separator :: rest)) = p := by
  have hslash : unescape .path (separator :: rest) =
      (unescape .path rest).map (separator :: ·) := unescape_append_slash [] rest
  -- decoding does not move the slashes, so that it can be done part by part
  suffices hmain : ∀ parts : List Bytes, parts ≠ [] → ∀ q,
      unescape .path ([separator].intercalate parts) = some q →
      [separator].intercalate (parts.map pathUnescape) = q by
    rw [hslash] at h
    obtain ⟨q, hq, rfl⟩ := Option.map_eq_some_iff.mp h
    have hsplit : [separator].intercalate (rest.splitOn separator) = rest :=
      List.intercalate_splitOn separator
    rw [← hsplit] at hq
    rw [segments_cons, fromRoot, hmain _ (List.splitOn_ne_nil separator rest) q hq]
  intro parts
  induction parts with
  | nil => exact fun hne => absurd rfl hne
  | cons c parts ih =>
    intro _ q hq
    by_cases hparts : parts = []
    · rw [hparts, List.intercalate_singleton] at hq
      rw [hparts, List.map_singleton, List.intercalate_singleton, pathUnescape, hq]
      rfl
    · rw [List.intercalate_cons_of_ne_nil hparts, List.append_assoc, List.singleton_append] at hq
      obtain ⟨first, hfirst, hrest⟩ :=
        Option.bind_eq_some_iff.mp ((unescape_append_slash c _).symm.trans hq)
      obtain ⟨others, hothers, rfl⟩ := Option.map_eq_some_iff.mp hrest
      rw [List.map_cons, List.intercalate_cons_of_ne_nil (by simpa using hparts),
        ih hparts others hothers, pathUnescape, hfirst, Option.getD_some, List.append_assoc]
      rfl

/-- A path with nothing encoded in it has its components as its segments. -/
lemma segments_of_notMem (h : percent ∉ rest) (b : UInt8) :
    segments (b :: rest) = rest.splitOn separator := by
  have hself : ∀ c ∈ rest.splitOn separator, pathUnescape c = c := fun c hc =>
    pathUnescape_of_notMem fun hmem => h (mem_of_mem_splitOn hc _ hmem)
  rw [segments_cons, List.map_congr_left hself, List.map_id']

/-- The components of an encoded path, each encoded. -/
lemma splitOn_escape (s : Bytes) :
    (escape s).splitOn separator = (s.splitOn separator).map escape := by
  have hslash : escape [separator] = [separator] := by decide
  have hjoin : ∀ parts : List Bytes, escape ([separator].intercalate parts) =
      [separator].intercalate (parts.map escape) := by
    intro parts
    induction parts with
    | nil => rfl
    | cons c parts ih =>
      by_cases hparts : parts = []
      · rw [hparts, List.map_singleton, List.intercalate_singleton, List.intercalate_singleton]
      · rw [List.map_cons, List.intercalate_cons_of_ne_nil hparts,
          List.intercalate_cons_of_ne_nil (by simpa using hparts), ← ih, escape,
          List.flatMap_append, List.flatMap_append, ← escape, ← escape, ← escape, hslash]
  have hsplit : [separator].intercalate (s.splitOn separator) = s :=
    List.intercalate_splitOn separator
  conv_lhs => rw [← hsplit, hjoin]
  refine List.splitOn_intercalate separator (fun d hd => ?_) ?_
  · obtain ⟨c, hc, rfl⟩ := List.mem_map.mp hd
    exact separator_notMem_escape (sep_notMem_of_mem_splitOn hc)
  · simp [List.splitOn_ne_nil]

lemma segments_escape (b : UInt8) (s : Bytes) :
    segments (b :: escape s) = s.splitOn separator := by
  rw [segments_cons, splitOn_escape, List.map_map]
  exact (List.map_congr_left fun c _ => pathUnescape_escape c).trans (List.map_id' _)

lemma cleanComponents_escape :
    CleanComponents (parts.map escape) ↔ CleanComponents parts := by
  have hnil (c : Bytes) : escape c = [] ↔ c = [] := by
    conv_lhs => rw [show ([] : Bytes) = escape [] from rfl]
    exact escape_injective.eq_iff
  constructor
  · rintro ⟨init, last, heq, hinit, hlast⟩
    obtain ⟨init', rest', rfl, rfl, hrest⟩ := List.map_eq_append_iff.mp heq
    obtain ⟨last', rfl, rfl⟩ := List.map_eq_singleton_iff.mp hrest
    exact ⟨init', last', rfl, fun c hc => isName_escape.mp (hinit _ (List.mem_map_of_mem hc)),
      hlast.imp (hnil last').mp isName_escape.mp⟩
  · rintro ⟨init, last, rfl, hinit, hlast⟩
    refine ⟨init.map escape, escape last, by simp, fun c hc => ?_,
      hlast.imp (hnil last).mpr isName_escape.mpr⟩
    obtain ⟨d, hd, rfl⟩ := List.mem_map.mp hc
    exact isName_escape.mpr (hinit d hd)

/-- A path without a percent sign, whether it is encoded or not: its segments are its
components, and it is clean if these are. -/
lemma segments_plain {path encoded : Bytes} (h : percent ∉ rest) (hpath : path = separator :: rest)
    (hencoded : encoded = path ∨ encoded = escape path) :
    segments encoded = rest.splitOn separator ∧
      (cleanPath encoded = encoded ↔ CleanComponents (rest.splitOn separator)) := by
  have hescape : escape path = separator :: escape rest := by
    rw [hpath]
    rfl
  rcases hencoded with rfl | rfl
  · rw [hpath]
    exact ⟨segments_of_notMem h _, cleanPath_eq_self_iff rest⟩
  · rw [hescape]
    refine ⟨segments_escape _ rest, ?_⟩
    rw [cleanPath_eq_self_iff, splitOn_escape, cleanComponents_escape]

/-! ## Requests -/

/-- A request is determined by what it has of its address. -/
lemma Request.eq_of {req req' : Request} (hmethod : req.method = req'.method)
    (hpath : req.escapedPath = req'.escapedPath) (hheader : req.header = req'.header)
    (hquery : req.rawQuery = req'.rawQuery) : req = req' := by
  have hdecoded : req.path = req'.path := by
    have hpaths := req.decodes.symm.trans (hpath ▸ req'.decodes)
    exact bytes_inj.mp (Option.some.inj hpaths)
  obtain ⟨_, _, _, _, _, _, _⟩ := req
  obtain ⟨_, _, _, _, _, _, _⟩ := req'
  congr

/-- A request whose path has segments has a path from the root. -/
lemma Request.head?_of_segments {req : Request} (h : segments req.escapedPath ≠ []) :
    req.escapedPath.head? = some separator := by
  refine req.rooted.resolve_left fun hempty => h ?_
  have hdecoded := req.decodes
  rw [hempty] at hdecoded
  rw [unescape_eq_nil hdecoded]
  rfl

lemma Request.fromRoot_segments (req : Request) (h : req.escapedPath.head? = some separator) :
    fromRoot separator (segments req.escapedPath) = bytes req.path := by
  obtain ⟨rest, hrest⟩ := List.head?_eq_some_iff.mp h
  have hdecoded := req.decodes
  rw [hrest] at hdecoded ⊢
  exact Go.fromRoot_segments hdecoded

lemma exists_of_prefix {s t : String} (h : s.toList <+: t.toList) : ∃ suffix, t = s ++ suffix := by
  obtain ⟨suffix, hsuffix⟩ := h
  refine ⟨String.ofList suffix, ?_⟩
  rw [← String.toList_inj, String.toList_append, String.toList_ofList, hsuffix]

/-- A path with the segments of a directory has further segments behind that directory. -/
lemma Request.bytes_path (req : Request) {dir : String} {more : List Bytes}
    (hdir : bytes dir = fromRoot separator parts ++ [separator] ∧ parts ≠ []) (hne : more ≠ [])
    (h : segments req.escapedPath = parts ++ more) :
    bytes req.path = bytes dir ++ [separator].intercalate more := by
  have hsegments : segments req.escapedPath ≠ [] := by
    rw [h]
    exact List.append_ne_nil_of_left_ne_nil hdir.2 more
  have hpath := req.fromRoot_segments (req.head?_of_segments hsegments)
  rw [h, fromRoot_append hdir.2 hne] at hpath
  rw [← hpath, hdir.1, List.append_assoc]
  rfl

/-- It begins with that directory. -/
lemma Request.exists_of_prefix (req : Request) {dir : String}
    (hascii : (dir.toList.all fun c => c.toNat < 128) = true)
    (hdir : bytes dir = fromRoot separator parts ++ [separator] ∧ parts ≠ [])
    (h : parts <+: segments req.escapedPath)
    (hlength : parts.length < (segments req.escapedPath).length) :
    ∃ name, req.path = dir ++ name := by
  obtain ⟨more, hmore⟩ := h
  have hne : more ≠ [] := by
    rintro rfl
    rw [← hmore, List.append_nil] at hlength
    exact lt_irrefl _ hlength
  have hbytes := req.bytes_path hdir hne hmore.symm
  rw [Filepath.bytes_eq_flatMap, Filepath.bytes_eq_flatMap] at hbytes
  exact Go.exists_of_prefix (prefix_of_bytes hascii hbytes)

/-- Segments that make up one name are that name. -/
lemma intercalate_eq_iff {more : List Bytes} {name : Bytes} (hsep : separator ∉ name)
    (hne : more ≠ []) : [separator].intercalate more = name ↔ more = [name] := by
  constructor
  · intro h
    rcases more with _ | ⟨c, _ | ⟨d, more⟩⟩
    · exact absurd rfl hne
    · rw [List.intercalate_singleton] at h
      rw [h]
    · rw [List.intercalate_cons_cons] at h
      rw [← h] at hsep
      simp at hsep
  · rintro rfl
    exact List.intercalate_singleton

end Arcsent.Go
