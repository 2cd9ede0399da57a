/-
# The requests of `ctl` on their way

What a server reads of a request of the client: the client takes an address apart, refuses to
send what cannot be sent, and writes the path and the query as they are into the first line;
the server reads a path and the values of the query there.
-/
import Arcsent.Cmd.Ctl
import Arcsent.Go.Segments

namespace Arcsent.Cmd

open Arcsent.Go

/-! ## The way to the server -/

/-- The text that some bytes are, if they are one. -/
def text? (s : Bytes) : Option String := String.fromUTF8? ⟨s.toArray⟩

@[simp] lemma text?_bytes (s : String) : text? (bytes s) = some s := by
  have hbytes : (⟨(bytes s).toArray⟩ : ByteArray) = s.toByteArray := rfl
  rw [text?, hbytes, String.fromUTF8?, dif_pos s.isValidUTF8]
  rfl

lemma bytes_of_text? {s : String} {b : Bytes} (h : text? b = some s) : b = bytes s := by
  rw [text?, String.fromUTF8?] at h
  split_ifs at h with hvalid
  rw [← Option.some.inj h]
  rfl

/-- The header of a request as it arrives, as far as the server looks at it. -/
def headerOf (r : Request) : List (String × Bytes) :=
  ("Authorization", trimString (bytes r.authorization)) ::
    r.contentType.toList.map fun value => ("Content-Type", bytes value)

/-- What a server makes of the first line of a request and of its header.  Paths that are not
valid text are not covered. -/
def readRequest (r : Request) (v : Url.URL) (hroot : v.escapedPath.head? = some Url.slash) :
    Option Go.Request :=
  match hpath : text? v.path with
  | none => none
  | some path =>
    some
      { method := r.method
        path := path
        escapedPath := v.escapedPath
        header := headerOf r
        rawQuery := v.rawQuery
        decodes := (Url.unescape_escapedPath v).trans (congrArg some (bytes_of_text? hpath))
        rooted := .inr hroot }

/-- The host that a request is sent to, and what the server at that host reads: nothing, if
the client refuses to send it or the server cannot make out its first line. -/
def received (r : Request) : Option (Bytes × Go.Request) :=
  (Url.parse (bytes r.url)).bind fun u =>
    if Url.space ∈ u.requestURI ∨ validHeaderFieldValue (bytes r.authorization) = false then none
    else
      match hv : Url.parseRequestURI u.requestURI with
      | none => none
      | some v =>
        (readRequest r v (Url.head?_escapedPath_of_parse hv)).map fun req => (u.host, req)

/-! ## What comes through -/

/-- The path that a handler sees is the one of the address. -/
lemma bytes_path_eq {v : Url.URL} {req : Go.Request} (h : req.escapedPath = v.escapedPath) :
    bytes req.path = v.path := by
  have hdecoded := req.decodes
  rw [h, Url.unescape_escapedPath] at hdecoded
  exact (Option.some.inj hdecoded).symm

lemma readRequest_eq_some_iff {r : Request} {v : Url.URL}
    (hroot : v.escapedPath.head? = some Url.slash) {req : Go.Request} :
    readRequest r v hroot = some req ↔
      req.method = r.method ∧ req.escapedPath = v.escapedPath ∧ req.header = headerOf r ∧
        req.rawQuery = v.rawQuery := by
  constructor
  · intro h
    rw [readRequest] at h
    split at h
    · cases h
    · obtain rfl := Option.some.inj h
      exact ⟨rfl, rfl, rfl, rfl⟩
  · rintro ⟨hmethod, hescaped, hheader, hquery⟩
    have hpath : text? v.path = some req.path := by rw [← bytes_path_eq hescaped, text?_bytes]
    rw [readRequest]
    split
    · next hnone =>
      rw [hnone] at hpath
      cases hpath
    · exact congrArg some (Go.Request.eq_of hmethod.symm hescaped.symm hheader.symm hquery.symm)

lemma received_eq_some_iff {r : Request} {host : Bytes} {req : Go.Request} :
    received r = some (host, req) ↔
      ∃ u v, Url.parse (bytes r.url) = some u ∧ Url.space ∉ u.requestURI ∧
        validHeaderFieldValue (bytes r.authorization) = true ∧
        Url.parseRequestURI u.requestURI = some v ∧ u.host = host ∧ req.method = r.method ∧
        req.escapedPath = v.escapedPath ∧ req.header = headerOf r ∧ req.rawQuery = v.rawQuery := by
  rw [received, Option.bind_eq_some_iff]
  refine exists_congr fun u => ?_
  constructor
  · rintro ⟨hparse, h⟩
    split_ifs at h with hrefused
    obtain ⟨hspace, hvalid⟩ := not_or.mp hrefused
    split at h
    · cases h
    · next v hv =>
      obtain ⟨req', hread, heq⟩ := Option.map_eq_some_iff.mp h
      obtain ⟨rfl, rfl⟩ := Prod.mk.inj heq
      exact ⟨v, hparse, hspace, by simpa using hvalid, hv, rfl,
        (readRequest_eq_some_iff _).mp hread⟩
  · rintro ⟨v, hparse, hspace, hvalid, hv, rfl, hreq⟩
    refine ⟨hparse, ?_⟩
    rw [if_neg (by simp [hspace, hvalid])]
    split
    · next hnone =>
      rw [hnone] at hv
      cases hv
    · next v' hv' =>
      obtain rfl := Option.some.inj (hv'.symm.trans hv)
      rw [(readRequest_eq_some_iff _).mpr hreq, Option.map_some]

/-- A part of an address that stands for itself. -/
def PlainPath (s : String) : Prop :=
  ∀ b ∈ bytes s, b ≠ Url.percent ∧ b ≠ Url.questionMark ∧ b ≠ Url.hash ∧ Url.isCTL b = false

/-- A value in a query that stands for itself. -/
def PlainValue (s : String) : Prop :=
  ∀ b ∈ bytes s, b ∉ [Url.percent, Url.hash, Url.space, 0x26, 0x2B, 0x3B] ∧ Url.isCTL b = false

/-- A request that has arrived with a path and a query that stand for themselves. -/
structure Arrived (r : Request) (place : String) (values : List (Bytes × Bytes))
    (req : Go.Request) : Prop where
  method : req.method = r.method
  path : req.path = place
  encoded : req.escapedPath = bytes place ∨ req.escapedPath = Url.escape (bytes place)
  header : req.header = headerOf r
  query : req.query = values

section Received

variable {r : Request} {u : Url.URL} {path value host token method : String}
  {contentType : Option String} {query : List (Bytes × Bytes)}

/-- What arrives, once the address has been taken apart. -/
lemma received_of_parse (h : Url.parse (bytes r.url) = some u) (hspace : Url.space ∉ u.rawQuery)
    (hpath : u.path = bytes path) (hne : u.path ≠ [])
    (hencoded : u.escapedPath = bytes path ∨ u.escapedPath = Url.escape (bytes path))
    (hquery : Url.queryPairs u.rawQuery = query)
    (htoken : validHeaderFieldValue (bytes r.authorization) = true) :
    ∃ req, received r = some (u.host, req) ∧ Arrived r path query req := by
  obtain ⟨v, hv, hvquery, hvpath, hvescaped⟩ := Url.parseRequestURI_requestURI h
  rw [if_neg (Url.URL.escapedPath_ne_nil hne)] at hvescaped
  let req : Go.Request :=
    { method := r.method
      path := path
      escapedPath := v.escapedPath
      header := headerOf r
      rawQuery := v.rawQuery
      decodes := by rw [hvescaped, Url.unescape_escapedPath, hpath]
      rooted := .inr (Url.head?_escapedPath_of_parse hv) }
  refine ⟨req, ?_, rfl, rfl, ?_, rfl, ?_⟩
  · exact received_eq_some_iff.mpr ⟨u, v, h, Url.space_notMem_requestURI hspace, htoken, hv, rfl,
      rfl, rfl, rfl, rfl⟩
  · show v.escapedPath = _ ∨ v.escapedPath = _
    rwa [hvescaped]
  · show Url.queryPairs v.rawQuery = query
    rw [hvquery, hquery]

lemma PlainPath.append {s t : String} (hs : PlainPath s) (ht : PlainPath t) :
    PlainPath (s ++ t) := by
  intro b hb
  rw [bytes_append] at hb
  exact (List.mem_append.mp hb).elim (hs b) (ht b)

/-- A plain path and a query, taken apart. -/
lemma parse_plain {query : Bytes} (hhost : Url.plainHost (bytes host) = true)
    (hroot : (bytes path).head? = some Url.slash) (hpath : PlainPath path)
    (hquery : ∀ b ∈ query, b ≠ Url.hash ∧ Url.isCTL b = false)
    (hmark : (Url.cut Url.questionMark query).1 = []) :
    ∃ u : Url.URL, Url.parse (bytes ("http://" ++ host) ++ (bytes path ++ query)) = some u ∧
      u.host = bytes host ∧ u.path = bytes path ∧
      (u.escapedPath = bytes path ∨ u.escapedPath = Url.escape (bytes path)) ∧
      u.rawQuery = (Url.cut Url.questionMark query).2 := by
  have hnohash : Url.hash ∉ bytes path ++ query := fun hmem =>
    (List.mem_append.mp hmem).elim (fun h => (hpath _ h).2.2.1 rfl) fun h => (hquery _ h).1 rfl
  have hnoctl : (bytes path ++ query).any Url.isCTL = false := by
    rw [List.any_eq_false]
    intro b hb
    have hb : Url.isCTL b = false :=
      (List.mem_append.mp hb).elim (fun h => (hpath b h).2.2.2) fun h => (hquery b h).2
    rw [hb]
    exact Bool.false_ne_true
  have hrest : (bytes path ++ query).head? = some Url.slash := by
    rw [List.head?_append, hroot, Option.some_or]
  have hnomark : Url.questionMark ∉ bytes path := fun h => (hpath _ h).2.1 rfl
  have hdecoded : Url.unescape .path (bytes path) = some (bytes path) :=
    Url.unescape_path_eq_self_iff.mpr fun h => (hpath _ h).1 rfl
  have hcut : Url.cut Url.questionMark (bytes path ++ query) =
      (bytes path, (Url.cut Url.questionMark query).2) := by
    rw [Url.cut_append_left hnomark, hmark, List.append_nil]
  have hsent : ¬ ((bytes path ++ query).any Url.isCTL = true ∨
      Url.unescape .fragment [] = none) := by
    rw [hnoctl]
    simp [Url.unescape]
  have hscheme : bytes ("http://" ++ host) = Url.scheme ++ bytes host := bytes_append _ _
  rw [hscheme, Url.parse_append hhost hrest, Url.cut_of_notMem hnohash, if_neg hsent]
  simp only [Url.cutQuery, hcut]
  generalize hparts : (⟨bytes host, [], [], _, _⟩ : Url.URL) = parts
  obtain ⟨u, hu⟩ : ∃ u, parts.setPath (bytes path) = some u :=
    ⟨_, congrArg (Option.map _) hdecoded⟩
  obtain ⟨hpath, hrest⟩ := Url.setPath_eq_some_iff.mp hu
  have hsame : u.path = bytes path := Option.some.inj (hpath.symm.trans hdecoded)
  have hencoded := Url.escapedPath_of_setPath hu
  rw [hsame] at hencoded
  refine ⟨u, hu, ?_, hsame, hencoded, ?_⟩
  · rw [hrest, ← hparts]
  · rw [hrest, ← hparts]

lemma ne_nil_of_root (hroot : (bytes path).head? = some Url.slash) : bytes path ≠ [] := by
  intro hnil
  rw [hnil] at hroot
  cases hroot

/-- A path without a query arrives. -/
lemma received_path (hhost : Url.plainHost (bytes host) = true)
    (hroot : (bytes path).head? = some Url.slash) (hpath : PlainPath path)
    (htoken : validHeaderFieldValue (bytes token) = true) :
    let r : Request := ⟨method, "http://" ++ host ++ path, token, contentType⟩
    ∃ req, received r = some (bytes host, req) ∧ Arrived r path [] req := by
  have hnone : ∀ b ∈ ([] : Bytes), b ≠ Url.hash ∧ Url.isCTL b = false := by simp
  obtain ⟨u, hparse, hu, hupath, huescaped, huquery⟩ := parse_plain hhost hroot hpath hnone rfl
  rw [List.append_nil, ← bytes_append] at hparse
  have hne : u.path ≠ [] := hupath ▸ ne_nil_of_root hroot
  rw [← hu]
  refine received_of_parse hparse ?_ hupath hne huescaped ?_ htoken
  · rw [huquery]
    exact List.not_mem_nil
  · rw [huquery]
    rfl

/-- The one pair of a query. -/
lemma queryPairs_format (hvalue : PlainValue value) :
    Url.queryPairs (bytes "format=" ++ bytes value) = [(bytes "format", bytes value)] := by
  have hkey : ∀ b ∈ bytes "format=", b ∉ [0x26, 0x3B] := by decide +kernel
  -- nothing in the value ends the pair or is decoded
  have hclean : ∀ b ∈ bytes "format=" ++ bytes value, b ∉ [0x26, 0x3B] := by
    intro b hb
    rcases List.mem_append.mp hb with hb | hb
    · exact hkey b hb
    · have hspecial := (hvalue b hb).1
      simp only [List.mem_cons, not_or] at hspecial
      simp [hspecial.2.2.2.1, hspecial.2.2.2.2.2.1]
  have hamp : 0x26 ∉ bytes "format=" ++ bytes value := fun h => hclean _ h (by decide)
  have hsemi : 0x3B ∉ bytes "format=" ++ bytes value := fun h => hclean _ h (by decide)
  have hne : bytes "format=" ++ bytes value ≠ [] := by
    intro hnil
    exact absurd (List.append_eq_nil_iff.mp hnil).1 (by decide)
  have hcut : Url.cut 0x3D (bytes "format=" ++ bytes value) = (bytes "format", bytes value) := by
    have hkey : bytes "format=" = bytes "format" ++ [0x3D] := by decide
    have hname : 0x3D ∉ bytes "format" := by decide
    rw [hkey, List.append_assoc, List.singleton_append, Url.cut_append hname]
  have hname : Url.unescape .queryComponent (bytes "format") = some (bytes "format") := by
    decide
  have hself : Url.unescape .queryComponent (bytes value) = some (bytes value) := by
    refine Url.unescape_of_notMem (.inr fun h => ?_) fun h => ?_
    · exact (hvalue _ h).1 (by decide)
    · exact (hvalue _ h).1 (by decide)
  rw [Url.queryPairs, List.splitOn_eq_singleton hamp, List.filterMap_cons,
    if_neg (not_or.mpr ⟨hsemi, hne⟩), hcut]
  dsimp only
  rw [hname, hself]
  rfl

/-- A path with a format arrives with that format. -/
lemma received_format (hhost : Url.plainHost (bytes host) = true)
    (hroot : (bytes path).head? = some Url.slash) (hpath : PlainPath path)
    (hvalue : PlainValue value) (htoken : validHeaderFieldValue (bytes token) = true) :
    let r : Request :=
      ⟨method, "http://" ++ host ++ (path ++ ("?format=" ++ value)), token, contentType⟩
    ∃ req, received r = some (bytes host, req) ∧
      Arrived r path [(bytes "format", bytes value)] req := by
  have hquestion : bytes ("?format=" ++ value) =
      [] ++ Url.questionMark :: (bytes "format=" ++ bytes value) := by
    have hkey : bytes "?format=" = Url.questionMark :: bytes "format=" := by decide
    rw [bytes_append, hkey, List.cons_append, List.nil_append]
  have hcut : Url.cut Url.questionMark (bytes ("?format=" ++ value)) =
      ([], bytes "format=" ++ bytes value) := by
    rw [hquestion, Url.cut_append List.not_mem_nil]
  have hquery : ∀ b ∈ bytes ("?format=" ++ value), b ≠ Url.hash ∧ Url.isCTL b = false := by
    have hkey : ∀ b ∈ bytes "?format=", b ≠ Url.hash ∧ Url.isCTL b = false := by
      decide +kernel
    intro b hb
    rw [bytes_append] at hb
    rcases List.mem_append.mp hb with hb | hb
    · exact hkey b hb
    · refine ⟨fun hhash => (hvalue b hb).1 ?_, (hvalue b hb).2⟩
      rw [hhash]
      decide
  obtain ⟨u, hparse, hu, hupath, huescaped, huquery⟩ :=
    parse_plain hhost hroot hpath hquery (congrArg Prod.fst hcut)
  rw [hcut] at huquery
  rw [← bytes_append, ← bytes_append] at hparse
  have hne : u.path ≠ [] := hupath ▸ ne_nil_of_root hroot
  rw [← hu]
  refine received_of_parse hparse ?_ hupath hne huescaped ?_ htoken
  · rw [huquery]
    intro hmem
    rcases List.mem_append.mp hmem with hkey | hmem
    · exact absurd hkey (by decide)
    · exact (hvalue _ hmem).1 (by decide)
  · rw [huquery, queryPairs_format hvalue]

end Received

end Arcsent.Cmd
