/-
# Addresses on their way to a server

What `net/http` does with the address of a request: `net/url` takes it apart, the path is
written into the first line of the request, and the server reads it there.  Only addresses of
the form `http://host:port/path?query#fragment` are covered, with a host that is a name or a
number.  On the way the path is decoded, written in an encoded form and decoded once more; it
comes out as it was after the first time.
-/
import Mathlib.Data.List.TakeWhile
import Arcsent.Go.Filepath

namespace Arcsent.Go.Url

/-! ## The encoding of single bytes -/

def percent : UInt8 := 0x25
def slash : UInt8 := 0x2F
def questionMark : UInt8 := 0x3F
def hash : UInt8 := 0x23
def space : UInt8 := 0x20

/-- What an encoded text stands for; a plus sign is a space in a query only. -/
inductive Encoding where
  | path
  | queryComponent
  | fragment
deriving DecidableEq

/-- The functions `ishex` and `unhex`. -/
def unhex (c : UInt8) : Option ℕ :=
  if 0x30 ≤ c ∧ c ≤ 0x39 then some (c.toNat - 0x30)
  else if 0x61 ≤ c ∧ c ≤ 0x66 then some (c.toNat - 0x61 + 10)
  else if 0x41 ≤ c ∧ c ≤ 0x46 then some (c.toNat - 0x41 + 10)
  else none

/-- A digit of the constant `upperhex`. -/
def upperHex (n : ℕ) : UInt8 := UInt8.ofNat (if n < 10 then 0x30 + n else 0x41 + (n - 10))

lemma unhex_upperHex {n : ℕ} (h : n < 16) : unhex (upperHex n) = some n := by
  have hdigits : ∀ n < 16, unhex (upperHex n) = some n := by decide
  exact hdigits n h

/-- The function `unescape`. -/
def unescape (mode : Encoding) : Bytes → Option Bytes
  | [] => some []
  | c :: rest =>
    if c = percent then
      match rest with
      | hi :: lo :: rest =>
        match unhex hi, unhex lo with
        | some h, some l => (unescape mode rest).map (UInt8.ofNat (16 * h + l) :: ·)
        | _, _ => none
      | _ => none
    else
      (unescape mode rest).map
        ((if mode = .queryComponent ∧ c = 0x2B then space else c) :: ·)

def isAlphanumeric (c : UInt8) : Bool :=
  (0x61 ≤ c && c ≤ 0x7A) || (0x41 ≤ c && c ≤ 0x5A) || (0x30 ≤ c && c ≤ 0x39)

/-- The function `shouldEscape` for the bytes of a path. -/
def shouldEscape (c : UInt8) : Bool :=
  !(isAlphanumeric c || (bytes "-_.~").contains c || (bytes "$&+,/:;=@").contains c)

/-- The function `escape` for a path. -/
def escape (s : Bytes) : Bytes :=
  s.flatMap fun c =>
    if shouldEscape c then [percent, upperHex (c.toNat / 16), upperHex (c.toNat % 16)] else [c]

/-- A byte that may stand in an encoded path. -/
def validByte (c : UInt8) : Bool :=
  (bytes "!$&'()*+,;=:@[]%").contains c || !shouldEscape c

/-- The function `validEncoded` for a path. -/
def validEncoded (s : Bytes) : Bool := s.all validByte

/-! ## Addresses -/

/-- The parts of a `URL` that are used. -/
structure URL where
  host : Bytes
  path : Bytes
  rawPath : Bytes
  forceQuery : Bool
  rawQuery : Bytes

/-- The function `strings.Cut` at a single byte. -/
def cut (sep : UInt8) (s : Bytes) : Bytes × Bytes :=
  (s.takeWhile (· ≠ sep), (s.dropWhile (· ≠ sep)).drop 1)

/-- The bytes that `stringContainsCTLByte` looks for. -/
def isCTL (c : UInt8) : Bool := c < space || c = 0x7F

/-- The method `setPath`. -/
def URL.setPath (u : URL) (p : Bytes) : Option URL :=
  (unescape .path p).map fun path =>
    { u with path := path, rawPath := if p = escape path then [] else p }

/-- The method `EscapedPath`. -/
def URL.escapedPath (u : URL) : Bytes :=
  if u.rawPath ≠ [] ∧ validEncoded u.rawPath ∧ unescape .path u.rawPath = some u.path then
    u.rawPath
  else if u.path = bytes "*" then bytes "%2A"
  else escape u.path

/-- The method `RequestURI`. -/
def URL.requestURI (u : URL) : Bytes :=
  (if u.escapedPath = [] then [slash] else u.escapedPath) ++
    if u.forceQuery ∨ u.rawQuery ≠ [] then questionMark :: u.rawQuery else []

/-- The part of an address before its query, with the query. -/
def cutQuery (s : Bytes) (host : Bytes) : Bytes × URL :=
  let (rest, query) := cut questionMark s
  (rest, ⟨host, [], [], questionMark ∈ s ∧ query = [], query⟩)

/-- The hosts that are covered. -/
def plainHost (authority : Bytes) : Bool :=
  let (name, port) := cut 0x3A authority
  name ≠ [] && name.all (fun c => isAlphanumeric c || c = 0x2D || c = 0x2E) &&
    port.all (fun c => 0x30 ≤ c && c ≤ 0x39) && (0x3A ∉ authority || port ≠ [])

def scheme : Bytes := bytes "http://"

/-- The function `Parse` for the addresses that are covered. -/
def parse (rawURL : Bytes) : Option URL :=
  let (address, fragment) := cut hash rawURL
  if address.any isCTL ∨ unescape .fragment fragment = none ∨ ¬ scheme <+: address then none
  else
    let authority := (address.drop scheme.length).takeWhile fun c => c ≠ slash ∧ c ≠ questionMark
    if !plainHost authority then none
    else
      let (path, u) := cutQuery (address.drop (scheme.length + authority.length)) authority
      u.setPath path

/-- The function `ParseRequestURI` for what stands in the first line of a request. -/
def parseRequestURI (uri : Bytes) : Option URL :=
  if uri.any isCTL ∨ uri.head? ≠ some slash then none
  else
    let (path, u) := cutQuery uri []
    u.setPath path

/-- The pairs of a query, as the method `Query` finds them; those that are malformed are passed
over. -/
def queryPairs (query : Bytes) : List (Bytes × Bytes) :=
  (query.splitOn 0x26).filterMap fun piece =>
    if 0x3B ∈ piece ∨ piece = [] then none
    else
      let (key, value) := cut 0x3D piece
      match unescape .queryComponent key, unescape .queryComponent value with
      | some key, some value => some (key, value)
      | _, _ => none

/-! ## Texts in ASCII -/

/-- A text that begins with the bytes of a text in ASCII begins with that text. -/
lemma prefix_of_bytes {s t : List Char} {rest : Bytes}
    (hascii : (t.all fun c => c.toNat < 128) = true)
    (h : s.flatMap String.utf8EncodeChar = t.flatMap String.utf8EncodeChar ++ rest) :
    t <+: s := by
  induction t generalizing s with
  | nil => exact List.nil_prefix
  | cons c t ih =>
    simp only [List.all_cons, Bool.and_eq_true, decide_eq_true_eq] at hascii
    obtain ⟨hc, htail⟩ := hascii
    have hbyte : String.utf8EncodeChar c = [UInt8.ofNat c.toNat] := by
      unfold String.utf8EncodeChar
      extract_lets v
      have hv : v = c.toNat := rfl
      rw [if_pos (by omega), hv]
    cases s with
    | nil =>
      rw [List.flatMap_cons, hbyte] at h
      cases h
    | cons d s =>
      have hsmall : (UInt8.ofNat c.toNat).toNat = c.toNat := by
        rw [UInt8.toNat_ofNat']
        omega
      -- a character with a byte below 128 in its encoding is that byte
      have hsame : d = c := by
        cases hd : String.utf8EncodeChar d with
        | nil => exact absurd hd String.utf8EncodeChar_ne_nil
        | cons b bs =>
          rw [List.flatMap_cons, List.flatMap_cons, hbyte, hd] at h
          have hb : b = UInt8.ofNat c.toNat := (List.cons.inj h).1
          have hmem : UInt8.ofNat c.toNat ∈ String.utf8EncodeChar d := by
            rw [hd, hb]
            exact List.mem_cons_self
          have htoNat := Filepath.toNat_of_mem_utf8EncodeChar (hsmall.trans_lt hc) hmem
          exact Char.toNat_inj.mp (htoNat.trans hsmall)
      subst hsame
      rw [List.flatMap_cons, List.flatMap_cons, List.append_assoc] at h
      exact List.cons_prefix_cons.mpr
        ⟨rfl, ih htail (List.append_cancel_left h)⟩

/-! ## The encoding and back -/

section Codec

variable {mode : Encoding} {s t : Bytes} {c : UInt8}

lemma unescape_cons (h : c ≠ percent) (hmode : mode ≠ .queryComponent ∨ c ≠ 0x2B) (s : Bytes) :
    unescape mode (c :: s) = (unescape mode s).map (c :: ·) := by
  rw [unescape.eq_def]
  dsimp only
  rw [if_neg h, if_neg (by tauto)]

lemma unescape_percent {hi lo : UInt8} {h l : ℕ} (hhi : unhex hi = some h)
    (hlo : unhex lo = some l) (s : Bytes) :
    unescape mode (percent :: hi :: lo :: s) =
      (unescape mode s).map (UInt8.ofNat (16 * h + l) :: ·) := by
  rw [unescape.eq_def]
  dsimp only
  rw [if_pos rfl, hhi, hlo]

/-- Nothing is decoded where nothing is encoded. -/
lemma unescape_of_notMem (hmode : mode ≠ .queryComponent ∨ 0x2B ∉ s) (h : percent ∉ s) :
    unescape mode s = some s := by
  induction s with
  | nil => rfl
  | cons c s ih =>
    obtain ⟨hc, hs⟩ := not_or.mp (List.mem_cons.not.mp h)
    have hplus : mode ≠ .queryComponent ∨ 0x2B ≠ c ∧ 0x2B ∉ s :=
      hmode.imp_right fun hplus => not_or.mp (List.mem_cons.not.mp hplus)
    rw [unescape_cons (Ne.symm hc) (hplus.imp_right fun h => Ne.symm h.1),
      ih (hplus.imp_right And.right) hs, Option.map_some]

/-- What is decoded is shorter, if anything is. -/
lemma length_unescape (h : unescape mode s = some t) :
    t.length ≤ s.length ∧ (percent ∈ s → t.length < s.length) := by
  induction s using unescape.induct generalizing t with
  | case1 =>
    obtain rfl := Option.some.inj h
    exact ⟨le_rfl, fun hmem => absurd hmem List.not_mem_nil⟩
  | case2 hi lo s d e hhi hlo ih =>
    rw [unescape_percent hlo hhi] at h
    obtain ⟨u, hu, rfl⟩ := Option.map_eq_some_iff.mp h
    have hle := (ih hu).1
    simp only [List.length_cons]
    omega
  | case3 hi lo s hbad =>
    rw [unescape.eq_def] at h
    simp only [if_true] at h
    cases h
  | case4 s hshort =>
    rw [unescape.eq_def] at h
    simp only [if_true] at h
    cases h
  | case5 c s hc ih =>
    rw [unescape.eq_def] at h
    simp only [if_neg hc] at h
    obtain ⟨u, hu, rfl⟩ := Option.map_eq_some_iff.mp h
    obtain ⟨hle, hlt⟩ := ih hu
    refine ⟨Nat.succ_le_succ hle, fun hmem => Nat.succ_lt_succ (hlt ?_)⟩
    exact (List.mem_cons.mp hmem).resolve_left (Ne.symm hc)

lemma unescape_append (h : percent ∉ s) (t : Bytes) :
    unescape .path (s ++ t) = (unescape .path t).map (s ++ ·) := by
  induction s with
  | nil => simp
  | cons c s ih =>
    obtain ⟨hc, hs⟩ := not_or.mp (List.mem_cons.not.mp h)
    rw [List.cons_append, unescape_cons (Ne.symm hc) (.inl (by decide)), ih hs, Option.map_map]
    rfl

/-- Only nothing is decoded to nothing. -/
lemma unescape_eq_nil (h : unescape mode s = some []) : s = [] := by
  cases s with
  | nil => rfl
  | cons c s =>
    rw [unescape.eq_def] at h
    dsimp only at h
    by_cases hc : c = percent
    · rw [if_pos hc] at h
      split at h
      · split at h
        · simp at h
        · cases h
      · cases h
    · rw [if_neg hc] at h
      simp at h

/-- What begins with a percent sign is decoded if two digits follow. -/
lemma unescape_percent_eq_none (h : ∀ hi lo rest a b, s = hi :: lo :: rest → unhex hi = some a →
    unhex lo = some b → False) : unescape mode (percent :: s) = none := by
  rw [unescape.eq_def]
  dsimp only
  rw [if_pos rfl]
  split
  · next hi lo rest =>
    split
    · next a b ha hb => exact (h hi lo rest a b rfl ha hb).elim
    · rfl
  · rfl

/-- The parts of a path are decoded one by one. -/
lemma unescape_append_slash (s t : Bytes) :
    unescape .path (s ++ slash :: t) =
      (unescape .path s).bind fun a => (unescape .path t).map (a ++ slash :: ·) := by
  have hhex : unhex slash = none := by decide
  induction s using unescape.induct with
  | case1 =>
    rw [List.nil_append, unescape_cons (by decide) (.inl (by decide))]
    rfl
  | case2 hi lo s l h hlo hhi ih =>
    simp only [List.cons_append]
    rw [unescape_percent hhi hlo, unescape_percent hhi hlo, ih]
    cases unescape .path s <;> simp [Function.comp_def]
  | case3 hi lo s hbad =>
    have hnone : unescape .path (percent :: hi :: lo :: s) = none := by
      refine unescape_percent_eq_none fun hi' lo' rest a b heq ha hb => ?_
      obtain ⟨rfl, htail⟩ := List.cons.inj heq
      obtain ⟨rfl, -⟩ := List.cons.inj htail
      exact hbad a b ha hb
    rw [hnone]
    refine unescape_percent_eq_none fun hi' lo' rest a b heq ha hb => ?_
    obtain ⟨rfl, htail⟩ := List.cons.inj heq
    obtain ⟨rfl, -⟩ := List.cons.inj htail
    exact hbad a b ha hb
  | case4 s hshort =>
    have hnone : unescape .path (percent :: s) = none :=
      unescape_percent_eq_none fun hi lo rest a b heq _ _ => hshort hi lo rest heq
    rw [hnone]
    -- one of the two digits would be the slash
    refine unescape_percent_eq_none fun hi lo rest a b heq ha hb => ?_
    rcases s with _ | ⟨c, _ | ⟨d, s⟩⟩
    · rw [← (List.cons.inj heq).1, hhex] at ha
      cases ha
    · rw [← (List.cons.inj (List.cons.inj heq).2).1, hhex] at hb
      cases hb
    · exact hshort c d s rfl
  | case5 c s hc ih =>
    rw [List.cons_append, unescape_cons hc (.inl (by decide)), ih,
      unescape_cons hc (.inl (by decide))]
    cases unescape .path s <;> simp [Function.comp_def]

/-- A text that is decoded as it stands has nothing encoded in it. -/
lemma unescape_path_eq_self_iff : unescape .path s = some s ↔ percent ∉ s := by
  constructor
  · intro h hmem
    exact lt_irrefl _ ((length_unescape h).2 hmem)
  · exact unescape_of_notMem (.inl nofun)

lemma ofNat_halves (c : UInt8) : UInt8.ofNat (16 * (c.toNat / 16) + c.toNat % 16) = c := by
  rw [Nat.div_add_mod, UInt8.ofNat_toNat]

/-- **What has been encoded is decoded.** -/
theorem unescape_escape (s : Bytes) : unescape .path (escape s) = some s := by
  induction s with
  | nil => rfl
  | cons c s ih =>
    rw [escape, List.flatMap_cons, ← escape]
    split_ifs with hc
    · have hlt := c.toNat_lt
      have hhi : unhex (upperHex (c.toNat / 16)) = some (c.toNat / 16) :=
        unhex_upperHex (by omega)
      have hlo : unhex (upperHex (c.toNat % 16)) = some (c.toNat % 16) :=
        unhex_upperHex (by omega)
      rw [List.cons_append, List.cons_append, List.singleton_append,
        unescape_percent hhi hlo, ih, Option.map_some, ofNat_halves]
    · have hpercent : c ≠ percent := by
        rintro rfl
        exact hc (by decide)
      rw [List.singleton_append, unescape_cons hpercent (.inl (by decide)), ih, Option.map_some]

/-- An encoded path has none of the bytes that end it. -/
lemma not_special_of_validByte (h : validByte c = true) :
    c ≠ questionMark ∧ c ≠ space ∧ isCTL c = false := by
  have hbytes : ∀ n < 256, validByte (UInt8.ofNat n) = true →
      UInt8.ofNat n ≠ questionMark ∧ UInt8.ofNat n ≠ space ∧ isCTL (UInt8.ofNat n) = false := by
    decide +kernel
  have hc := hbytes c.toNat c.toNat_lt
  rw [UInt8.ofNat_toNat] at hc
  exact hc h

lemma validEncoded_escape (s : Bytes) : validEncoded (escape s) = true := by
  have hdigits : ∀ n < 16, validByte (upperHex n) = true := by decide
  rw [validEncoded, List.all_eq_true]
  intro b hb
  obtain ⟨c, -, hc⟩ := List.mem_flatMap.mp hb
  split_ifs at hc with hkept
  · have hlt := c.toNat_lt
    simp only [List.mem_cons, List.not_mem_nil, or_false] at hc
    rcases hc with rfl | rfl | rfl
    · decide
    · exact hdigits _ (by omega)
    · exact hdigits _ (by omega)
  · rw [List.mem_singleton.mp hc, validByte]
    simp [hkept]

end Codec

/-! ## Cutting a text -/

section Cut

variable {sep : UInt8} {s t : Bytes}

lemma ne_of_notMem (h : sep ∉ s) : ∀ c ∈ s, decide (c ≠ sep) = true := fun _ hc =>
  decide_eq_true fun heq => h (heq ▸ hc)

lemma cut_of_notMem (h : sep ∉ s) : cut sep s = (s, []) := by
  rw [cut, List.takeWhile_eq_self_iff.mpr (ne_of_notMem h),
    List.dropWhile_eq_nil_iff.mpr (ne_of_notMem h), List.drop_nil]

lemma cut_append (h : sep ∉ s) (t : Bytes) : cut sep (s ++ sep :: t) = (s, t) := by
  rw [cut, List.takeWhile_append_of_pos (ne_of_notMem h),
    List.dropWhile_append_of_pos (ne_of_notMem h)]
  simp

/-- What has no separator is left alone. -/
lemma cut_append_left (h : sep ∉ s) (t : Bytes) :
    cut sep (s ++ t) = (s ++ (cut sep t).1, (cut sep t).2) := by
  rw [cut, List.takeWhile_append_of_pos (ne_of_notMem h),
    List.dropWhile_append_of_pos (ne_of_notMem h), cut]

/-- A text that is all there is before a separator has none. -/
lemma notMem_of_length_cut (h : s.length ≤ (cut sep s).1.length) : sep ∉ s := by
  have hself : s.takeWhile (· ≠ sep) = s := (List.takeWhile_prefix _).eq_of_length_le h
  intro hmem
  have hkept := List.takeWhile_eq_self_iff.mp hself sep hmem
  simp at hkept

lemma mem_cut_of_mem {c : UInt8} (h : c ∈ s) :
    c ∈ (cut sep s).1 ∨ c = sep ∨ c ∈ (cut sep s).2 := by
  rw [← List.takeWhile_append_dropWhile (p := fun c => decide (c ≠ sep)) (l := s)] at h
  rcases List.mem_append.mp h with hbefore | hbehind
  · exact .inl hbefore
  · right
    rw [cut]
    rcases hrest : s.dropWhile (fun c => decide (c ≠ sep)) with _ | ⟨d, rest⟩
    · rw [hrest] at hbehind
      exact absurd hbehind List.not_mem_nil
    · have hne : s.dropWhile (fun c => decide (c ≠ sep)) ≠ [] := by
        rw [hrest]
        exact List.cons_ne_nil _ _
      have hd := List.head_dropWhile_not (fun c => decide (c ≠ sep)) hne
      simp only [hrest, List.head_cons, decide_eq_false_iff_not, not_not] at hd
      rw [hrest] at hbehind
      rcases List.mem_cons.mp hbehind with rfl | hmem
      · exact .inl hd
      · exact .inr (by rw [List.drop_one, List.tail_cons]; exact hmem)

lemma mem_of_mem_cut {c : UInt8} (h : c ∈ (cut sep s).1 ∨ c ∈ (cut sep s).2) : c ∈ s := by
  rcases h with hbefore | hbehind
  · exact (List.takeWhile_prefix _).subset hbefore
  · exact (List.dropWhile_suffix _).subset (List.mem_of_mem_drop hbehind)

end Cut

/-! ## The way of a path -/

section Way

variable {u v : URL} {p rawURL : Bytes}

lemma validEncoded_escapedPath (u : URL) : validEncoded u.escapedPath = true := by
  rw [URL.escapedPath]
  split_ifs with hraw hstar
  · exact hraw.2.1
  · decide
  · exact validEncoded_escape _

/-- The encoded path stands for the path. -/
lemma unescape_escapedPath (u : URL) : unescape .path u.escapedPath = some u.path := by
  rw [URL.escapedPath]
  split_ifs with hraw hstar
  · exact hraw.2.2
  · rw [hstar]
    decide
  · exact unescape_escape _

lemma URL.escapedPath_ne_nil {u : URL} (h : u.path ≠ []) : u.escapedPath ≠ [] := by
  intro hnil
  have hdecoded := unescape_escapedPath u
  rw [hnil] at hdecoded
  exact h (Option.some.inj hdecoded).symm

lemma setPath_eq_some_iff :
    u.setPath p = some v ↔
      unescape .path p = some v.path ∧
        v = { u with path := v.path, rawPath := if p = escape v.path then [] else p } := by
  rw [URL.setPath, Option.map_eq_some_iff]
  constructor
  · rintro ⟨path, hpath, rfl⟩
    exact ⟨hpath, rfl⟩
  · rintro ⟨hpath, hv⟩
    exact ⟨v.path, hpath, hv.symm⟩

/-- The encoded path is the one that the path has been set to, or its encoding. -/
lemma escapedPath_of_setPath (h : u.setPath p = some v) :
    v.escapedPath = p ∨ v.escapedPath = escape v.path := by
  obtain ⟨-, hv⟩ := setPath_eq_some_iff.mp h
  have hraw : v.rawPath = [] ∨ v.rawPath = p := by
    rw [hv]
    dsimp only
    split_ifs
    · exact .inl rfl
    · exact .inr rfl
  rw [URL.escapedPath]
  split_ifs with hkept hstar
  · exact .inl (hraw.resolve_left hkept.1)
  · rw [hstar]
    exact .inr (by decide)
  · exact .inr rfl

/-- It is the former if that is a valid encoding. -/
lemma escapedPath_of_valid (hvalid : validEncoded p = true) (hne : p ≠ [])
    (h : u.setPath p = some v) : v.escapedPath = p := by
  obtain ⟨hpath, hv⟩ := setPath_eq_some_iff.mp h
  have hraw : v.rawPath = if p = escape v.path then [] else p := by
    rw [hv]
  by_cases hself : p = escape v.path
  · rcases escapedPath_of_setPath h with heq | heq
    · exact heq
    · exact heq.trans hself.symm
  · rw [if_neg hself] at hraw
    rw [URL.escapedPath, hraw, if_pos ⟨hne, hvalid, hpath⟩]

/-- A path from the root stays one. -/
lemma head?_escapedPath (h : u.setPath (slash :: p) = some v) :
    v.escapedPath.head? = some slash ∧ v.path ≠ [] := by
  obtain ⟨hpath, hv⟩ := setPath_eq_some_iff.mp h
  rw [unescape_cons (by decide) (.inl (by decide))] at hpath
  obtain ⟨rest, -, hrest⟩ := Option.map_eq_some_iff.mp hpath
  have hraw : v.rawPath = [] ∨ v.rawPath = slash :: p := by
    rw [hv]
    dsimp only
    split_ifs
    · exact .inl rfl
    · exact .inr rfl
  refine ⟨?_, hrest ▸ List.cons_ne_nil _ _⟩
  rw [URL.escapedPath]
  split_ifs with hkept hstar
  · rw [hraw.resolve_left hkept.1]
    rfl
  · have hslash : slash :: rest = bytes "*" := hrest.trans hstar
    exact absurd (List.cons.inj hslash).1 (by decide)
  · have hsafe : shouldEscape slash = false := by decide
    rw [← hrest, escape, List.flatMap_cons, hsafe]
    rfl

/-- So does one that is empty. -/
lemma escapedPath_of_nil (h : u.setPath [] = some v) : v.escapedPath = [] ∧ v.path = [] := by
  obtain ⟨hpath, hv⟩ := setPath_eq_some_iff.mp h
  have hnil : v.path = [] := (Option.some.inj hpath).symm
  have hraw : v.rawPath = [] := by
    rw [hv, hnil]
    rfl
  refine ⟨?_, hnil⟩
  have hstar : ¬ ([] : Bytes) = bytes "*" := by decide
  rw [URL.escapedPath, hraw, hnil, if_neg (by simp), if_neg hstar]
  rfl

/-- What `parse` makes of an address: its path is empty or goes out from the root, and there
are no control characters in its query. -/
lemma exists_of_parse (h : parse rawURL = some u) :
    ∃ u' p, URL.setPath u' p = some u ∧ (p = [] ∨ p.head? = some slash) ∧
      u.rawQuery.any isCTL = false := by
  rw [parse] at h
  dsimp only at h
  split_ifs at h with hbad hhost
  set address := (cut hash rawURL).1
  set authority := (address.drop scheme.length).takeWhile fun c => c ≠ slash ∧ c ≠ questionMark
    with hauthority
  set rest := address.drop (scheme.length + authority.length) with hrest
  refine ⟨(cutQuery rest authority).2, (cutQuery rest authority).1, h, ?_, ?_⟩
  · -- the authority ends at a slash or at a question mark
    have hdrop : rest =
        (address.drop scheme.length).dropWhile fun c => c ≠ slash ∧ c ≠ questionMark := by
      have hsplit := List.takeWhile_append_dropWhile
        (p := fun c => decide (c ≠ slash ∧ c ≠ questionMark)) (l := address.drop scheme.length)
      rw [hrest, ← List.drop_drop]
      conv_lhs => rw [← hsplit]
      exact List.drop_left
    rcases hcase : rest with _ | ⟨c, tail⟩
    · exact .inl rfl
    · have hne : (address.drop scheme.length).dropWhile
          (fun c => decide (c ≠ slash ∧ c ≠ questionMark)) ≠ [] := by
        rw [← hdrop, hcase]
        exact List.cons_ne_nil _ _
      have hend := List.head_dropWhile_not
        (fun c => decide (c ≠ slash ∧ c ≠ questionMark)) hne
      simp only [← hdrop, hcase, List.head_cons, decide_eq_false_iff_not, not_and_or,
        not_not] at hend
      rcases hend with rfl | rfl
      · exact .inr rfl
      · exact .inl rfl
  · -- the query is a part of the address, where no control characters are
    obtain ⟨-, hv⟩ := setPath_eq_some_iff.mp h
    have hquery : u.rawQuery = (cut questionMark rest).2 := by
      rw [hv]
      rfl
    have hclean : address.any isCTL = false := by
      simp only [not_or] at hbad
      exact Bool.not_eq_true _ ▸ hbad.1
    rw [List.any_eq_false] at hclean ⊢
    intro c hc
    rw [hquery] at hc
    exact hclean c (List.mem_of_mem_drop (mem_of_mem_cut (.inr hc)))

/-- The path is sent from the root on, in a valid encoding. -/
lemma exists_encoded_of_parse (h : parse rawURL = some u) :
    ∃ encoded, (if u.escapedPath = [] then [slash] else u.escapedPath) = encoded ∧
      validEncoded encoded = true ∧ encoded.head? = some slash ∧
      unescape .path encoded = some (if u.path = [] then [slash] else u.path) := by
  obtain ⟨u', p, hset, rfl | hp, -⟩ := exists_of_parse h
  · obtain ⟨hescaped, hpath⟩ := escapedPath_of_nil hset
    rw [if_pos hescaped, if_pos hpath]
    exact ⟨_, rfl, by decide, rfl, by decide +kernel⟩
  · obtain ⟨rest, rfl⟩ := List.head?_eq_some_iff.mp hp
    obtain ⟨hhead, hne⟩ := head?_escapedPath hset
    rw [if_neg (URL.escapedPath_ne_nil hne), if_neg hne]
    exact ⟨_, rfl, validEncoded_escapedPath u, hhead, unescape_escapedPath u⟩

/-- **The server sees the path and the query that the address has.** -/
theorem parseRequestURI_requestURI (h : parse rawURL = some u) :
    ∃ v, parseRequestURI u.requestURI = some v ∧ v.rawQuery = u.rawQuery ∧
      (v.path = if u.path = [] then [slash] else u.path) ∧
      v.escapedPath = if u.escapedPath = [] then [slash] else u.escapedPath := by
  obtain ⟨-, -, -, -, hquery⟩ := exists_of_parse h
  obtain ⟨encoded, hencoded, hvalid, hhead, hback⟩ := exists_encoded_of_parse h
  have hbytes := List.all_eq_true.mp hvalid
  have hmark : questionMark ∉ encoded := fun hmem =>
    (not_special_of_validByte (hbytes _ hmem)).1 rfl
  have huri : u.requestURI = encoded ++
      if u.forceQuery ∨ u.rawQuery ≠ [] then questionMark :: u.rawQuery else [] := by
    rw [URL.requestURI, hencoded]
  -- a valid encoding has no question mark, so that the query begins at the first one
  have hcut : cut questionMark u.requestURI = (encoded, u.rawQuery) := by
    rw [huri]
    split_ifs with hasked
    · exact cut_append hmark _
    · rw [List.append_nil, cut_of_notMem hmark, not_not.mp (not_or.mp hasked).2]
  have hctl : u.requestURI.any isCTL = false := by
    rw [List.any_eq_false] at hquery ⊢
    intro c hc
    rw [huri] at hc
    rcases List.mem_append.mp hc with hpath | htail
    · simp [(not_special_of_validByte (hbytes c hpath)).2.2]
    · split_ifs at htail
      · rcases List.mem_cons.mp htail with rfl | hmem
        · decide
        · exact hquery c hmem
      · exact absurd htail List.not_mem_nil
  have hroot : u.requestURI.head? = some slash := by
    rw [huri, List.head?_append, hhead, Option.some_or]
  have hne : encoded ≠ [] := by
    rintro rfl
    cases hhead
  have hset (u' : URL) : ∃ v, u'.setPath encoded = some v := ⟨_, congrArg (Option.map _) hback⟩
  obtain ⟨v, hv⟩ := hset (cutQuery u.requestURI []).2
  obtain ⟨hpath, hrest⟩ := setPath_eq_some_iff.mp hv
  refine ⟨v, ?_, ?_, ?_, ?_⟩
  · rw [parseRequestURI, if_neg (by simp [hctl, hroot])]
    simpa only [cutQuery, hcut] using hv
  · rw [hrest]
    simp only [cutQuery, hcut]
  · exact Option.some.inj (hpath.symm.trans hback)
  · rw [hencoded]
    exact escapedPath_of_valid hvalid hne hv

/-- What the server reads has a path from the root. -/
lemma head?_escapedPath_of_parse {uri : Bytes} (h : parseRequestURI uri = some v) :
    v.escapedPath.head? = some slash := by
  rw [parseRequestURI] at h
  split_ifs at h with hbad
  have hroot := not_not.mp (not_or.mp hbad).2
  have hset : URL.setPath (cutQuery uri []).2 (cutQuery uri []).1 = some v := h
  cases uri with
  | nil => cases hroot
  | cons c rest =>
    obtain rfl := Option.some.inj hroot
    have hpath : (cutQuery (slash :: rest) []).1 =
        slash :: rest.takeWhile (fun c => decide (c ≠ questionMark)) := rfl
    rw [hpath] at hset
    exact (head?_escapedPath hset).1

/-- A space can only come from the query. -/
lemma space_notMem_requestURI (h : space ∉ u.rawQuery) : space ∉ u.requestURI := by
  intro hmem
  rw [URL.requestURI] at hmem
  rcases List.mem_append.mp hmem with hpath | hquery
  · split_ifs at hpath
    · exact absurd (List.mem_singleton.mp hpath) (by decide)
    · have hbytes := List.all_eq_true.mp (validEncoded_escapedPath u)
      exact (not_special_of_validByte (hbytes _ hpath)).2.1 rfl
  · split_ifs at hquery
    · exact (List.mem_cons.mp hquery).elim (by decide) h
    · exact absurd hquery List.not_mem_nil

/-- The bytes of a host. -/
lemma not_special_of_plainHost {host : Bytes} (h : plainHost host = true) :
    ∀ c ∈ host, c ≠ hash ∧ c ≠ slash ∧ c ≠ questionMark ∧ isCTL c = false := by
  have hbytes : ∀ n < 256,
      (isAlphanumeric (UInt8.ofNat n) || UInt8.ofNat n = 0x2D || UInt8.ofNat n = 0x2E ||
        UInt8.ofNat n = 0x3A) = true →
      UInt8.ofNat n ≠ hash ∧ UInt8.ofNat n ≠ slash ∧ UInt8.ofNat n ≠ questionMark ∧
        isCTL (UInt8.ofNat n) = false := by
    decide +kernel
  rw [plainHost] at h
  simp only [Bool.and_eq_true, List.all_eq_true] at h
  intro c hc
  have hplain := hbytes c.toNat c.toNat_lt
  rw [UInt8.ofNat_toNat] at hplain
  refine hplain ?_
  have hparts : c ∈ (cut 0x3A host).1 ∨ c = 0x3A ∨ c ∈ (cut 0x3A host).2 := mem_cut_of_mem hc
  rcases hparts with hname | rfl | hport
  · simp only [h.1.1.2 c hname, Bool.true_or]
  · decide
  · have hdigit := h.1.2 c hport
    simp [isAlphanumeric, hdigit.1, hdigit.2]

/-- An address whose host is a plain one. -/
lemma parse_append {host rest : Bytes} (hhost : plainHost host = true)
    (hrest : rest.head? = some slash) :
    parse (scheme ++ host ++ rest) =
      if (cut hash rest).1.any isCTL ∨ unescape .fragment (cut hash rest).2 = none then none
      else (cutQuery (cut hash rest).1 host).2.setPath (cutQuery (cut hash rest).1 host).1 := by
  have hspecial := not_special_of_plainHost hhost
  have hnohash : hash ∉ scheme ++ host := by
    intro hmem
    rcases List.mem_append.mp hmem with hscheme | hhost
    · exact absurd hscheme (by decide)
    · exact (hspecial _ hhost).1 rfl
  have hnoctl : (scheme ++ host).any isCTL = false := by
    have hscheme : scheme.any isCTL = false := by decide
    rw [List.any_append, hscheme, Bool.false_or, List.any_eq_false]
    intro c hc
    rw [(hspecial c hc).2.2.2]
    exact Bool.false_ne_true
  obtain ⟨tail, htail⟩ : ∃ tail, (cut hash rest).1 = slash :: tail := by
    cases rest with
    | nil => cases hrest
    | cons c rest =>
      obtain rfl := Option.some.inj hrest
      exact ⟨rest.takeWhile (· ≠ hash), rfl⟩
  -- the host ends at the slash that the rest begins with
  have hauthority : (host ++ (cut hash rest).1).takeWhile
      (fun c => decide (c ≠ slash ∧ c ≠ questionMark)) = host := by
    have hall : ∀ c ∈ host, decide (c ≠ slash ∧ c ≠ questionMark) = true := fun c hc =>
      decide_eq_true ⟨(hspecial c hc).2.1, (hspecial c hc).2.2.1⟩
    rw [List.takeWhile_append_of_pos hall, htail]
    simp
  have hscheme : scheme <+: scheme ++ host ++ (cut hash rest).1 := by
    rw [List.append_assoc]
    exact List.prefix_append _ _
  rw [parse, cut_append_left hnohash]
  dsimp only
  rw [List.any_append, hnoctl, Bool.false_or, List.append_assoc, List.drop_left, hauthority,
    ← List.append_assoc, ← List.length_append, List.drop_left, hhost]
  simp only [hscheme, not_true_eq_false, or_false, Bool.not_true, Bool.false_eq_true, if_false]

end Way

end Arcsent.Go.Url
