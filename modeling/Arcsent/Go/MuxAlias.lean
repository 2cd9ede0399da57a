/-
# Routes under two directories

Where a multiplexer sends a request, and what it makes of routes that are registered
twice, for their own paths and for the same paths under a further directory: it treats the
two alike.
-/
import Arcsent.Go.Segments

namespace Arcsent.Go

open Arcsent.Lib
open Filepath (separator dot)

variable {η : Type} {routes : Routes η} {req : Request} {parts : List Bytes} {rest : Bytes}

/-! ## Where the multiplexer sends a request -/

/-- The route that is found is one whose pattern matches. -/
lemma mem_of_matchRoute {e : Pattern × η} (h : matchRoute routes parts = some e) :
    e ∈ routes ∧ e.1.matches parts = true := by
  suffices hmain : ∀ (es : Routes η) (best : Option (Pattern × η)),
      es.foldl deeper best = some e → best = some e ∨ e ∈ es by
    have hmem := (hmain _ none h).resolve_left nofun
    exact ⟨List.mem_of_mem_filter hmem, (List.mem_filter.mp hmem).2⟩
  intro es
  induction es with
  | nil => exact fun best he => .inl he
  | cons d es ih =>
    intro best he
    rcases ih _ he with hbest | hmem
    · cases best with
      | none =>
        rw [deeper, Option.some.injEq] at hbest
        exact .inr (hbest ▸ List.mem_cons_self)
      | some b =>
        rw [deeper] at hbest
        split_ifs at hbest
        · rw [Option.some.injEq] at hbest
          exact .inr (hbest ▸ List.mem_cons_self)
        · exact .inl hbest
    · exact .inr (List.mem_cons_of_mem _ hmem)

/-- Where a pattern matches, a route is found. -/
lemma matchRoute_isSome {e : Pattern × η} (he : e ∈ routes) (hmatch : e.1.matches parts = true) :
    (matchRoute routes parts).isSome = true := by
  suffices hmain : ∀ (es : Routes η) (best : Option (Pattern × η)), best.isSome = true ∨ es ≠ [] →
      (es.foldl deeper best).isSome = true from
    hmain _ none (.inr (List.ne_nil_of_mem (List.mem_filter.mpr ⟨he, hmatch⟩)))
  intro es
  induction es with
  | nil => exact fun best hor => hor.resolve_right (not_not.mpr rfl)
  | cons d es ih =>
    intro best _
    refine ih _ (.inl ?_)
    cases best with
    | none => rfl
    | some b =>
      rw [deeper]
      split_ifs <;> rfl

/-- A request stays where it is when its path is clean and does not lack its slash. -/
lemma redirection_eq_none_iff :
    redirection routes req = none ↔
      (req.method = "CONNECT" ∨ cleanPath req.escapedPath = req.escapedPath) ∧
        lacksSlash routes req.escapedPath = false := by
  rw [redirection]
  by_cases hconnect : req.method = "CONNECT"
  · rw [if_pos hconnect, if_neg (not_not.mpr rfl)]
    split_ifs with hslash
    · simp [hslash]
    · simp [hconnect, hslash]
  · rw [if_neg hconnect, or_iff_right hconnect]
    by_cases hself : cleanPath req.escapedPath = req.escapedPath
    · rw [hself, if_neg (not_not.mpr rfl)]
      split_ifs with hslash
      · simp [hslash]
      · simp [hslash]
    · rw [if_pos hself]
      split_ifs <;> simp [hself]

/-- A request that is not redirected is answered where it is. -/
lemma serveMux_of_none (h : redirection routes req = none) :
    serveMux routes req = answerAt routes (segments req.escapedPath) := by
  rw [serveMux, h]

lemma serveMux_of_some {place : Bytes} (h : redirection routes req = some place) :
    serveMux routes req = .redirect place := by
  rw [serveMux, h]

lemma answerAt_ne_redirect (routes : Routes η) (parts : List Bytes) (place : Bytes) :
    answerAt routes parts ≠ .redirect place := by
  intro h
  rw [answerAt] at h
  split at h
  · cases h
  · cases h

/-- A request that comes to a handler stays where it is. -/
lemma redirection_of_handler {h : η} (hserve : serveMux routes req = .handler h) :
    redirection routes req = none := by
  cases hplace : redirection routes req with
  | none => rfl
  | some place =>
    rw [serveMux_of_some hplace] at hserve
    cases hserve

/-- The handler is that of a route that matches the path. -/
lemma exists_of_handler {h : η} (hserve : serveMux routes req = .handler h) :
    ∃ e ∈ routes, e.1.matches (segments req.escapedPath) = true ∧ e.2 = h := by
  rw [serveMux_of_none (redirection_of_handler hserve), answerAt] at hserve
  split at hserve
  · cases hserve
  · next e hmatch =>
    obtain ⟨hmem, hmatches⟩ := mem_of_matchRoute hmatch
    exact ⟨e, hmem, hmatches, Answer.handler.inj hserve⟩

/-- The place that a request is redirected to is written in ASCII. -/
lemma lt_of_mem_redirection {place : Bytes} (h : redirection routes req = some place) :
    ∀ b ∈ place, b < 0x80 := by
  have hbytes : ∀ n < 256, Url.validByte (UInt8.ofNat n) = true → UInt8.ofNat n < 0x80 := by
    decide +kernel
  have hplace : ∃ path, place = redirectPlace path := by
    unfold redirection at h
    extract_lets at h
    split_ifs at h <;> exact ⟨_, (Option.some.inj h).symm⟩
  obtain ⟨path, rfl⟩ := hplace
  intro b hb
  rcases mem_of_mem_cleanPath hb with hmem | rfl
  · have hvalid := List.all_eq_true.mp (Url.validEncoded_escapedPath _) b hmem
    have hsmall := hbytes b.toNat b.toNat_lt
    rw [UInt8.ofNat_toNat] at hsmall
    exact hsmall hvalid
  · decide

/-! ### Paths that lack their slash -/

/-- An exact match of the pattern of a subtree has no segment but the empty one below it. -/
lemma exactMatch_some (e : Pattern × η) (rest : Bytes) :
    exactMatch (some e) (separator :: rest) = true ↔
      (e.1.subtree = true → (separator :: rest).getLast? = some separator ∧
        e.1.segments.length + 1 = (segments (separator :: rest)).length) := by
  rw [exactMatch, length_segments]
  by_cases hsubtree : e.1.subtree = true
  · rw [if_neg (by simp [hsubtree]), forall_prop_of_true hsubtree]
    split_ifs with hlast
    · simp [hlast]
    · simp [not_not.mp hlast]
  · rw [if_pos (by simpa using hsubtree)]
    simp [hsubtree]

/-- A path lacks its slash if it is that of a subtree. -/
lemma exists_of_lacksSlash (hroutes : ∀ e ∈ routes, [] ∉ e.1.segments)
    (h : lacksSlash routes (separator :: rest) = true) :
    ∃ e ∈ routes, e.1.subtree = true ∧ e.1.segments = segments (separator :: rest) := by
  rw [lacksSlash] at h
  simp only [Bool.and_eq_true] at h
  obtain ⟨-, hexact⟩ := h
  rw [segments_concat] at hexact
  cases hmatch : matchRoute routes (segments (separator :: rest) ++ [[]]) with
  | none =>
    rw [hmatch] at hexact
    cases hexact
  | some e =>
    obtain ⟨hmem, hmatches⟩ := mem_of_matchRoute hmatch
    rw [hmatch, List.cons_append, exactMatch_some, ← List.cons_append, segments_concat] at hexact
    rw [Pattern.matches] at hmatches
    split_ifs at hmatches with hsubtree
    · -- the pattern matches exactly, so that nothing stands behind it but the slash
      have hlength := (hexact hsubtree).2
      simp only [Bool.and_eq_true, List.isPrefixOf_iff_prefix] at hmatches
      rw [List.length_append, List.length_singleton, Nat.add_right_cancel_iff] at hlength
      refine ⟨e, hmem, hsubtree, ?_⟩
      exact (List.prefix_of_prefix_length_le hmatches.1 (List.prefix_append _ _)
        hlength.le).eq_of_length hlength
    · refine absurd ?_ (hroutes e hmem)
      rw [← of_decide_eq_true hmatches]
      simp

/-- A request is served where it is when its path is clean and its segments are not those of a
subtree. -/
lemma redirection_of_clean (hne : segments req.escapedPath ≠ [])
    (hclean : cleanPath req.escapedPath = req.escapedPath)
    (hroutes : ∀ e ∈ routes, [] ∉ e.1.segments)
    (hsubtree : ∀ e ∈ routes, e.1.subtree = true → e.1.segments ≠ segments req.escapedPath) :
    redirection routes req = none := by
  obtain ⟨rest, hrest⟩ := List.head?_eq_some_iff.mp (req.head?_of_segments hne)
  refine redirection_eq_none_iff.mpr ⟨.inr hclean, ?_⟩
  rw [hrest] at hsubtree ⊢
  rw [Bool.eq_false_iff]
  intro hlacks
  obtain ⟨e, he, htree, hsame⟩ := exists_of_lacksSlash hroutes hlacks
  exact hsubtree e he htree hsame

/-- A path is clean when its segments are names. -/
lemma cleanPath_of_names (hne : segments req.escapedPath ≠ [])
    (hnames : ∀ c ∈ segments req.escapedPath, IsName dot c) :
    cleanPath req.escapedPath = req.escapedPath := by
  obtain ⟨rest, hrest⟩ := List.head?_eq_some_iff.mp (req.head?_of_segments hne)
  rw [hrest] at hnames ⊢
  rw [cleanPath_eq_self_iff]
  refine cleanComponents_of_isName (List.splitOn_ne_nil _ rest) fun c hc => ?_
  exact isName_of_pathUnescape (hnames _ (List.mem_map_of_mem hc))

/-! ## Routes that are registered twice -/

/-- A route under a directory. -/
def under (dir : Bytes) (e : Pattern × η) : Pattern × η :=
  (⟨dir :: e.1.segments, e.1.subtree⟩, e.2)

/-- Every route for its own pattern and for the pattern under a directory. -/
def twice (dir : Bytes) (base : Routes η) : Routes η := base.flatMap fun e => [e, under dir e]

/-- The patterns are not themselves under the directory. -/
structure Apart (dir : Bytes) (base : Routes η) : Prop where
  ne_nil : ∀ e ∈ base, e.1.segments ≠ []
  not_under : ∀ e ∈ base, e.1.segments.head? ≠ some dir

variable {dir : Bytes} {base : Routes η}

/-- A pattern that matches a path begins as the path does. -/
lemma head?_of_matches {p : Pattern} (hne : p.segments ≠ []) (h : p.matches parts = true) :
    parts.head? = p.segments.head? := by
  rw [Pattern.matches] at h
  split_ifs at h
  · simp only [Bool.and_eq_true, List.isPrefixOf_iff_prefix] at h
    obtain ⟨more, rfl⟩ := h.1
    exact List.head?_append_of_ne_nil _ hne
  · rw [of_decide_eq_true h]

lemma under_matches (e : Pattern × η) (parts : List Bytes) :
    (under dir e).1.matches (dir :: parts) = e.1.matches parts := by
  simp [under, Pattern.matches]

/-- For a path that is not under the directory only the first routes count. -/
lemma matchRoute_twice (h : parts.head? ≠ some dir) :
    matchRoute (twice dir base) parts = matchRoute base parts := by
  have hfilter : (twice dir base).filter (fun e => e.1.matches parts)
      = base.filter fun e => e.1.matches parts := by
    induction base with
    | nil => rfl
    | cons e base ih =>
      have hunder : ¬ (under dir e).1.matches parts = true := fun hmatch =>
        h (head?_of_matches (List.cons_ne_nil _ _) hmatch)
      have htwice : twice dir (e :: base) = e :: under dir e :: twice dir base := rfl
      rw [htwice, List.filter_cons, List.filter_cons_of_neg (by exact hunder), ih,
        List.filter_cons]
  rw [matchRoute, hfilter, matchRoute]

lemma foldl_deeper_under (es : Routes η) (best : Option (Pattern × η)) :
    (es.map (under dir)).foldl deeper (best.map (under dir))
      = (es.foldl deeper best).map (under dir) := by
  induction es generalizing best with
  | nil => rfl
  | cons e es ih =>
    have hstep : deeper (best.map (under dir)) (under dir e) = (deeper best e).map (under dir) := by
      cases best with
      | none => rfl
      | some b =>
        simp only [Option.map_some, deeper, under, List.length_cons, Nat.add_lt_add_iff_right]
        split_ifs <;> rfl
    rw [List.map_cons, List.foldl_cons, List.foldl_cons, hstep, ih]

/-- For a path under the directory only the other routes count. -/
lemma Apart.matchRoute_twice (h : Apart dir base) (parts : List Bytes) :
    matchRoute (twice dir base) (dir :: parts) = (matchRoute base parts).map (under dir) := by
  have hfilter : (twice dir base).filter (fun e => e.1.matches (dir :: parts))
      = (base.filter fun e => e.1.matches parts).map (under dir) := by
    induction base with
    | nil => rfl
    | cons e base ih =>
      have hrest : Apart dir base :=
        ⟨fun d hd => h.ne_nil d (List.mem_cons_of_mem _ hd),
          fun d hd => h.not_under d (List.mem_cons_of_mem _ hd)⟩
      have hown : ¬ e.1.matches (dir :: parts) = true := fun hmatch =>
        h.not_under e List.mem_cons_self
          (head?_of_matches (h.ne_nil e List.mem_cons_self) hmatch).symm
      have htwice : twice dir (e :: base) = e :: under dir e :: twice dir base := rfl
      rw [htwice, List.filter_cons_of_neg (by exact hown), List.filter_cons, ih hrest,
        List.filter_cons, under_matches]
      split_ifs <;> rfl
  have hfold : ((base.filter fun e => e.1.matches parts).map (under dir)).foldl deeper none =
      ((base.filter fun e => e.1.matches parts).foldl deeper none).map (under dir) :=
    foldl_deeper_under _ none
  rw [matchRoute, hfilter, hfold, matchRoute]

/-! ### Requests under the directory -/

/-- The name of a directory that stands for itself. -/
structure IsDir (dir : Bytes) : Prop where
  name : IsName dot dir
  no_separator : separator ∉ dir
  no_percent : Url.percent ∉ dir

/-- A path under the directory. -/
def underPath (dir path : Bytes) : Bytes := separator :: (dir ++ path)

lemma IsDir.segments_underPath (h : IsDir dir) (rest : Bytes) :
    segments (underPath dir (separator :: rest)) = dir :: segments (separator :: rest) :=
  segments_append h.no_separator h.no_percent _ _ rest

lemma IsDir.exactMatch_under (h : IsDir dir) (route : Option (Pattern × η)) (rest : Bytes) :
    exactMatch (route.map (under dir)) (underPath dir (separator :: rest)) =
      exactMatch route (separator :: rest) := by
  have hlast : (underPath dir (separator :: rest)).getLast? = (separator :: rest).getLast? :=
    List.getLast?_append_of_ne_nil (separator :: dir) (List.cons_ne_nil _ _)
  cases route with
  | none => rfl
  | some e =>
    rw [Option.map_some, Bool.eq_iff_iff, underPath, exactMatch_some, exactMatch_some,
      ← underPath, hlast, h.segments_underPath]
    simp [under]

/-- **Whether a path lacks its slash** does not depend on the directory. -/
lemma IsDir.lacksSlash_twice (hdir : IsDir dir) (h : Apart dir base)
    (hhead : (segments (separator :: rest)).head? ≠ some dir) :
    lacksSlash (twice dir base) (separator :: rest) = lacksSlash base (separator :: rest) ∧
      lacksSlash (twice dir base) (underPath dir (separator :: rest)) =
        lacksSlash base (separator :: rest) := by
  have hlast : (underPath dir (separator :: rest)).getLast? = (separator :: rest).getLast? :=
    List.getLast?_append_of_ne_nil (separator :: dir) (List.cons_ne_nil _ _)
  have hne : segments (separator :: rest) ≠ [] := by
    simp [List.splitOn_ne_nil]
  have hhead' : (segments (separator :: rest) ++ [[]]).head? ≠ some dir := by
    rwa [List.head?_append_of_ne_nil _ hne]
  have hslash : underPath dir (separator :: rest) ++ [separator] =
      underPath dir (separator :: (rest ++ [separator])) := by
    simp [underPath]
  constructor
  · rw [lacksSlash, lacksSlash, segments_concat, matchRoute_twice hhead, matchRoute_twice hhead']
  · rw [lacksSlash, lacksSlash, hslash, hdir.segments_underPath, hdir.segments_underPath,
      h.matchRoute_twice, h.matchRoute_twice, hdir.exactMatch_under, hdir.exactMatch_under, hlast,
      List.cons_append]

lemma IsDir.cleanPath_underPath (h : IsDir dir) (rest : Bytes) :
    cleanPath (underPath dir (separator :: rest)) = underPath dir (separator :: rest) ↔
      cleanPath (separator :: rest) = separator :: rest :=
  cleanPath_prefix_iff h.name h.no_separator rest

/-- **The multiplexer treats the two alike**: either both requests are answered as the
routes without the directory answer the one, or both are redirected. -/
theorem serveMux_twice (hdir : IsDir dir) (h : Apart dir base) {own other : Request}
    (hmethod : other.method = own.method) (hroot : own.escapedPath.head? = some separator)
    (hother : other.escapedPath = underPath dir own.escapedPath)
    (hhead : (segments own.escapedPath).head? ≠ some dir) :
    let routes := twice dir base
    let answer := answerAt base (segments own.escapedPath)
    (redirection routes own = none ∧ serveMux routes own = answer ∧
      serveMux routes other = answer) ∨
    ∃ place place', redirection routes own = some place ∧
      redirection routes other = some place' := by
  intro routes answer
  obtain ⟨rest, hrest⟩ := List.head?_eq_some_iff.mp hroot
  rw [hrest] at hother hhead
  obtain ⟨hown, hunder⟩ := hdir.lacksSlash_twice h hhead
  -- both requests are redirected or neither is
  have hiff : redirection routes own = none ↔ redirection routes other = none := by
    rw [redirection_eq_none_iff, redirection_eq_none_iff, hmethod, hother, hrest, hown, hunder,
      hdir.cleanPath_underPath]
  cases hplace : redirection routes own with
  | none =>
    refine .inl ⟨rfl, ?_, ?_⟩
    · rw [serveMux_of_none hplace, answerAt, hrest, matchRoute_twice hhead]
      simp [answer, answerAt, hrest]
    · rw [serveMux_of_none (hiff.mp hplace), answerAt, hother, hdir.segments_underPath,
        h.matchRoute_twice]
      simp only [answer, answerAt, hrest]
      cases matchRoute base (segments (separator :: rest)) <;> rfl
  | some place =>
    cases hplace' : redirection routes other with
    | none =>
      rw [hiff.mpr hplace'] at hplace
      cases hplace
    | some place' => exact .inr ⟨place, place', rfl, rfl⟩

end Arcsent.Go
