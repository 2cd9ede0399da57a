/-
# Texts joined with a separator

Texts that are joined with a separator can be read back as long as the separator occurs in
none of them.  Where it may occur, what can be read back is the row of the pieces between
separators; it does not tell where one text ends and the next begins.  Where a word stands in
a text is a matter of its pieces, if it has no separator in it.  The last sections are about
two texts with a mark or with a doubled separator between them.
-/
import Mathlib.Data.List.Infix
import Arcsent.Lib.Paths

namespace Arcsent.Lib

variable {α : Type*} [DecidableEq α] {sep : α}

/-! ## Rows of texts -/

/-- The pieces between separators of all texts of a row, read one after another. -/
def pieces (sep : α) (texts : List (List α)) : List (List α) := texts.flatMap (·.splitOn sep)

variable {texts texts' : List (List α)}

lemma splitOn_intercalate_eq_pieces (h : texts ≠ []) :
    ([sep].intercalate texts).splitOn sep = pieces sep texts := by
  induction texts with
  | nil => exact absurd rfl h
  | cons x rest ih =>
    cases rest with
    | nil => simp [pieces, List.intercalate]
    | cons y rest =>
      have hjoin : [sep].intercalate (x :: y :: rest)
          = x ++ sep :: [sep].intercalate (y :: rest) := by
        simp [List.intercalate]
      rw [hjoin, List.splitOn_append_cons_self, ih (List.cons_ne_nil y rest)]
      rfl

/-- The joined text says what the pieces are, and no more. -/
theorem intercalate_eq_iff (h : texts ≠ []) (h' : texts' ≠ []) :
    [sep].intercalate texts = [sep].intercalate texts' ↔ pieces sep texts = pieces sep texts' := by
  rw [← splitOn_intercalate_eq_pieces h, ← splitOn_intercalate_eq_pieces h']
  refine ⟨fun he => by rw [he], fun he => ?_⟩
  have hjoin := congrArg [sep].intercalate he
  rwa [List.intercalate_splitOn, List.intercalate_splitOn] at hjoin

/-- A text has one piece more than it has separators. -/
lemma length_splitOn (xs : List α) : (xs.splitOn sep).length = xs.count sep + 1 := by
  induction xs with
  | nil => simp
  | cons x xs ih =>
    rw [List.splitOn_cons_eq_if_modifyHead]
    split_ifs with hx
    · rw [List.length_cons, ih, List.count_cons, if_pos hx]
    · rw [List.length_modifyHead, ih, List.count_cons, if_neg hx, Nat.add_zero]

/-- With the number of separators of each text the pieces say what the texts are. -/
theorem eq_of_pieces_eq (h : pieces sep texts = pieces sep texts')
    (hcount : texts.map (List.count sep) = texts'.map (List.count sep)) : texts = texts' := by
  induction texts generalizing texts' with
  | nil => exact (List.map_eq_nil_iff.mp hcount.symm).symm
  | cons x texts ih =>
    cases texts' with
    | nil => exact absurd hcount (List.cons_ne_nil _ _)
    | cons x' texts' =>
      obtain ⟨hx, hrest⟩ := List.cons.inj hcount
      rw [pieces, pieces, List.flatMap_cons, List.flatMap_cons] at h
      obtain ⟨hsplit, htexts⟩ := List.append_inj h (by rw [length_splitOn, length_splitOn, hx])
      obtain rfl : x = x' := by
        have hjoin := congrArg [sep].intercalate hsplit
        rwa [List.intercalate_splitOn, List.intercalate_splitOn] at hjoin
      rw [ih htexts hrest]

/-! ## Words at a separator -/

variable {w path : List α}

omit [DecidableEq α] in
/-- A word before a separator ends the first piece, or stands in what follows it. -/
lemma concat_infix_append_cons (hw : sep ∉ w) {c rest : List α} (hc : sep ∉ c) :
    w ++ [sep] <:+: c ++ sep :: rest ↔ w <:+ c ∨ w ++ [sep] <:+: rest := by
  constructor
  · rintro ⟨u, v, h⟩
    rw [← List.append_assoc, List.append_assoc (u ++ w), List.singleton_append] at h
    rcases List.append_eq_append_iff.mp h with ⟨t, rfl, ht⟩ | ⟨t, ht, hrest⟩
    · cases t with
      | nil => exact .inl (by rw [List.append_nil]; exact List.suffix_append u w)
      | cons a t =>
        -- the separator after the word would be in the first piece
        obtain ⟨rfl, -⟩ := List.cons.inj ht
        exact absurd (by simp) hc
    · cases t with
      | nil => exact .inl ⟨u, by rw [ht, List.append_nil]⟩
      | cons a t =>
        obtain ⟨rfl, rfl⟩ := List.cons.inj hrest
        refine .inr ?_
        -- the word has no separator in it, so it begins after this one
        rcases List.append_eq_append_iff.mp ht with ⟨x, -, rfl⟩ | ⟨x, -, hx⟩
        · exact absurd (by simp) hw
        · cases x with
          | nil =>
            obtain rfl : sep :: t = w := hx
            exact absurd List.mem_cons_self hw
          | cons b x =>
            obtain ⟨-, rfl⟩ := List.cons.inj hx
            exact ⟨x, v, by simp⟩
  · rintro (⟨u, rfl⟩ | h)
    · exact ⟨u, rest, by simp⟩
    · exact h.trans ((List.suffix_cons sep rest).trans (List.suffix_append c _)).isInfix

/-- It ends one of the pieces that another one follows. -/
lemma concat_infix_iff (hw : sep ∉ w) :
    w ++ [sep] <:+: path ↔ ∃ c ∈ (path.splitOn sep).dropLast, w <:+ c := by
  suffices hmain : ∀ parts : List (List α), (∀ c ∈ parts, sep ∉ c) →
      (w ++ [sep] <:+: [sep].intercalate parts ↔ ∃ c ∈ parts.dropLast, w <:+ c) by
    have h := hmain (path.splitOn sep) fun c hc => sep_notMem_of_mem_splitOn hc
    rwa [List.intercalate_splitOn] at h
  intro parts hparts
  induction parts with
  | nil => simp
  | cons c rest ih =>
    have hc : sep ∉ c := hparts c List.mem_cons_self
    cases rest with
    | nil =>
      rw [List.intercalate_singleton]
      refine iff_of_false (fun h => hc (h.subset (by simp))) ?_
      rintro ⟨d, hd, -⟩
      exact List.not_mem_nil hd
    | cons d rest =>
      rw [List.intercalate_cons_cons, List.append_assoc, List.singleton_append,
        concat_infix_append_cons hw hc, ih fun d hd => hparts d (List.mem_cons_of_mem _ hd),
        List.dropLast_cons_cons]
      simp

/-- A word begins a text exactly when it begins the first piece. -/
lemma prefix_iff_head (hw : sep ∉ w) :
    w <+: path ↔ ∃ c, (path.splitOn sep).head? = some c ∧ w <+: c := by
  have hjoin : [sep].intercalate (path.splitOn sep) = path := List.intercalate_splitOn sep
  obtain ⟨c, rest, hsplit⟩ := List.exists_cons_of_ne_nil (List.splitOn_ne_nil sep path)
  rw [hsplit, List.head?_cons]
  rw [hsplit] at hjoin
  cases rest with
  | nil =>
    rw [List.intercalate_singleton] at hjoin
    simp [hjoin]
  | cons d rest =>
    rw [List.intercalate_cons_cons, List.append_assoc, List.singleton_append] at hjoin
    rw [← hjoin]
    constructor
    · rintro ⟨v, h⟩
      rcases List.append_eq_append_iff.mp h with ⟨x, rfl, -⟩ | ⟨x, rfl, hx⟩
      · exact ⟨_, rfl, List.prefix_append w x⟩
      · cases x with
        | nil => exact ⟨c, rfl, by simp⟩
        | cons b x =>
          obtain ⟨rfl, -⟩ := List.cons.inj hx
          exact absurd (by simp) hw
    · rintro ⟨c', hc', h⟩
      obtain rfl := Option.some.inj hc'
      exact h.trans (List.prefix_append c _)

/-! ## Two texts with a mark between them -/

omit [DecidableEq α] in
/-- The mark between a front and a back does not overlap with the front or with itself. -/
lemma append_mark_inj {front mark back a b : List α}
    (hfront : ∀ z ∈ front.tails, z ≠ [] → ¬ z <+: mark ∧ ¬ mark <+: z)
    (hmark : ∀ z ∈ (mark ++ back).inits, z ≠ [] → ¬ z ++ mark <+: mark ++ back) :
    a ++ (mark ++ b) = front ++ (mark ++ back) ↔ a = front ∧ b = back := by
  constructor
  · intro h
    rcases List.append_eq_append_iff.mp h with ⟨z, hz, hrest⟩ | ⟨z, hz, hrest⟩
    · by_cases hnil : z = []
      · subst hnil
        rw [List.append_nil] at hz
        rw [List.nil_append] at hrest
        exact ⟨hz.symm, List.append_cancel_left hrest⟩
      · exfalso
        obtain ⟨hle, hge⟩ := hfront z ((List.mem_tails _ _).mpr ⟨a, hz.symm⟩) hnil
        have hprefix : z <+: mark ++ b := ⟨_, hrest.symm⟩
        exact (List.prefix_or_prefix_of_prefix hprefix (List.prefix_append mark b)).elim hle hge
    · by_cases hnil : z = []
      · subst hnil
        rw [List.append_nil] at hz
        rw [List.nil_append] at hrest
        exact ⟨hz, (List.append_cancel_left hrest).symm⟩
      · exfalso
        refine hmark z ((List.mem_inits _ _).mpr ⟨_, hrest.symm⟩) hnil ⟨b, ?_⟩
        rw [List.append_assoc, hrest]
  · rintro ⟨rfl, rfl⟩
    rfl

/-! ## Two texts with a doubled separator between them -/

/-- Text is shifted over the separator, from the second text to the first: one letter of the
separator, or a text that ends at a further doubled separator. -/
def Shifted (sep : α) (x y x' y' : List α) : Prop :=
  (x' = x ++ [sep] ∧ y = sep :: y') ∨
  ∃ t, x' = x ++ sep :: sep :: t ∧ y = t ++ sep :: sep :: y'

variable {x y x' y' : List α}

omit [DecidableEq α] in
lemma Shifted.joined_eq (h : Shifted sep x y x' y') :
    x ++ sep :: sep :: y = x' ++ sep :: sep :: y' := by
  rcases h with ⟨rfl, rfl⟩ | ⟨t, rfl, rfl⟩
  · simp
  · simp

omit [DecidableEq α] in
/-- What stands between the two separators, when the first one is further to the left. -/
lemma shifted_of_append {t : List α} (ht : t ≠ [])
    (h : sep :: sep :: y = t ++ sep :: sep :: y') : Shifted sep x y (x ++ t) y' := by
  cases t with
  | nil => exact absurd rfl ht
  | cons a t =>
    obtain ⟨rfl, htail⟩ := List.cons.inj h
    cases t with
    | nil => exact .inl ⟨rfl, (List.cons.inj htail).2⟩
    | cons b t =>
      obtain ⟨rfl, hrest⟩ := List.cons.inj htail
      exact .inr ⟨t, rfl, hrest⟩

omit [DecidableEq α] in
/-- Two pairs of texts give the same joined text when they are the same, or when text is
shifted between them in one direction or the other. -/
theorem doubled_eq_iff : x ++ sep :: sep :: y = x' ++ sep :: sep :: y' ↔
    (x = x' ∧ y = y') ∨ Shifted sep x y x' y' ∨ Shifted sep x' y' x y := by
  constructor
  · intro h
    by_cases hx : x = x'
    · subst hx
      have htail := List.append_cancel_left h
      exact .inl ⟨rfl, (List.cons.inj (List.cons.inj htail).2).2⟩
    · right
      rcases List.append_eq_append_iff.mp h with ⟨t, rfl, ht⟩ | ⟨t, rfl, ht⟩
      · exact .inl (shifted_of_append (fun h0 => hx (by rw [h0, List.append_nil])) ht)
      · exact .inr (shifted_of_append (fun h0 => hx (by rw [h0, List.append_nil])) ht)
  · rintro (⟨rfl, rfl⟩ | h | h)
    · rfl
    · exact h.joined_eq
    · exact h.joined_eq.symm

end Arcsent.Lib
