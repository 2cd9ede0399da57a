/-
# Loops that try again

A loop that makes attempts until one succeeds or a limit is reached, and lets some time go
by in between, leaves a trace: a mark for each attempt, and after it the events of the gap
that follows.  A trace determines its blocks, so that two traces of the same attempts agree
exactly when their gaps do.

The time that goes by is often doubled from gap to gap, in integers of a fixed width.  The
first product that does not fit is negative.
-/
import Mathlib.Algebra.Order.Ring.Int
import Mathlib.Data.List.Range
import Mathlib.Tactic.Ring
import Mathlib.Tactic.Linarith

namespace Arcsent.Lib

/-! ## The last attempt -/

/-- The attempts are numbered from `0`, and number `last` is the last one that is made: the
first one that succeeds, or the one at the limit. -/
structure IsLast (good : ℕ → Bool) (limit last : ℕ) : Prop where
  le : last ≤ limit
  failed : ∀ a < last, good a = false
  stop : good last = true ∨ last = limit

variable {good : ℕ → Bool} {limit last : ℕ}

/-- There is a last attempt. -/
theorem exists_isLast (good : ℕ → Bool) (limit : ℕ) : ∃ last, IsLast good limit last := by
  induction limit with
  | zero => exact ⟨0, le_rfl, fun a ha => absurd ha (Nat.not_lt_zero a), .inr rfl⟩
  | succ limit ih =>
    obtain ⟨last, hle, hfailed, hstop⟩ := ih
    cases hgood : good last with
    | true => exact ⟨last, hle.trans (Nat.le_succ limit), hfailed, .inl hgood⟩
    | false =>
      -- the limit was reached without success, and there is room for one more
      obtain rfl : last = limit := hstop.resolve_left (by simp [hgood])
      refine ⟨last + 1, le_rfl, ?_, .inr rfl⟩
      intro a ha
      rcases Nat.lt_succ_iff_lt_or_eq.mp ha with ha | rfl
      · exact hfailed a ha
      · exact hgood

/-- There is only one. -/
theorem IsLast.unique {last' : ℕ} (h : IsLast good limit last) (h' : IsLast good limit last') :
    last = last' := by
  have hle : ∀ {m n : ℕ}, IsLast good limit m → IsLast good limit n → m ≤ n := by
    intro m n hm hn
    by_contra hlt
    have hlt : n < m := not_le.mp hlt
    rcases hn.stop with hgood | rfl
    · simp [hm.failed n hlt] at hgood
    · exact absurd hm.le (not_le.mpr hlt)
  exact le_antisymm (hle h h') (hle h' h)

/-- An attempt is followed by another one when it and all before it have failed and the
limit is not reached. -/
theorem IsLast.lt_iff (h : IsLast good limit last) {a : ℕ} :
    a < last ↔ a < limit ∧ ∀ i ≤ a, good i = false := by
  constructor
  · intro ha
    exact ⟨ha.trans_le h.le, fun i hi => h.failed i (hi.trans_lt ha)⟩
  · rintro ⟨ha, hfailed⟩
    by_contra hlast
    rcases h.stop with hgood | rfl
    · simp [hfailed last (not_lt.mp hlast)] at hgood
    · exact hlast ha

/-- What is asked of every attempt before the last one, in terms of the attempts that fail. -/
theorem IsLast.forall_lt_iff (h : IsLast good limit last) (p : ℕ → Prop) :
    (∀ a < limit, (∀ i ≤ a, good i = false) → p a) ↔ ∀ a < last, p a := by
  constructor
  · intro hall a ha
    obtain ⟨hlimit, hfailed⟩ := h.lt_iff.mp ha
    exact hall a hlimit hfailed
  · intro hall a hlimit hfailed
    exact hall a (h.lt_iff.mpr ⟨hlimit, hfailed⟩)

/-- What is asked for the case that all attempts fail, in terms of the last one. -/
theorem IsLast.all_failed_iff (h : IsLast good limit last) (p : ℕ → Prop) :
    ((∀ a ≤ limit, good a = false) → p limit) ↔ (good last = false → p last) := by
  constructor
  · intro hall hfailed
    obtain rfl : last = limit := h.stop.resolve_left (by simp [hfailed])
    refine hall fun a ha => ?_
    rcases ha.lt_or_eq with ha | rfl
    · exact h.failed a ha
    · exact hfailed
  · intro hlast hall
    obtain rfl : last = limit := h.stop.resolve_left (by simp [hall last h.le])
    exact hlast (hall last le_rfl)

/-! ## Blocks of a trace -/

section Blocks

variable {ε : Type*}

/-- The trace of a list of blocks: each is a mark with the events after it. -/
def flat (blocks : List (ε × List ε)) : List ε := blocks.flatMap fun b => b.1 :: b.2

@[simp] lemma flat_nil : flat ([] : List (ε × List ε)) = [] := rfl

@[simp] lemma flat_cons (b : ε × List ε) (blocks : List (ε × List ε)) :
    flat (b :: blocks) = b.1 :: (b.2 ++ flat blocks) := rfl

lemma flat_append (bs cs : List (ε × List ε)) : flat (bs ++ cs) = flat bs ++ flat cs :=
  List.flatMap_append

lemma flat_flatMap {ι : Type*} (l : List ι) (f : ι → List (ε × List ε)) :
    flat (l.flatMap f) = l.flatMap fun x => flat (f x) :=
  List.flatMap_assoc

variable {marked : ε → Prop}

/-- Only the first event of a block is a mark. -/
def Blocked (marked : ε → Prop) (blocks : List (ε × List ε)) : Prop :=
  ∀ b ∈ blocks, marked b.1 ∧ ∀ e ∈ b.2, ¬ marked e

lemma Blocked.flatMap {ι : Type*} {l : List ι} {f : ι → List (ε × List ε)}
    (h : ∀ x ∈ l, Blocked marked (f x)) : Blocked marked (l.flatMap f) := by
  intro b hb
  obtain ⟨x, hx, hbx⟩ := List.mem_flatMap.mp hb
  exact h x hx b hbx

lemma Blocked.append {bs cs : List (ε × List ε)} (hb : Blocked marked bs)
    (hc : Blocked marked cs) : Blocked marked (bs ++ cs) := fun b hmem =>
  (List.mem_append.mp hmem).elim (hb b) (hc b)

/-- Events without a mark, and then nothing or a mark: the former end where the latter
begins. -/
lemma gap_unique {g g' : List ε} {bs cs : List (ε × List ε)} (hg : ∀ e ∈ g, ¬ marked e)
    (hg' : ∀ e ∈ g', ¬ marked e) (hb : Blocked marked bs) (hc : Blocked marked cs)
    (h : g ++ flat bs = g' ++ flat cs) : g = g' ∧ flat bs = flat cs := by
  induction g generalizing g' with
  | nil =>
    cases g' with
    | nil => exact ⟨rfl, h⟩
    | cons e g' =>
      cases bs with
      | nil => simp at h
      | cons b bs =>
        have hhead : b.1 = e := (List.cons.inj h).1
        exact absurd (hhead ▸ (hb b List.mem_cons_self).1) (hg' e List.mem_cons_self)
  | cons e g ih =>
    cases g' with
    | nil =>
      cases cs with
      | nil => simp at h
      | cons c cs =>
        have hhead : e = c.1 := (List.cons.inj h).1
        exact absurd (hhead ▸ (hc c List.mem_cons_self).1) (hg e List.mem_cons_self)
    | cons e' g' =>
      obtain ⟨rfl, htail⟩ := List.cons.inj h
      obtain ⟨rfl, hflat⟩ := ih (fun x hx => hg x (List.mem_cons_of_mem _ hx))
        (fun x hx => hg' x (List.mem_cons_of_mem _ hx)) htail
      exact ⟨rfl, hflat⟩

/-- A trace determines its blocks. -/
theorem flat_inj {bs cs : List (ε × List ε)} (hb : Blocked marked bs) (hc : Blocked marked cs)
    (h : flat bs = flat cs) : bs = cs := by
  induction bs generalizing cs with
  | nil =>
    cases cs with
    | nil => rfl
    | cons c cs => simp at h
  | cons b bs ih =>
    cases cs with
    | nil => simp at h
    | cons c cs =>
      have hbs : Blocked marked bs := fun x hx => hb x (List.mem_cons_of_mem _ hx)
      have hcs : Blocked marked cs := fun x hx => hc x (List.mem_cons_of_mem _ hx)
      rw [flat_cons, flat_cons] at h
      obtain ⟨hmark, hrest⟩ := List.cons.inj h
      obtain ⟨hgap, hflat⟩ := gap_unique (hb b List.mem_cons_self).2
        (hc c List.mem_cons_self).2 hbs hcs hrest
      rw [ih hbs hcs hflat, Prod.ext hmark hgap]

/-- Lists put together from the same parts, of the same lengths, agree part by part. -/
lemma flatMap_eq_iff {ι β : Type*} {f g : ι → List β} :
    ∀ {l : List ι}, (∀ x ∈ l, (f x).length = (g x).length) →
      (l.flatMap f = l.flatMap g ↔ ∀ x ∈ l, f x = g x) := by
  intro l
  induction l with
  | nil => simp
  | cons x l ih =>
    intro hlen
    have hrest := ih fun y hy => hlen y (List.mem_cons_of_mem _ hy)
    rw [List.flatMap_cons, List.flatMap_cons, List.forall_mem_cons, ← hrest]
    constructor
    · exact fun h => List.append_inj h (hlen x List.mem_cons_self)
    · rintro ⟨hx, hl⟩
      rw [hx, hl]

/-- The blocks of the attempts up to the last one. -/
def attemptBlocks (mark : ℕ → ε) (gap : ℕ → List ε) (last : ℕ) : List (ε × List ε) :=
  (List.range (last + 1)).map fun a => (mark a, gap a)

@[simp] lemma length_attemptBlocks (mark : ℕ → ε) (gap : ℕ → List ε) (last : ℕ) :
    (attemptBlocks mark gap last).length = last + 1 := by
  simp [attemptBlocks]

lemma mem_attemptBlocks {mark : ℕ → ε} {gap : ℕ → List ε} {b : ε × List ε} :
    b ∈ attemptBlocks mark gap last ↔ ∃ a ≤ last, (mark a, gap a) = b := by
  rw [attemptBlocks, List.mem_map]
  simp only [List.mem_range, Nat.lt_succ_iff]

lemma blocked_attemptBlocks {mark : ℕ → ε} {gap : ℕ → List ε} (hmark : ∀ a, marked (mark a))
    (hgap : ∀ a, ∀ e ∈ gap a, ¬ marked e) : Blocked marked (attemptBlocks mark gap last) := by
  intro b hb
  obtain ⟨a, -, rfl⟩ := mem_attemptBlocks.mp hb
  exact ⟨hmark a, hgap a⟩

/-- The same attempts have the same blocks when every gap is the same. -/
lemma attemptBlocks_congr_iff {mark : ℕ → ε} {gap gap' : ℕ → List ε} :
    attemptBlocks mark gap last = attemptBlocks mark gap' last ↔ ∀ a ≤ last, gap a = gap' a := by
  rw [attemptBlocks, attemptBlocks, List.map_inj_left]
  constructor
  · intro h a ha
    exact (Prod.mk.inj (h a (List.mem_range.mpr (Nat.lt_succ_of_le ha)))).2
  · intro h a ha
    rw [h a (Nat.le_of_lt_succ (List.mem_range.mp ha))]

/-- A loop that makes attempt `n` and then up to `left` more, until one succeeds: `gap` is
what happens before the next attempt, `final` what happens after the last one. -/
def retryLoop (good : ℕ → Bool) (mark : ℕ → ε) (gap final : ℕ → List ε) : ℕ → ℕ → List ε
  | 0, n => mark n :: final n
  | left + 1, n =>
    if good n then mark n :: final n
    else mark n :: (gap n ++ retryLoop good mark gap final left (n + 1))

/-- The trace of such a loop in blocks, from any of its attempts on. -/
lemma retryLoop_eq_range' {mark : ℕ → ε} {gap final : ℕ → List ε} :
    ∀ {left n : ℕ}, n ≤ last → IsLast good (n + left) last →
      retryLoop good mark gap final left n = flat ((List.range' n (last + 1 - n)).map fun a =>
        (mark a, if a < last then gap a else final a)) := by
  intro left
  induction left with
  | zero =>
    intro n hn h
    obtain rfl : n = last := le_antisymm hn h.le
    simp [retryLoop]
  | succ left ih =>
    intro n hn h
    rw [retryLoop]
    rcases hn.eq_or_lt with rfl | hlt
    · -- the attempt is the last one, so it succeeds
      have hgood : good n = true := h.stop.resolve_right (by omega)
      simp [hgood]
    · have hsize : last + 1 - n = (last + 1 - (n + 1)) + 1 := by omega
      have hlimit : n + (left + 1) = n + 1 + left := by omega
      rw [h.failed n hlt, if_neg (by simp), hsize, List.range'_succ, List.map_cons, flat_cons,
        ih hlt (hlimit ▸ h), if_pos hlt]

/-- The trace of the whole loop. -/
theorem retryLoop_eq {mark : ℕ → ε} {gap final : ℕ → List ε} (h : IsLast good limit last) :
    retryLoop good mark gap final limit 0 =
      flat (attemptBlocks mark (fun a => if a < last then gap a else final a) last) := by
  rw [retryLoop_eq_range' (Nat.zero_le last) (by rwa [Nat.zero_add]), attemptBlocks,
    List.range_eq_range', Nat.sub_zero]

end Blocks

/-! ## Doubling -/

/-- In integers between `-half` and `half`, a product that fits is itself. -/
lemma bmod_of_fits {half : ℕ} {x : ℤ} (hlow : 0 ≤ x) (hhigh : x < half) :
    x.bmod (2 * half) = x :=
  Int.bmod_eq_of_le (by omega) (by omega)

/-- One that only just does not fit is negative. -/
lemma bmod_of_overflows {half : ℕ} {x : ℤ} (hlow : (half : ℤ) ≤ x) (hhigh : x < 2 * half) :
    x.bmod (2 * half) < 0 := by
  have hshift : x.bmod (2 * half) = (x - (2 * half : ℕ)).bmod (2 * half) := by
    rw [Int.sub_bmod_right]
  rw [hshift, Int.bmod_eq_of_le (by omega) (by omega)]
  push_cast
  linarith

/-- A shift that may overflow and a product that may overflow are one product. -/
lemma bmod_mul_pow (b : ℤ) (a m : ℕ) : (b * ((2 : ℤ) ^ a).bmod m).bmod m = (b * 2 ^ a).bmod m :=
  Int.mul_bmod_bmod ..

/-- Doubling a positive number again and again: the first product that does not fit is less
than twice the bound. -/
lemma double_lt {half b : ℤ} {a : ℕ} (hb : b < half) (hpos : 0 < half)
    (hfits : ∀ i < a, b * 2 ^ i < half) : b * 2 ^ a < 2 * half := by
  cases a with
  | zero => linarith
  | succ a =>
    have hprev : b * 2 ^ a < half := hfits a (Nat.lt_succ_self a)
    rw [pow_succ, ← mul_assoc]
    linarith

/-- The products that fit are recognised by their signs, as long as none before them has
overflowed. -/
theorem fits_iff_pos {half : ℕ} {b : ℤ} (hb : 0 < b) (hbhalf : b < half) (n : ℕ) :
    (∀ a < n, b * 2 ^ a < half) ↔ ∀ a < n, 0 < (b * 2 ^ a).bmod (2 * half) := by
  have hpow : ∀ a : ℕ, 0 < b * 2 ^ a := fun a => mul_pos hb (pow_pos two_pos a)
  constructor
  · intro h a ha
    rw [bmod_of_fits (hpow a).le (h a ha)]
    exact hpow a
  · intro h a
    induction a using Nat.strong_induction_on with
    | _ a ih =>
      intro ha
      by_contra hover
      have hfits : ∀ i < a, b * 2 ^ i < half := fun i hi => ih i hi (hi.trans ha)
      have hneg := bmod_of_overflows (not_lt.mp hover) (double_lt hbhalf (by linarith) hfits)
      exact absurd (h a ha) (not_lt.mpr hneg.le)

/-- The same for signed integers whose width is `k + 1`. -/
theorem fits_bits_iff_pos (k : ℕ) {b : ℤ} (hb : 0 < b) (hlt : b < 2 ^ k) (n : ℕ) :
    (∀ a < n, b * 2 ^ a < 2 ^ k) ↔ ∀ a < n, 0 < (b * 2 ^ a).bmod (2 * 2 ^ k) := by
  have hhalf : ((2 ^ k : ℕ) : ℤ) = 2 ^ k := Nat.cast_pow 2 k
  rw [← hhalf] at hlt ⊢
  exact fits_iff_pos hb hlt n

end Arcsent.Lib
