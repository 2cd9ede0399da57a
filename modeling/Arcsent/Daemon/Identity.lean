/-
# The identity that is asked for and the one obtained

A setting for the user or the group asks for a number, which it gives itself or which stands in
the file beside the name it gives.  The kernel keeps the low 32 bits of the number that it is
handed, so that the process has the identity asked for exactly when that fits in 32 bits.
-/
import Arcsent.Daemon.Privileges

namespace Arcsent.Daemon

open Arcsent.Go

/-! ## The number that is asked for -/

/-- The sign of a number, if it is negative, and what follows the sign. -/
def signed : List Char → Bool × List Char
  | '-' :: cs => (true, cs)
  | '+' :: cs => (false, cs)
  | cs => (false, cs)

/-- The number that a row of digits stands for. -/
def ofDigits (digits : List Char) : ℕ := digits.foldl (fun n c => 10 * n + digit c) 0

/-- The number that a sign, if any, and digits stand for, however many there are. -/
def integer (s : String) : Option ℤ :=
  if (signed s.toList).2 = [] ∨ ¬ (signed s.toList).2.all isDigit then none
  else if (signed s.toList).1 then some (-ofDigits (signed s.toList).2)
  else some (ofDigits (signed s.toList).2)

/-- The same as a number that is not negative. -/
def natural (s : String) : Option ℕ :=
  (integer s).bind fun n => if 0 ≤ n then some n.toNat else none

/-- The name and the id of an entry of the file; other lines are passed over. -/
def entryOf (line : String) : Option (String × String) :=
  if line = "" ∨ hasPrefix line "#" then none
  else
    match (line.toList.splitOn ':').map String.ofList with
    | first :: _ :: third :: _ => some (first, third)
    | _ => none

/-- The number beside a name, in the first entry that has it. -/
def idOf (file : Except String Lines) (name : String) : Option ℕ :=
  match file with
  | .error _ => none
  | .ok found => ((found.lines.filterMap entryOf).find? (·.1 = name)).bind fun e => natural e.2

/-- The number that a setting asks for. -/
def requested (file : Except String Lines) (value : String) : Option ℕ :=
  if value = "" then none
  else
    match natural value with
    | some n => some n
    | none => idOf file value

/-- The function `strconv.Atoi` refuses what does not fit in 64 bits. -/
lemma atoi_eq (s : String) :
    atoi s = (integer s).filter fun v => -2 ^ 63 ≤ v ∧ v < 2 ^ 63 := by
  have hatoi : atoi s =
      if (signed s.toList).2 = [] ∨ ¬ (signed s.toList).2.all isDigit then none
      else
        let v : ℤ := if (signed s.toList).1 then -(ofDigits (signed s.toList).2 : ℕ)
          else (ofDigits (signed s.toList).2 : ℕ)
        if -2 ^ 63 ≤ v ∧ v < 2 ^ 63 then some v else none := rfl
  rw [hatoi, integer]
  rcases signed s.toList with ⟨neg, digits⟩
  dsimp only
  split_ifs <;> simp_all [Option.filter]

lemma atoi_eq_some_iff {s : String} {v : ℤ} :
    atoi s = some v ↔ integer s = some v ∧ -2 ^ 63 ≤ v ∧ v < 2 ^ 63 := by
  rw [atoi_eq, Option.filter_eq_some_iff, decide_eq_true_eq]

lemma natural_eq_some_iff {s : String} {n : ℕ} : natural s = some n ↔ integer s = some (n : ℤ) := by
  rw [natural, Option.bind_eq_some_iff]
  constructor
  · rintro ⟨v, hv, hn⟩
    split_ifs at hn with hpos
    rw [← Option.some.inj hn, Int.toNat_of_nonneg hpos]
    exact hv
  · intro h
    exact ⟨n, h, by simp⟩

lemma entryOf_eq_some_iff {line name third : String} :
    entryOf line = some (name, third) ↔ HasEntry line name third := by
  rw [entryOf, HasEntry]
  split_ifs with hpassed
  · simp [hpassed]
  · rw [and_iff_right hpassed]
    split
    · next first second third' rest hfields =>
      rw [hfields]
      simp
    · next hshort =>
      refine iff_of_false (by simp) ?_
      rintro ⟨second, rest, hfields⟩
      exact hshort _ _ _ _ hfields

/-- The first entry with a name is on the first line that has one. -/
lemma idOf_cons_of_hasEntry {line name third : String} (h : HasEntry line name third)
    (lines : List String) (err : Option String) :
    idOf (.ok ⟨line :: lines, err⟩) name = natural third := by
  rw [idOf]
  dsimp only
  rw [List.filterMap_cons_some (entryOf_eq_some_iff.mpr h), List.find?_cons_of_pos (by simp)]
  rfl

lemma idOf_cons_of_not_hasEntry {line name : String} (h : ∀ third, ¬ HasEntry line name third)
    (lines : List String) (err : Option String) :
    idOf (.ok ⟨line :: lines, err⟩) name = idOf (.ok ⟨lines, err⟩) name := by
  rw [idOf, idOf]
  dsimp only
  rw [List.filterMap_cons]
  cases hline : entryOf line with
  | none => rfl
  | some e =>
    have hname : e.1 ≠ name := by
      rintro rfl
      exact h e.2 (entryOf_eq_some_iff.mp hline)
    dsimp only
    rw [List.find?_cons_of_neg (by simpa using hname)]

/-- The loop of `lookupName` finds the first entry with the name. -/
lemma natural_of_lookupLines {label name path : String} {err : Option String} {id : ℤ}
    {lines : List String} (h : lookupLines label name path err lines = .ok id) :
    0 ≤ id ∧ id < 2 ^ 63 ∧ idOf (.ok ⟨lines, err⟩) name = some id.toNat := by
  induction lines with
  | nil => cases err <;> cases h
  | cons line lines ih =>
    obtain ⟨third, hentry, hatoi, hpos⟩ | ⟨hnone, hrest⟩ := lookupLines_cons_eq_ok h
    · -- the line of the name: its third field decides
      obtain ⟨hinteger, -, hlt⟩ := atoi_eq_some_iff.mp hatoi
      refine ⟨hpos, hlt, ?_⟩
      rw [idOf_cons_of_hasEntry hentry, natural_eq_some_iff, Int.toNat_of_nonneg hpos]
      exact hinteger
    · rw [idOf_cons_of_not_hasEntry hnone]
      exact ih hrest

lemma natural_of_lookupName {label name path : String} {file : Except String Lines} {id : ℤ}
    (h : lookupName label name path file = .ok id) :
    0 ≤ id ∧ id < 2 ^ 63 ∧ idOf file name = some id.toNat := by
  cases file with
  | error err => cases h
  | ok found => exact natural_of_lookupLines h

/-- What a value is resolved to is the number asked for, unless that is one too long for an
`int`, which is looked up as a name. -/
lemma requested_of_resolveID {label value path : String} {file : Except String Lines} {id : ℤ}
    (hvalue : value ≠ "") (h : resolveID label value path file = .ok id) :
    0 ≤ id ∧ id < 2 ^ 63 ∧ ∃ n : ℕ, requested file value = some n ∧ (id = n ∨ 2 ^ 63 ≤ n) := by
  rw [resolveID, if_neg hvalue] at h
  rw [requested, if_neg hvalue]
  cases hnatural : natural value with
  | some n =>
    have hinteger := natural_eq_some_iff.mp hnatural
    split at h
    · next parsed hatoi =>
      obtain ⟨hparsed, -, hlt⟩ := atoi_eq_some_iff.mp hatoi
      obtain rfl := Option.some.inj (hinteger.symm.trans hparsed)
      rw [if_neg (not_lt.mpr (Int.natCast_nonneg n))] at h
      obtain rfl := Except.ok.inj h
      exact ⟨Int.natCast_nonneg n, hlt, n, rfl, .inl rfl⟩
    · next hatoi =>
      -- the number does not fit
      obtain ⟨hpos, hlt, -⟩ := natural_of_lookupName h
      refine ⟨hpos, hlt, n, rfl, .inr ?_⟩
      by_contra hfits
      have hsome : atoi value = some (n : ℤ) :=
        atoi_eq_some_iff.mpr ⟨hinteger, by omega, by omega⟩
      rw [hsome] at hatoi
      cases hatoi
  | none =>
    have hname : lookupName label value path file = .ok id := by
      split at h
      · next parsed hatoi =>
        split_ifs at h with hneg
        · exact h
        · -- a number that is not negative would have been taken
          obtain ⟨hparsed, -, -⟩ := atoi_eq_some_iff.mp hatoi
          have hsome : natural value = some parsed.toNat :=
            natural_eq_some_iff.mpr (by rw [Int.toNat_of_nonneg (not_lt.mp hneg)]; exact hparsed)
          rw [hsome] at hnatural
          cases hnatural
      · exact h
    obtain ⟨hpos, hlt, hid⟩ := natural_of_lookupName hname
    exact ⟨hpos, hlt, id.toNat, hid, .inl (Int.toNat_of_nonneg hpos).symm⟩

/-! ## The identity that is obtained -/

/-- The part of an id that the kernel looks at. -/
def low32 (id : ℤ) : ℤ := id % 2 ^ 32

/-- What the two system calls do: they look at the low 32 bits; for root they set the three
ids, for others the effective one, and nothing else. -/
structure Kernel.Low32 (k : Kernel) : Prop where
  setgid : ∀ gid c c', k.setgid gid c = .ok c' →
    c' = if c.euid = 0 then { c with rgid := low32 gid, egid := low32 gid, sgid := low32 gid }
      else { c with egid := low32 gid }
  setuid : ∀ uid c c', k.setuid uid c = .ok c' →
    c' = if c.euid = 0 then { c with ruid := low32 uid, euid := low32 uid, suid := low32 uid }
      else { c with euid := low32 uid }

/-- The ids of the user that a drop is about: that of a process of another user than root
changes its effective id only. -/
def uids (c c' : Credentials) : List ℤ :=
  if c.euid = 0 then [c'.ruid, c'.euid, c'.suid] else [c'.euid]

def gids (c c' : Credentials) : List ℤ :=
  if c.euid = 0 then [c'.rgid, c'.egid, c'.sgid] else [c'.egid]

/-- An id that is resolved is the number that is asked for and the one that the process has;
it is not that of root unless root is asked for. -/
structure Obtained (asked : Option ℕ) (resolved : Except String ℤ) (ids : List ℤ) : Prop where
  same : ∀ id, resolved = .ok id → 0 ≤ id → asked = some id.toNat ∧ ∀ x ∈ ids, x = id
  notRoot : ∀ n, asked = some n → n ≠ 0 → ∀ x ∈ ids, x ≠ 0

variable {k : Kernel} {files : IdFiles} {user group : String} {c c' : Credentials}

/-- The first call, if it is made. -/
lemma Kernel.Low32.after_setgid (hk : k.Low32) {gid : ℤ}
    (h : (if 0 ≤ gid then k.setgid gid c else .ok c) = .ok c') :
    c'.euid = c.euid ∧ (0 ≤ gid → ∀ x ∈ gids c c', x = low32 gid) := by
  split_ifs at h with hgid
  · rw [hk.setgid gid c c' h, gids]
    split_ifs <;> simp
  · obtain rfl := Except.ok.inj h
    exact ⟨rfl, fun hpos => absurd hpos hgid⟩

/-- The second call, if it is made. -/
lemma Kernel.Low32.after_setuid (hk : k.Low32) {uid : ℤ}
    (h : (if 0 ≤ uid then k.setuid uid c else .ok c) = .ok c') :
    (c'.rgid = c.rgid ∧ c'.egid = c.egid ∧ c'.sgid = c.sgid) ∧
      (0 ≤ uid → ∀ x ∈ uids c c', x = low32 uid) := by
  split_ifs at h with huid
  · rw [hk.setuid uid c c' h, uids]
    split_ifs <;> simp
  · obtain rfl := Except.ok.inj h
    exact ⟨⟨rfl, rfl, rfl⟩, fun hpos => absurd hpos huid⟩

/-- A drop that works out has resolved both values, and the process has their low bits. -/
lemma ids_of_dropPrivileges (hk : k.Low32)
    (hdrop : dropPrivileges k files user group c = (c', none)) :
    ∃ uid gid, resolveUserID files user = .ok uid ∧ resolveGroupID files group = .ok gid ∧
      (0 ≤ uid → ∀ x ∈ uids c c', x = low32 uid) ∧
      (0 ≤ gid → ∀ x ∈ gids c c', x = low32 gid) := by
  rw [dropPrivileges] at hdrop
  split_ifs at hdrop with hempty
  · -- nothing is asked for
    obtain ⟨rfl, rfl⟩ := hempty
    exact ⟨-1, -1, rfl, rfl, fun h => absurd h (by decide), fun h => absurd h (by decide)⟩
  · split at hdrop
    · cases hdrop
    · next uid huid =>
      split at hdrop
      · cases hdrop
      · next gid hgid =>
        split at hdrop
        · cases hdrop
        · next mid hmid =>
          split at hdrop
          · cases hdrop
          · next last hlast =>
            obtain ⟨rfl, -⟩ := Prod.mk.inj hdrop
            obtain ⟨heuid, hgids⟩ := hk.after_setgid hmid
            obtain ⟨⟨hrgid, hegid, hsgid⟩, huids⟩ := hk.after_setuid hlast
            refine ⟨uid, gid, huid, hgid, ?_, ?_⟩
            · rwa [uids, heuid] at huids
            · rw [gids, hrgid, hegid, hsgid]
              exact hgids

/-- One of the two: the process has the id that is asked for exactly when that fits. -/
lemma obtained_iff {label value path : String} {file : Except String Lines} {id : ℤ}
    {ids : List ℤ} (hids : ids ≠ []) (hresolve : resolveID label value path file = .ok id)
    (hlow : 0 ≤ id → ∀ x ∈ ids, x = low32 id) :
    Obtained (requested file value) (.ok id) ids ↔
      ∀ n, requested file value = some n → n < 2 ^ 32 := by
  by_cases hvalue : value = ""
  · have hnone : requested file value = none := by rw [requested, if_pos hvalue]
    rw [resolveID, if_pos hvalue] at hresolve
    obtain rfl := Except.ok.inj hresolve
    rw [hnone]
    refine iff_of_true ⟨fun id hid hpos => ?_, fun n hn => by cases hn⟩ (fun n hn => by cases hn)
    rw [← Except.ok.inj hid] at hpos
    exact absurd hpos (by decide)
  · obtain ⟨hpos, hlt, n, hn, hsame⟩ := requested_of_resolveID hvalue hresolve
    rw [hn]
    constructor
    · intro h m hm
      obtain rfl := Option.some.inj hm
      obtain ⟨hasked, hall⟩ := h.same id rfl hpos
      obtain ⟨x, hx⟩ := List.exists_mem_of_ne_nil ids hids
      have hid : id = low32 id := (hall x hx).symm.trans (hlow hpos x hx)
      have hn' : n = id.toNat := Option.some.inj hasked
      rw [low32] at hid
      omega
    · intro h
      have hfits := h n rfl
      have hid : id = n := hsame.resolve_right (by omega)
      have hkept : low32 id = id := by
        rw [low32]
        omega
      refine ⟨fun id' hid' _ => ?_, fun m hm hne x hx => ?_⟩
      · obtain rfl := Except.ok.inj hid'
        exact ⟨by rw [hid, Int.toNat_natCast], fun x hx => (hlow hpos x hx).trans hkept⟩
      · obtain rfl := Option.some.inj hm
        rw [hlow hpos x hx, hkept, hid]
        exact Int.natCast_ne_zero.mpr hne

/-- **The identity that is asked for is obtained exactly when it fits in 32 bits.** -/
theorem obtained_iff_fits (hk : k.Low32)
    (hdrop : dropPrivileges k files user group c = (c', none)) :
    (Obtained (requested files.passwd user) (resolveUserID files user) (uids c c') ∧
        Obtained (requested files.group group) (resolveGroupID files group) (gids c c')) ↔
      (∀ n, requested files.passwd user = some n → n < 2 ^ 32) ∧
        ∀ n, requested files.group group = some n → n < 2 ^ 32 := by
  obtain ⟨uid, gid, huid, hgid, huids, hgids⟩ := ids_of_dropPrivileges hk hdrop
  rw [huid, hgid]
  refine and_congr (obtained_iff ?_ huid huids) (obtained_iff ?_ hgid hgids)
  · rw [uids]
    split_ifs <;> simp
  · rw [gids]
    split_ifs <;> simp

/-! ### Two drops -/

/-- The system calls of Linux, which refuse the id whose bits are all set. -/
def linux32 : Kernel where
  setgid gid c :=
    if low32 gid = 2 ^ 32 - 1 then .error "invalid argument"
    else if c.euid = 0 then
      .ok { c with rgid := low32 gid, egid := low32 gid, sgid := low32 gid }
    else if low32 gid = c.rgid ∨ low32 gid = c.sgid then .ok { c with egid := low32 gid }
    else .error "operation not permitted"
  setuid uid c :=
    if low32 uid = 2 ^ 32 - 1 then .error "invalid argument"
    else if c.euid = 0 then
      .ok { c with ruid := low32 uid, euid := low32 uid, suid := low32 uid }
    else if low32 uid = c.ruid ∨ low32 uid = c.suid then .ok { c with euid := low32 uid }
    else .error "operation not permitted"

lemma low32_linux32 : linux32.Low32 := by
  constructor
  · intro gid c c' h
    rw [linux32] at h
    dsimp only at h
    split_ifs at h with _ hroot
    · rw [if_pos hroot, Except.ok.inj h]
    · rw [if_neg hroot, Except.ok.inj h]
  · intro uid c c' h
    rw [linux32] at h
    dsimp only at h
    split_ifs at h with _ hroot
    · rw [if_pos hroot, Except.ok.inj h]
    · rw [if_neg hroot, Except.ok.inj h]

/-- A user by its name and a group by its number. -/
theorem obtained_arcsent :
    Obtained (some 998) (.ok 998) [998, 998, 998] ∧
      Obtained (some 997) (.ok 997) [997, 997, 997] := by
  have hdrop : dropPrivileges linux32 idFiles "arcsent" "+0997" (rootWith []) =
      (⟨998, 998, 998, 997, 997, 997, []⟩, none) := by decide +kernel
  have huser : requested idFiles.passwd "arcsent" = some 998 := by decide +kernel
  have hgroup : requested idFiles.group "+0997" = some 997 := by decide +kernel
  have huid : resolveUserID idFiles "arcsent" = .ok 998 := by decide +kernel
  have hgid : resolveGroupID idFiles "+0997" = .ok 997 := by decide +kernel
  have hiff := obtained_iff_fits low32_linux32 hdrop
  rw [huser, hgroup, huid, hgid] at hiff
  refine hiff.mpr ⟨fun n hn => ?_, fun n hn => ?_⟩
  · rw [← Option.some.inj hn]
    decide
  · rw [← Option.some.inj hn]
    decide

/-- The number 2 ^ 32 asks for a user that is not root, and leaves the process as root. -/
theorem not_obtained_wide :
    dropPrivileges linux32 idFiles "4294967296" "arcsent" ⟨0, 0, 0, 0, 0, 0, []⟩ =
        (⟨0, 0, 0, 997, 997, 997, []⟩, none) ∧
      requested idFiles.passwd "4294967296" = some 4294967296 ∧
      ¬ ∀ (k : Kernel) (files : IdFiles) (user group : String) (c c' : Credentials), k.Low32 →
        dropPrivileges k files user group c = (c', none) →
        Obtained (requested files.passwd user) (resolveUserID files user) (uids c c') := by
  have hdrop : dropPrivileges linux32 idFiles "4294967296" "arcsent" ⟨0, 0, 0, 0, 0, 0, []⟩ =
      (⟨0, 0, 0, 997, 997, 997, []⟩, none) := by decide +kernel
  have hasked : requested idFiles.passwd "4294967296" = some 4294967296 := by decide +kernel
  refine ⟨hdrop, hasked, fun h => ?_⟩
  have hobtained := h linux32 idFiles "4294967296" "arcsent" _ _ low32_linux32 hdrop
  exact hobtained.notRoot 4294967296 hasked (by decide) 0 (by decide) rfl

end Arcsent.Daemon
