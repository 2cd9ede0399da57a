/-
# Dropping privileges

`internal/daemon/privileges.go`: a daemon that is started by root gives up its user and its
group before it does anything else.  The ids are numbers, or names that are looked up in
`/etc/passwd` and `/etc/group`.  The process changes its group and then its user; the
supplementary groups that it was started with are never changed.
-/
import Arcsent.Config.Types
import Arcsent.Go.Parse

namespace Arcsent.Daemon

open Arcsent.Go

/-! ## Resolving ids -/

/-- The function `strconv.Atoi`: a sign, if any, and digits, for a 64-bit number. -/
def atoi (s : String) : Option ℤ :=
  let (neg, digits) :=
    match s.toList with
    | '-' :: cs => (true, cs)
    | '+' :: cs => (false, cs)
    | cs => (false, cs)
  if digits = [] ∨ ¬ digits.all isDigit then none
  else
    let n : ℕ := digits.foldl (fun n c => 10 * n + digit c) 0
    let v : ℤ := if neg then -n else n
    if -2 ^ 63 ≤ v ∧ v < 2 ^ 63 then some v else none

/-- What a `bufio.Scanner` finds in a file: its lines, and the error it stops with. -/
structure Lines where
  lines : List String
  err : Option String

/-- The two files, each opened or not. -/
structure IdFiles where
  passwd : Except String Lines
  group : Except String Lines

/-- The loop of `lookupName` over the lines that are left. -/
def lookupLines (label name path : String) (err : Option String) : List String → Except String ℤ
  | [] =>
    match err with
    | some err => .error ("read " ++ path ++ ": " ++ err)
    | none => .error ("unknown " ++ label ++ " " ++ quote name)
  | line :: lines =>
    if line = "" ∨ hasPrefix line "#" then lookupLines label name path err lines
    else
      match (line.toList.splitOn ':').map String.ofList with
      | first :: _ :: third :: _ =>
        if first ≠ name then lookupLines label name path err lines
        else
          match atoi third with
          | some id =>
            if id < 0 then .error ("invalid " ++ label ++ " id for " ++ name ++ " in " ++ path)
            else .ok id
          | none => .error ("invalid " ++ label ++ " id for " ++ name ++ " in " ++ path)
      | _ => lookupLines label name path err lines

/-- The function `lookupName`. -/
def lookupName (label name path : String) (file : Except String Lines) : Except String ℤ :=
  match file with
  | .error err => .error ("open " ++ path ++ ": " ++ err)
  | .ok found => lookupLines label name path found.err found.lines

/-- The function `resolveID`. -/
def resolveID (label value path : String) (file : Except String Lines) : Except String ℤ :=
  if value = "" then .ok (-1)
  else
    match atoi value with
    | some parsed => if parsed < 0 then lookupName label value path file else .ok parsed
    | none => lookupName label value path file

def resolveUserID (files : IdFiles) (value : String) : Except String ℤ :=
  resolveID "user" value "/etc/passwd" files.passwd

def resolveGroupID (files : IdFiles) (value : String) : Except String ℤ :=
  resolveID "group" value "/etc/group" files.group

/-! ## The process -/

/-- The credentials of a process: the real, effective and saved ids, and the supplementary
groups. -/
structure Credentials where
  ruid : ℤ
  euid : ℤ
  suid : ℤ
  rgid : ℤ
  egid : ℤ
  sgid : ℤ
  groups : List ℤ
deriving DecidableEq

/-- The two system calls. -/
structure Kernel where
  setgid : ℤ → Credentials → Except String Credentials
  setuid : ℤ → Credentials → Except String Credentials

/-- The function `DropPrivileges`: the credentials after it, and the error it returns. -/
def dropPrivileges (k : Kernel) (files : IdFiles) (user group : String) (c : Credentials) :
    Credentials × Option String :=
  if user = "" ∧ group = "" then (c, none)
  else
    match resolveUserID files user with
    | .error err => (c, some err)
    | .ok uid =>
      match resolveGroupID files group with
      | .error err => (c, some err)
      | .ok gid =>
        match if 0 ≤ gid then k.setgid gid c else .ok c with
        | .error err => (c, some ("setgid: " ++ err))
        | .ok c =>
          match if 0 ≤ uid then k.setuid uid c else .ok c with
          | .error err => (c, some ("setuid: " ++ err))
          | .ok c => (c, none)

/-- The function `RequirePrivilegeDrop`: the error it returns. -/
def requirePrivilegeDrop (user group : String) (c : Credentials) : Option String :=
  if c.euid ≠ 0 then none
  else if user = "" then some "daemon.user must be set when running as root"
  else if group = "" then some "daemon.group must be set when running as root"
  else none

/-- The start of `Run`: the credentials that the daemon goes on with, or the error that it
ends with. -/
def runPrivileges (k : Kernel) (files : IdFiles) (cfg : DaemonConfig) (c : Credentials) :
    Except String Credentials :=
  if cfg.dropPrivileges then
    match requirePrivilegeDrop cfg.user cfg.group c with
    | some err => .error err
    | none =>
      match dropPrivileges k files cfg.user cfg.group c with
      | (_, some err) => .error err
      | (c, none) => .ok c
  else .ok c

/-! ## A complete drop -/

/-- What the two system calls do for root: they set the three ids, and nothing else.  They are
given ids of any size here; ids of 32 bits come with the identity of the process. -/
structure Kernel.AsRoot (k : Kernel) : Prop where
  setgid : ∀ gid c c', c.euid = 0 → k.setgid gid c = .ok c' →
    c' = { c with rgid := gid, egid := gid, sgid := gid }
  setuid : ∀ uid c c', c.euid = 0 → k.setuid uid c = .ok c' →
    c' = { c with ruid := uid, euid := uid, suid := uid }

/-- Nothing is left of the credentials `c` of the process. -/
structure Dropped (uid gid : ℤ) (c c' : Credentials) : Prop where
  user : c'.ruid = uid ∧ c'.euid = uid ∧ c'.suid = uid
  group : c'.rgid = gid ∧ c'.egid = gid ∧ c'.sgid = gid
  groups : ∀ g ∈ c'.groups, g ∈ c.groups → g = gid

/-- A line with an entry of a name. -/
def HasEntry (line name third : String) : Prop :=
  ¬ (line = "" ∨ hasPrefix line "#") ∧
    ∃ second rest, (line.toList.splitOn ':').map String.ofList = name :: second :: third :: rest

/-- One turn of the loop: a line of the name decides, and every other line is passed over. -/
lemma lookupLines_cons_eq_ok {label name path line : String} {err : Option String}
    {lines : List String} {id : ℤ}
    (h : lookupLines label name path err (line :: lines) = .ok id) :
    (∃ third, HasEntry line name third ∧ atoi third = some id ∧ 0 ≤ id) ∨
      (∀ third, ¬ HasEntry line name third) ∧ lookupLines label name path err lines = .ok id := by
  rw [lookupLines] at h
  split_ifs at h with hpassed
  · exact .inr ⟨fun _ hentry => hentry.1 hpassed, h⟩
  · split at h
    · next first second third rest hfields =>
      split_ifs at h with hfirst
      · -- the line is that of another name
        refine .inr ⟨?_, h⟩
        rintro third' ⟨-, second', rest', hfields'⟩
        exact hfirst (List.cons.inj (hfields.symm.trans hfields')).1
      · obtain rfl := not_not.mp hfirst
        split at h
        · next parsed hatoi =>
          split_ifs at h with hneg
          obtain rfl := Except.ok.inj h
          exact .inl ⟨third, ⟨hpassed, second, rest, hfields⟩, hatoi, not_lt.mp hneg⟩
        · cases h
    · next hshort =>
      exact .inr ⟨fun third ⟨_, second, rest, hfields⟩ => hshort _ _ _ _ hfields, h⟩

/-- A name is found with an id that is not negative. -/
lemma nonneg_of_lookupLines {label name path : String} {err : Option String} {id : ℤ}
    {lines : List String} (h : lookupLines label name path err lines = .ok id) : 0 ≤ id := by
  induction lines with
  | nil => cases err <;> cases h
  | cons line lines ih =>
    obtain ⟨third, -, -, hpos⟩ | ⟨-, hrest⟩ := lookupLines_cons_eq_ok h
    · exact hpos
    · exact ih hrest

/-- A value that is not empty has an id that is not negative. -/
lemma nonneg_of_resolveID {label value path : String} {file : Except String Lines} {id : ℤ}
    (hvalue : value ≠ "") (h : resolveID label value path file = .ok id) : 0 ≤ id := by
  have hlookup : lookupName label value path file = .ok id → 0 ≤ id := by
    intro h
    cases file with
    | error err => cases h
    | ok found => exact nonneg_of_lookupLines h
  rw [resolveID, if_neg hvalue] at h
  split at h
  · split_ifs at h with hneg
    · -- a negative number is looked up as a name
      exact hlookup h
    · rw [← Except.ok.inj h]
      exact not_lt.mp hneg
  · exact hlookup h

variable {k : Kernel} {files : IdFiles} {user group : String} {c c' : Credentials}

/-- A root process that is to drop its privileges has been given a user and a group. -/
lemma ne_empty_of_require (hroot : c.euid = 0) (h : requirePrivilegeDrop user group c = none) :
    user ≠ "" ∧ group ≠ "" := by
  rw [requirePrivilegeDrop, if_neg (not_not.mpr hroot)] at h
  split_ifs at h with huser hgroup
  exact ⟨huser, hgroup⟩

/-- The credentials of a root process after it has dropped its privileges. -/
lemma dropPrivileges_eq (hk : k.AsRoot) (hroot : c.euid = 0)
    (hrequire : requirePrivilegeDrop user group c = none)
    (hdrop : dropPrivileges k files user group c = (c', none)) :
    ∃ uid gid, resolveUserID files user = .ok uid ∧ resolveGroupID files group = .ok gid ∧
      c' = ⟨uid, uid, uid, gid, gid, gid, c.groups⟩ := by
  obtain ⟨huser, hgroup⟩ := ne_empty_of_require hroot hrequire
  rw [dropPrivileges, if_neg fun h => huser h.1] at hdrop
  split at hdrop
  · cases hdrop
  · next uid huid =>
    split at hdrop
    · cases hdrop
    · next gid hgid =>
      -- neither id is `-1`, so that both calls are made
      rw [if_pos (nonneg_of_resolveID hgroup hgid)] at hdrop
      split at hdrop
      · cases hdrop
      · next mid hmid =>
        rw [if_pos (nonneg_of_resolveID huser huid)] at hdrop
        split at hdrop
        · cases hdrop
        · next last hlast =>
          obtain ⟨rfl, -⟩ := Prod.mk.inj hdrop
          refine ⟨uid, gid, huid, hgid, ?_⟩
          obtain rfl := hk.setgid gid c mid hroot hmid
          exact hk.setuid uid { c with rgid := gid, egid := gid, sgid := gid } last hroot hlast

/-- **The privileges are dropped completely exactly when the process was started with no
other supplementary group than the one it is to run with.** -/
theorem dropped_iff (hk : k.AsRoot) (hroot : c.euid = 0)
    (hrequire : requirePrivilegeDrop user group c = none)
    (hdrop : dropPrivileges k files user group c = (c', none)) :
    ∃ uid gid, resolveUserID files user = .ok uid ∧ resolveGroupID files group = .ok gid ∧
      (Dropped uid gid c c' ↔ ∀ g ∈ c.groups, g = gid) := by
  obtain ⟨uid, gid, huid, hgid, rfl⟩ := dropPrivileges_eq hk hroot hrequire hdrop
  refine ⟨uid, gid, huid, hgid, ?_⟩
  constructor
  · intro h g hg
    exact h.groups g hg hg
  · intro hgroups
    exact ⟨⟨rfl, rfl, rfl⟩, ⟨rfl, rfl, rfl⟩, fun g hg _ => hgroups g hg⟩

/-- A daemon that root starts with the setting `drop_privileges` goes on with the ids it has
resolved and the supplementary groups of root. -/
theorem runPrivileges_eq {cfg : DaemonConfig} (hk : k.AsRoot) (hroot : c.euid = 0)
    (hdrop : cfg.dropPrivileges = true) (h : runPrivileges k files cfg c = .ok c') :
    ∃ uid gid, resolveUserID files cfg.user = .ok uid ∧
      resolveGroupID files cfg.group = .ok gid ∧
      c' = ⟨uid, uid, uid, gid, gid, gid, c.groups⟩ := by
  rw [runPrivileges, if_pos hdrop] at h
  split at h
  · cases h
  · next hrequire =>
    split at h
    · cases h
    · next last hlast =>
      obtain rfl := Except.ok.inj h
      exact dropPrivileges_eq hk hroot hrequire hlast

/-! ### A user and a group of their own -/

/-- The system calls of Linux: only root may change to any id. -/
def linux : Kernel where
  setgid gid c :=
    if c.euid = 0 then .ok { c with rgid := gid, egid := gid, sgid := gid }
    else .error "operation not permitted"
  setuid uid c :=
    if c.euid = 0 then .ok { c with ruid := uid, euid := uid, suid := uid }
    else .error "operation not permitted"

lemma asRoot_linux : linux.AsRoot := by
  constructor
  · intro gid c c' hroot h
    rw [linux] at h
    dsimp only at h
    rw [if_pos hroot] at h
    exact (Except.ok.inj h).symm
  · intro uid c c' hroot h
    rw [linux] at h
    dsimp only at h
    rw [if_pos hroot] at h
    exact (Except.ok.inj h).symm

def idFiles : IdFiles where
  passwd := .ok ⟨["root:x:0:0:root:/root:/bin/sh", "arcsent:x:998:997::/var/lib/arcsent:"], none⟩
  group := .ok ⟨["root:x:0:", "arcsent:x:997:"], none⟩

/-- Root with some supplementary groups. -/
def rootWith (groups : List ℤ) : Credentials := ⟨0, 0, 0, 0, 0, 0, groups⟩

lemma drop_rootWith (groups : List ℤ) :
    requirePrivilegeDrop "arcsent" "arcsent" (rootWith groups) = none ∧
      dropPrivileges linux idFiles "arcsent" "arcsent" (rootWith groups) =
        (⟨998, 998, 998, 997, 997, 997, groups⟩, none) := by
  have huid : resolveUserID idFiles "arcsent" = .ok 998 := by decide +kernel
  have hgid : resolveGroupID idFiles "arcsent" = .ok 997 := by decide +kernel
  refine ⟨rfl, ?_⟩
  rw [dropPrivileges, if_neg (by decide), huid, hgid]
  rfl

/-- Without supplementary groups nothing of root is left. -/
theorem dropped_rootWith_nil :
    Dropped 998 997 (rootWith []) ⟨998, 998, 998, 997, 997, 997, []⟩ := by
  obtain ⟨hrequire, hdrop⟩ := drop_rootWith []
  obtain ⟨uid, gid, huid, hgid, hiff⟩ := dropped_iff asRoot_linux rfl hrequire hdrop
  obtain rfl : 998 = uid := by
    have h998 : resolveUserID idFiles "arcsent" = .ok 998 := by decide +kernel
    exact Except.ok.inj (h998.symm.trans huid)
  obtain rfl : 997 = gid := by
    have h997 : resolveGroupID idFiles "arcsent" = .ok 997 := by decide +kernel
    exact Except.ok.inj (h997.symm.trans hgid)
  exact hiff.mpr fun g hg => by cases hg

/-- The group of root that a login gives to root is kept. -/
theorem not_dropped_rootWith :
    requirePrivilegeDrop "arcsent" "arcsent" (rootWith [0]) = none ∧
      dropPrivileges linux idFiles "arcsent" "arcsent" (rootWith [0]) =
        (⟨998, 998, 998, 997, 997, 997, [0]⟩, none) ∧
      ¬ ∃ uid gid, resolveUserID idFiles "arcsent" = .ok uid ∧
        resolveGroupID idFiles "arcsent" = .ok gid ∧
        Dropped uid gid (rootWith [0]) ⟨998, 998, 998, 997, 997, 997, [0]⟩ := by
  obtain ⟨hrequire, hdrop⟩ := drop_rootWith [0]
  refine ⟨hrequire, hdrop, ?_⟩
  rintro ⟨uid, gid, -, -, hdropped⟩
  have hzero : (0 : ℤ) = gid :=
    hdropped.groups 0 (List.mem_singleton_self 0) (List.mem_singleton_self 0)
  have hgroup : (997 : ℤ) = gid := hdropped.group.1
  omega

end Arcsent.Daemon
