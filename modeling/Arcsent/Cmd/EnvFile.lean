/-
# The env file of `ctl validate` and `ctl storage-check`

The function `loadEnvFile` of `cmd/arcsent/main.go` sets the variables of a file and returns
a function that puts the old values back.  What it remembers as the old value of a variable
is the value just before its last line in the file.
-/
import Mathlib.Data.List.Dedup
import Mathlib.Data.List.Induction
import Mathlib.Logic.Function.Basic
import Arcsent.Go.Strings

namespace Arcsent.Cmd

open Arcsent.Go Arcsent.Go.Strings

/-! ## The environment -/

/-- The sign between a variable and its value. -/
def equals : UInt8 := 0x3D

/-- A byte that ends the texts of the system. -/
def nul : UInt8 := 0

/-- A variable can have a value: its name is not empty and has neither an equals sign nor the
zero byte in it, which the value has not either. -/
def Settable (key value : Bytes) : Prop := key ≠ [] ∧ equals ∉ key ∧ nul ∉ key ∧ nul ∉ value

instance (key value : Bytes) : Decidable (Settable key value) :=
  inferInstanceAs (Decidable (_ ∧ _ ∧ _ ∧ _))

/-- The environment of a process. -/
@[ext] structure Environ where
  /-- The function `os.LookupEnv`. -/
  lookup : Bytes → Option Bytes
  settable : ∀ key value, lookup key = some value → Settable key value

namespace Environ

def empty : Environ := ⟨fun _ => none, fun _ _ h => by cases h⟩

/-- The function `os.Setenv`; the error for a variable that cannot have the value is passed
over. -/
def setenv (env : Environ) (key value : Bytes) : Environ :=
  if h : Settable key value then
    { lookup := Function.update env.lookup key (some value)
      settable := fun k v hk => by
        by_cases hkey : k = key
        · subst hkey
          rw [Function.update_self] at hk
          exact Option.some.inj hk ▸ h
        · rw [Function.update_of_ne hkey] at hk
          exact env.settable k v hk }
  else env

/-- The function `os.Unsetenv`. -/
def unsetenv (env : Environ) (key : Bytes) : Environ where
  lookup := Function.update env.lookup key none
  settable k v hk := by
    by_cases hkey : k = key
    · rw [hkey, Function.update_self] at hk
      cases hk
    · rw [Function.update_of_ne hkey] at hk
      exact env.settable k v hk

@[simp] lemma lookup_unsetenv (env : Environ) (key : Bytes) :
    (env.unsetenv key).lookup = Function.update env.lookup key none := rfl

lemma lookup_setenv (env : Environ) (key value : Bytes) : (env.setenv key value).lookup =
    if Settable key value then Function.update env.lookup key (some value) else env.lookup := by
  rw [setenv]
  split_ifs <;> rfl

end Environ

/-! ## Loading and putting back -/

/-- The two parts of a text around the first equals sign, as `strings.SplitN(line, "=", 2)`
returns them. -/
def splitAtEquals (line : Bytes) : Option (Bytes × Bytes) :=
  if equals ∈ line then
    some (line.takeWhile (· ≠ equals), (line.dropWhile (· ≠ equals)).drop 1)
  else none

/-- What a line says: the variable and its value, unless it is passed over. -/
def assignment (raw : Bytes) : Option (Bytes × Bytes) :=
  let line := trimSpace raw
  if line = [] ∨ bytes "#" <+: line then none
  else
    match splitAtEquals line with
    | none => none
    | some (left, right) =>
      let key := trimSpace left
      if key = [] then none else some (key, trimSpace right)

/-- The state of the loop over the lines: the environment and the map `previous`. -/
structure Loading where
  env : Environ
  previous : Bytes → Option (Option Bytes)

/-- The body of the loop for a line that says something. -/
def Loading.assign (s : Loading) (a : Bytes × Bytes) : Loading where
  env := s.env.setenv a.1 a.2
  previous := Function.update s.previous a.1 (some (s.env.lookup a.1))

/-- The body of the loop. -/
def Loading.line (s : Loading) (raw : Bytes) : Loading :=
  match assignment raw with
  | none => s
  | some a => s.assign a

/-- The function `loadEnvFile`, the file being read or not. -/
def loadEnvFile (env : Environ) (path : String) (file : Except String Bytes) :
    Except String Loading :=
  if path = "" then .ok ⟨env, fun _ => none⟩
  else
    match file with
    | .error err => .error err
    | .ok raw => .ok ((raw.splitOn newline).foldl Loading.line ⟨env, fun _ => none⟩)

/-- The body of the loop of the function that is returned. -/
def restoreKey (previous : Bytes → Option (Option Bytes)) (env : Environ) (key : Bytes) :
    Environ :=
  match previous key with
  | none => env
  | some none => env.unsetenv key
  | some (some value) => env.setenv key value

/-- The function that is returned, which goes through the map in some order. -/
def Loading.restore (s : Loading) (order : KeyOrder s.previous) : Environ :=
  order.keys.foldl (restoreKey s.previous) s.env

/-! ## What the loop does to a variable -/

variable {env : Environ} {s : Loading} {key value : Bytes}

/-- The values that are given to a variable. -/
def valuesOf (key : Bytes) (as : List (Bytes × Bytes)) : List Bytes :=
  (as.filter (·.1 = key)).map Prod.snd

/-- The value of a variable after some values have been given to it. -/
def valueAfter (env : Environ) (key : Bytes) (values : List Bytes) : Option Bytes :=
  (values.filter (Settable key)).getLast?.or (env.lookup key)

lemma valuesOf_eq_nil_iff {as : List (Bytes × Bytes)} :
    valuesOf key as = [] ↔ ∀ a ∈ as, a.1 ≠ key := by
  rw [valuesOf, List.map_eq_nil_iff, List.filter_eq_nil_iff]
  simp only [decide_eq_true_eq, ne_eq]

lemma valuesOf_concat (key : Bytes) (as : List (Bytes × Bytes)) (a : Bytes × Bytes) :
    valuesOf key (as ++ [a]) = valuesOf key as ++ if a.1 = key then [a.2] else [] := by
  rw [valuesOf, valuesOf, List.filter_append, List.map_append]
  congr 1
  split_ifs with h <;> simp [h]

lemma valueAfter_concat (env : Environ) (key : Bytes) (values : List Bytes) (value : Bytes) :
    valueAfter env key (values ++ [value]) =
      if Settable key value then some value else valueAfter env key values := by
  rw [valueAfter, valueAfter, List.filter_append]
  split_ifs with h <;> simp [h]

/-- What holds after some lines: each variable has its last value, and the one before its last
line is remembered. -/
structure Loaded (env : Environ) (as : List (Bytes × Bytes)) (s : Loading) : Prop where
  lookup : ∀ key, s.env.lookup key = valueAfter env key (valuesOf key as)
  previous : ∀ key, s.previous key =
    if valuesOf key as = [] then none else some (valueAfter env key (valuesOf key as).dropLast)

/-- The step. -/
lemma Loaded.assign {as : List (Bytes × Bytes)} (h : Loaded env as s) (a : Bytes × Bytes) :
    Loaded env (as ++ [a]) (s.assign a) := by
  constructor
  · intro key
    rw [Loading.assign, Environ.lookup_setenv, valuesOf_concat]
    by_cases hkey : a.1 = key
    · subst hkey
      rw [if_pos rfl, valueAfter_concat]
      split_ifs
      · exact Function.update_self _ _ _
      · exact h.lookup a.1
    · rw [if_neg hkey, List.append_nil, ← h.lookup key]
      split_ifs
      · exact Function.update_of_ne (Ne.symm hkey) _ _
      · rfl
  · intro key
    rw [Loading.assign, valuesOf_concat]
    by_cases hkey : a.1 = key
    · subst hkey
      dsimp only
      rw [if_pos rfl, Function.update_self, if_neg (by simp), List.dropLast_concat, h.lookup]
    · dsimp only
      rw [if_neg hkey, List.append_nil, Function.update_of_ne (Ne.symm hkey), h.previous]

/-- The run. -/
lemma loaded_of_lines (env : Environ) (raws : List Bytes) : Loaded env (raws.filterMap assignment)
    (raws.foldl Loading.line ⟨env, fun _ => none⟩) := by
  induction raws using List.reverseRecOn with
  | nil => exact ⟨fun _ => rfl, fun _ => rfl⟩
  | append_singleton raws raw ih =>
    rw [List.foldl_concat, List.filterMap_append, Loading.line]
    cases hraw : assignment raw with
    | none => simpa [hraw] using ih
    | some a => simpa [hraw] using ih.assign a

/-! ## What is put back -/

/-- The values that are remembered are values of an environment. -/
lemma Loaded.settable {as : List (Bytes × Bytes)} (h : Loaded env as s)
    (hprevious : s.previous key = some (some value)) : Settable key value := by
  rw [h.previous] at hprevious
  split_ifs at hprevious
  rcases Option.or_eq_some_iff.mp (Option.some.inj hprevious) with hlast | ⟨-, hold⟩
  · exact of_decide_eq_true (List.mem_filter.mp (List.mem_of_getLast? hlast)).2
  · exact env.settable key value hold

lemma lookup_restoreKey {previous : Bytes → Option (Option Bytes)} {old : Option Bytes}
    (h : previous key = some old) (hold : ∀ value, old = some value → Settable key value) :
    (restoreKey previous env key).lookup = Function.update env.lookup key old := by
  cases old with
  | none => rw [restoreKey, h, Environ.lookup_unsetenv]
  | some value => rw [restoreKey, h, Environ.lookup_setenv, if_pos (hold value rfl)]

lemma lookup_foldl_restoreKey {previous : Bytes → Option (Option Bytes)}
    (hset : ∀ key value, previous key = some (some value) → Settable key value)
    {keys : List Bytes} (hkeys : ∀ key ∈ keys, (previous key).isSome = true) (env : Environ)
    (key : Bytes) : (keys.foldl (restoreKey previous) env).lookup key =
      if key ∈ keys then (previous key).join else env.lookup key := by
  induction keys generalizing env with
  | nil => rfl
  | cons first keys ih =>
    obtain ⟨old, hold⟩ := Option.isSome_iff_exists.mp (hkeys first List.mem_cons_self)
    have hvalue : ∀ value, old = some value → Settable first value := by
      rintro value rfl
      exact hset first value hold
    rw [List.foldl_cons, ih fun k hk => hkeys k (List.mem_cons_of_mem _ hk),
      lookup_restoreKey hold hvalue]
    by_cases hkey : key = first
    · rw [hkey, Function.update_self, hold, Option.join_some, ite_self, if_pos List.mem_cons_self]
    · rw [Function.update_of_ne hkey]
      simp [hkey]

/-- What is put back is the value before the last line of a variable. -/
lemma Loaded.lookup_restore {as : List (Bytes × Bytes)} (h : Loaded env as s)
    (order : KeyOrder s.previous) (key : Bytes) :
    (s.restore order).lookup key = valueAfter env key (valuesOf key as).dropLast := by
  rw [Loading.restore, lookup_foldl_restoreKey (fun _ _ => h.settable)
    (fun k hk => (order.mem k).mp hk)]
  simp only [order.mem]
  rw [h.previous, h.lookup]
  split_ifs with hnone hsome hsome
  · cases hsome
  · rw [hnone]
    rfl
  · rfl
  · exact absurd rfl hsome

/-- The order in which the variables last stand in the file. -/
def orderOfLoaded {as : List (Bytes × Bytes)} (h : Loaded env as s) : KeyOrder s.previous where
  keys := (as.map Prod.fst).dedup
  nodup := List.nodup_dedup _
  mem key := by
    rw [h.previous, List.mem_dedup, List.mem_map]
    split_ifs with hnone
    · rw [valuesOf_eq_nil_iff] at hnone
      exact iff_of_false (fun ⟨a, ha, hkey⟩ => hnone a ha hkey) (by simp)
    · rw [valuesOf_eq_nil_iff] at hnone
      push Not at hnone
      exact iff_of_true hnone rfl

/-- After the file has been loaded and the function that is returned has been called, the
environment is what it was. -/
def Undone (env : Environ) (path : String) (file : Except String Bytes) : Prop :=
  ∀ s, loadEnvFile env path file = .ok s → ∀ order, s.restore order = env

/-- What the lines of a file say. -/
def assignments (raw : Bytes) : List (Bytes × Bytes) :=
  (raw.splitOn newline).filterMap assignment

/-- **When the loading of an env file is undone.**  Exactly when of the lines of each variable
but its last one, the last that can be carried out gives it the value that it has already. -/
theorem undone_iff (env : Environ) (path : String) (file : Except String Bytes) :
    Undone env path file ↔ (path ≠ "" → ∀ raw, file = .ok raw → ∀ key value,
      ((valuesOf key (assignments raw)).dropLast.filter (Settable key)).getLast? = some value →
        env.lookup key = some value) := by
  by_cases hpath : path = ""
  · refine iff_of_true (fun s hs order => ?_) fun h => absurd hpath h
    unfold loadEnvFile at hs
    rw [if_pos hpath] at hs
    obtain rfl := Except.ok.inj hs
    have hnone : order.keys = [] := List.eq_nil_iff_forall_not_mem.mpr fun key hkey =>
      absurd ((order.mem key).mp hkey) Bool.false_ne_true
    rw [Loading.restore, hnone]
    rfl
  · cases file with
    | error err =>
      refine iff_of_true (fun s hs => ?_) fun _ raw hraw => by cases hraw
      unfold loadEnvFile at hs
      rw [if_neg hpath] at hs
      cases hs
    | ok raw =>
      have hloaded : Loaded env (assignments raw) _ :=
        loaded_of_lines env (raw.splitOn newline)
      have hload : loadEnvFile env path (.ok raw) =
          .ok ((raw.splitOn newline).foldl Loading.line ⟨env, fun _ => none⟩) := by
        unfold loadEnvFile
        rw [if_neg hpath]
      constructor
      · intro h _ raw' hraw key value hlast
        obtain rfl := Except.ok.inj hraw
        have hlookup := hloaded.lookup_restore (orderOfLoaded hloaded) key
        rw [h _ hload, valueAfter, hlast, Option.some_or] at hlookup
        exact hlookup
      · intro h s hs order
        obtain rfl := Except.ok.inj (hload.symm.trans hs)
        refine Environ.ext (funext fun key => ?_)
        rw [hloaded.lookup_restore, valueAfter]
        cases hlast :
          ((valuesOf key (assignments raw)).dropLast.filter (Settable key)).getLast? with
        | none => rfl
        | some value => exact (h hpath raw rfl key value hlast).symm

/-- A variable with two lines. -/
def repeatedFile : Bytes := bytes "# local\nARCSENT_TOKEN = first\nARCSENT_TOKEN=second\nDEBUG=\n"

/-- The value of the first line stays in the environment. -/
theorem not_undone_repeatedFile :
    ¬ ∀ (env : Environ) (path : String) (file : Except String Bytes), Undone env path file := by
  intro h
  have hloaded : Loaded .empty (assignments repeatedFile) _ :=
    loaded_of_lines .empty (repeatedFile.splitOn newline)
  have hload : loadEnvFile .empty "arcsent.env" (.ok repeatedFile) =
      .ok ((repeatedFile.splitOn newline).foldl Loading.line ⟨.empty, fun _ => none⟩) := by
    unfold loadEnvFile
    rw [if_neg (by decide)]
  have hfirst : valueAfter .empty (bytes "ARCSENT_TOKEN")
      (valuesOf (bytes "ARCSENT_TOKEN") (assignments repeatedFile)).dropLast =
        some (bytes "first") := by decide +kernel
  have hlookup := hloaded.lookup_restore (orderOfLoaded hloaded) (bytes "ARCSENT_TOKEN")
  rw [h _ _ _ _ hload, hfirst] at hlookup
  cases hlookup

end Arcsent.Cmd
