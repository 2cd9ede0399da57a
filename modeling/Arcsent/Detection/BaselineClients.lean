/-
# Concurrent calls on one baseline

`Update` and `DetectDrift` hold no lock between reading a record and writing it back.
Here each call is a client that sends the store its requests one by one, and the clients
of one pair of scanner and metric move in any order.  A call that writes back a record
read before another `Update` was written undoes that `Update`; the file proves that
nothing else does.
-/
import Arcsent.Detection.BaselineRuns
import Arcsent.Lib.Parties
import Arcsent.Lib.Runs

namespace Arcsent.Detection

open Arcsent.Go Arcsent.Storage Arcsent.Lib

/-! ## Clients -/

/-- What a client calls. -/
inductive Op
  | update (value : ℚ)
  | detectDrift (value : ℚ) (consecutive : ℤ)
deriving DecidableEq

/-- The value that an `Update` adds. -/
def Op.added : Op → Option ℚ
  | update value => some value
  | detectDrift _ _ => none

/-- How far a client has come. -/
inductive Phase
  /-- It has not sent anything yet. -/
  | ready
  /-- It has its record, read when `seen` of the updates had been written. -/
  | holding (r : Baseline) (seen : ℕ)
  /-- `DetectDrift` has read the record a second time, for its verdict. -/
  | judged (r : Baseline) (seen : ℕ) (anomaly : Bool) (reason : String)
  /-- `Update` has returned. -/
  | updated (r : Baseline)
  /-- `DetectDrift` has returned. -/
  | checked (drift : Bool) (reason : String)
  /-- The call has returned an error. -/
  | failed (err : Error)
deriving DecidableEq

/-- The call has returned without error. -/
def Phase.returned : Phase → Bool
  | updated _ => true
  | checked _ _ => true
  | _ => false

/-- The record that a client holds and the number of updates written when it was read. -/
def Phase.held : Phase → Option (Baseline × ℕ)
  | holding r seen => some (r, seen)
  | judged r seen _ _ => some (r, seen)
  | _ => none

/-- The state of the system. -/
structure Shared (V : Type) where
  /-- The store. -/
  store : BadgerStore V
  /-- The clients. -/
  clients : List (Op × Phase)
  /-- The values of the updates written so far, in order. -/
  landed : List ℚ

variable {V : Type}

namespace Shared

/-- All clients are about to start. -/
def init (s : BadgerStore V) (ops : List Op) : Shared V :=
  ⟨s, ops.map fun op => (op, .ready), []⟩

/-- A client moves on without having written. -/
def goto (st : Shared V) (i : ℕ) (op : Op) (phase : Phase) : Shared V :=
  { st with clients := st.clients.set i (op, phase) }

/-- A client has written. -/
def wrote (st : Shared V) (i : ℕ) (op : Op) (phase : Phase) (s : BadgerStore V) : Shared V :=
  ⟨s, st.clients.set i (op, phase), st.landed ++ op.added.toList⟩

end Shared

variable (codec : Codec Baseline V) (scanner metric : String)

/-- The next request of a client, at a reading of the clock. -/
def request (st : Shared V) (i : ℕ) (now : Time) : Op → Phase → Option (Shared V)
  | .update value, .ready =>
    match Manager.load codec st.store scanner metric value with
    | .error err => some (st.goto i (.update value) (.failed err))
    | .ok r => some (st.goto i (.update value) (.holding r st.landed.length))
  | .update value, .holding r _ =>
    match Manager.put codec st.store (r.observe now value) with
    | .error err => some (st.goto i (.update value) (.failed err))
    | .ok s => some (st.wrote i (.update value) (.updated (r.observe now value)) s)
  | .detectDrift value consecutive, .ready =>
    match Manager.get codec st.store scanner metric with
    | .error err => some (st.goto i (.detectDrift value consecutive) (.failed err))
    | .ok r => some (st.goto i (.detectDrift value consecutive) (.holding r st.landed.length))
  | .detectDrift value consecutive, .holding r seen =>
    match Manager.isAnomaly codec st.store scanner metric value with
    | .error err => some (st.goto i (.detectDrift value consecutive) (.failed err))
    | .ok (anomaly, reason) =>
      some (st.goto i (.detectDrift value consecutive) (.judged r seen anomaly reason))
  | .detectDrift value consecutive, .judged r _ anomaly reason =>
    match Manager.put codec st.store (r.judge now value anomaly) with
    | .error err => some (st.goto i (.detectDrift value consecutive) (.failed err))
    | .ok s =>
      let answer := Manager.drifted (r.judge now value anomaly)
        (if consecutive < 1 then 1 else consecutive) reason
      some (st.wrote i (.detectDrift value consecutive) (.checked answer.1 answer.2) s)
  | _, _ => none

/-- Client `i` moves at the clock reading `now`. -/
def clientStep (st : Shared V) (e : ℕ × Time) : Option (Shared V) :=
  match st.clients[e.1]? with
  | none => none
  | some (op, phase) => request codec scanner metric st e.1 e.2 op phase

/-- A client is about to write back the record it holds. -/
def Writes : Op → Phase → Bool
  | .update _, .holding _ _ => true
  | .detectDrift _ _, .judged _ _ _ _ => true
  | _, _ => false

/-- No client writes back a record that was read before an update that has been written. -/
def Fresh (st : Shared V) (e : ℕ × Time) : Prop :=
  ∀ c ∈ st.clients[e.1]?, Writes c.1 c.2 = true → ∀ h ∈ c.2.held, h.2 = st.landed.length

instance (st : Shared V) (e : ℕ × Time) : Decidable (Fresh st e) :=
  inferInstanceAs (Decidable (∀ c ∈ st.clients[e.1]?, Writes c.1 c.2 = true →
    ∀ h ∈ c.2.held, h.2 = st.landed.length))

/-! ## One client alone -/

variable {codec scanner metric}

/-- A client that is not disturbed does what `Update` does. -/
lemma run_update_alone {s s' : BadgerStore V} {now : Time} {value : ℚ} {r : Baseline}
    (h : Manager.update codec s now scanner metric value = .ok (s', r)) :
    run (clientStep codec scanner metric) (.init s [.update value]) [(0, now), (0, now)]
      = some ⟨s', [(.update value, .updated r)], [value]⟩ := by
  rw [Manager.update] at h
  cases hload : Manager.load codec s scanner metric value with
  | error err => simp [hload] at h
  | ok b =>
    rw [hload] at h
    dsimp only at h
    cases hput : Manager.put codec s (b.observe now value) with
    | error err => simp [hput] at h
    | ok s'' =>
      rw [hput] at h
      obtain ⟨rfl, rfl⟩ := Prod.mk.inj (Except.ok.inj h)
      simp [run, clientStep, request, Shared.init, Shared.goto, Shared.wrote, Op.added, hload,
        hput]

/-- A client that is not disturbed does what `DetectDrift` does. -/
lemma run_detectDrift_alone {s s' : BadgerStore V} {now : Time} {value : ℚ} {consecutive : ℤ}
    {answer : Bool × String}
    (h : Manager.detectDrift codec s now scanner metric value consecutive = .ok (s', answer)) :
    run (clientStep codec scanner metric) (.init s [.detectDrift value consecutive])
        [(0, now), (0, now), (0, now)]
      = some ⟨s', [(.detectDrift value consecutive, .checked answer.1 answer.2)], []⟩ := by
  rw [Manager.detectDrift] at h
  cases hget : Manager.get codec s scanner metric with
  | error err => simp [hget] at h
  | ok b =>
    have hanomaly : Manager.isAnomaly codec s scanner metric value = .ok (b.anomaly value) := by
      rw [Manager.isAnomaly, hget]
    rw [hget] at h
    dsimp only at h
    rw [hanomaly] at h
    dsimp only at h
    cases hput : Manager.put codec s (b.judge now value (b.anomaly value).1) with
    | error err => simp [hput] at h
    | ok s'' =>
      rw [hput] at h
      obtain ⟨rfl, rfl⟩ := Prod.mk.inj (Except.ok.inj h)
      simp [run, clientStep, request, Shared.init, Shared.goto, Shared.wrote, Op.added, hget,
        hanomaly, hput]

/-! ## What a move does -/

/-- The number of values in a cell. -/
def countOf : Option Baseline → ℤ
  | none => 0
  | some r => r.count

/-- The window of values in a cell. -/
def samplesOf : Option Baseline → List ℚ
  | none => []
  | some r => r.samples

/-- The count and the window of `r'` are those of `r` with the values `xs` added. -/
structure Extends (r : Baseline) (xs : List ℚ) (r' : Baseline) : Prop where
  count : r'.count = r.count + xs.length
  samples : r'.samples.rtake maxSamples = (r.samples ++ xs).rtake maxSamples

lemma extends_nil (r : Baseline) : Extends r [] r := ⟨by simp, by simp⟩

lemma extends_observe (r : Baseline) (now : Time) (value : ℚ) :
    Extends r [value] (r.observe now value) := by
  refine ⟨by simp [Baseline.observe], ?_⟩
  rw [observe_samples]
  simpa using rtake_rtake_append maxSamples (r.samples ++ [value]) []

lemma extends_judge (r : Baseline) (now : Time) (value : ℚ) (anomaly : Bool) :
    Extends r [] (r.judge now value anomaly) :=
  ⟨by simp [Baseline.judge], by simp [Baseline.judge]⟩

lemma Extends.trans {r r' r'' : Baseline} {xs ys : List ℚ} (h : Extends r xs r')
    (h' : Extends r' ys r'') : Extends r (xs ++ ys) r'' := by
  refine ⟨?_, ?_⟩
  · rw [h'.count, h.count, List.length_append]
    push_cast
    ring
  · rw [h'.samples, ← rtake_rtake_append, h.samples, rtake_rtake_append, List.append_assoc]

/-- The record of a cell as a client finds it, up to fields that a client sets itself. -/
lemma extends_start (cell : Option Baseline) (value value' : ℚ) :
    Extends (start cell scanner metric value) [] (start cell scanner metric value') := by
  cases cell with
  | none => exact ⟨by simp [start, Baseline.fresh], by simp [start, Baseline.fresh]⟩
  | some r => exact extends_nil r

lemma start_count (cell : Option Baseline) (value : ℚ) :
    (start cell scanner metric value).count = countOf cell := by
  cases cell <;> rfl

lemma start_samples (cell : Option Baseline) (value : ℚ) :
    (start cell scanner metric value).samples = samplesOf cell := by
  cases cell <;> rfl

/-- A move that writes nothing: the client fails, keeps what it holds, or has just read
the cell. -/
structure Reads (scanner metric : String) (st : Shared V) (cell : Option Baseline)
    (phase phase' : Phase) : Prop where
  before : phase.returned = false
  after : phase'.returned = false
  held : ∀ r seen, phase'.held = some (r, seen) → phase.held = some (r, seen) ∨
    (seen = st.landed.length ∧ OwnKey scanner metric r ∧
      Extends (start cell scanner metric 0) [] r)

/-- A move that writes: the record held, with the value of the client added, is the record
in the cell afterwards. -/
structure WritesBack (codec : Codec Baseline V) (scanner metric : String) (op : Op)
    (phase phase' : Phase) (r : Baseline) (seen : ℕ) (s' : BadgerStore V) (r' : Baseline) :
    Prop where
  writes : Writes op phase = true
  held : phase.held = some (r, seen)
  before : phase.returned = false
  after : phase'.returned = true
  released : phase'.held = none
  cell : Cell codec s' scanner metric (some r')
  adds : Extends r op.added.toList r'

/-- A client that has failed holds nothing. -/
lemma reads_failed {st : Shared V} {cell : Option Baseline} {phase : Phase}
    (hbefore : phase.returned = false) (err : Error) :
    Reads scanner metric st cell phase (.failed err) := by
  refine ⟨hbefore, rfl, fun r seen hheld => ?_⟩
  have hnone : (Phase.failed err).held = none := rfl
  rw [hnone] at hheld
  exact absurd hheld.symm (Option.some_ne_none _)

/-- A client that has just read the cell holds what it found. -/
lemma reads_holding {st : Shared V} {cell : Option Baseline} {r : Baseline}
    (hown : OwnKey scanner metric r) (hext : Extends (start cell scanner metric 0) [] r) :
    Reads scanner metric st cell .ready (.holding r st.landed.length) := by
  refine ⟨rfl, rfl, fun r' seen hr => ?_⟩
  obtain ⟨rfl, rfl⟩ := Prod.mk.inj (Option.some.inj hr)
  exact .inr ⟨rfl, hown, hext⟩

/-- What a move of client `i` in `phase` does: it reads, or it writes back what it holds. -/
def Moves (codec : Codec Baseline V) (scanner metric : String) (st t : Shared V)
    (cell : Option Baseline) (i : ℕ) (op : Op) (phase : Phase) : Prop :=
  ∃ phase', (¬ Writes op phase = true ∧ Reads scanner metric st cell phase phase' ∧
      t = st.goto i op phase') ∨
    ∃ r seen s' r', WritesBack codec scanner metric op phase phase' r seen s' r' ∧
      t = st.wrote i op phase' s'

/-- The requests of `Update`, phase by phase. -/
lemma update_moves (hs : scanner ≠ "") (hm : metric ≠ "") {st t : Shared V} {i : ℕ} {now : Time}
    {cell : Option Baseline} (hcell : Cell codec st.store scanner metric cell) {value : ℚ}
    {phase : Phase} (hown : ∀ r seen, phase.held = some (r, seen) → OwnKey scanner metric r)
    (h : request codec scanner metric st i now (.update value) phase = some t) :
    Moves codec scanner metric st t cell i (.update value) phase := by
  cases phase with
  | ready =>
    have ht : t = st.goto i (.update value)
        (.holding (start cell scanner metric value) st.landed.length) := by
      simpa [request, hcell.load hs hm value] using h.symm
    exact ⟨_, .inl ⟨Bool.false_ne_true,
      reads_holding (hcell.start_key value) (extends_start cell 0 value), ht⟩⟩
  | holding r seen =>
    obtain ⟨s', hput, hcell'⟩ := Manager.put_eq codec st.store (r := r.observe now value)
      (hown r seen rfl)
    have ht : t = st.wrote i (.update value) (.updated (r.observe now value)) s' := by
      simpa [request, hput] using h.symm
    exact ⟨_, .inr ⟨r, seen, s', _, ⟨rfl, rfl, rfl, rfl, rfl, hcell', extends_observe r now value⟩,
      ht⟩⟩
  | judged r seen anomaly reason => simp [request] at h
  | updated r => simp [request] at h
  | checked drift reason => simp [request] at h
  | failed err => simp [request] at h

/-- The requests of `DetectDrift`, phase by phase. -/
lemma detectDrift_moves {st t : Shared V} {i : ℕ} {now : Time} {cell : Option Baseline}
    (hcell : Cell codec st.store scanner metric cell) {value : ℚ} {consecutive : ℤ} {phase : Phase}
    (hown : ∀ r seen, phase.held = some (r, seen) → OwnKey scanner metric r)
    (h : request codec scanner metric st i now (.detectDrift value consecutive) phase = some t) :
    Moves codec scanner metric st t cell i (.detectDrift value consecutive) phase := by
  cases phase with
  | ready =>
    cases cell with
    | none =>
      have hget : Manager.get codec st.store scanner metric = .error .notFound := hcell
      have ht : t = st.goto i (.detectDrift value consecutive) (.failed .notFound) := by
        simpa [request, hget] using h.symm
      exact ⟨_, .inl ⟨Bool.false_ne_true, reads_failed rfl _, ht⟩⟩
    | some r =>
      have ht : t = st.goto i (.detectDrift value consecutive) (.holding r st.landed.length) := by
        simpa [request, hcell.1] using h.symm
      exact ⟨_, .inl ⟨Bool.false_ne_true, reads_holding hcell.2 (extends_nil r), ht⟩⟩
  | holding r seen =>
    -- the second read, for the verdict, keeps the record of the first
    cases hanomaly : Manager.isAnomaly codec st.store scanner metric value with
    | error err =>
      have ht : t = st.goto i (.detectDrift value consecutive) (.failed err) := by
        simpa [request, hanomaly] using h.symm
      exact ⟨_, .inl ⟨Bool.false_ne_true, reads_failed rfl _, ht⟩⟩
    | ok verdict =>
      have ht : t = st.goto i (.detectDrift value consecutive)
          (.judged r seen verdict.1 verdict.2) := by
        simpa [request, hanomaly] using h.symm
      have hreads : Reads scanner metric st cell (.holding r seen)
          (.judged r seen verdict.1 verdict.2) := ⟨rfl, rfl, fun _ _ hr => .inl hr⟩
      exact ⟨_, .inl ⟨Bool.false_ne_true, hreads, ht⟩⟩
  | judged r seen anomaly reason =>
    obtain ⟨s', hput, hcell'⟩ := Manager.put_eq codec st.store (r := r.judge now value anomaly)
      (hown r seen rfl)
    have ht : ∃ drift text, t = st.wrote i (.detectDrift value consecutive)
        (.checked drift text) s' := by
      simp only [request, hput, Option.some.injEq] at h
      exact ⟨_, _, h.symm⟩
    obtain ⟨drift, text, ht⟩ := ht
    exact ⟨_, .inr ⟨r, seen, s', _, ⟨rfl, rfl, rfl, rfl, rfl, hcell',
      extends_judge r now value anomaly⟩, ht⟩⟩
  | updated r => simp [request] at h
  | checked drift reason => simp [request] at h
  | failed err => simp [request] at h

/-- Everything that a move can do. -/
lemma clientStep_cases (hs : scanner ≠ "") (hm : metric ≠ "") {st t : Shared V} {e : ℕ × Time}
    {cell : Option Baseline} (hcell : Cell codec st.store scanner metric cell)
    (hkey : ∀ c ∈ st.clients, ∀ r seen, c.2.held = some (r, seen) → OwnKey scanner metric r)
    (h : clientStep codec scanner metric st e = some t) :
    ∃ op phase, st.clients[e.1]? = some (op, phase) ∧
      Moves codec scanner metric st t cell e.1 op phase := by
  rw [clientStep] at h
  cases hclient : st.clients[e.1]? with
  | none => simp [hclient] at h
  | some c =>
    obtain ⟨op, phase⟩ := c
    rw [hclient] at h
    have hown := hkey _ (List.mem_of_getElem? hclient)
    cases op with
    | update value => exact ⟨_, _, rfl, update_moves hs hm hcell hown h⟩
    | detectDrift value consecutive => exact ⟨_, _, rfl, detectDrift_moves hcell hown h⟩

/-! ## Updates are counted -/

variable (codec scanner metric)

/-- The record of the pair counts and keeps every update written so far. -/
def AllCounted (before : Option Baseline) (st : Shared V) : Prop :=
  ∀ cell, Cell codec st.store scanner metric cell →
    Extends (start before scanner metric 0) st.landed (start cell scanner metric 0)

/-- The store has a cell for the pair, and what the clients hold was in it when as many
updates had been written as they have seen. -/
structure Steady (before : Option Baseline) (st : Shared V) : Prop where
  cell : ∃ cell, Cell codec st.store scanner metric cell
  held : ∀ c ∈ st.clients, ∀ r seen, c.2.held = some (r, seen) →
    OwnKey scanner metric r ∧ seen ≤ st.landed.length ∧
      Extends (start before scanner metric 0) (st.landed.take seen) r

variable {codec scanner metric}

/-- The cell of a store is unique. -/
lemma Cell.unique {s : BadgerStore V} {cell cell' : Option Baseline}
    (h : Cell codec s scanner metric cell) (h' : Cell codec s scanner metric cell') :
    cell = cell' := by
  cases cell with
  | none =>
    cases cell' with
    | none => rfl
    | some r' =>
      have hget : Manager.get codec s scanner metric = .error .notFound := h
      rw [h'.1] at hget
      cases hget
  | some r =>
    cases cell' with
    | none =>
      have hget : Manager.get codec s scanner metric = .error .notFound := h'
      rw [h.1] at hget
      cases hget
    | some r' =>
      have hget := h.1
      rw [h'.1] at hget
      rw [Except.ok.inj hget]

lemma Steady.init {s : BadgerStore V} {before : Option Baseline}
    (h : Cell codec s scanner metric before) (ops : List Op) :
    Steady codec scanner metric before (.init s ops) := by
  refine ⟨⟨before, h⟩, fun c hc r seen hr => ?_⟩
  obtain ⟨op, -, rfl⟩ := List.mem_map.mp hc
  simp [Phase.held] at hr

lemma Steady.step (hs : scanner ≠ "") (hm : metric ≠ "") {before : Option Baseline}
    {st t : Shared V} {e : ℕ × Time} (h : Steady codec scanner metric before st)
    (hcount : AllCounted codec scanner metric before st)
    (hstep : clientStep codec scanner metric st e = some t) :
    Steady codec scanner metric before t := by
  obtain ⟨cell, hcell⟩ := h.cell
  obtain ⟨op, phase, hclient, phase', hmove⟩ := clientStep_cases hs hm hcell
    (fun c hc r seen hr => (h.held c hc r seen hr).1) hstep
  rcases hmove with ⟨-, hread, rfl⟩ | ⟨r, seen, s', r', hwrite, rfl⟩
  · refine ⟨⟨cell, hcell⟩, forall_mem_set h.held fun r seen hr => ?_⟩
    rcases hread.held r seen hr with hr | ⟨rfl, hown, hext⟩
    · exact h.held _ (List.mem_of_getElem? hclient) r seen hr
    · refine ⟨hown, le_rfl, ?_⟩
      have hall := (hcount cell hcell).trans hext
      simpa [Shared.goto] using hall
  · refine ⟨⟨some r', hwrite.cell⟩, forall_mem_set (fun c hc r seen hr => ?_) fun r seen hr => ?_⟩
    · -- the clients that hold a record hold what they held, and fewer updates had landed
      obtain ⟨hown, hle, hext⟩ := h.held c hc r seen hr
      refine ⟨hown, hle.trans ?_, ?_⟩
      · simp [Shared.wrote]
      · rw [Shared.wrote, List.take_append_of_le_length hle]
        exact hext
    · rw [hwrite.released] at hr
      cases hr

/-- A move keeps the updates counted exactly when it does not write back a stale record. -/
lemma Steady.allCounted_iff (hs : scanner ≠ "") (hm : metric ≠ "") {before : Option Baseline}
    {st t : Shared V} {e : ℕ × Time} (h : Steady codec scanner metric before st)
    (hcount : AllCounted codec scanner metric before st)
    (hstep : clientStep codec scanner metric st e = some t) :
    AllCounted codec scanner metric before t ↔ Fresh st e := by
  obtain ⟨cell, hcell⟩ := h.cell
  obtain ⟨op, phase, hclient, phase', hmove⟩ := clientStep_cases hs hm hcell
    (fun c hc r seen hr => (h.held c hc r seen hr).1) hstep
  rcases hmove with ⟨hno, -, rfl⟩ | ⟨r, seen, s', r', hwrite, rfl⟩
  · refine ⟨fun _ c hc hw _ _ => ?_, fun _ => hcount⟩
    obtain rfl := Option.some.inj (hclient.symm.trans hc)
    exact absurd hw hno
  · obtain ⟨-, hle, hext⟩ := h.held _ (List.mem_of_getElem? hclient) r seen hwrite.held
    have hnew := hext.trans hwrite.adds
    constructor
    · intro hall c hc hw held hr
      obtain rfl := Option.some.inj (hclient.symm.trans hc)
      obtain rfl := Option.some.inj (hwrite.held.symm.trans hr)
      -- the count of the record written tells how many updates it has seen
      have hcounted := (hall (some r') hwrite.cell).count
      have hwritten := hnew.count
      rw [start_count, countOf, hwritten] at hcounted
      simp only [Shared.wrote, List.length_append, List.length_take, min_eq_left hle] at hcounted
      omega
    · intro hfresh cell' hcell'
      obtain rfl : seen = st.landed.length :=
        hfresh _ hclient hwrite.writes _ hwrite.held
      obtain rfl := hwrite.cell.unique hcell'
      rw [List.take_length] at hnew
      exact hnew

/-- A client that is about to write can do so. -/
lemma clientStep_ne_none {st : Shared V} {e : ℕ × Time} {op : Op} {phase : Phase}
    (hclient : st.clients[e.1]? = some (op, phase)) (hw : Writes op phase = true) :
    clientStep codec scanner metric st e ≠ none := by
  rw [clientStep, hclient]
  cases op with
  | update value =>
    cases phase with
    | holding r seen =>
      dsimp only [request]
      split <;> simp
    | _ => exact absurd hw Bool.false_ne_true
  | detectDrift value consecutive =>
    cases phase with
    | judged r seen anomaly reason =>
      dsimp only [request]
      split <;> simp
    | _ => exact absurd hw Bool.false_ne_true

/-! ## All calls have returned -/

/-- The values of the updates that have returned. -/
def returnedValues (st : Shared V) : List ℚ :=
  st.clients.filterMap fun c => if c.2.returned then c.1.added else none

/-- The updates written are those of the clients that have returned. -/
structure Tallied (ops : List Op) (st : Shared V) : Prop where
  ops : st.clients.map Prod.fst = ops
  landed : st.landed.Perm (returnedValues st)

lemma Tallied.init (s : BadgerStore V) (ops : List Op) : Tallied ops (.init s ops) := by
  refine ⟨by simp [Shared.init, Function.comp_def], ?_⟩
  have hnone : returnedValues (.init s ops) = [] := by
    simp [returnedValues, Shared.init, Phase.returned]
  rw [hnone]
  exact List.Perm.refl _

lemma Tallied.step (hs : scanner ≠ "") (hm : metric ≠ "") {before : Option Baseline}
    {ops : List Op} {st t : Shared V} {e : ℕ × Time}
    (h : Steady codec scanner metric before st) (htally : Tallied ops st)
    (hstep : clientStep codec scanner metric st e = some t) : Tallied ops t := by
  obtain ⟨cell, hcell⟩ := h.cell
  obtain ⟨op, phase, hclient, phase', hmove⟩ := clientStep_cases hs hm hcell
    (fun c hc r seen hr => (h.held c hc r seen hr).1) hstep
  rcases hmove with ⟨-, hread, rfl⟩ | ⟨r, seen, s', r', hwrite, rfl⟩
  · refine ⟨(map_set_of_eq (b := (op, phase')) hclient rfl).trans htally.ops, ?_⟩
    rw [returnedValues, Shared.goto,
      filterMap_set_of_eq hclient (by simp [hread.before, hread.after])]
    exact htally.landed
  · refine ⟨(map_set_of_eq (b := (op, phase')) hclient rfl).trans htally.ops, ?_⟩
    rw [returnedValues, Shared.wrote]
    dsimp only
    cases hadded : op.added with
    | none =>
      rw [filterMap_set_of_eq hclient (by simp [hadded])]
      rw [Option.toList_none, List.append_nil]
      exact htally.landed
    | some value =>
      refine (htally.landed.append_right [value]).trans ?_
      exact filterMap_set_perm hclient (by simp [hwrite.before]) (by simp [hwrite.after, hadded])

/-- When all have returned, all updates have been written. -/
lemma Tallied.landed_perm {ops : List Op} {st : Shared V} (h : Tallied ops st)
    (hall : ∀ c ∈ st.clients, c.2.returned = true) : st.landed.Perm (ops.filterMap Op.added) := by
  have hvalues : returnedValues st = ops.filterMap Op.added := by
    rw [← h.ops, List.filterMap_map, returnedValues]
    refine List.filterMap_congr fun c hc => ?_
    simp [hall c hc]
  rw [← hvalues]
  exact h.landed

/-- **No update is lost, as long as no stale record is written back.**  The stored record
counts and keeps every update written so far, in every state of a run, exactly when no
step of the run writes back a record read before another update was written; and then,
once all calls have returned, it has all of their values. -/
theorem no_lost_update (codec : Codec Baseline V) {scanner metric : String} (hs : scanner ≠ "")
    (hm : metric ≠ "") (s : BadgerStore V) (before : Option Baseline)
    (hcell : Cell codec s scanner metric before) (ops : List Op) (es : List (ℕ × Time)) :
    (Always (clientStep codec scanner metric) (AllCounted codec scanner metric before)
        (.init s ops) es ↔
      Meets (clientStep codec scanner metric) Fresh (.init s ops) es) ∧
    (Meets (clientStep codec scanner metric) Fresh (.init s ops) es →
      ∀ t, run (clientStep codec scanner metric) (.init s ops) es = some t →
        (∀ c ∈ t.clients, c.2.returned = true) →
        ∃ cell order, Cell codec t.store scanner metric cell ∧
          order.Perm (ops.filterMap Op.added) ∧
          countOf cell = countOf before + (ops.filterMap Op.added).length ∧
          (samplesOf cell).rtake 200 = (samplesOf before ++ order).rtake 200) := by
  have hinit : AllCounted codec scanner metric before (.init s ops) := by
    intro cell hcell'
    obtain rfl := hcell.unique hcell'
    exact extends_nil _
  have hiff : Always (clientStep codec scanner metric) (AllCounted codec scanner metric before)
      (.init s ops) es ↔ Meets (clientStep codec scanner metric) Fresh (.init s ops) es := by
    refine always_iff_meets (I := Steady codec scanner metric before)
      (fun st e t h hc hstep _ => h.step hs hm hc hstep)
      (fun st e t h hc hstep => h.allCounted_iff hs hm hc hstep) (fun st e h hnone => ?_)
      (.init hcell ops) hinit es
    intro c hclient hwrites _ _
    exact absurd hnone (clientStep_ne_none hclient hwrites)
  refine ⟨hiff, fun hfresh t hrun hall => ?_⟩
  have hend : Steady codec scanner metric before t ∧ AllCounted codec scanner metric before t ∧
      Tallied ops t := by
    refine inv_of_meets (I := fun st => Steady codec scanner metric before st ∧
      AllCounted codec scanner metric before st ∧ Tallied ops st)
      (fun st e u hst hf hstep => ?_) ⟨.init hcell ops, hinit, .init s ops⟩ hfresh hrun
    obtain ⟨hsteady, hcount, htally⟩ := hst
    exact ⟨hsteady.step hs hm hcount hstep, (hsteady.allCounted_iff hs hm hcount hstep).mpr hf,
      htally.step hs hm hsteady hstep⟩
  obtain ⟨hsteady, hcount, htally⟩ := hend
  obtain ⟨cell, hcell'⟩ := hsteady.cell
  have hperm := htally.landed_perm hall
  have hext := hcount cell hcell'
  refine ⟨cell, t.landed, hcell', hperm, ?_, ?_⟩
  · rw [← hperm.length_eq, ← start_count cell 0, ← start_count before 0]
    exact hext.count
  · rw [← start_samples cell 0, ← start_samples before 0]
    exact hext.samples

/-- Two updates, one after the other. -/
def inTurn : List (ℕ × Time) := [(0, 5), (0, 6), (1, 7), (1, 8)]

/-- Two updates that both read before either writes. -/
def interleaved : List (ℕ × Time) := [(0, 5), (1, 6), (0, 7), (1, 8)]

/-- Two updates that come one after the other are both counted. -/
theorem no_lost_update_in_turn :
    ∃ t cell, run (clientStep plainCodec "system.cpu" "load")
        (.init .empty [.update 1, .update 2]) inTurn = some t ∧
      Cell plainCodec t.store "system.cpu" "load" cell ∧ countOf cell = 2 := by
  have hrun : ∃ t ∈ run (clientStep plainCodec "system.cpu" "load")
      (.init .empty [.update 1, .update 2]) inTurn,
      ∀ c ∈ t.clients, c.2.returned = true := by decide +kernel
  obtain ⟨t, hrun, hall⟩ := hrun
  obtain ⟨cell, order, hcell, -, hcount, -⟩ := (no_lost_update plainCodec
    (by decide : "system.cpu" ≠ "") (by decide : "load" ≠ "") .empty none rfl
    [.update 1, .update 2] inTurn).2 (by decide +kernel) t hrun hall
  exact ⟨t, cell, hrun, hcell, hcount⟩

/-- Two updates that both read first: one of them is lost. -/
theorem update_lost_when_interleaved :
    ¬ ∀ (ops : List Op) (es : List (ℕ × Time)) (t : Shared Baseline),
      run (clientStep plainCodec "system.cpu" "load") (.init .empty ops) es = some t →
        (∀ c ∈ t.clients, c.2.returned = true) →
        ∃ cell, Cell plainCodec t.store "system.cpu" "load" cell ∧
          countOf cell = (ops.filterMap Op.added).length := by
  intro hclaim
  have hrun : ∃ t ∈ run (clientStep plainCodec "system.cpu" "load")
      (.init .empty [.update 1, .update 2]) interleaved,
      (∀ c ∈ t.clients, c.2.returned = true) ∧
      (Manager.get plainCodec t.store "system.cpu" "load").toOption.map Baseline.count
        = some 1 := by decide +kernel
  obtain ⟨t, hrun, hall, hone⟩ := hrun
  obtain ⟨cell, hcell, hcount⟩ := hclaim _ _ t hrun hall
  cases cell with
  | none =>
    have hget : Manager.get plainCodec t.store "system.cpu" "load" = .error .notFound := hcell
    rw [hget] at hone
    cases hone
  | some r =>
    rw [hcell.1] at hone
    have hr : r.count = 1 := Option.some.inj hone
    have htwo : r.count = 2 := hcount
    omega

end Arcsent.Detection
