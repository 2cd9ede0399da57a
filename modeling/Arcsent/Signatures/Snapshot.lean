/-
# One configuration for a run

A run is to use one version of the configuration for all that it does, and that version is
to be one with updates enabled.  Between the check of a caller and the time its run reads
the configuration, and between that and the last look at the table of sources, a call of
`UpdateConfig` comes in between.
-/
import Arcsent.Lib.Parties
import Arcsent.Signatures.Updater

namespace Arcsent.Signatures

open Arcsent.Go Arcsent.Storage Arcsent.Lib

variable {V : Type}

/-! ## The property -/

/-- The call uses nothing but version `v` of the configuration, which is `cfg`. -/
structure Call.UsesOnly (c : Call) (v : ℕ) (cfg : UpdaterConfig) : Prop where
  version : c.version = v
  read : c.cfg = cfg
  table : c.table = v
  source : builtInSources cfg.sourceURLs c.source.id = some c.source
  listed : c.source.id ∈ cfg.sources
  airgap : cfg.airgapImportPath = ""

/-- Every run that updates a source does so with one version of the configuration, and
updates are enabled in that. -/
def OneVersion (s : System V) : Prop :=
  ∀ c₀ ∈ s.calls, ∃ v cfg, s.versionOf v = some cfg ∧ cfg.enabled = true ∧
    ∀ c ∈ s.calls, c.run = c₀.run → c.UsesOnly v cfg

/-- No source of the list is registered. -/
def NoneRegistered (sources : String → Option HTTPSource) (ids : List String) : Prop :=
  ∀ id ∈ ids, sources id = none

/-- A run with this configuration may begin: updates are enabled, or no source would be
updated. -/
def UpdaterConfig.Harmless (cfg : UpdaterConfig) : Prop :=
  cfg.enabled = true ∨ cfg.airgapImportPath ≠ "" ∨
    NoneRegistered (builtInSources cfg.sourceURLs) cfg.sources

/-- The caller has passed its check and its run has not read the configuration. -/
def Pc.isPending : Pc → Bool
  | waiting _ => true
  | reading _ => true
  | _ => false

/-- The run of a caller that may still update sources. -/
def Pc.run? : Pc → Option Run
  | running _ r => some r
  | updating _ r _ => some r
  | _ => none

/-- The sources that a caller may still look up. -/
def Pc.left (pc : Pc) : List String := (pc.run?.map Run.left).getD []

/-- `UpdateConfig` disables updates only while no caller is past its check and has not read
the configuration, and it changes the configuration only while no run has a registered
source to look up. -/
def Undisturbed (s : System V) : Event → Prop
  | .updateConfig cfg => ∀ pc ∈ s.clients, (pc.isPending = true → cfg.Harmless) ∧
      NoneRegistered (builtInSources cfg.sourceURLs) pc.left
  | _ => True

instance (sources : String → Option HTTPSource) (ids : List String) :
    Decidable (NoneRegistered sources ids) :=
  inferInstanceAs (Decidable (∀ id ∈ ids, sources id = none))

instance (cfg : UpdaterConfig) : Decidable cfg.Harmless :=
  inferInstanceAs (Decidable (_ ∨ _ ∨ _))

instance (s : System V) : ∀ e, Decidable (Undisturbed s e)
  | .updateConfig _ => inferInstanceAs (Decidable (∀ pc ∈ s.clients, _ ∧ _))
  | .tick _ => isTrue trivial
  | .trigger => isTrue trivial
  | .client _ _ => isTrue trivial

/-! ## What a caller can do -/

/-- The caller holds the lock of the runs. -/
def Pc.isInside : Pc → Bool
  | reading _ => true
  | importing _ _ => true
  | running _ _ => true
  | updating _ _ _ => true
  | _ => false

/-- The caller is on neither side of the lock. -/
def Pc.isIdle (pc : Pc) : Bool := !pc.isPending && !pc.isInside

lemma Pc.run?_of_isIdle {pc : Pc} (h : pc.isIdle = true) : pc.run? = none := by
  cases pc <;> first | rfl | simp [isIdle, isPending, isInside] at h

/-- What a caller does to what the callers share. -/
inductive ClientStep (s : System V) (i : ℕ) : Pc → System V → Pc → Prop
  /-- Nothing, outside the lock. -/
  | idle {pc pc'} : pc.isIdle = true → pc'.isIdle = true → ClientStep s i pc s pc'
  /-- It passes its check. -/
  | pass {pc caller} : pc.isIdle = true → s.cfg.enabled = true →
      ClientStep s i pc s (.waiting caller)
  /-- It takes the lock. -/
  | lock {caller} : s.holder = none →
      ClientStep s i (.waiting caller) { s with holder := some i } (.reading caller)
  /-- Its run begins. -/
  | read {caller pc'} {t : System V} : s.beginRun caller = (t, pc') →
      ClientStep s i (.reading caller) t pc'
  /-- Its run ends. -/
  | leave {pc caller pc'} {t : System V} {codec : Codec Status V} {status : Status} :
      pc.isInside = true → s.endRun codec caller status = (t, pc') → ClientStep s i pc t pc'
  /-- It looks a source up. -/
  | lookup {caller r id left pc'} {t : System V} : r.left = id :: left →
      s.lookup caller r id left = (t, pc') → ClientStep s i (.running caller r) t pc'
  /-- A source has been updated. -/
  | updated {caller r src status} :
      ClientStep s i (.updating caller r src) s (.running caller { r with status := status })

lemma check_spec (s : System V) (i : ℕ) (caller : Caller) :
    ClientStep s i (.checking caller) s (caller.check s.cfg) := by
  cases caller with
  | start =>
    rw [Caller.check]
    split_ifs with hoff hbad
    · exact .idle rfl rfl
    · exact .idle rfl rfl
    · exact .pass rfl (by simpa using hoff)
  | trigger =>
    rw [Caller.check]
    split_ifs with hoff
    · exact .idle rfl rfl
    · exact .pass rfl (by simpa using hoff)

lemma clientMove_spec {codec : Codec Status V} {s t : System V} {i : ℕ} {pc pc' : Pc} {move : Move}
    (h : clientMove codec s i pc move = some (t, pc')) : ClientStep s i pc t pc' := by
  unfold clientMove at h
  split at h
  · obtain ⟨rfl, rfl⟩ := Prod.mk.inj (Option.some.inj h)
    exact check_spec s i _
  · obtain ⟨rfl, rfl⟩ := Prod.mk.inj (Option.some.inj h)
    exact .idle rfl rfl
  · obtain ⟨rfl, rfl⟩ := Prod.mk.inj (Option.some.inj h)
    exact .idle rfl rfl
  · -- the lock
    split_ifs at h with hfree
    obtain ⟨rfl, rfl⟩ := Prod.mk.inj (Option.some.inj h)
    exact .lock hfree
  · exact .read (Option.some.inj h)
  · exact .leave rfl (Option.some.inj h)
  · -- the loop over the sources
    split at h
    · exact .leave rfl (Option.some.inj h)
    · next hleft => exact .lookup hleft (Option.some.inj h)
  · obtain ⟨rfl, rfl⟩ := Prod.mk.inj (Option.some.inj h)
    exact .updated
  · exact absurd h (by simp)

/-! ## The invariant -/

/-- What holds of a run that may still update sources. -/
structure Run.Fits (r : Run) (s : System V) : Prop where
  number : r.number < s.runs
  cfg : s.versionOf r.version = some r.cfg
  airgap : r.cfg.airgapImportPath = ""
  left : ∀ id ∈ r.left, id ∈ r.cfg.sources
  /-- The calls it has made, -/
  calls : ∀ c ∈ s.calls, c.run = r.number → c.version = r.version ∧ c.cfg = r.cfg
  /-- and the calls it may still make are of the version that it has read. -/
  safe : r.version = s.version ∧ r.cfg.enabled = true ∨ NoneRegistered s.sources r.left

/-- What holds of a call that was made. -/
structure Call.Good (c : Call) (s : System V) : Prop where
  number : c.run < s.runs
  cfg : s.versionOf c.version = some c.cfg
  enabled : c.cfg.enabled = true
  uses : c.UsesOnly c.version c.cfg

/-- What keeps the runs to one version. -/
structure Kept (s : System V) : Prop where
  sources : s.sources = builtInSources s.cfg.sourceURLs
  holder : ∀ i pc, s.clients[i]? = some pc → pc.isInside = true → s.holder = some i
  pending : ∀ pc ∈ s.clients, pc.isPending = true → s.cfg.Harmless
  run : ∀ pc ∈ s.clients, ∀ r, pc.run? = some r → r.Fits s
  calls : ∀ c ∈ s.calls, c.Good s
  same : ∀ c ∈ s.calls, ∀ c' ∈ s.calls, c.run = c'.run → c.version = c'.version ∧ c.cfg = c'.cfg

lemma Kept.oneVersion {s : System V} (h : Kept s) : OneVersion s := by
  intro c₀ hc₀
  have hgood := h.calls c₀ hc₀
  refine ⟨c₀.version, c₀.cfg, hgood.cfg, hgood.enabled, fun c hc hrun => ?_⟩
  obtain ⟨hversion, hcfg⟩ := h.same c hc c₀ hc₀ hrun
  exact hversion ▸ hcfg ▸ (h.calls c hc).uses

section Steps

variable {s t : System V}

lemma Pc.isInside_of_run? {pc : Pc} {r : Run} (h : pc.run? = some r) : pc.isInside = true := by
  cases pc <;> first | rfl | cases h

lemma Pc.of_isIdle {pc : Pc} (h : pc.isIdle = true) :
    pc.isPending = false ∧ pc.isInside = false := by
  simpa [Pc.isIdle] using h

lemma Caller.isIdle_resume (caller : Caller) : caller.resume.isIdle = true := by
  cases caller <;> rfl

lemma versionOf_version (s : System V) : s.versionOf s.version = some s.cfg :=
  List.getElem?_concat_length

/-- The configuration, its history and the table are the same. -/
structure SameConfig (s t : System V) : Prop where
  cfg : t.cfg = s.cfg
  past : t.past = s.past
  sources : t.sources = s.sources

lemma SameConfig.versionOf (h : SameConfig s t) (v : ℕ) : t.versionOf v = s.versionOf v := by
  rw [System.versionOf, System.versionOf, h.cfg, h.past]

lemma SameConfig.version (h : SameConfig s t) : t.version = s.version :=
  congrArg List.length h.past

lemma Run.Fits.mono {r : Run} (h : r.Fits s) (hsame : SameConfig s t) (hruns : s.runs ≤ t.runs)
    (hcalls : t.calls = s.calls) : r.Fits t := by
  refine ⟨lt_of_lt_of_le h.number hruns, ?_, h.airgap, h.left, ?_, ?_⟩
  · rw [hsame.versionOf, h.cfg]
  · rw [hcalls]
    exact h.calls
  · rw [hsame.version, hsame.sources]
    exact h.safe

lemma Call.Good.mono {c : Call} (h : c.Good s) (hsame : SameConfig s t) (hruns : s.runs ≤ t.runs) :
    c.Good t :=
  ⟨lt_of_lt_of_le h.number hruns, by rw [hsame.versionOf, h.cfg], h.enabled, h.uses⟩

lemma Kept.calls_mono (h : Kept s) (hsame : SameConfig s t) (hruns : s.runs ≤ t.runs)
    (hcalls : t.calls = s.calls) : (∀ c ∈ t.calls, c.Good t) ∧
      ∀ c ∈ t.calls, ∀ c' ∈ t.calls, c.run = c'.run → c.version = c'.version ∧ c.cfg = c'.cfg := by
  rw [hcalls]
  exact ⟨fun c hc => (h.calls c hc).mono hsame hruns, h.same⟩

/-- The holder of the lock is the only caller inside. -/
lemma Kept.eq_of_isInside (h : Kept s) {i k : ℕ} {pc pc' : Pc} (hi : s.clients[i]? = some pc)
    (hk : s.clients[k]? = some pc') (hin : pc.isInside = true) (hin' : pc'.isInside = true) :
    k = i :=
  Option.some.inj ((h.holder k pc' hk hin').symm.trans (h.holder i pc hi hin))

/-- The invariant after a step of the caller `i`, from what holds of it and of the others. -/
lemma Kept.set (h : Kept s) (hsame : SameConfig s t) (hclients : t.clients = s.clients) {i : ℕ}
    {pc' : Pc}
    (hcalls : (∀ c ∈ t.calls, c.Good t) ∧
      ∀ c ∈ t.calls, ∀ c' ∈ t.calls, c.run = c'.run → c.version = c'.version ∧ c.cfg = c'.cfg)
    (hothers : ∀ k pc, k ≠ i → s.clients[k]? = some pc →
      (pc.isInside = true → t.holder = some k) ∧ ∀ r, pc.run? = some r → r.Fits t)
    (hholder : pc'.isInside = true → t.holder = some i)
    (hpending : pc'.isPending = true → s.cfg.Harmless)
    (hrun : ∀ r, pc'.run? = some r → r.Fits t) :
    Kept { t with clients := t.clients.set i pc' } := by
  have hall (pc : Pc) (hpc : pc ∈ t.clients.set i pc') :
      pc = pc' ∨ ∃ k, k ≠ i ∧ s.clients[k]? = some pc := by
    obtain ⟨k, hk⟩ := List.mem_iff_getElem?.mp hpc
    rw [hclients, List.getElem?_set] at hk
    split_ifs at hk with hki
    · exact .inl (Option.some.inj hk).symm
    · exact .inr ⟨k, fun hne => hki hne.symm, hk⟩
  have hfits {r : Run} (hr : r.Fits t) : r.Fits { t with clients := t.clients.set i pc' } :=
    hr.mono ⟨rfl, rfl, rfl⟩ le_rfl rfl
  refine ⟨?_, ?_, ?_, ?_, ?_, hcalls.2⟩
  · change t.sources = builtInSources t.cfg.sourceURLs
    rw [hsame.sources, hsame.cfg, h.sources]
  · intro k pc hk hin
    change (t.clients.set i pc')[k]? = some pc at hk
    rw [hclients, List.getElem?_set] at hk
    split_ifs at hk with hki
    · subst hki
      obtain rfl := Option.some.inj hk
      exact hholder hin
    · exact (hothers k pc (fun hne => hki hne.symm) hk).1 hin
  · intro pc hpc hpend
    change t.cfg.Harmless
    rw [hsame.cfg]
    rcases hall pc hpc with rfl | ⟨k, -, hk⟩
    · exact hpending hpend
    · exact h.pending pc (List.mem_of_getElem? hk) hpend
  · intro pc hpc r hr
    rcases hall pc hpc with rfl | ⟨k, hne, hk⟩
    · exact hfits (hrun r hr)
    · exact hfits ((hothers k pc hne hk).2 r hr)
  · exact fun c hc => (hcalls.1 c hc).mono ⟨rfl, rfl, rfl⟩ le_rfl

/-- A caller that changes neither the calls nor the number of runs. -/
lemma Kept.set_quiet (h : Kept s) (hsame : SameConfig s t) (hclients : t.clients = s.clients)
    (hruns : s.runs ≤ t.runs) (hcalls : t.calls = s.calls) {i : ℕ} {pc' : Pc}
    (hothers : ∀ k pc, k ≠ i → s.clients[k]? = some pc → pc.isInside = true → t.holder = some k)
    (hholder : pc'.isInside = true → t.holder = some i)
    (hpending : pc'.isPending = true → s.cfg.Harmless)
    (hrun : ∀ r, pc'.run? = some r → r.Fits t) :
    Kept { t with clients := t.clients.set i pc' } := by
  refine h.set hsame hclients (h.calls_mono hsame hruns hcalls) (fun k pc hne hk => ⟨?_, ?_⟩)
    hholder hpending hrun
  · exact hothers k pc hne hk
  · intro r hr
    exact (h.run pc (List.mem_of_getElem? hk) r hr).mono hsame hruns hcalls

/-- A caller that stays outside of the lock. -/
lemma Kept.outside (h : Kept s) {i : ℕ} {pc' : Pc} (hout : pc'.isInside = false)
    (hpending : pc'.isPending = true → s.cfg.Harmless) :
    Kept { s with clients := s.clients.set i pc' } := by
  refine h.set_quiet ⟨rfl, rfl, rfl⟩ rfl le_rfl rfl (fun k pc _ hk => h.holder k pc hk) ?_ hpending
    ?_
  · intro hin
    rw [hout] at hin
    cases hin
  · intro r hr
    rw [Pc.isInside_of_run? hr] at hout
    cases hout

lemma Kept.lock (h : Kept s) {i : ℕ} {caller : Caller}
    (hi : s.clients[i]? = some (.waiting caller)) (hfree : s.holder = none) :
    Kept { s with holder := some i, clients := s.clients.set i (.reading caller) } := by
  refine Kept.set_quiet (t := { s with holder := some i }) h ⟨rfl, rfl, rfl⟩ rfl le_rfl rfl ?_
    (fun _ => rfl) (fun _ => h.pending _ (List.mem_of_getElem? hi) rfl) (fun r hr => by cases hr)
  intro k pc _ hk hin
  rw [h.holder k pc hk hin] at hfree
  cases hfree

/-- The run that begins fits: what it has read is harmless. -/
lemma Kept.read (h : Kept s) {i : ℕ} {caller : Caller} {pc' : Pc}
    (hi : s.clients[i]? = some (.reading caller)) (hread : s.beginRun caller = (t, pc')) :
    Kept { t with clients := t.clients.set i pc' } := by
  obtain ⟨rfl, rfl⟩ := Prod.mk.inj hread
  have hharmless := h.pending _ (List.mem_of_getElem? hi) rfl
  refine Kept.set_quiet (t := (s.beginRun caller).1) h ⟨rfl, rfl, rfl⟩ rfl (Nat.le_succ _) rfl
    (fun k pc _ hk => h.holder k pc hk) ?_ ?_ ?_
  · exact fun _ => h.holder i _ hi rfl
  · exact fun _ => hharmless
  · intro r hr
    by_cases hair : s.cfg.airgapImportPath ≠ ""
    · rw [if_pos hair] at hr
      cases hr
    · rw [if_neg hair] at hr
      obtain rfl := Option.some.inj hr
      have hnone : s.cfg.airgapImportPath = "" := not_not.mp hair
      refine ⟨Nat.lt_succ_self _, versionOf_version s, hnone, fun _ hid => hid, ?_, ?_⟩
      · intro c hc hrun
        exact absurd ((h.calls c hc).number) (by rw [hrun]; exact lt_irrefl _)
      · rcases hharmless with hon | himport | hunregistered
        · exact .inl ⟨rfl, hon⟩
        · exact absurd hnone himport
        · exact .inr (h.sources ▸ hunregistered)

lemma Kept.leave (h : Kept s) {codec : Codec Status V} {i : ℕ} {pc pc' : Pc} {caller : Caller}
    {status : Status} (hi : s.clients[i]? = some pc) (hin : pc.isInside = true)
    (hleave : s.endRun codec caller status = (t, pc')) :
    Kept { t with clients := t.clients.set i pc' } := by
  obtain ⟨rfl, rfl⟩ := Prod.mk.inj hleave
  have hidle := caller.isIdle_resume
  refine Kept.set_quiet (t := (s.endRun codec caller status).1) h ⟨rfl, rfl, rfl⟩ rfl le_rfl rfl
    ?_ ?_ ?_ ?_
  · intro k pc₁ hne hk hin₁
    exact absurd (h.eq_of_isInside hi hk hin hin₁) hne
  · intro hin'
    rw [(Pc.of_isIdle hidle).2] at hin'
    cases hin'
  · intro hpend
    rw [(Pc.of_isIdle hidle).1] at hpend
    cases hpend
  · intro r hr
    rw [Pc.run?_of_isIdle hidle] at hr
    cases hr

/-- The run goes on to the rest of its list. -/
lemma Run.Fits.next {r : Run} (h : r.Fits s) {id : String} {left : List String}
    (hleft : r.left = id :: left) (status : Status) :
    Run.Fits { r with left := left, status := status } s := by
  have hrest {x : String} (hx : x ∈ left) : x ∈ r.left := hleft ▸ List.mem_cons_of_mem _ hx
  exact ⟨h.number, h.cfg, h.airgap, fun x hx => h.left x (hrest hx), h.calls,
    h.safe.imp_right fun hnone x hx => hnone x (hrest hx)⟩

/-- A run that finds a source registered has read the current version, and the source is
one of that version. -/
lemma Run.Fits.found {r : Run} (h : r.Fits s)
    (hsources : s.sources = builtInSources s.cfg.sourceURLs) {id : String} {src : HTTPSource}
    (hid : id ∈ r.left) (hsrc : s.sources id = some src) :
    (r.version = s.version ∧ r.cfg.enabled = true) ∧
      Call.UsesOnly ⟨r.number, r.version, r.cfg, src, s.version⟩ r.version r.cfg := by
  obtain ⟨hversion, hon⟩ : r.version = s.version ∧ r.cfg.enabled = true := by
    refine h.safe.resolve_right fun hnone => ?_
    rw [hnone id hid] at hsrc
    cases hsrc
  have hcfg : r.cfg = s.cfg := Option.some.inj (h.cfg.symm.trans (hversion ▸ versionOf_version s))
  have hsrcid : src.id = id := id_of_builtInSources (hsources ▸ hsrc)
  refine ⟨⟨hversion, hon⟩, rfl, rfl, hversion.symm, ?_, ?_, h.airgap⟩
  · rw [hcfg, ← hsources, hsrcid, hsrc]
  · rw [hsrcid]
    exact h.left id hid

/-- A source that is not registered is passed over. -/
lemma Kept.passOver (h : Kept s) {i : ℕ} {caller : Caller} {r : Run} {id : String}
    {left : List String} (hi : s.clients[i]? = some (.running caller r))
    (hleft : r.left = id :: left) (status : Status) :
    Kept { s with
      clients := s.clients.set i (.running caller { r with left := left, status := status }) } := by
  have hfits := h.run _ (List.mem_of_getElem? hi) r rfl
  refine h.set_quiet ⟨rfl, rfl, rfl⟩ rfl le_rfl rfl (fun k pc _ hk => h.holder k pc hk)
    (fun _ => h.holder i _ hi rfl) (fun hpend => by cases hpend) fun r' hr' => ?_
  obtain rfl := Option.some.inj hr'
  exact hfits.next hleft status

/-- A source that is registered is called, and the call is recorded. -/
lemma Kept.call (h : Kept s) {i : ℕ} {caller : Caller} {r : Run} {id : String}
    {left : List String} {src : HTTPSource} (hi : s.clients[i]? = some (.running caller r))
    (hleft : r.left = id :: left) (hsrc : s.sources id = some src) :
    Kept { s with
      calls := s.calls ++ [⟨r.number, r.version, r.cfg, src, s.version⟩]
      clients := s.clients.set i (.updating caller { r with left := left } src) } := by
  have hfits := h.run _ (List.mem_of_getElem? hi) r rfl
  obtain ⟨hnow, huses⟩ := hfits.found h.sources (hleft ▸ List.mem_cons_self) hsrc
  have hrest {x : String} (hx : x ∈ left) : x ∈ r.left := hleft ▸ List.mem_cons_of_mem _ hx
  have hothers (k : ℕ) (pc : Pc) (hne : k ≠ i) (hk : s.clients[k]? = some pc) :
      pc.isInside = true → False := fun hin =>
    hne (h.eq_of_isInside hi hk rfl hin)
  have hcall {c : Call} (hc : c ∈ s.calls ++ [⟨r.number, r.version, r.cfg, src, s.version⟩]) :
      c ∈ s.calls ∨ c = ⟨r.number, r.version, r.cfg, src, s.version⟩ := by
    simpa using hc
  refine Kept.set
    (t := { s with calls := s.calls ++ [⟨r.number, r.version, r.cfg, src, s.version⟩] }) h
    ⟨rfl, rfl, rfl⟩ rfl ⟨?_, ?_⟩ (fun k pc hne hk => ⟨?_, ?_⟩) (fun _ => h.holder i _ hi rfl)
    (fun hpend => by cases hpend) fun r' hr' => ?_
  · intro c hc
    rcases hcall hc with hc | rfl
    · exact (h.calls c hc).mono ⟨rfl, rfl, rfl⟩ le_rfl
    · exact ⟨hfits.number, hfits.cfg, hnow.2, huses⟩
  · -- two calls of one run: at most one of them is the new one
    intro c hc c' hc' hrun
    rcases hcall hc with hc | rfl <;> rcases hcall hc' with hc' | rfl
    · exact h.same c hc c' hc' hrun
    · exact hfits.calls c hc hrun
    · obtain ⟨hv, hg⟩ := hfits.calls c' hc' hrun.symm
      exact ⟨hv.symm, hg.symm⟩
    · exact ⟨rfl, rfl⟩
  · exact fun hin => (hothers k pc hne hk hin).elim
  · exact fun r' hr' => (hothers k pc hne hk (Pc.isInside_of_run? hr')).elim
  · obtain rfl := Option.some.inj hr'
    refine ⟨hfits.number, hfits.cfg, hfits.airgap, fun x hx => hfits.left x (hrest hx), ?_,
      .inl hnow⟩
    intro c hc hrun
    rcases hcall hc with hc | rfl
    · exact hfits.calls c hc hrun
    · exact ⟨rfl, rfl⟩

/-- A source that is looked up is of the version that the run has read. -/
lemma Kept.lookup (h : Kept s) {i : ℕ} {caller : Caller} {r : Run} {id : String}
    {left : List String} {pc' : Pc} (hi : s.clients[i]? = some (.running caller r))
    (hleft : r.left = id :: left) (hlookup : s.lookup caller r id left = (t, pc')) :
    Kept { t with clients := t.clients.set i pc' } := by
  rw [System.lookup] at hlookup
  split at hlookup
  · obtain ⟨rfl, rfl⟩ := Prod.mk.inj hlookup
    exact h.passOver hi hleft _
  · next src hsrc =>
    obtain ⟨rfl, rfl⟩ := Prod.mk.inj hlookup
    exact h.call hi hleft hsrc

/-- Every step of a caller keeps the invariant. -/
lemma Kept.client (h : Kept s) {i : ℕ} {pc pc' : Pc} (hi : s.clients[i]? = some pc)
    (hstep : ClientStep s i pc t pc') : Kept { t with clients := t.clients.set i pc' } := by
  cases hstep with
  | idle hpc hpc' =>
    obtain ⟨hpend, hin⟩ := Pc.of_isIdle hpc'
    exact h.outside hin fun hp => by rw [hpend] at hp; cases hp
  | pass _ hon => exact h.outside rfl fun _ => .inl hon
  | lock hfree => exact h.lock hi hfree
  | read hread => exact h.read hi hread
  | leave hin hleave => exact h.leave hi hin hleave
  | lookup hleft hlookup => exact h.lookup hi hleft hlookup
  | @updated caller r src status =>
    have hfits := h.run _ (List.mem_of_getElem? hi) r rfl
    refine h.set_quiet ⟨rfl, rfl, rfl⟩ rfl le_rfl rfl (fun k pc _ hk => h.holder k pc hk)
      (fun _ => h.holder i _ hi rfl) (fun hpend => by cases hpend) fun r' hr' => ?_
    obtain rfl := Option.some.inj hr'
    exact ⟨hfits.number, hfits.cfg, hfits.airgap, hfits.left, hfits.calls, hfits.safe⟩

/-- A change of the configuration that disturbs nobody keeps the invariant. -/
lemma Kept.updateConfig (h : Kept s) {cfg : UpdaterConfig}
    (hcalm : Undisturbed s (.updateConfig cfg)) : Kept (s.updateConfig cfg) := by
  have hversion {v : ℕ} {old : UpdaterConfig} (hv : s.versionOf v = some old) :
      (s.updateConfig cfg).versionOf v = some old := by
    change ((s.past ++ [s.cfg]) ++ [cfg])[v]? = some old
    rw [List.getElem?_append_left (List.getElem?_eq_some_iff.mp hv).1]
    exact hv
  refine ⟨rfl, h.holder, fun pc hpc hpend => (hcalm pc hpc).1 hpend, fun pc hpc r hr => ?_,
    fun c hc => ?_, h.same⟩
  · have hfits := h.run pc hpc r hr
    refine ⟨hfits.number, hversion hfits.cfg, hfits.airgap, hfits.left, hfits.calls, .inr ?_⟩
    have hnone := (hcalm pc hpc).2
    rw [Pc.left, hr] at hnone
    exact hnone
  · have hgood := h.calls c hc
    exact ⟨hgood.number, hversion hgood.cfg, hgood.enabled, hgood.uses⟩

lemma Kept.trigger (h : Kept s) :
    Kept { s with clients := s.clients ++ [.checking .trigger] } := by
  have hclient {k : ℕ} {pc : Pc} (hk : (s.clients ++ [.checking .trigger])[k]? = some pc) :
      s.clients[k]? = some pc ∨ pc.isIdle = true := by
    rw [List.getElem?_append] at hk
    split_ifs at hk
    · exact .inl hk
    · obtain rfl := List.mem_singleton.mp (List.mem_of_getElem? hk)
      exact .inr rfl
  refine ⟨h.sources, fun k pc hk hin => ?_, fun pc hpc hpend => ?_, fun pc hpc r hr => ?_,
    fun c hc => (h.calls c hc).mono ⟨rfl, rfl, rfl⟩ le_rfl, h.same⟩
  · rcases hclient hk with hk | hidle
    · exact h.holder k pc hk hin
    · rw [(Pc.of_isIdle hidle).2] at hin
      cases hin
  · obtain ⟨k, hk⟩ := List.mem_iff_getElem?.mp hpc
    rcases hclient hk with hk | hidle
    · exact h.pending pc (List.mem_of_getElem? hk) hpend
    · rw [(Pc.of_isIdle hidle).1] at hpend
      cases hpend
  · obtain ⟨k, hk⟩ := List.mem_iff_getElem?.mp hpc
    rcases hclient hk with hk | hidle
    · exact (h.run pc (List.mem_of_getElem? hk) r hr).mono ⟨rfl, rfl, rfl⟩ le_rfl rfl
    · rw [Pc.run?_of_isIdle hidle] at hr
      cases hr

/-- Every step that meets the condition keeps the invariant. -/
lemma kept_step {codec : Codec Status V} {e : Event} (h : Kept s) (hcalm : Undisturbed s e)
    (hstep : step codec s e = some t) : Kept t := by
  cases e with
  | tick d =>
    obtain rfl := Option.some.inj hstep
    have hsame : SameConfig s { s with clock := s.clock + (d : ℤ) } := ⟨rfl, rfl, rfl⟩
    exact ⟨h.sources, h.holder, h.pending,
      fun pc hpc r hr => (h.run pc hpc r hr).mono hsame le_rfl rfl,
      fun c hc => (h.calls c hc).mono hsame le_rfl, h.same⟩
  | updateConfig cfg =>
    obtain rfl := Option.some.inj hstep
    exact h.updateConfig hcalm
  | trigger =>
    obtain rfl := Option.some.inj hstep
    exact h.trigger
  | client i move =>
    rw [step] at hstep
    obtain ⟨pc, hi, hstep⟩ := Option.bind_eq_some_iff.mp hstep
    obtain ⟨⟨u, pc'⟩, hmove, hstep⟩ := Option.bind_eq_some_iff.mp hstep
    obtain rfl := Option.some.inj hstep
    exact h.client hi (clientMove_spec hmove)

end Steps

lemma kept_init (cfg : UpdaterConfig) (store : Option (BadgerStore V)) (clock : Time) :
    Kept (System.init cfg store clock) := by
  have hclient : ∀ pc ∈ (System.init cfg store clock).clients, pc.isIdle = true := by
    simp [System.init, Pc.isIdle, Pc.isPending, Pc.isInside]
  refine ⟨rfl, ?_, ?_, ?_, by simp [System.init], by simp [System.init]⟩
  · intro i pc hpc hin
    rw [(Pc.of_isIdle (hclient pc (List.mem_of_getElem? hpc))).2] at hin
    cases hin
  · intro pc hpc hpend
    rw [(Pc.of_isIdle (hclient pc hpc)).1] at hpend
    cases hpend
  · intro pc hpc r hr
    rw [Pc.run?_of_isIdle (hclient pc hpc)] at hr
    cases hr

/-! ## All runs of the system -/

/-- **Every run of the updater uses one enabled version of the configuration** in all runs of
the system in which `UpdateConfig` disables updates only while no caller is past its check
without having read the configuration, and changes the configuration only while no run has a
registered source left to look up. -/
theorem oneVersion_of_undisturbed (codec : Codec Status V) (cfg : UpdaterConfig)
    (store : Option (BadgerStore V)) (clock : Time) (es : List Event)
    (hcalm : Meets (step codec) Undisturbed (.init cfg store clock) es) :
    Always (step codec) OneVersion (.init cfg store clock) es :=
  always_of_meets (I := Kept) (fun _ _ _ h hC => kept_step h hC) (fun _ h => h.oneVersion)
    (kept_init cfg store clock) hcalm

/-! ### Updates that are disabled after a run, and before one -/

def statusCodec : Codec Status Status := ⟨id, .ok, fun _ => rfl⟩

def nvdOnly : UpdaterConfig := ⟨true, 24 * hour, [sourceNVD], "/var/lib/arcsent", "", []⟩

/-- A caller is let through by its check, and runs up to the update of its source. -/
def beginUpdate : List Event :=
  [.client 1 .go, .client 1 .go, .client 1 .go]

/-- Updates are disabled when the run has begun its last update. -/
def disabledLate : List Event :=
  .trigger :: .client 1 .go :: beginUpdate ++ [.updateConfig { nvdOnly with enabled := false }]

/-- Updates are disabled when the caller has passed its check. -/
def disabledEarly : List Event :=
  .trigger :: .client 1 .go :: .updateConfig { nvdOnly with enabled := false } :: beginUpdate

/-- The run that had already begun has used the old version alone. -/
theorem oneVersion_disabledLate :
    ∃ s ∈ run (step statusCodec) (.init nvdOnly none unixEpoch) disabledLate,
      s.calls.length = 1 ∧ s.cfg.enabled = false ∧ OneVersion s := by
  have hrun : ∃ s ∈ run (step statusCodec) (.init nvdOnly none unixEpoch) disabledLate,
      s.calls.length = 1 ∧ s.cfg.enabled = false := by decide +kernel
  obtain ⟨s, hs, hcalls, hoff⟩ := hrun
  exact ⟨s, hs, hcalls, hoff, (oneVersion_of_undisturbed statusCodec nvdOnly none unixEpoch
    disabledLate (by decide +kernel)).last hs⟩

/-- The run downloads a source although updates are disabled in what it has read. -/
theorem update_while_disabled :
    ¬ ∀ (cfg : UpdaterConfig) (es : List Event),
      Always (step statusCodec) OneVersion (.init cfg none unixEpoch) es := by
  intro hclaim
  have hrun : ∃ s ∈ run (step statusCodec) (.init nvdOnly none unixEpoch) disabledEarly,
      ∃ c ∈ s.calls, c.cfg.enabled = false := by decide +kernel
  obtain ⟨s, hs, c, hc, hoff⟩ := hrun
  obtain ⟨v, cfg, -, hon, huses⟩ := (hclaim nvdOnly disabledEarly).last hs c hc
  rw [(huses c hc rfl).read, hon] at hoff
  cases hoff

end Arcsent.Signatures
