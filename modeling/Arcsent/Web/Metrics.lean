/-
# The metrics on the dashboard

The API writes one line for each of its numbers, and the page takes the lines apart again.  The
numbers that the page shows are those of the server.
-/
import Arcsent.Web.Proxy
import Arcsent.Web.Script

namespace Arcsent.Web

open Arcsent.Go Arcsent.Servers Arcsent.Storage

/-! ## The page -/

/-- A `Record<string, number>`. -/
abbrev NumberRecord := String → Option ℚ

/-- One line in the loop of `getMetrics`. -/
def readLine (parsed : NumberRecord) (line : List Char) : NumberRecord :=
  let trimmed := trim line
  if trimmed = [] ∨ trimmed.head? = some '#' then parsed
  else
    match splitSpaces trimmed with
    | name :: value :: _ =>
      match number value with
      | some x => Function.update parsed (String.ofList name) (some x)
      | none => parsed
    | _ => parsed

/-- The rest of `getMetrics`, from the text of the response on. -/
def parseMetrics (raw : String) : NumberRecord :=
  (raw.toList.splitOn '\n').foldl readLine fun _ => none

/-- What the browser shows of a response besides its status: the text of a body that is not
text already, the words for a status, and the message when a request cannot be made. -/
structure Browser where
  encode : Body → String
  statusText : ℕ → String
  typeError : String

/-- The method `text` of a response. -/
def Browser.text (b : Browser) : Body → String
  | .text s => s
  | body => b.encode body

/-- The value of a header field that `fetch` makes of a text: one byte for each character, without
the blanks at both ends.  There is none for a text with characters above `U+00FF` or with line
breaks or zeros inside. -/
def headerValue (text : String) : Option Bytes :=
  if text.toList.all fun c => c.toNat < 256 then
    let value := trimString (text.toList.map fun c => UInt8.ofNat c.toNat)
    if value.any fun c => c = 0 || c = 0x0A || c = 0x0D then none else some value
  else none

/-- The function `fetchText`: the request, and what becomes of its response. -/
def fetchText (b : Browser) (token path : String)
    (hpath : Url.percent ∉ bytes ("/api" ++ path) ∧
      (bytes ("/api" ++ path)).head? = some Filepath.separator)
    (send : Request → Response) : Except String String :=
  match headerValue token with
  | none => .error b.typeError
  | some value =>
    let res := send (.plain "GET" ("/api" ++ path)
      [("Authorization", value), ("Content-Type", bytes "text/plain")] hpath)
    if 200 ≤ res.status ∧ res.status < 300 then .ok (b.text res.body)
    else if res.status = 401 then .error "Unauthorized"
    else .error ("Request failed: " ++ b.statusText res.status)

/-- The function `getMetrics`. -/
def getMetrics (b : Browser) (token : String) (send : Request → Response) :
    Except String NumberRecord :=
  (fetchText b token "/metrics" (by decide) send).map parseMetrics

/-- What `net/http` answers to a request that it reads: a header field with a value that is not
valid is refused before the web interface sees the request. -/
def answerRead (serve : Request → Response) (req : Request) : Response :=
  if req.header.all fun e => validHeaderFieldValue e.2 then serve req
  else ⟨400, "text/plain; charset=utf-8", none, .text "400 Bad Request: invalid header value"⟩

/-! ## The text as a list of numbers -/

/-- Lines of numbers under names. -/
def gauges (values : List (String × ℤ)) : String :=
  values.foldr (fun e text => Servers.gauge e.1 e.2 ++ text) ""

@[simp] lemma gauges_nil : gauges [] = "" := rfl

@[simp] lemma gauges_cons (e : String × ℤ) (values : List (String × ℤ)) :
    gauges (e :: values) = Servers.gauge e.1 e.2 ++ gauges values := rfl

lemma gauges_append (values values' : List (String × ℤ)) :
    gauges (values ++ values') = gauges values ++ gauges values' := by
  induction values with
  | nil => simp
  | cons e values ih => simp [ih, String.append_assoc]

/-- A name that a line can begin with. -/
def IsName (name : String) : Prop := Solid name.toList ∧ name.toList.head? ≠ some '#'

lemma solid_toString (n : ℤ) : Solid (toString n).toList :=
  solid_of_digits (Lib.chars_toString n).1 (Lib.chars_toString n).2

/-- **A line is read as the number under its name.** -/
lemma readLine_gauge (parsed : NumberRecord) {name : String} (hname : IsName name) {n : ℤ}
    (hn : |n| < 2 ^ 53) :
    readLine parsed (name.toList ++ ' ' :: (toString n).toList) =
      Function.update parsed name (some (n : ℚ)) := by
  have htrim : trim (name.toList ++ ' ' :: (toString n).toList) =
      name.toList ++ ' ' :: (toString n).toList := by
    simpa using trim_eq_self hname.1 (solid_toString n) [' ']
  obtain ⟨c, rest, hc⟩ := List.exists_cons_of_ne_nil hname.1.1
  have hstart : ¬ (name.toList ++ ' ' :: (toString n).toList = [] ∨
      (name.toList ++ ' ' :: (toString n).toList).head? = some '#') := by
    have hhead := hname.2
    rw [hc] at hhead ⊢
    simpa using hhead
  simp only [readLine, htrim, if_neg hstart, splitSpaces_pair hname.1 (solid_toString n),
    number_toString hn, String.ofList_toList]

/-- The page reads back what the server has written. -/
lemma parseMetrics_gauges {values : List (String × ℤ)} (hnames : ∀ e ∈ values, IsName e.1)
    (hvalues : ∀ e ∈ values, |e.2| < 2 ^ 53) :
    parseMetrics (gauges values) =
      values.foldl (fun (parsed : NumberRecord) e => Function.update parsed e.1 (some (e.2 : ℚ)))
        fun _ => none := by
  rw [parseMetrics]
  generalize (fun _ => none : NumberRecord) = parsed
  induction values generalizing parsed with
  | nil => rfl
  | cons e values ih =>
    have hname := hnames e List.mem_cons_self
    have hline : '\n' ∉ e.1.toList ++ ' ' :: (toString e.2).toList := by
      intro hmem
      rcases List.mem_append.mp hmem with hleft | hright
      · exact absurd (hname.1.2 _ hleft) (by decide)
      · rcases List.mem_cons.mp hright with heq | hdigits
        · exact absurd heq (by decide)
        · exact absurd ((solid_toString e.2).2 _ hdigits) (by decide)
    -- the first line ends at the first line break
    have htext : (gauges (e :: values)).toList =
        (e.1.toList ++ ' ' :: (toString e.2).toList) ++ '\n' :: (gauges values).toList := by
      simp [Servers.gauge, String.toList_append]
    rw [htext, List.splitOn_append_cons_self_of_not_mem hline, List.foldl_cons, List.foldl_cons,
      readLine_gauge parsed hname (hvalues e List.mem_cons_self)]
    exact ih (fun d hd => hnames d (List.mem_cons_of_mem e hd))
      (fun d hd => hvalues d (List.mem_cons_of_mem e hd)) _

/-- Under different names every number is found. -/
lemma foldl_update {values : List (String × ℤ)} (h : (values.map Prod.fst).Nodup)
    (parsed : NumberRecord) (name : String) :
    values.foldl (fun (parsed : NumberRecord) e => Function.update parsed e.1 (some (e.2 : ℚ)))
        parsed name =
      ((values.lookup name).map fun n : ℤ => (n : ℚ)).or (parsed name) := by
  induction values generalizing parsed with
  | nil => rfl
  | cons e values ih =>
    obtain ⟨first, n⟩ := e
    obtain ⟨hnot, hrest⟩ := List.nodup_cons.mp h
    rw [List.foldl_cons, ih hrest]
    by_cases hname : name = first
    · subst hname
      have hnone : values.lookup name = none := by
        rw [List.lookup_eq_none_iff]
        intro d hd
        have hne : name ≠ d.1 := by
          rintro rfl
          exact hnot (List.mem_map.mpr ⟨d, hd, rfl⟩)
        simpa using hne
      simp [hnone]
    · rw [Function.update_of_ne hname, List.lookup_cons, beq_false_of_ne hname]

/-! ## The numbers of the server -/

variable {κ V : Type} (codecs : Codecs V) (w : Surroundings) (s : Server κ V)

/-- The numbers about the signatures, where there is a status. -/
def signatureValues (store : BadgerStore V) : List (String × ℤ) :=
  match Signatures.loadStatus codecs.signatures store with
  | .error _ => []
  | .ok status =>
    [("arcsent_signatures_sources_total", (status.sources.length : ℤ)),
      ("arcsent_signatures_sources_ok_total",
        (status.sources.countP fun src => src.2.error = "" : ℕ))] ++
    (if isZero status.lastRun then []
      else [("arcsent_signatures_last_run_timestamp_seconds", unixSeconds status.lastRun)]) ++
    if isZero status.nextRun then []
    else [("arcsent_signatures_next_run_timestamp_seconds", unixSeconds status.nextRun)]

/-- What the server has to tell. -/
def metricValues : List (String × ℤ) :=
  [("arcsent_up", (1 : ℤ)), ("arcsent_running_as_root", if w.euid = 0 then 1 else 0),
    ("arcsent_plugins_total", s.mgr.plugins.length),
    ("arcsent_jobs_total", (listJobs s.sched).length),
    ("arcsent_results_total", s.results.historySummaries.length),
    ("arcsent_findings_total", s.results.findingsHistory.length)] ++
  (s.sigStore.map (signatureValues codecs)).getD []

lemma signatureMetrics_eq (store : BadgerStore V) :
    signatureMetrics codecs store = gauges (signatureValues codecs store) := by
  rw [signatureMetrics, signatureValues]
  cases Signatures.loadStatus codecs.signatures store with
  | error err => rfl
  | ok status =>
    dsimp only
    split_ifs <;> simp [String.append_assoc]

lemma buildMetrics_eq : buildMetrics codecs w s = gauges (metricValues codecs w s) := by
  rw [buildMetrics, metricValues, gauges_append]
  cases s.sigStore with
  | none => simp [String.append_assoc]
  | some store => simp [signatureMetrics_eq, String.append_assoc]

/-- All names that there are. -/
def metricNames : List String :=
  ["arcsent_up", "arcsent_running_as_root", "arcsent_plugins_total", "arcsent_jobs_total",
    "arcsent_results_total", "arcsent_findings_total", "arcsent_signatures_sources_total",
    "arcsent_signatures_sources_ok_total", "arcsent_signatures_last_run_timestamp_seconds",
    "arcsent_signatures_next_run_timestamp_seconds"]

lemma signatureValues_names (store : BadgerStore V) :
    ((signatureValues codecs store).map Prod.fst).Sublist (metricNames.drop 6) := by
  rw [signatureValues]
  cases Signatures.loadStatus codecs.signatures store with
  | error err => exact List.nil_sublist _
  | ok status =>
    dsimp only
    split_ifs <;> simp only [List.map_append, List.map_cons, List.map_nil] <;> decide

lemma metricValues_names : ((metricValues codecs w s).map Prod.fst).Sublist metricNames := by
  have hsplit : metricNames = metricNames.take 6 ++ metricNames.drop 6 := rfl
  rw [metricValues, List.map_append, hsplit]
  refine List.Sublist.append (List.Sublist.refl _) ?_
  cases s.sigStore with
  | none => exact List.nil_sublist _
  | some store => exact signatureValues_names codecs store

lemma isName_of_mem {name : String} (h : name ∈ metricNames) : IsName name := by
  have hall : (metricNames.all fun name => name.toList != [] &&
      name.toList.all (fun c => !isSpace c) && name.toList.head? != some '#') = true := rfl
  have hname := List.all_eq_true.mp hall name h
  simp only [Bool.and_eq_true, bne_iff_ne, List.all_eq_true, Bool.not_eq_true'] at hname
  exact hname

/-- **What the page makes of the text is what the server has to tell.** -/
lemma parseMetrics_buildMetrics (hvalues : ∀ e ∈ metricValues codecs w s, |e.2| < 2 ^ 53)
    (name : String) : parseMetrics (buildMetrics codecs w s) name =
      ((metricValues codecs w s).lookup name).map fun n : ℤ => (n : ℚ) := by
  have hsub := metricValues_names codecs w s
  have hnodup : ((metricValues codecs w s).map Prod.fst).Nodup := hsub.nodup (by decide)
  have hnames : ∀ e ∈ metricValues codecs w s, IsName e.1 := fun e he =>
    isName_of_mem (hsub.subset (List.mem_map_of_mem he))
  rw [buildMetrics_eq, parseMetrics_gauges hnames hvalues, foldl_update hnodup, Option.or_none]

/-! ## The way to the page -/

/-- The request of the page for the metrics. -/
def metricsRequest (value : Bytes) : Request :=
  .plain "GET" "/api/metrics" [("Authorization", value), ("Content-Type", bytes "text/plain")]
    (by decide)

lemma serveWeb_metrics (value : Bytes) :
    serveMux webRoutes (metricsRequest value) = .handler .proxy := by
  have hplain : serveMux webRoutes (metricsRequest []) = .handler .proxy := by decide
  exact hplain

lemma serveAPI_metrics (value : Bytes) :
    serveMux apiRoutes (metricsRequest value) = .handler .metrics := by
  have hplain : serveMux apiRoutes (metricsRequest []) = .handler .metrics := by decide +kernel
  exact hplain

/-- What `fetchText` makes of the response to its request. -/
lemma fetchText_eq (b : Browser) {token : String} {value : Bytes}
    (hvalue : headerValue token = some value) (send : Request → Response) :
    fetchText b token "/metrics" (by decide) send =
      if 200 ≤ (send (metricsRequest value)).status ∧
          (send (metricsRequest value)).status < 300 then
        .ok (b.text (send (metricsRequest value)).body)
      else if (send (metricsRequest value)).status = 401 then .error "Unauthorized"
      else .error ("Request failed: " ++ b.statusText (send (metricsRequest value)).status) := by
  rw [fetchText, hvalue]
  rfl

lemma forward_metrics (value : Bytes) :
    forward (metricsRequest value) = metricsRequest value := rfl

/-- The value of the token is the only one that may not be valid. -/
lemma answerRead_metrics (serve : Request → Response) (value : Bytes) :
    answerRead serve (metricsRequest value) =
      if validHeaderFieldValue value = true then serve (metricsRequest value)
      else ⟨400, "text/plain; charset=utf-8", none,
        .text "400 Bad Request: invalid header value"⟩ := by
  have htype : validHeaderFieldValue (bytes "text/plain") = true := by decide
  simp [answerRead, metricsRequest, Request.plain, htype]

section Shown

variable (b : Browser) (web : WebServer) (page : Request → Response)

/-- What the dashboard shows of the two servers. -/
def dashboard (token : String) : Except String NumberRecord :=
  getMetrics b token (answerRead fun req => (webRespond codecs w web (some s) page req).1)

/-- Both servers accept the value that a token is sent as. -/
def BothAdmit (value : Bytes) : Prop :=
  Admits web.cfg (metricsRequest value) ∧ Admits s.cfg (metricsRequest value)

/-- The response to the request of the page. -/
lemma webRespond_metrics (hurl : web.hasURL = true) (value : Bytes) :
    (BothAdmit s web value → (webRespond codecs w web (some s) page (metricsRequest value)).1 =
      handleMetrics codecs w s) ∧
    (¬ BothAdmit s web value →
      (webRespond codecs w web (some s) page (metricsRequest value)).1 = plainAnswer 401) := by
  have hrespond (hweb : Admits web.cfg (metricsRequest value)) :
      webRespond codecs w web (some s) page (metricsRequest value) =
        respond codecs w s (metricsRequest value) := by
    have hserve : serveWeb web.cfg (metricsRequest value) = .handler .proxy := by
      rw [serveWeb, serveWeb_metrics]
      exact if_neg hweb
    rw [webRespond, hserve, proxyAPI, hurl]
    rw [forward_metrics]
    rfl
  constructor
  · rintro ⟨hweb, hapi⟩
    rw [hrespond hweb, respond_of_authorised (serveAPI_metrics value) hapi]
    rfl
  · intro hrefused
    by_cases hweb : Admits web.cfg (metricsRequest value)
    · rw [hrespond hweb, respond_of_refused (serveAPI_metrics value) fun hapi =>
        hrefused ⟨hweb, hapi⟩]
    · -- the web interface refuses the token, or the API does
      have hserve : serveWeb web.cfg (metricsRequest value) = .status 401 := by
        rw [serveWeb, serveWeb_metrics]
        exact if_pos (not_not.mp hweb)
      rw [webRespond, hserve]

end Shown

/-- **The dashboard shows the numbers of the server** when both servers accept its token as it
is sent, and otherwise says that it is not authorised; a token that cannot be sent, or that a
server does not read, makes an error of its own. -/
theorem getMetrics_eq (b : Browser) (web : WebServer) (page : Request → Response) (token : String)
    (hurl : web.hasURL = true) (hvalues : ∀ e ∈ metricValues codecs w s, |e.2| < 2 ^ 53) :
    (headerValue token = none → dashboard codecs w s b web page token = .error b.typeError) ∧
    ∀ value, headerValue token = some value →
      (validHeaderFieldValue value = false → dashboard codecs w s b web page token =
        .error ("Request failed: " ++ b.statusText 400)) ∧
      (validHeaderFieldValue value = true → BothAdmit s web value →
        ∃ parsed, dashboard codecs w s b web page token = .ok parsed ∧
          ∀ name, parsed name =
            ((metricValues codecs w s).lookup name).map fun n : ℤ => (n : ℚ)) ∧
      (validHeaderFieldValue value = true → ¬ BothAdmit s web value →
        dashboard codecs w s b web page token = .error "Unauthorized") := by
  constructor
  · intro hnone
    rw [dashboard, getMetrics, fetchText, hnone]
    rfl
  intro value hvalue
  obtain ⟨hadmitted, hrefused⟩ := webRespond_metrics codecs w s web page hurl value
  have hread := answerRead_metrics
    (fun req => (webRespond codecs w web (some s) page req).1) value
  refine ⟨fun hinvalid => ?_, fun hvalid hadmit => ?_, fun hvalid hrefuse => ?_⟩
  · rw [if_neg (by simp [hinvalid])] at hread
    rw [dashboard, getMetrics, fetchText_eq b hvalue, hread]
    rfl
  · rw [if_pos hvalid, hadmitted hadmit] at hread
    rw [dashboard, getMetrics, fetchText_eq b hvalue, hread]
    exact ⟨parseMetrics (buildMetrics codecs w s), rfl, fun name =>
      parseMetrics_buildMetrics codecs w s hvalues name⟩
  · rw [if_pos hvalid, hrefused hrefuse] at hread
    rw [dashboard, getMetrics, fetchText_eq b hvalue, hread]
    rfl

/-- A web interface with the token of the plain API. -/
def plainWeb : WebServer := ⟨plainServer.cfg, true⟩

/-- A browser without words of its own. -/
def plainBrowser : Browser := ⟨fun _ => "", fun _ => "", "invalid value"⟩

/-- A page with nothing on it. -/
def emptyPage (_ : Request) : Response := ⟨200, "text/html", none, .empty⟩

/-- The dashboard counts the plugins; it shows nothing without the token or with one that cannot
be sent. -/
theorem getMetrics_plainServer :
    (∃ parsed, dashboard storedCodecs failingRuns plainServer plainBrowser plainWeb emptyPage "t" =
        .ok parsed ∧
      parsed "arcsent_plugins_total" = some (plainServer.mgr.plugins.length : ℚ)) ∧
    dashboard storedCodecs failingRuns plainServer plainBrowser plainWeb emptyPage "" =
      .error "Unauthorized" ∧
    dashboard storedCodecs failingRuns plainServer plainBrowser plainWeb emptyPage "日" =
      .error "invalid value" := by
  have hvalues : ∀ e ∈ metricValues storedCodecs failingRuns plainServer, |e.2| < 2 ^ 53 := by
    decide +kernel
  have hshown (token : String) := getMetrics_eq storedCodecs failingRuns plainServer plainBrowser
    plainWeb emptyPage token rfl hvalues
  have hadmits : Admits plainServer.cfg (metricsRequest (bytes "t")) := fun h => h.2 rfl
  have hrefuses : ¬ Admits plainServer.cfg (metricsRequest []) := fun h => h ⟨by decide, by decide⟩
  refine ⟨?_, ?_, (hshown "日").1 (by decide)⟩
  · obtain ⟨parsed, hget, hparsed⟩ :=
      ((hshown "t").2 (bytes "t") (by decide)).2.1 (by decide) ⟨hadmits, hadmits⟩
    refine ⟨parsed, hget, ?_⟩
    rw [hparsed]
    rfl
  · exact ((hshown "").2 [] (by decide)).2.2 (by decide) fun h => hrefuses h.1

end Arcsent.Web
