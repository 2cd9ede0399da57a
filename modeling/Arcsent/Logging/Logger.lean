/-
# What a log says

`internal/logging/logger.go`: an entry is written as one JSON object or, in the format `text`,
as a line that is put together from its parts.  The parts of a JSON object can be told apart
whatever they are, as long as they can be encoded at all; those of a line of text cannot, and a
message with a line break in it may look like any other entries.
-/
import Mathlib.Data.List.Forall2
import Arcsent.Go.Json

namespace Arcsent.Logging

open Arcsent.Go Arcsent.Go.Json

/-- What the standard library makes of the values of fields, which may be of any type: the
configuration and what a plugin has panicked with are logged as they are. -/
structure Encodings (α : Type) where
  /-- The function `json.Marshal`. -/
  marshal : α → Except String (List Char)
  /-- The verb `%v`. -/
  verb : α → String

/-- The same, where the encoder writes balanced texts. -/
structure JSONEncodings (α : Type) extends Encodings α where
  whole : ∀ a t, marshal a = .ok t → Whole t

structure Field (α : Type) where
  key : String
  value : α

/-- What a method of the logger is called with, and the time.  The clock is read once more when
an entry cannot be encoded. -/
structure Entry (α : Type) where
  ts : String
  again : String
  level : String
  msg : String
  fields : List (Field α)

variable {α : Type} (enc : Encodings α)

/-! ## The two formats -/

/-- The function `formatFields`. -/
def formatFields (fields : List (Field α)) : String :=
  join " " (fields.map fun f => f.key ++ "=" ++ enc.verb f.value)

/-- The text that `write` prints in the format `text`. -/
def textLine (e : Entry α) : String :=
  e.ts ++ " level=" ++ e.level ++ " msg=" ++ e.msg ++ " " ++ formatFields enc e.fields

/-- A value put into a map. -/
def setKey {β : Type} (m : List (String × β)) (key : String) (value : β) : List (String × β) :=
  if key ∈ m.map Prod.fst then m.map fun e => if e.1 = key then (key, value) else e
  else m ++ [(key, value)]

/-- The map `payload` of `write`; a field may replace what is there. -/
def payload (e : Entry α) : List (String × (String ⊕ α)) :=
  e.fields.foldl (fun m f => setKey m f.key (.inr f.value))
    [("ts", .inl e.ts), ("level", .inl e.level), ("msg", .inl e.msg)]

/-- What `json.Marshal` makes of a value of the payload. -/
def valueText : String ⊕ α → Except String (List Char)
  | .inl s => .ok (quoted s)
  | .inr a => enc.marshal a

/-- The method `Output` of a `log.Logger`: a line that does not end is ended. -/
def output (line : List Char) : List Char :=
  if line.getLast? = some '\n' then line else line ++ ['\n']

/-- The function `New`: the format of a logger. -/
def formatOf (format : String) : String := if format = "" then "json" else format

/-- The method `write`, for a logger made by `New`. -/
def write (format : String) (e : Entry α) : List Char :=
  if formatOf format = "text" then output (textLine enc e).toList
  else
    match marshalMap (valueText enc) (payload e) with
    | .error err =>
      output (e.again ++ " level=error msg=failed to marshal log entry err=" ++ err).toList
    | .ok encoded => output (encoded ++ ['\n'])

/-- What a number of calls write. -/
def log (format : String) (calls : List (Entry α)) : List Char := calls.flatMap (write enc format)

/-! ## What can be read back -/

/-- The entries have the same values under the same keys, as far as JSON shows them. -/
def SamePayload (e e' : Entry α) : Prop :=
  ((payload e).map fun x => (x.1, valueText enc x.2)).Perm
    ((payload e').map fun x => (x.1, valueText enc x.2))

section Json

variable {enc : JSONEncodings α} {format : String}

lemma whole_valueText : ∀ v t, valueText enc.toEncodings v = .ok t → Whole t := by
  rintro (s | a) t h
  · obtain rfl := Except.ok.inj h
    exact whole_quoted s
  · exact enc.whole a t h

lemma exists_encoded (h : ∀ a, ∃ t, enc.marshal a = .ok t) (e : Entry α) :
    ∃ text, marshalMap (valueText enc.toEncodings) (payload e) = .ok text := by
  refine exists_marshalMap ?_
  rintro ⟨key, s | a⟩ -
  · exact ⟨quoted s, rfl⟩
  · exact h a

/-- An entry that can be encoded is a line of its own. -/
lemma write_json (h : formatOf format ≠ "text") {e : Entry α} {text : List Char}
    (htext : marshalMap (valueText enc.toEncodings) (payload e) = .ok text) :
    write enc.toEncodings format e = text ++ ['\n'] := by
  rw [write, if_neg h, htext]
  dsimp only
  rw [output, if_pos (by simp)]

/-- The lines of a log in JSON. -/
lemma splitOn_log (h : formatOf format ≠ "text") {calls : List (Entry α)}
    {lines : List (List Char)}
    (hlines : List.Forall₂
      (fun e text => marshalMap (valueText enc.toEncodings) (payload e) = .ok text) calls lines) :
    (log enc.toEncodings format calls).splitOn '\n' = lines ++ [[]] := by
  induction hlines with
  | nil => rfl
  | @cons e text calls lines he _ ih =>
    have hline : '\n' ∉ text := newline_notMem_marshalMap whole_valueText he
    rw [log, List.flatMap_cons, write_json h he, List.append_assoc, List.singleton_append,
      List.splitOn_append_cons_self_of_not_mem hline, List.cons_append, ← ih]
    rfl

lemma exists_lines (h : ∀ a, ∃ t, enc.marshal a = .ok t) (calls : List (Entry α)) :
    ∃ lines, List.Forall₂
      (fun e text => marshalMap (valueText enc.toEncodings) (payload e) = .ok text) calls
      lines := by
  induction calls with
  | nil => exact ⟨[], .nil⟩
  | cons e calls ih =>
    obtain ⟨text, htext⟩ := exists_encoded h e
    obtain ⟨lines, hlines⟩ := ih
    exact ⟨text :: lines, .cons htext hlines⟩

/-- Entries with the same lines. -/
lemma forall₂_of_lines {calls calls' : List (Entry α)} {lines : List (List Char)}
    (h : List.Forall₂
      (fun e text => marshalMap (valueText enc.toEncodings) (payload e) = .ok text) calls lines)
    (h' : List.Forall₂
      (fun e text => marshalMap (valueText enc.toEncodings) (payload e) = .ok text) calls' lines) :
    List.Forall₂ (SamePayload enc.toEncodings) calls calls' := by
  induction h generalizing calls' with
  | nil =>
    cases h'
    exact .nil
  | cons he _ ih =>
    cases h' with
    | cons he' h' => exact .cons (perm_of_marshalMap whole_valueText he he') (ih h')

/-- A log in JSON tells the entries. -/
lemma forall₂_of_log (h : formatOf format ≠ "text") (hall : ∀ a, ∃ t, enc.marshal a = .ok t)
    {calls calls' : List (Entry α)}
    (hlog : log enc.toEncodings format calls = log enc.toEncodings format calls') :
    List.Forall₂ (SamePayload enc.toEncodings) calls calls' := by
  obtain ⟨lines, hlines⟩ := exists_lines hall calls
  obtain ⟨lines', hlines'⟩ := exists_lines hall calls'
  have hsplit := congrArg (List.splitOn '\n') hlog
  rw [splitOn_log h hlines, splitOn_log h hlines'] at hsplit
  obtain rfl := List.append_cancel_right hsplit
  exact forall₂_of_lines hlines hlines'

end Json

/-! ## Entries that are lost -/

/-- A time as the logger writes it. -/
def newYear : String := "2026-01-01T00:00:00Z"

/-- An entry with one field, whose value cannot be encoded. -/
def unencoded (a : α) (msg : String) : Entry α :=
  ⟨newYear, newYear, "error", msg, [⟨"panic", a⟩]⟩

lemma payload_unencoded (a : α) (msg : String) : payload (unencoded a msg) =
    [("ts", .inl newYear), ("level", .inl "error"), ("msg", .inl msg), ("panic", .inr a)] := rfl

variable {enc}

/-- Of such an entry only the error is written. -/
lemma write_unencoded {format : String} (h : formatOf format ≠ "text") {a : α} {err : String}
    (ha : enc.marshal a = .error err) (msg : String) :
    write enc format (unencoded a msg) =
      output (newYear ++ " level=error msg=failed to marshal log entry err=" ++ err).toList := by
  have herror : marshalMap (valueText enc) (payload (unencoded a msg)) = .error err := by
    refine marshalMap_eq_error ?_ ⟨("panic", .inr a), by simp [payload_unencoded], ha⟩
    rintro ⟨key, s | b⟩ hmem
    · exact .inl ⟨quoted s, rfl⟩
    · obtain ⟨-, rfl⟩ : key = "panic" ∧ b = a := by simpa [payload_unencoded] using hmem
      exact .inr ha
  rw [write, if_neg h, herror, unencoded]

/-- Their messages are not told apart. -/
lemma not_samePayload_unencoded (a : α) {msg msg' : String} (h : msg ≠ msg') :
    ¬ SamePayload enc (unencoded a msg) (unencoded a msg') := by
  intro hsame
  have hmem : ("msg", Except.ok (quoted msg)) ∈
      (payload (unencoded a msg)).map fun x => (x.1, valueText enc x.2) :=
    List.mem_map.mpr ⟨("msg", .inl msg), by simp [payload_unencoded], rfl⟩
  have hquoted : quoted msg = quoted msg' := by
    simpa [payload_unencoded, valueText] using hsame.mem_iff.mp hmem
  exact h (quoted_append_inj (congrArg (· ++ []) hquoted)).1

/-! ## Entries that look like others -/

/-- What is missing at the end of a line. -/
def ending (line : List Char) : List Char := if line.getLast? = some '\n' then [] else ['\n']

lemma output_eq (line : List Char) : output line = line ++ ending line := by
  rw [output, ending]
  split_ifs
  · rw [List.append_nil]
  · rfl

lemma output_append (line : List Char) {rest : List Char} (h : rest ≠ []) :
    output (line ++ rest) = line ++ output rest := by
  rw [output_eq, output_eq, ending, ending, List.getLast?_append_of_ne_nil _ h,
    List.append_assoc]

lemma textLine_ne_nil (e : Entry α) : (textLine enc e).toList ≠ [] := by
  simp [textLine]

variable (enc)

/-- The entry that says what two entries say. -/
def merged (e e' : Entry α) : Entry α where
  ts := e.ts
  again := e.again
  level := e.level
  msg := e.msg ++ " " ++ formatFields enc e.fields ++
    String.ofList (ending (textLine enc e).toList) ++ e'.ts ++ " level=" ++ e'.level ++
    " msg=" ++ e'.msg
  fields := e'.fields

/-- In the format `text` one call writes what two others write. -/
lemma write_merged (e e' : Entry α) :
    write enc "text" (merged enc e e') = write enc "text" e ++ write enc "text" e' := by
  have htext : formatOf "text" = "text" := by decide
  have hline : textLine enc (merged enc e e') =
      textLine enc e ++ String.ofList (ending (textLine enc e).toList) ++ textLine enc e' := by
    simp only [textLine, merged, String.append_assoc]
  rw [write, write, write, if_pos htext, if_pos htext, if_pos htext, hline, String.toList_append,
    String.toList_append, String.toList_ofList, output_append _ (textLine_ne_nil e'),
    output_eq (textLine enc e).toList]

/-- **What was logged can be told from the log** in every format but `text`, if every value can
be encoded. -/
theorem log_determines_iff (enc : JSONEncodings α) (format : String) :
    (∀ calls calls', log enc.toEncodings format calls = log enc.toEncodings format calls' →
        List.Forall₂ (SamePayload enc.toEncodings) calls calls') ↔
      formatOf format ≠ "text" ∧ ∀ a, ∃ t, enc.marshal a = .ok t := by
  constructor
  · intro h
    have hformat : formatOf format ≠ "text" := by
      intro htext
      let e : Entry α := ⟨newYear, newYear, "info", "daemon started", []⟩
      have hsame : ∀ e, write enc.toEncodings format e = write enc.toEncodings "text" e :=
        fun e => by rw [write, write, if_pos htext, if_pos (by decide)]
      have hlog : log enc.toEncodings format [merged enc.toEncodings e e] =
          log enc.toEncodings format [e, e] := by
        simp only [log, List.flatMap_cons, List.flatMap_nil, List.append_nil, hsame, write_merged]
      have hlength := (h _ _ hlog).length_eq
      simp at hlength
    refine ⟨hformat, fun a => ?_⟩
    cases ha : enc.marshal a with
    | ok t => exact ⟨t, rfl⟩
    | error err =>
      have hlog : log enc.toEncodings format [unencoded a "runonce panic recovered"] =
          log enc.toEncodings format [unencoded a "job panic recovered"] := by
        simp only [log, List.flatMap_cons, List.flatMap_nil, List.append_nil,
          write_unencoded hformat ha]
      exact absurd (List.forall₂_cons.mp (h _ _ hlog)).1
        (not_samePayload_unencoded a (by decide))
  · rintro ⟨hformat, hall⟩ calls calls' hlog
    exact forall₂_of_log hformat hall hlog

/-- The values that the daemon itself puts into fields, and an error that a plugin has panicked
with. -/
inductive Logged
  | string (s : String)
  | int (n : ℤ)
  | error (text : String)

/-- An error has no fields that JSON shows. -/
def loggedEncodings : JSONEncodings Logged where
  marshal
    | .string s => .ok (quoted s)
    | .int n => .ok (toString n).toList
    | .error _ => .ok ['\x7b', '\x7d']
  verb
    | .string s => s
    | .int n => toString n
    | .error text => text
  whole := by
    rintro (s | n | text) t h <;> obtain rfl := Except.ok.inj h
    · exact whole_quoted s
    · exact whole_toString n
    · decide

/-- These can be told from the log. -/
theorem log_determines_logged :
    ∀ calls calls', log loggedEncodings.toEncodings "json" calls =
        log loggedEncodings.toEncodings "json" calls' →
      List.Forall₂ (SamePayload loggedEncodings.toEncodings) calls calls' := by
  refine (log_determines_iff loggedEncodings "json").mpr ⟨by decide, ?_⟩
  rintro (s | n | text) <;> exact ⟨_, rfl⟩

end Arcsent.Logging
