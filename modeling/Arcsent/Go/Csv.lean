/-
# Comma-separated values

The package `encoding/csv` with the settings that its constructors give: fields are parted by
commas, lines end in a newline, quotes are doubled inside quotes, and every record has as many
fields as the first.  The writer is read back by the reader up to one change: the reader takes
a carriage return away wherever a newline follows it, also inside quotes.
-/
import Arcsent.Go.Basic

namespace Arcsent.Go.Csv

open Arcsent.Go

/-- A field. -/
abbrev Field := List Char

/-! ## The writer -/

/-- The method `fieldNeedsQuotes`. -/
def fieldNeedsQuotes (field : Field) : Bool :=
  if field = [] then false
  else if field = ['\\', '.'] then true
  else field.any (fun c => c = '\n' || c = '\r' || c = '"' || c = ',') || field.head?.any isSpace

/-- The characters of a field between quotes. -/
def escape (field : Field) : List Char :=
  field.flatMap fun c => if c = '"' then ['"', '"'] else [c]

def writeField (field : Field) : List Char :=
  if fieldNeedsQuotes field then '"' :: (escape field ++ ['"']) else field

/-- The fields of a record with the commas between them. -/
def writeFields : List Field → List Char
  | [] => []
  | [field] => writeField field
  | field :: next :: fields => writeField field ++ ',' :: writeFields (next :: fields)

/-- The method `Write`. -/
def write (record : List Field) : List Char := writeFields record ++ ['\n']

/-- The method `WriteAll`. -/
def writeAll (records : List (List Field)) : List Char := records.flatMap write

/-! ## The reader -/

/-- Where the reader stands. -/
inductive Mode
  /-- At the start of a line. -/
  | line
  /-- At the start of a field. -/
  | field
  /-- Inside a field without quotes. -/
  | plain
  /-- Between quotes. -/
  | quoted
  /-- After a quote inside a quoted field. -/
  | closing
deriving DecidableEq, Repr

/-- A `Reader` with what it has read. -/
structure Reader where
  mode : Mode
  field : Field
  record : List Field
  records : List (List Field)
deriving DecidableEq, Repr

namespace Reader

/-- The reader before its first character. -/
def new : Reader := ⟨.line, [], [], []⟩

def endField (r : Reader) : Reader := ⟨.field, [], r.record ++ [r.field], r.records⟩

/-- The end of a record, with the error `ErrFieldCount`. -/
def endRecord (r : Reader) : Option Reader :=
  let record := r.record ++ [r.field]
  if r.records.head?.all (·.length = record.length) then some ⟨.line, [], [], r.records ++ [record]⟩
  else none

/-- A character outside quotes.  The error is `ErrBareQuote`. -/
def inPlain (r : Reader) (c : Char) : Option Reader :=
  if c = ',' then some r.endField
  else if c = '\n' then r.endRecord
  else if c = '"' then none
  else some { r with mode := .plain, field := r.field ++ [c] }

/-- The first character of a field. -/
def first (r : Reader) (c : Char) : Option Reader :=
  if c = '"' then some { r with mode := .quoted } else r.inPlain c

/-- One character.  Empty lines are skipped; the error after a quote is `ErrQuote`. -/
def step (r : Reader) (c : Char) : Option Reader :=
  match r.mode with
  | .line => if c = '\n' then some r else r.first c
  | .field => r.first c
  | .plain => r.inPlain c
  | .quoted =>
    if c = '"' then some { r with mode := .closing }
    else some { r with field := r.field ++ [c] }
  | .closing =>
    if c = '"' then some { r with mode := .quoted, field := r.field ++ ['"'] }
    else if c = ',' then some r.endField
    else if c = '\n' then r.endRecord
    else none

/-- The end of the text.  A quote that is still open is an error. -/
def finish (r : Reader) : Option (List (List Field)) :=
  match r.mode with
  | .line => some r.records
  | .quoted => none
  | _ => r.endRecord.map Reader.records

end Reader

/-- The ends of lines as `readLine` gives them: a carriage return before a newline is taken
away. -/
def unixLines : List Char → List Char
  | [] => []
  | c :: cs => if c = '\r' ∧ cs.head? = some '\n' then unixLines cs else c :: unixLines cs

/-- A carriage return at the end of the text is taken away as well. -/
def dropFinalReturn (text : List Char) : List Char :=
  if text.getLast? = some '\r' then text.dropLast else text

/-- The method `ReadAll`. -/
def readAll (text : List Char) : Option (List (List Field)) := do
  let r ← (unixLines (dropFinalReturn text)).foldlM Reader.step Reader.new
  r.finish

example : readAll "a,\"b\"\"\r\nc\"\r\n\nd,".toList =
    some [["a".toList, "b\"\nc".toList], ["d".toList, []]] := by decide

/-! ## Line ends -/

@[simp] lemma unixLines_nil : unixLines [] = [] := rfl

lemma unixLines_cons_of_ne {c : Char} (hc : c ≠ '\r') (cs : List Char) :
    unixLines (c :: cs) = c :: unixLines cs := by
  simp [unixLines, hc]

/-- A text can be cut before any character that is not a newline. -/
lemma unixLines_append_cons {c : Char} (hc : c ≠ '\n') (s t : List Char) :
    unixLines (s ++ c :: t) = unixLines s ++ unixLines (c :: t) := by
  induction s with
  | nil => rfl
  | cons a s ih =>
    have hhead : (s ++ c :: t).head? = some '\n' ↔ s.head? = some '\n' := by
      cases s <;> simp [hc]
    rw [List.cons_append, unixLines, unixLines]
    simp only [hhead, ih]
    split_ifs <;> simp

/-- A text without carriage returns stays as it is, whatever follows. -/
lemma unixLines_append_of_notMem {s : List Char} (h : '\r' ∉ s) (t : List Char) :
    unixLines (s ++ t) = s ++ unixLines t := by
  induction s with
  | nil => rfl
  | cons c s ih =>
    obtain ⟨hc, hs⟩ := List.ne_and_not_mem_of_not_mem_cons h
    rw [List.cons_append, unixLines_cons_of_ne hc.symm, ih hs, List.cons_append]

lemma unixLines_of_notMem {s : List Char} (h : '\r' ∉ s) : unixLines s = s := by
  simpa using unixLines_append_of_notMem h []

/-- **A text is changed exactly when a carriage return stands before a newline in it.** -/
lemma unixLines_eq_self_iff (s : List Char) :
    unixLines s = s ↔ ¬ ['\r', '\n'] <:+: s := by
  have hle : ∀ t : List Char, (unixLines t).length ≤ t.length := by
    intro t
    induction t with
    | nil => exact le_rfl
    | cons c t ih =>
      rw [unixLines]
      split_ifs <;> simp only [List.length_cons] <;> omega
  induction s with
  | nil => simp
  | cons c s ih =>
    rw [unixLines, List.infix_cons_iff]
    split_ifs with h
    · -- the text gets shorter
      obtain ⟨rfl, hhead⟩ := h
      obtain ⟨t, rfl⟩ : ∃ t, s = '\n' :: t := List.head?_eq_some_iff.mp hhead
      constructor
      · intro heq
        have hlen := hle ('\n' :: t)
        rw [heq] at hlen
        simp only [List.length_cons] at hlen
        omega
      · intro hnot
        exact absurd (Or.inl ⟨t, rfl⟩) hnot
    · have hstart : ¬ ['\r', '\n'] <+: c :: s := by
        rintro ⟨t, ht⟩
        cases ht
        exact h ⟨rfl, rfl⟩
      simp [hstart, ih]

/-! ## Line ends in what is written -/

lemma escape_cons (c : Char) (field : Field) :
    escape (c :: field) = (if c = '"' then ['"', '"'] else [c]) ++ escape field := rfl

lemma head?_escape (field : Field) : (escape field).head? = field.head? := by
  cases field with
  | nil => rfl
  | cons c field =>
    rw [escape_cons]
    split_ifs with h <;> simp [h]

lemma escape_unixLines (field : Field) : escape (unixLines field) = unixLines (escape field) := by
  induction field with
  | nil => rfl
  | cons c field ih =>
    rw [escape_cons, unixLines]
    by_cases hquote : c = '"'
    · subst hquote
      simp only [reduceIte, List.cons_append, List.nil_append]
      rw [unixLines_cons_of_ne (by decide), unixLines_cons_of_ne (by decide), ← ih]
      simp [escape_cons]
    · rw [if_neg hquote, List.singleton_append, unixLines, head?_escape]
      split_ifs with h
      · exact ih
      · rw [escape_cons, if_neg hquote, ih, List.singleton_append]

lemma mem_unixLines_of_return_mem {s : List Char} (h : '\r' ∈ s) :
    '\n' ∈ unixLines s ∨ '\r' ∈ unixLines s := by
  induction s with
  | nil => simp at h
  | cons c s ih =>
    rw [unixLines]
    split_ifs with hpair
    · -- the newline of the pair stays
      obtain ⟨t, rfl⟩ : ∃ t, s = '\n' :: t := List.head?_eq_some_iff.mp hpair.2
      rw [unixLines_cons_of_ne (by decide)]
      exact Or.inl List.mem_cons_self
    · rcases List.mem_cons.mp h with rfl | hmem
      · exact Or.inr List.mem_cons_self
      · exact (ih hmem).imp (List.mem_cons_of_mem c) (List.mem_cons_of_mem c)

lemma fieldNeedsQuotes_of_mem {field : Field} {c : Char}
    (hc : c = '\n' ∨ c = '\r' ∨ c = '"' ∨ c = ',') (h : c ∈ field) :
    fieldNeedsQuotes field = true := by
  have hne : field ≠ [] := List.ne_nil_of_mem h
  have hany : field.any (fun c => c = '\n' || c = '\r' || c = '"' || c = ',') = true :=
    List.any_eq_true.mpr ⟨c, h, by simpa [or_assoc] using hc⟩
  rw [fieldNeedsQuotes, if_neg hne, hany]
  split_ifs <;> rfl

/-- Whether a field is quoted does not depend on its line ends. -/
lemma fieldNeedsQuotes_unixLines (field : Field) :
    fieldNeedsQuotes (unixLines field) = fieldNeedsQuotes field := by
  by_cases h : '\r' ∈ field
  · rw [fieldNeedsQuotes_of_mem (by simp) h]
    rcases mem_unixLines_of_return_mem h with hmem | hmem
    · exact fieldNeedsQuotes_of_mem (by simp) hmem
    · exact fieldNeedsQuotes_of_mem (by simp) hmem
  · rw [unixLines_of_notMem h]

/-- A field without quotes around it has none of the four marks. -/
lemma notMem_of_not_needsQuotes {field : Field} (h : fieldNeedsQuotes field = false) {c : Char}
    (hc : c = '\n' ∨ c = '\r' ∨ c = '"' ∨ c = ',') : c ∉ field := by
  intro hmem
  rw [fieldNeedsQuotes_of_mem hc hmem] at h
  exact Bool.noConfusion h

/-- A field is cut off from what follows it, and its line ends are those of its content. -/
lemma unixLines_writeField_append {c : Char} (hc : c ≠ '\r') (field : Field) (t : List Char) :
    unixLines (writeField field ++ c :: t) = writeField (unixLines field) ++ c :: unixLines t := by
  rw [writeField, writeField, fieldNeedsQuotes_unixLines]
  split_ifs with h
  · have hshape : '"' :: (escape field ++ ['"']) ++ c :: t =
        '"' :: (escape field ++ '"' :: c :: t) := by
      simp
    rw [hshape, unixLines_cons_of_ne (by decide), unixLines_append_cons (by decide),
      unixLines_cons_of_ne (by decide), unixLines_cons_of_ne hc, escape_unixLines]
    simp
  · have hreturn : '\r' ∉ field := notMem_of_not_needsQuotes (by simpa using h) (by simp)
    rw [unixLines_append_of_notMem hreturn, unixLines_cons_of_ne hc, unixLines_of_notMem hreturn]

lemma unixLines_writeFields_append (fields : List Field) (t : List Char) :
    unixLines (writeFields fields ++ '\n' :: t) =
      writeFields (fields.map unixLines) ++ '\n' :: unixLines t := by
  induction fields with
  | nil => rw [writeFields, List.nil_append, unixLines_cons_of_ne (by decide)]; rfl
  | cons field fields ih =>
    cases fields with
    | nil => exact unixLines_writeField_append (by decide) field t
    | cons next fields =>
      rw [writeFields, List.append_assoc, List.cons_append,
        unixLines_writeField_append (by decide), ih]
      simp [writeFields]

lemma unixLines_writeAll (records : List (List Field)) :
    unixLines (writeAll records) = writeAll (records.map (·.map unixLines)) := by
  induction records with
  | nil => rfl
  | cons record records ih =>
    have hleft : writeAll (record :: records) = writeFields record ++ '\n' :: writeAll records := by
      simp [writeAll, write]
    rw [hleft, unixLines_writeFields_append, ih]
    simp [writeAll, write]

lemma dropFinalReturn_writeAll (records : List (List Field)) :
    dropFinalReturn (writeAll records) = writeAll records := by
  have hlast : (writeAll records).getLast? ≠ some '\r' := by
    rcases List.eq_nil_or_concat records with rfl | ⟨initial, record, rfl⟩
    · simp [writeAll]
    · simp [writeAll, write]
  rw [dropFinalReturn, if_neg hlast]

/-! ## Reading a record -/

namespace Reader

lemma foldlM_append (s t : List Char) (r : Reader) :
    (s ++ t).foldlM step r = (s.foldlM step r).bind (t.foldlM step ·) := by
  rw [List.foldlM_append]
  rfl

/-- Characters between quotes. -/
lemma foldlM_escape (field : Field) (t : List Char) (f : Field) (record : List Field)
    (records : List (List Field)) :
    (escape field ++ t).foldlM step ⟨.quoted, f, record, records⟩ =
      t.foldlM step ⟨.quoted, f ++ field, record, records⟩ := by
  induction field generalizing f with
  | nil => simp [escape]
  | cons c field ih =>
    rw [escape_cons, List.append_assoc]
    split_ifs with hquote
    · subst hquote
      simp only [List.cons_append, List.nil_append, List.foldlM_cons, step, reduceIte,
        Option.bind_eq_bind, Option.bind_some]
      rw [ih]
      simp
    · simp only [List.cons_append, List.nil_append, List.foldlM_cons, step, hquote, reduceIte,
        Option.bind_eq_bind, Option.bind_some]
      rw [ih]
      simp

/-- Characters without quotes. -/
lemma foldlM_plain {field : Field} (h : ∀ c ∈ field, c ≠ ',' ∧ c ≠ '\n' ∧ c ≠ '"') (t : List Char)
    (f : Field) (record : List Field) (records : List (List Field)) :
    (field ++ t).foldlM step ⟨.plain, f, record, records⟩ =
      t.foldlM step ⟨.plain, f ++ field, record, records⟩ := by
  induction field generalizing f with
  | nil => simp
  | cons c field ih =>
    obtain ⟨hcomma, hline, hquote⟩ := h c List.mem_cons_self
    simp only [List.cons_append, List.foldlM_cons, step, inPlain, hcomma, hline, hquote, reduceIte,
      Option.bind_eq_bind, Option.bind_some]
    rw [ih fun d hd => h d (List.mem_cons_of_mem c hd)]
    simp

/-- The end of a field that a separator gives. -/
def separate (r : Reader) (c : Char) : Option Reader :=
  if c = ',' then some r.endField else r.endRecord

/-- **A written field is read back** when a separator follows. -/
lemma foldlM_writeField {c : Char} (hc : c = ',' ∨ c = '\n') (field : Field) (t : List Char)
    (record : List Field) (records : List (List Field)) :
    (writeField field ++ c :: t).foldlM step ⟨.field, [], record, records⟩ =
      (separate ⟨.field, field, record, records⟩ c).bind (t.foldlM step ·) := by
  rw [writeField]
  split_ifs with h
  · -- the field stands between quotes
    have hshape : '"' :: (escape field ++ ['"']) ++ c :: t =
        '"' :: (escape field ++ '"' :: c :: t) := by
      simp
    have hquote : step ⟨.field, [], record, records⟩ '"' = some ⟨.quoted, [], record, records⟩ :=
      rfl
    rw [hshape, List.foldlM_cons, hquote, Option.bind_eq_bind, Option.bind_some, foldlM_escape]
    rcases hc with rfl | rfl
    · rfl
    · rfl
  · have hplain : ∀ d ∈ field, d ≠ ',' ∧ d ≠ '\n' ∧ d ≠ '"' := by
      intro d hd
      refine ⟨?_, ?_, ?_⟩
      all_goals
        rintro rfl
        exact notMem_of_not_needsQuotes (by simpa using h) (by simp) hd
    cases field with
    | nil =>
      rcases hc with rfl | rfl
      · rfl
      · rfl
    | cons d field =>
      obtain ⟨hcomma, hline, hquote⟩ := hplain d List.mem_cons_self
      have hstep : step ⟨.field, [], record, records⟩ d = some ⟨.plain, [d], record, records⟩ := by
        simp [step, first, inPlain, hcomma, hline, hquote]
      rw [List.cons_append, List.foldlM_cons, hstep, Option.bind_eq_bind, Option.bind_some,
        foldlM_plain fun e he => hplain e (List.mem_cons_of_mem d he)]
      rcases hc with rfl | rfl
      · rfl
      · rfl

/-- A line that does not start with a newline starts with a field. -/
lemma foldlM_line {s : List Char} (h : s.head? ≠ some '\n') (hne : s ≠ [])
    (records : List (List Field)) :
    s.foldlM step ⟨.line, [], [], records⟩ = s.foldlM step ⟨.field, [], [], records⟩ := by
  cases s with
  | nil => exact absurd rfl hne
  | cons c s =>
    have hc : c ≠ '\n' := fun h' => h (by rw [h']; rfl)
    rw [List.foldlM_cons, List.foldlM_cons]
    simp [step, first, inPlain, endField, hc]

/-- The fields of a record and its end. -/
lemma foldlM_writeFields {fields : List Field} (hne : fields ≠ []) (t : List Char)
    (record : List Field) (records : List (List Field)) :
    (writeFields fields ++ '\n' :: t).foldlM step ⟨.field, [], record, records⟩ =
      (endRecord ⟨.field, fields.getLast hne, record ++ fields.dropLast, records⟩).bind
        (t.foldlM step ·) := by
  induction fields generalizing record with
  | nil => exact absurd rfl hne
  | cons field fields ih =>
    cases fields with
    | nil =>
      rw [writeFields, foldlM_writeField (Or.inr rfl)]
      simp [separate]
    | cons next fields =>
      rw [writeFields, List.append_assoc, List.cons_append, foldlM_writeField (Or.inl rfl)]
      simp only [separate, reduceIte, Option.bind_some, endField]
      rw [ih (List.cons_ne_nil next fields)]
      simp

end Reader

lemma head?_writeField_ne_newline (field : Field) (t : List Char) :
    (writeField field ++ ',' :: t).head? ≠ some '\n' := by
  rw [writeField]
  split_ifs with h
  · simp
  · cases field with
    | nil => simp
    | cons c field =>
      have hc : '\n' ∉ c :: field := notMem_of_not_needsQuotes (by simpa using h) (by simp)
      have hne : c ≠ '\n' := fun h' => hc (h' ▸ List.mem_cons_self)
      simpa using hne

/-- A record of at least two fields, read after records of the same length. -/
lemma foldlM_write {record : List Field} (hlen : 2 ≤ record.length) {records : List (List Field)}
    (hrecords : ∀ r ∈ records, r.length = record.length) (t : List Char) :
    (write record ++ t).foldlM Reader.step ⟨.line, [], [], records⟩ =
      t.foldlM Reader.step ⟨.line, [], [], records ++ [record]⟩ := by
  obtain ⟨field, next, fields, rfl⟩ : ∃ field next fields, record = field :: next :: fields := by
    match record, hlen with
    | field :: next :: fields, _ => exact ⟨field, next, fields, rfl⟩
  have hhead : (writeFields (field :: next :: fields) ++ '\n' :: t).head? ≠ some '\n' := by
    rw [writeFields, List.append_assoc, List.cons_append]
    exact head?_writeField_ne_newline field _
  have hcount : records.head?.all (·.length = (field :: next :: fields).length) = true := by
    cases records with
    | nil => rfl
    | cons r records => simpa using hrecords r List.mem_cons_self
  rw [write, List.append_assoc, List.singleton_append, Reader.foldlM_line hhead (by simp),
    Reader.foldlM_writeFields (List.cons_ne_nil field _)]
  simp only [Reader.endRecord, List.nil_append, List.dropLast_concat_getLast, hcount, reduceIte,
    Option.bind_some]

lemma foldlM_writeAll {n : ℕ} (hn : 2 ≤ n) {rest records : List (List Field)}
    (hrecords : ∀ r ∈ records, r.length = n) (hrest : ∀ r ∈ rest, r.length = n) :
    (writeAll rest).foldlM Reader.step ⟨.line, [], [], records⟩ =
      some ⟨.line, [], [], records ++ rest⟩ := by
  induction rest generalizing records with
  | nil => simp [writeAll]
  | cons record rest ih =>
    have hlen := hrest record List.mem_cons_self
    have hleft : writeAll (record :: rest) = write record ++ writeAll rest := rfl
    rw [hleft, foldlM_write (by omega) (by simpa [hlen] using hrecords), ih]
    · simp
    · simpa [hlen, or_imp, forall_and] using hrecords
    · exact fun r hr => hrest r (List.mem_cons_of_mem record hr)

/-! ## The round trip -/

/-- **What is written is read back, up to the carriage returns before newlines.** -/
theorem readAll_writeAll {n : ℕ} (hn : 2 ≤ n) {records : List (List Field)}
    (h : ∀ r ∈ records, r.length = n) :
    readAll (writeAll records) = some (records.map (·.map unixLines)) := by
  have hlen : ∀ r ∈ records.map (·.map unixLines), r.length = n := by
    intro r hr
    obtain ⟨record, hrecord, rfl⟩ := List.mem_map.mp hr
    rw [List.length_map, h record hrecord]
  rw [readAll, dropFinalReturn_writeAll, unixLines_writeAll, Reader.new,
    foldlM_writeAll hn (by simp) hlen]
  rfl

/-- **The round trip gives the records themselves exactly when no field has a carriage return
before a newline.** -/
theorem readAll_writeAll_eq_iff {n : ℕ} (hn : 2 ≤ n) {records : List (List Field)}
    (h : ∀ r ∈ records, r.length = n) :
    readAll (writeAll records) = some records ↔
      ∀ r ∈ records, ∀ field ∈ r, ¬ ['\r', '\n'] <:+: field := by
  have hself : ∀ {α : Type} (f : α → α) (l : List α), l.map f = l ↔ ∀ a ∈ l, f a = a := by
    intro α f l
    simpa using List.map_inj_left (l := l) (f := f) (g := id)
  rw [readAll_writeAll hn h, Option.some_inj, hself]
  refine forall₂_congr fun r _ => ?_
  rw [hself]
  exact forall₂_congr fun field _ => unixLines_eq_self_iff field

end Arcsent.Go.Csv
