/-
# Objects in JSON

What `json.Marshal` writes for a map, given what it writes for the values of the map.  The text
of a value is balanced: the brackets in it match and no comma stands outside them, so that it is
clear where it ends.  The text of an object therefore determines its keys and the texts of its
values.
-/
import Mathlib.Data.List.TakeWhile
import Arcsent.Lib.Decimal
import Arcsent.Go.Basic

namespace Arcsent.Go.Json

open Arcsent.Lib

variable {α : Type}

/-! ## Writing -/

/-- A digit of the constant `hex`. -/
def hex (n : ℕ) : Char := if n < 10 then Char.ofNat (0x30 + n) else Char.ofNat (0x61 + (n - 10))

/-- The characters that are written with a letter. -/
def lettered : List (Char × Char) :=
  [('\\', '\\'), ('"', '"'), ('\x08', 'b'), ('\x0C', 'f'), ('\n', 'n'), ('\r', 'r'),
    ('\t', 't')]

/-- A character as `appendString` writes it. -/
def escapeChar (c : Char) : List Char :=
  match lettered.lookup c with
  | some letter => ['\\', letter]
  | none =>
    if c.toNat < 0x20 ∨ c ∈ ['<', '>', '&'] then
      ['\\', 'u', '0', '0', hex (c.toNat / 16), hex (c.toNat % 16)]
    else if c = '\u2028' ∨ c = '\u2029' then ['\\', 'u', '2', '0', '2', hex (c.toNat % 16)]
    else [c]

/-- The function `appendString`. -/
def quoted (s : String) : List Char := '"' :: (s.toList.flatMap escapeChar ++ ['"'])

def member (e : String × List Char) : List Char := quoted e.1 ++ ':' :: e.2

/-- The members of an object with the commas between them. -/
def members : List (String × List Char) → List Char
  | [] => []
  | [e] => member e
  | e :: es => member e ++ ',' :: members es

/-- An object with its members in the order of a list. -/
def object (es : List (String × List Char)) : List Char := '\x7b' :: (members es ++ ['\x7d'])

/-- The texts of the values, up to the first that cannot be written. -/
def encodeAll (value : α → Except String (List Char)) :
    List (String × α) → Except String (List (String × List Char))
  | [] => .ok []
  | e :: es =>
    match value e.2 with
    | .error err => .error err
    | .ok t => (encodeAll value es).map ((e.1, t) :: ·)

/-- The keys of a map are sorted. -/
def sortKeys (m : List (String × α)) : List (String × α) :=
  m.mergeSort fun e f => compare (bytes e.1) (bytes f.1) ≠ .gt

/-- The function `json.Marshal` for a map, by what it does for a value. -/
def marshalMap (value : α → Except String (List Char)) (m : List (String × α)) :
    Except String (List Char) :=
  (encodeAll value (sortKeys m)).map object

/-! ## Where a value ends -/

/-- Where one is in a text: how deep in brackets, whether in a string, and whether behind a
backslash. -/
structure Position where
  depth : ℕ
  inString : Bool
  escaped : Bool
deriving DecidableEq

/-- Where a value begins and where it ends. -/
def outside : Position := ⟨0, false, false⟩

/-- One more character of a value; `none` if the value cannot go on with it. -/
def advance (p : Position) (c : Char) : Option Position :=
  if c = '\n' then none
  else if p.escaped then some { p with escaped := false }
  else if p.inString then
    if c = '\\' then some { p with escaped := true } else some { p with inString := c ≠ '"' }
  else if c = '"' then some { p with inString := true }
  else if c = '[' ∨ c = '\x7b' then some { p with depth := p.depth + 1 }
  else if c = ']' ∨ c = '\x7d' then
    if p.depth = 0 then none else some { p with depth := p.depth - 1 }
  else if c = ',' ∧ p.depth = 0 then none
  else some p

/-- The text of a value: it is balanced, and on one line. -/
def Whole (t : List Char) : Prop := t.foldlM advance outside = some outside

instance : DecidablePred Whole := fun t =>
  inferInstanceAs (Decidable (t.foldlM advance outside = some outside))

/-- What may follow a value. -/
def Stops (rest : List Char) : Prop := ∃ c, rest.head? = some c ∧ advance outside c = none

section Whole

variable {t u rest rest' : List Char}

lemma foldlM_append_some {p q : Position} (h : t.foldlM advance p = some q) (u : List Char) :
    (t ++ u).foldlM advance p = u.foldlM advance q := by
  rw [List.foldlM_append, h]
  rfl

/-- A value does not go on where it may end. -/
lemma eq_nil_of_stops (ht : Whole t) (hrest : Stops rest) (hu : Whole (t ++ u))
    (h : rest = u ++ rest') : u = [] := by
  cases u with
  | nil => rfl
  | cons d u =>
    obtain ⟨c, hc, hstop⟩ := hrest
    obtain rfl : d = c := by
      rw [h] at hc
      exact Option.some.inj hc
    rw [Whole, foldlM_append_some ht, List.foldlM_cons, hstop] at hu
    cases hu

/-- **It is clear where a value ends.** -/
lemma eq_of_append_eq (ht : Whole t) (hu : Whole u) (hrest : Stops rest) (hrest' : Stops rest')
    (h : t ++ rest = u ++ rest') : t = u ∧ rest = rest' := by
  rcases List.append_eq_append_iff.mp h with ⟨more, rfl, hmore⟩ | ⟨more, rfl, hmore⟩
  · obtain rfl := eq_nil_of_stops ht hrest hu hmore
    exact ⟨(List.append_nil t).symm, hmore⟩
  · obtain rfl := eq_nil_of_stops hu hrest' ht hmore
    exact ⟨List.append_nil u, hmore.symm⟩

lemma Whole.newline_notMem (h : Whole t) : '\n' ∉ t := by
  intro hmem
  obtain ⟨before, after, rfl⟩ := List.append_of_mem hmem
  rw [Whole, List.foldlM_append] at h
  cases hbefore : before.foldlM advance outside with
  | none =>
    rw [hbefore] at h
    cases h
  | some p =>
    have hline : advance p '\n' = none := if_pos rfl
    rw [hbefore, Option.bind_eq_bind, Option.bind_some, List.foldlM_cons, hline] at h
    cases h

end Whole

/-! ## Reading a string -/

/-- The value of a hexadecimal digit. -/
def unhex (c : Char) : Option ℕ :=
  if '0' ≤ c ∧ c ≤ '9' then some (c.toNat - 0x30)
  else if 'a' ≤ c ∧ c ≤ 'f' then some (c.toNat - 0x61 + 10)
  else if 'A' ≤ c ∧ c ≤ 'F' then some (c.toNat - 0x41 + 10)
  else none

/-- The character of an escape with four digits. -/
def unhex4 (a b c d : Char) : Option Char := do
  let w ← unhex a
  let x ← unhex b
  let y ← unhex c
  let z ← unhex d
  return Char.ofNat (16 * (16 * (16 * w + x) + y) + z)

/-- The character of an escape with a letter. -/
def ofLetter (letter : Char) : Option Char :=
  if letter = '/' then some '/'
  else (lettered.find? (·.2 = letter)).map Prod.fst

/-- A text up to its closing quote, and what follows that. -/
def readString : List Char → Option (List Char × List Char)
  | [] => none
  | c :: rest =>
    if c = '"' then some ([], rest)
    else if c = '\\' then
      match rest with
      | [] => none
      | letter :: rest =>
        if letter = 'u' then
          match rest with
          | a :: b :: c :: d :: rest =>
            (unhex4 a b c d).bind fun x => (readString rest).map fun p => (x :: p.1, p.2)
          | _ => none
        else (ofLetter letter).bind fun x => (readString rest).map fun p => (x :: p.1, p.2)
    else (readString rest).map fun p => (c :: p.1, p.2)

/-! ## What has been written is read -/

section Texts

variable {c : Char} {s rest : List Char}

lemma unhex_hex {n : ℕ} (h : n < 16) : unhex (hex n) = some n := by
  have hdigits : ∀ n < 16, unhex (hex n) = some n := by decide
  exact hdigits n h

lemma unhex4_hex (h : c.toNat < 256) :
    unhex4 '0' '0' (hex (c.toNat / 16)) (hex (c.toNat % 16)) = some c := by
  have hzero : unhex '0' = some 0 := by decide
  have hhigh : unhex (hex (c.toNat / 16)) = some (c.toNat / 16) := unhex_hex (by omega)
  have hlow : unhex (hex (c.toNat % 16)) = some (c.toNat % 16) := unhex_hex (by omega)
  have hnumber : 16 * (16 * (16 * 0 + 0) + c.toNat / 16) + c.toNat % 16 = c.toNat := by omega
  simp only [unhex4, hzero, hhigh, hlow, Option.bind_eq_bind, Option.bind_some, hnumber,
    Char.ofNat_toNat, Option.pure_def]

lemma toNat_lt_of_escaped (h : c.toNat < 0x20 ∨ c ∈ ['<', '>', '&']) : c.toNat < 256 := by
  rcases h with hcontrol | hmark
  · omega
  · simp only [List.mem_cons, List.not_mem_nil, or_false] at hmark
    rcases hmark with rfl | rfl | rfl <;> decide

/-- A character is read back. -/
lemma readString_escapeChar (c : Char) (rest : List Char) :
    readString (escapeChar c ++ rest) = (readString rest).map fun p => (c :: p.1, p.2) := by
  rw [escapeChar]
  cases hletter : lettered.lookup c with
  | some letter =>
    have hall : ∀ e ∈ lettered, e.2 ≠ 'u' ∧ ofLetter e.2 = some e.1 := by decide
    obtain ⟨before, behind, hsplit, -⟩ := List.lookup_eq_some_iff.mp hletter
    obtain ⟨hu, hback⟩ := hall (c, letter) (hsplit ▸ by simp)
    dsimp only at hu hback ⊢
    rw [List.cons_append, List.singleton_append, readString.eq_def]
    dsimp only
    rw [if_neg (by decide), if_pos rfl, if_neg hu, hback, Option.bind_some]
  | none =>
    dsimp only
    split_ifs with hsmall hline
    · have hlt := toNat_lt_of_escaped hsmall
      simp only [List.cons_append, List.nil_append]
      rw [readString, if_neg (by decide), if_pos rfl, if_pos rfl, unhex4_hex hlt, Option.bind_some]
    · have hback : unhex4 '2' '0' '2' (hex (c.toNat % 16)) = some c := by
        rcases hline with rfl | rfl <;> decide
      simp only [List.cons_append, List.nil_append]
      rw [readString, if_neg (by decide), if_pos rfl, if_pos rfl, hback, Option.bind_some]
    · have hquote : c ≠ '"' := by
        rintro rfl
        cases hletter
      have hslash : c ≠ '\\' := by
        rintro rfl
        cases hletter
      rw [List.singleton_append, readString.eq_def]
      dsimp only
      rw [if_neg hquote, if_neg hslash]

/-- So is a text, up to its closing quote. -/
lemma readString_quoted (s rest : List Char) :
    readString (s.flatMap escapeChar ++ '"' :: rest) = some (s, rest) := by
  induction s with
  | nil =>
    rw [List.flatMap_nil, List.nil_append, readString.eq_def]
    exact if_pos rfl
  | cons c s ih =>
    rw [List.flatMap_cons, List.append_assoc, readString_escapeChar, ih, Option.map_some]

end Texts

lemma readString_quoted_append (s : String) (rest : List Char) :
    readString ((quoted s ++ rest).drop 1) = some (s.toList, rest) := by
  rw [quoted, List.cons_append, List.drop_one, List.tail_cons, List.append_assoc,
    List.singleton_append, readString_quoted]

/-- **A string is read back.** -/
lemma quoted_append_inj {s s' : String} {rest rest' : List Char}
    (h : quoted s ++ rest = quoted s' ++ rest') : s = s' ∧ rest = rest' := by
  have hread := congrArg (fun text => readString (text.drop 1)) h
  rw [readString_quoted_append, readString_quoted_append] at hread
  obtain ⟨htext, hrest⟩ := Prod.mk.inj (Option.some.inj hread)
  exact ⟨String.toList_inj.mp htext, hrest⟩

/-! ## What is written is balanced -/

/-- Where the characters of a string are. -/
def inside : Position := ⟨0, true, false⟩

lemma advance_inside {c : Char} (hline : c ≠ '\n') (hslash : c ≠ '\\') (hquote : c ≠ '"') :
    advance inside c = some inside := by
  simp [advance, inside, hline, hslash, hquote]

lemma advance_escapeChar (c : Char) : (escapeChar c).foldlM advance inside = some inside := by
  have hhex : ∀ n < 16, advance inside (hex n) = some inside := by decide
  rw [escapeChar]
  cases hletter : lettered.lookup c with
  | some letter =>
    -- behind a backslash any letter is passed over
    have hall : ∀ e ∈ lettered, ['\\', e.2].foldlM advance inside = some inside := by decide
    obtain ⟨before, behind, hsplit, -⟩ := List.lookup_eq_some_iff.mp hletter
    exact hall (c, letter) (hsplit ▸ by simp)
  | none =>
    dsimp only
    split_ifs with hsmall hline
    · have hlt := toNat_lt_of_escaped hsmall
      have hfront : ['\\', 'u', '0', '0'].foldlM advance inside = some inside := by decide
      rw [show ['\\', 'u', '0', '0', hex (c.toNat / 16), hex (c.toNat % 16)] =
        ['\\', 'u', '0', '0'] ++ [hex (c.toNat / 16), hex (c.toNat % 16)] from rfl,
        foldlM_append_some hfront]
      simp [hhex (c.toNat / 16) (by omega), hhex (c.toNat % 16) (by omega)]
    · have hfront : ['\\', 'u', '2', '0', '2'].foldlM advance inside = some inside := by decide
      rw [show ['\\', 'u', '2', '0', '2', hex (c.toNat % 16)] =
        ['\\', 'u', '2', '0', '2'] ++ [hex (c.toNat % 16)] from rfl,
        foldlM_append_some hfront]
      simp [hhex (c.toNat % 16) (by omega)]
    · have hplain : advance inside c = some inside := by
        refine advance_inside ?_ ?_ ?_ <;>
        · rintro rfl
          cases hletter
      simp [hplain]

lemma whole_quoted (s : String) : Whole (quoted s) := by
  have hbody : (s.toList.flatMap escapeChar).foldlM advance inside = some inside := by
    induction s.toList with
    | nil => rfl
    | cons c cs ih => rw [List.flatMap_cons, foldlM_append_some (advance_escapeChar c), ih]
  have hopen : ['"'].foldlM advance outside = some inside := by decide
  rw [Whole, quoted, ← List.singleton_append, foldlM_append_some hopen, foldlM_append_some hbody]
  decide

/-- A whole number is balanced. -/
lemma whole_toString (n : ℤ) : Whole (toString n).toList := by
  have hchar : ∀ c : Char, c.isDigit = true ∨ c = '-' → advance outside c = some outside := by
    rintro c (hdigit | rfl)
    · have hne : ∀ d : Char, d.isDigit = false → c ≠ d := by
        rintro d hd rfl
        rw [hdigit] at hd
        cases hd
      simp [advance, outside, hne '\n' rfl, hne '"' rfl, hne '[' rfl, hne '\x7b' rfl,
        hne ']' rfl, hne '\x7d' rfl, hne ',' rfl]
    · decide
  have hall := (chars_toString n).2
  generalize (toString n).toList = cs at hall
  rw [Whole]
  induction cs with
  | nil => rfl
  | cons c cs ih =>
    rw [List.foldlM_cons, hchar c (hall c List.mem_cons_self), Option.bind_eq_bind,
      Option.bind_some]
    exact ih fun d hd => hall d (List.mem_cons_of_mem _ hd)

/-! ## An object tells its members -/

section Objects

variable {e e' : String × List Char} {es es' : List (String × List Char)}

/-- What stands behind the first of some members. -/
def closing (es : List (String × List Char)) : List Char :=
  if es = [] then ['\x7d'] else ',' :: (members es ++ ['\x7d'])

lemma members_cons (e : String × List Char) (es : List (String × List Char)) :
    members (e :: es) ++ ['\x7d'] = member e ++ closing es := by
  cases es with
  | nil => rfl
  | cons f es =>
    have hmore : members (e :: f :: es) = member e ++ ',' :: members (f :: es) := rfl
    rw [hmore, closing, if_neg (List.cons_ne_nil f es), List.append_assoc, List.cons_append]

lemma stops_closing (es : List (String × List Char)) : Stops (closing es) := by
  by_cases h : es = []
  · exact ⟨'\x7d', by rw [closing, if_pos h]; rfl, by decide⟩
  · exact ⟨',', by rw [closing, if_neg h]; rfl, by decide⟩

lemma member_append_inj {rest rest' : List Char} (he : Whole e.2) (he' : Whole e'.2)
    (hrest : Stops rest) (hrest' : Stops rest') (h : member e ++ rest = member e' ++ rest') :
    e = e' ∧ rest = rest' := by
  rw [member, member, List.append_assoc, List.append_assoc, List.cons_append, List.cons_append] at h
  obtain ⟨hkey, hvalue⟩ := quoted_append_inj h
  obtain ⟨htext, hend⟩ := eq_of_append_eq he he' hrest hrest' (List.cons.inj hvalue).2
  exact ⟨Prod.ext hkey htext, hend⟩

lemma members_ne_close (e : String × List Char) (es : List (String × List Char)) :
    members (e :: es) ++ ['\x7d'] ≠ ['\x7d'] := by
  rw [members_cons, member, quoted]
  intro h
  exact absurd (List.cons.inj h).1 (by decide)

lemma members_inj (h : ∀ e ∈ es, Whole e.2) (h' : ∀ e ∈ es', Whole e.2)
    (heq : members es ++ ['\x7d'] = members es' ++ ['\x7d']) : es = es' := by
  induction es generalizing es' with
  | nil =>
    cases es' with
    | nil => rfl
    | cons e' es' => exact absurd heq.symm (members_ne_close e' es')
  | cons e es ih =>
    cases es' with
    | nil => exact absurd heq (members_ne_close e es)
    | cons e' es' =>
      rw [members_cons, members_cons] at heq
      obtain ⟨rfl, hclosing⟩ := member_append_inj (h e List.mem_cons_self)
        (h' e' List.mem_cons_self) (stops_closing es) (stops_closing es') heq
      rw [closing, closing] at hclosing
      congr 1
      split_ifs at hclosing with hnil hnil' hnil'
      · rw [hnil, hnil']
      · exact absurd (List.cons.inj hclosing).1 (by decide)
      · exact absurd (List.cons.inj hclosing).1 (by decide)
      · exact ih (fun f hf => h f (List.mem_cons_of_mem _ hf))
          (fun f hf => h' f (List.mem_cons_of_mem _ hf)) (List.cons.inj hclosing).2

/-- **An object determines its members.** -/
theorem object_inj (h : ∀ e ∈ es, Whole e.2) (h' : ∀ e ∈ es', Whole e.2)
    (heq : object es = object es') : es = es' :=
  members_inj h h' (List.cons.inj heq).2

lemma newline_notMem_member (h : Whole e.2) : '\n' ∉ member e := by
  intro hmem
  rcases List.mem_append.mp hmem with hkey | hmem
  · exact (whole_quoted e.1).newline_notMem hkey
  rcases List.mem_cons.mp hmem with heq | hvalue
  · exact absurd heq (by decide)
  · exact h.newline_notMem hvalue

/-- **An object has no line break in it.** -/
theorem newline_notMem_object (h : ∀ e ∈ es, Whole e.2) : '\n' ∉ object es := by
  have hbody : '\n' ∉ members es ++ ['\x7d'] := by
    induction es with
    | nil => decide
    | cons e es ih =>
      specialize ih fun f hf => h f (List.mem_cons_of_mem _ hf)
      have hclosing : '\n' ∉ closing es := by
        rw [closing]
        split_ifs
        · decide
        · exact fun hmem => (List.mem_cons.mp hmem).elim (by decide) ih
      rw [members_cons, List.mem_append, not_or]
      exact ⟨newline_notMem_member (h e List.mem_cons_self), hclosing⟩
  rw [object, List.mem_cons, not_or]
  exact ⟨by decide, hbody⟩

end Objects

/-! ## Maps -/

section Maps

variable {value : α → Except String (List Char)} {m m' : List (String × α)}

lemma perm_sortKeys (m : List (String × α)) : (sortKeys m).Perm m := List.mergeSort_perm _ _

/-- The texts of the values stand under the keys. -/
lemma map_of_encodeAll {es : List (String × List Char)} (h : encodeAll value m = .ok es) :
    m.map (fun e => (e.1, value e.2)) = es.map fun e => (e.1, .ok e.2) := by
  induction m generalizing es with
  | nil =>
    obtain rfl := Except.ok.inj h
    rfl
  | cons e m ih =>
    rw [encodeAll] at h
    cases hvalue : value e.2 with
    | error err => simp [hvalue] at h
    | ok t =>
      cases hrest : encodeAll value m with
      | error err => simp [hvalue, hrest, Except.map] at h
      | ok ts =>
        obtain rfl : (e.1, t) :: ts = es := by
          simpa [hvalue, hrest, Except.map] using h
        rw [List.map_cons, List.map_cons, hvalue, ih hrest]

lemma exists_encodeAll
    (h : ∀ e ∈ m, ∃ t, value e.2 = .ok t) : ∃ es, encodeAll value m = .ok es := by
  induction m with
  | nil => exact ⟨[], rfl⟩
  | cons e m ih =>
    obtain ⟨t, ht⟩ := h e List.mem_cons_self
    obtain ⟨es, hes⟩ := ih fun f hf => h f (List.mem_cons_of_mem _ hf)
    exact ⟨(e.1, t) :: es, by rw [encodeAll, ht, hes]; rfl⟩

/-- The values that cannot be written all fail alike. -/
lemma encodeAll_eq_error {err : String} (h : ∀ e ∈ m, (∃ t, value e.2 = .ok t) ∨
    value e.2 = .error err) (hfail : ∃ e ∈ m, value e.2 = .error err) :
    encodeAll value m = .error err := by
  induction m with
  | nil =>
    obtain ⟨e, he, -⟩ := hfail
    cases he
  | cons e m ih =>
    rw [encodeAll]
    rcases h e List.mem_cons_self with ⟨t, ht⟩ | herr
    · have hrest : ∃ f ∈ m, value f.2 = .error err := by
        obtain ⟨f, hf, hbad⟩ := hfail
        rcases List.mem_cons.mp hf with rfl | hf
        · rw [ht] at hbad
          cases hbad
        · exact ⟨f, hf, hbad⟩
      rw [ht, ih (fun f hf => h f (List.mem_cons_of_mem _ hf)) hrest]
      rfl
    · rw [herr]

lemma whole_of_encodeAll (hwhole : ∀ a t, value a = .ok t → Whole t)
    {es : List (String × List Char)} (h : encodeAll value m = .ok es) : ∀ e ∈ es, Whole e.2 := by
  intro e he
  have hmem : (e.1, Except.ok e.2) ∈ m.map fun e => (e.1, value e.2) := by
    rw [map_of_encodeAll h]
    exact List.mem_map_of_mem he
  obtain ⟨f, -, hf⟩ := List.mem_map.mp hmem
  exact hwhole f.2 e.2 (Prod.mk.inj hf).2

/-- **A map in JSON tells its keys and the texts of its values.** -/
theorem perm_of_marshalMap (hwhole : ∀ a t, value a = .ok t → Whole t) {text : List Char}
    (h : marshalMap value m = .ok text) (h' : marshalMap value m' = .ok text) :
    (m.map fun e => (e.1, value e.2)).Perm (m'.map fun e => (e.1, value e.2)) := by
  rw [marshalMap] at h h'
  cases hes : encodeAll value (sortKeys m) with
  | error err => simp [hes, Except.map] at h
  | ok es =>
    cases hes' : encodeAll value (sortKeys m') with
    | error err => simp [hes', Except.map] at h'
    | ok es' =>
      have hobject : object es = object es' := by
        simp only [hes, hes', Except.map, Except.ok.injEq] at h h'
        rw [h, h']
      obtain rfl := object_inj (whole_of_encodeAll hwhole hes) (whole_of_encodeAll hwhole hes')
        hobject
      have hsorted : (sortKeys m).map (fun e => (e.1, value e.2)) =
          (sortKeys m').map fun e => (e.1, value e.2) := by
        rw [map_of_encodeAll hes, map_of_encodeAll hes']
      exact ((perm_sortKeys m).map _).symm.trans (hsorted ▸ (perm_sortKeys m').map _)

lemma exists_marshalMap (h : ∀ e ∈ m, ∃ t, value e.2 = .ok t) :
    ∃ text, marshalMap value m = .ok text := by
  obtain ⟨es, hes⟩ : ∃ es, encodeAll value (sortKeys m) = .ok es :=
    exists_encodeAll fun e he => h e ((perm_sortKeys m).mem_iff.mp he)
  exact ⟨object es, by rw [marshalMap, hes]; rfl⟩

/-- A map with one value that cannot be written. -/
lemma marshalMap_eq_error {err : String} (h : ∀ e ∈ m, (∃ t, value e.2 = .ok t) ∨
    value e.2 = .error err) (hfail : ∃ e ∈ m, value e.2 = .error err) :
    marshalMap value m = .error err := by
  have hmem (e : String × α) : e ∈ sortKeys m ↔ e ∈ m := (perm_sortKeys m).mem_iff
  have hall : encodeAll value (sortKeys m) = .error err := by
    refine encodeAll_eq_error (fun e he => h e ((hmem e).mp he)) ?_
    obtain ⟨e, he, hbad⟩ := hfail
    exact ⟨e, (hmem e).mpr he, hbad⟩
  rw [marshalMap, hall]
  rfl

lemma newline_notMem_marshalMap (hwhole : ∀ a t, value a = .ok t → Whole t) {text : List Char}
    (h : marshalMap value m = .ok text) : '\n' ∉ text := by
  rw [marshalMap] at h
  cases hes : encodeAll value (sortKeys m) with
  | error err => simp [hes, Except.map] at h
  | ok es =>
    obtain rfl : object es = text := by simpa [hes, Except.map] using h
    exact newline_notMem_object (whole_of_encodeAll hwhole hes)

end Maps

end Arcsent.Go.Json
