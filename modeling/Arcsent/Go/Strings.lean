/-
# Texts as the bytes they are made of

What is read from a file need not be valid text.  The functions here work on its bytes: those
of the `strings` package that cut a text at white space, `strconv.ParseUint`, and the lines
that a `bufio.Scanner` finds.
-/
import Mathlib.Data.List.TakeWhile
import Arcsent.Go.Basic

namespace Arcsent.Go.Strings

/-! ## White space -/

/-- The characters that `unicode.IsSpace` accepts, each as its bytes.  The first byte of such
a character never stands inside another one, so that white space can be found byte by byte. -/
def spaces : List Bytes :=
  [[0x09], [0x0A], [0x0B], [0x0C], [0x0D], [0x20], [0xC2, 0x85], [0xC2, 0xA0],
    [0xE1, 0x9A, 0x80], [0xE2, 0x80, 0x80], [0xE2, 0x80, 0x81], [0xE2, 0x80, 0x82],
    [0xE2, 0x80, 0x83], [0xE2, 0x80, 0x84], [0xE2, 0x80, 0x85], [0xE2, 0x80, 0x86],
    [0xE2, 0x80, 0x87], [0xE2, 0x80, 0x88], [0xE2, 0x80, 0x89], [0xE2, 0x80, 0x8A],
    [0xE2, 0x80, 0xA8], [0xE2, 0x80, 0xA9], [0xE2, 0x80, 0xAF], [0xE2, 0x81, 0x9F],
    [0xE3, 0x80, 0x80]]

/-- Some words are taken away from the front of a text as long as there is one; a text has at
most as many as it has bytes. -/
def dropWords (words : List Bytes) : ℕ → Bytes → Bytes
  | 0, s => s
  | n + 1, s =>
    match words.find? (·.isPrefixOf s) with
    | some word => dropWords words n (s.drop word.length)
    | none => s

/-- The function `TrimSpace`. -/
def trimSpace (s : Bytes) : Bytes :=
  let t := dropWords spaces s.length s
  (dropWords (spaces.map List.reverse) t.length t.reverse).reverse

/-- The loop of `Fields`, `field` being the field that has been begun. -/
def fieldsLoop : ℕ → Bytes → Bytes → List Bytes
  | 0, field, _ => if field = [] then [] else [field]
  | _ + 1, field, [] => if field = [] then [] else [field]
  | n + 1, field, b :: rest =>
    match spaces.find? (·.isPrefixOf (b :: rest)) with
    | some space =>
      (if field = [] then [] else [field]) ++ fieldsLoop n [] ((b :: rest).drop space.length)
    | none => fieldsLoop n (field ++ [b]) rest

/-- The function `Fields`. -/
def fields (s : Bytes) : List Bytes := fieldsLoop s.length [] s

/-- The function `TrimSuffix`. -/
def trimSuffix (s suffix : Bytes) : Bytes :=
  if suffix.isSuffixOf s then s.take (s.length - suffix.length) else s

example : fields (bytes " cpu  1\t22\n") = [bytes "cpu", bytes "1", bytes "22"] := by decide +kernel

/-! ## Numbers -/

/-- The number that a row of digits stands for. -/
def decimal (s : Bytes) : ℕ := s.foldl (fun n b => 10 * n + (b.toNat - 0x30)) 0

/-- The type `strconv.NumError`: the text that is no number, and why. -/
structure NumError where
  num : Bytes
  err : String
deriving DecidableEq, Repr

/-- The function `strconv.ParseUint` for decimal numbers of 64 bits.  A number that is too
large is refused before what follows its digits is looked at. -/
def parseUint (s : Bytes) : Except NumError UInt64 :=
  let digits := s.takeWhile fun b => 0x30 ≤ b && b ≤ 0x39
  if s = [] then .error ⟨s, "invalid syntax"⟩
  else if 2 ^ 64 ≤ decimal digits then .error ⟨s, "value out of range"⟩
  else if digits ≠ s then .error ⟨s, "invalid syntax"⟩
  else .ok (UInt64.ofNat (decimal s))

/-! ## Lines -/

def newline : UInt8 := 0x0A

/-- The lines of a text, with the carriage returns at their ends; a last line that is empty is
none. -/
def rawLines (content : Bytes) : List Bytes :=
  let pieces := content.splitOn newline
  if pieces.getLast? = some [] then pieces.dropLast else pieces

/-- The function `dropCR`. -/
def dropCR (line : Bytes) : Bytes := if line.getLast? = some 0x0D then line.dropLast else line

/-- The constant `bufio.MaxScanTokenSize`. -/
def maxScanTokenSize : ℕ := 64 * 1024

/-- A line that fits into the buffer of a `bufio.Scanner`. -/
def fits (line : Bytes) : Bool := line.length < maxScanTokenSize

/-- The lines of a text. -/
def lines (content : Bytes) : List Bytes := (rawLines content).map dropCR

/-- The lines that a `bufio.Scanner` returns: it stops at the first one that does not fit. -/
def scan (content : Bytes) : List Bytes := ((rawLines content).takeWhile fits).map dropCR

lemma scan_prefix_lines (content : Bytes) : scan content <+: lines content :=
  (List.takeWhile_prefix fits).map dropCR

/-- All lines are returned exactly when they fit. -/
lemma scan_eq_lines_iff {content : Bytes} :
    (scan content).length = (lines content).length ↔ ∀ line ∈ rawLines content, fits line := by
  rw [scan, lines, List.length_map, List.length_map, ← List.takeWhile_eq_self_iff]
  constructor
  · intro h
    exact (List.takeWhile_prefix fits).eq_of_length h
  · intro h
    rw [h]

/-- The first line. -/
lemma rawLines_append_newline {line : Bytes} (hline : newline ∉ line) (rest : Bytes) :
    rawLines (line ++ newline :: rest) = line :: rawLines rest := by
  rw [rawLines, List.splitOn_append_cons_self, List.splitOn_eq_singleton hline,
    List.singleton_append, rawLines]
  obtain ⟨c, pieces, hsplit⟩ := List.exists_cons_of_ne_nil (List.splitOn_ne_nil newline rest)
  rw [hsplit, List.getLast?_cons_cons, List.dropLast_cons_cons]
  split_ifs <;> rfl

end Arcsent.Go.Strings
