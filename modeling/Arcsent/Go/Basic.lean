/-
# The part of Go's data model that the daemon uses

Byte strings, clock readings and durations, errors, values of dynamic type, and the few
functions of the `strings` package that the configuration and the detection code call.
Text is a `String`; where the order of bytes matters (keys of the store) it is turned
into the list of its bytes.
-/
import Mathlib.Data.Rat.Defs
import Mathlib.Algebra.Order.Ring.Int

namespace Arcsent.Go

/-! ## Bytes -/

/-- A byte slice. -/
abbrev Bytes := List UInt8

/-- The bytes of a text. -/
def bytes (s : String) : Bytes := s.toUTF8.data.toList

lemma bytes_inj {s t : String} : bytes s = bytes t ↔ s = t := by
  constructor
  · intro h
    apply String.toByteArray_inj.mp
    exact ByteArray.ext (Array.ext' h)
  · rintro rfl
    rfl

lemma bytes_append (s t : String) : bytes (s ++ t) = bytes s ++ bytes t := by
  simp [bytes]

/-! ## Clock readings and durations -/

/-- The value of a 64-bit integer after an overflow. -/
def wrap64 (n : ℤ) : ℤ := n.bmod (2 ^ 64)

/-- A `time.Duration`: nanoseconds. -/
abbrev Duration := ℤ

/-- A `time.Time`: nanoseconds since the zero time, so that the zero time is `0`. -/
abbrev Time := ℤ

def nanosecond : Duration := 1
def microsecond : Duration := 1000 * nanosecond
def millisecond : Duration := 1000 * microsecond
def second : Duration := 1000 * millisecond
def minute : Duration := 60 * second
def hour : Duration := 60 * minute

/-- The method `IsZero` of `time.Time`. -/
def isZero (t : Time) : Bool := t == 0

/-- The start of the year 1970. -/
def unixEpoch : Time := 62135596800 * second

/-- The method `UnixNano` of `time.Time`. -/
def unixNano (t : Time) : ℤ := t - unixEpoch

/-! ## Errors -/

/-- An `error`.  The store's `ErrNotFound` is compared by identity, so it has a
constructor of its own; the others are known by their text. -/
inductive Error
  /-- The variable `storage.ErrNotFound`. -/
  | notFound
  /-- An error made on the spot. -/
  | text (msg : String)
deriving DecidableEq, Repr

/-- The text of an error. -/
def Error.message : Error → String
  | .notFound => "not found"
  | .text msg => msg

/-! ## Requests -/

/-- What the package `net/http` makes of an address, whatever is at the other end. -/
structure HTTPClient where
  /-- The error of `http.NewRequest`. -/
  newRequest : String → Option String
  /-- The error of the method `Do` for a request that it does not even send, as for a scheme
  that is not known. -/
  unsent : String → Option String

/-- Requests to an address are sent. -/
structure HTTPClient.Takes (client : HTTPClient) (url : String) : Prop where
  request : client.newRequest url = none
  sent : client.unsent url = none

/-- A client that sends to every address. -/
def HTTPClient.any : HTTPClient := ⟨fun _ => none, fun _ => none⟩

/-! ## JSON -/

/-- How a record is written to the store and read back.  The encoder is total: a number
of the model is never infinite and never undefined. -/
structure Codec (α V : Type) where
  /-- The encoder, `json.Marshal`. -/
  marshal : α → V
  /-- The decoder, `json.Unmarshal`. -/
  unmarshal : V → Except String α
  /-- What was written can be read back. -/
  unmarshal_marshal : ∀ a, unmarshal (marshal a) = .ok a

/-! ## Values of dynamic type -/

/-- An `interface{}` as plugins and configurations use it. -/
inductive Value
  | float64 (x : ℚ)
  | float32 (x : ℚ)
  | int (n : ℤ)
  | int64 (n : ℤ)
  | uint64 (n : ℕ)
  | uint (n : ℕ)
  | bool (b : Bool)
  | string (s : String)
  /-- A `[]interface{}`; `none` stands for an element that is not a string, which every
  reader of such a list skips. -/
  | list (items : List (Option String))
  /-- A `[]string`. -/
  | strings (items : List String)
  /-- A `map[string]string`. -/
  | stringMap (entries : List (String × String))
  /-- A value of any other type. -/
  | other
deriving DecidableEq, Repr

/-- A `map[string]T`, its entries listed in the order of one iteration. -/
structure StringMap (α : Type) where
  /-- The entries. -/
  entries : List (String × α)
  /-- A key occurs once. -/
  nodup : (entries.map Prod.fst).Nodup

namespace StringMap

variable {α : Type}

instance [DecidableEq α] : DecidableEq (StringMap α) := fun m n =>
  decidable_of_iff (m.entries = n.entries) <| by
    cases m
    cases n
    simp

/-- The empty map. -/
def empty : StringMap α := ⟨[], by simp⟩

instance : Inhabited (StringMap α) := ⟨empty⟩

/-- The value of a key. -/
def get? (m : StringMap α) (key : String) : Option α := m.entries.lookup key

/-- The other iteration orders of the same map. -/
def IterationOrder (m : StringMap α) (order : List (String × α)) : Prop :=
  order.Perm m.entries

end StringMap

/-- An order in which a loop can go through a map: each of its keys once. -/
structure KeyOrder {α β : Type} (m : α → Option β) where
  keys : List α
  nodup : keys.Nodup
  mem : ∀ key, key ∈ keys ↔ (m key).isSome = true

/-! ## The `strings` package -/

/-- The function `unicode.IsSpace`. -/
def isSpace (c : Char) : Bool :=
  let n := c.toNat
  (9 ≤ n && n ≤ 13) || n = 32 || n = 0x85 || n = 0xA0 || n = 0x1680 ||
    (0x2000 ≤ n && n ≤ 0x200A) || n = 0x2028 || n = 0x2029 || n = 0x202F ||
    n = 0x205F || n = 0x3000

def trimSpace (s : String) : String :=
  String.ofList ((s.toList.dropWhile isSpace).reverse.dropWhile isSpace).reverse

def hasPrefix (s pre : String) : Bool := pre.toList.isPrefixOf s.toList

def hasSuffix (s suffix : String) : Bool := suffix.toList.isSuffixOf s.toList

def trimPrefix (s pre : String) : String :=
  if hasPrefix s pre then String.ofList (s.toList.drop pre.toList.length) else s

/-- A character as `strconv.Quote` writes it.  Every character outside ASCII is taken to be
printable. -/
def quoteRune (c : Char) : List Char :=
  if c = '"' then ['\\', '"']
  else if c = '\\' then ['\\', '\\']
  else if c = '\n' then ['\\', 'n']
  else if c = '\r' then ['\\', 'r']
  else if c = '\t' then ['\\', 't']
  else if c.toNat = 7 then ['\\', 'a']
  else if c.toNat = 8 then ['\\', 'b']
  else if c.toNat = 12 then ['\\', 'f']
  else if c.toNat = 11 then ['\\', 'v']
  else if c.toNat < 32 ∨ c.toNat = 127 then
    ['\\', 'x', Nat.digitChar (c.toNat / 16), Nat.digitChar (c.toNat % 16)]
  else [c]

/-- No character is left out. -/
lemma quoteRune_ne_nil (c : Char) : quoteRune c ≠ [] := by
  rw [quoteRune]
  -- one step for each of the conditions
  iterate 10
    refine iteInduction (motive := (· ≠ [])) (fun _ => List.cons_ne_nil _ _) fun _ => ?_
  exact List.cons_ne_nil _ _

/-- The verb `%q`. -/
def quote (s : String) : String := "\"" ++ String.ofList (s.toList.flatMap quoteRune) ++ "\""

/-- The function `strings.Join`. -/
def join (sep : String) : List String → String
  | [] => ""
  | [s] => s
  | s :: t :: rest => s ++ sep ++ join sep (t :: rest)

end Arcsent.Go
