/-
# Texts that are parsed

The two parsers of the standard library that a configuration is checked with:
`time.ParseDuration` and `base64.StdEncoding.DecodeString`.  Callers look at the value or
at whether there was an error, never at the text of the error, so both return an option.
-/
import Arcsent.Go.Basic

namespace Arcsent.Go

def isDigit (c : Char) : Bool := '0' ≤ c && c ≤ '9'

def digit (c : Char) : ℕ := c.toNat - '0'.toNat

/-! ## Durations -/

/-- The bound of the arithmetic, one more than the largest duration. -/
def durationLimit : ℕ := 2 ^ 63

/-- The function `leadingInt`: the number that a text starts with and the rest, or an
error when the number is too large. -/
def leadingInt : ℕ → List Char → Option (ℕ × List Char)
  | x, [] => some (x, [])
  | x, c :: cs =>
    if ¬ isDigit c then some (x, c :: cs)
    else if x > durationLimit / 10 then none
    else if x * 10 + digit c > durationLimit then none
    else leadingInt (x * 10 + digit c) cs

/-- The function `leadingFraction`: the digits after the point as a number and its scale;
digits that would overflow are passed over. -/
def leadingFraction : ℕ → ℕ → Bool → List Char → ℕ × ℕ × List Char
  | x, scale, _, [] => (x, scale, [])
  | x, scale, overflow, c :: cs =>
    if ¬ isDigit c then (x, scale, c :: cs)
    else if overflow then leadingFraction x scale overflow cs
    else if x > (durationLimit - 1) / 10 then leadingFraction x scale true cs
    else if x * 10 + digit c > durationLimit then leadingFraction x scale true cs
    else leadingFraction (x * 10 + digit c) (scale * 10) false cs

/-- The table `unitMap`. -/
def unitOf : List Char → Option ℕ
  | ['n', 's'] => some nanosecond.toNat
  | ['u', 's'] => some microsecond.toNat
  | ['\u00B5', 's'] => some microsecond.toNat
  | ['\u03BC', 's'] => some microsecond.toNat
  | ['m', 's'] => some millisecond.toNat
  | ['s'] => some second.toNat
  | ['m'] => some minute.toNat
  | ['h'] => some hour.toNat
  | _ => none

/-- One round of the loop of `ParseDuration`: a number with its unit. -/
def durationTerm (s : List Char) : Option (ℕ × List Char) := do
  let c ← s.head?
  if ¬ (c = '.' ∨ isDigit c) then none
  let (v, afterInt) ← leadingInt 0 s
  let pre := s.length ≠ afterInt.length
  let (f, scale, rest, post) :=
    match afterInt with
    | '.' :: digits =>
      let (f, scale, rest) := leadingFraction 0 1 false digits
      (f, scale, rest, decide (digits.length ≠ rest.length))
    | _ => (0, 1, afterInt, false)
  if ¬ pre ∧ ¬ post then none
  let u := rest.takeWhile fun c => ¬ (c = '.' ∨ isDigit c)
  let rest := rest.dropWhile fun c => ¬ (c = '.' ∨ isDigit c)
  if u = [] then none
  let unit ← unitOf u
  if v > durationLimit / unit then none
  let v := v * unit + f * unit / scale
  if v > durationLimit then none
  return (v, rest)

/-- The loop of `ParseDuration`.  Every round takes at least one character, so the length
of the text is fuel enough. -/
def durationTerms : ℕ → ℕ → List Char → Option ℕ
  | _, d, [] => some d
  | 0, _, _ :: _ => none
  | fuel + 1, d, s => do
    let (v, rest) ← durationTerm s
    if d + v > durationLimit then none
    durationTerms fuel (d + v) rest

/-- The function `time.ParseDuration`.  Fractions of a unit are exact here where the source
computes them in floating point. -/
def parseDuration (s : String) : Option Duration := do
  let (neg, cs) :=
    match s.toList with
    | '-' :: cs => (true, cs)
    | '+' :: cs => (false, cs)
    | cs => (false, cs)
  if cs = ['0'] then return 0
  if cs = [] then none
  let d ← durationTerms cs.length 0 cs
  if neg then return -(d : ℤ)
  if d > durationLimit - 1 then none
  return (d : ℤ)

/-- A duration taken from a text, with a value to fall back on. -/
def durationOr (s : String) (fallback : Duration) : Duration :=
  if s = "" then fallback else (parseDuration s).getD fallback

example : parseDuration "1h15m0.5s" = some 4500500000000 := by decide

/-- The fraction `v / 10 ^ prec` after the point, without the zeros at its end. -/
def fractionText (v prec : ℕ) : String :=
  let digits := (toString (v + 10 ^ prec)).toList.drop 1
  let kept := (digits.reverse.dropWhile (· = '0')).reverse
  if kept = [] then "" else "." ++ String.ofList kept

/-- A text for `v / 10 ^ prec`. -/
def decimalText (v prec : ℕ) : String :=
  toString (v / 10 ^ prec) ++ fractionText (v % 10 ^ prec) prec

/-- The method `String` of `time.Duration`. -/
def durationString (d : Duration) : String :=
  let u := d.natAbs
  let text :=
    if u = 0 then "0s"
    else if u < microsecond.toNat then toString u ++ "ns"
    else if u < millisecond.toNat then decimalText u 3 ++ "\u00B5s"
    else if u < second.toNat then decimalText u 6 ++ "ms"
    else
      let secs := u / second.toNat
      let secText := toString (secs % 60) ++ fractionText (u % second.toNat) 9 ++ "s"
      let mins := secs / 60
      if mins = 0 then secText
      else if mins / 60 = 0 then toString mins ++ "m" ++ secText
      else toString (mins / 60) ++ "h" ++ toString (mins % 60) ++ "m" ++ secText
  if d < 0 then "-" ++ text else text

/-! ## Base64 -/

/-- The value of a character of the standard alphabet. -/
def base64Value (c : Char) : Option ℕ :=
  if 'A' ≤ c ∧ c ≤ 'Z' then some (c.toNat - 'A'.toNat)
  else if 'a' ≤ c ∧ c ≤ 'z' then some (c.toNat - 'a'.toNat + 26)
  else if isDigit c then some (digit c + 52)
  else if c = '+' then some 62
  else if c = '/' then some 63
  else none

/-- The bytes of a full group of four characters. -/
def base64Bytes (a b c d : ℕ) : Bytes :=
  let n := ((a * 64 + b) * 64 + c) * 64 + d
  [UInt8.ofNat (n / 65536), UInt8.ofNat (n / 256), UInt8.ofNat n]

/-- Decoding by groups of four.  Padding ends the text, and the bits it leaves over are
not looked at. -/
def base64Groups : List Char → Option Bytes
  | [] => some []
  | [a, b, '=', '='] => do
    return (base64Bytes (← base64Value a) (← base64Value b) 0 0).take 1
  | [a, b, c, '='] => do
    return (base64Bytes (← base64Value a) (← base64Value b) (← base64Value c) 0).take 2
  | a :: b :: c :: d :: rest => do
    let group := base64Bytes (← base64Value a) (← base64Value b) (← base64Value c)
      (← base64Value d)
    return group ++ (← base64Groups rest)
  | _ => none

/-- The method `DecodeString` of `base64.StdEncoding`, which passes over line ends. -/
def base64Decode (s : String) : Option Bytes :=
  base64Groups (s.toList.filter fun c => c ≠ '\r' ∧ c ≠ '\n')

example : base64Decode "aGk=\n" = some (bytes "hi") := by decide

end Arcsent.Go
