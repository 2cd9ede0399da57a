/-
# Flags on a command line

The `flag` package of the standard library.  A flag set is a map from names to flags, and its
method `Parse` goes through the words of a command line: it takes one flag after another, sets
it, and stops at the first word that is none.
-/
import Mathlib.Data.List.Basic
import Arcsent.Go.Basic

namespace Arcsent.Go.Flag

open Arcsent.Go

/-- A flag that is defined: how it sets its variable.  A flag for a truth value needs no
argument. -/
inductive Formal (σ : Type) where
  | bool (set : Bool → σ → σ)
  | string (set : String → σ → σ)

/-- What a word of the command line is for `parseOne`. -/
inductive Word where
  | notFlag
  /-- The word that ends the flags. -/
  | terminator
  | badSyntax
  | flag (name : String) (value : Option String)
deriving DecidableEq

/-- A flag with its name after the minus signs, and with what stands after an equals sign. -/
def wordOfName (name : List Char) : Word :=
  if name.head? ∈ [none, some '-', some '='] then .badSyntax
  else
    .flag (String.ofList (name.takeWhile (· ≠ '=')))
      (if '=' ∈ name then some (String.ofList ((name.dropWhile (· ≠ '=')).drop 1)) else none)

def readWord (word : String) : Word :=
  match word.toList with
  | ['-', '-'] => .terminator
  | '-' :: '-' :: name => wordOfName name
  | ['-'] => .notFlag
  | '-' :: name => wordOfName name
  | _ => .notFlag

/-- The errors of `Parse`. -/
inductive ParseError where
  /-- The variable `flag.ErrHelp`. -/
  | help
  | text (msg : String)
deriving DecidableEq

/-- The function `strconv.ParseBool`. -/
def parseBool (s : String) : Option Bool :=
  if s ∈ ["1", "t", "T", "true", "TRUE", "True"] then some true
  else if s ∈ ["0", "f", "F", "false", "FALSE", "False"] then some false
  else none

/-- The method `Parse`: the variables after the flags, and the words after them. -/
def parse {σ : Type} (formal : String → Option (Formal σ)) :
    List String → σ → Except ParseError (σ × List String)
  | [], s => .ok (s, [])
  | word :: args, s =>
    match readWord word with
    | .notFlag => .ok (s, word :: args)
    | .terminator => .ok (s, args)
    | .badSyntax => .error (.text ("bad flag syntax: " ++ word))
    | .flag name value =>
      match formal name with
      | none =>
        if name = "help" ∨ name = "h" then .error .help
        else .error (.text ("flag provided but not defined: -" ++ name))
      | some (.bool set) =>
        match value with
        | none => parse formal args (set true s)
        | some value =>
          match parseBool value with
          | some b => parse formal args (set b s)
          | none =>
            .error (.text ("invalid boolean value " ++ quote value ++ " for -" ++ name ++
              ": parse error"))
      | some (.string set) =>
        match value, args with
        | some value, args => parse formal args (set value s)
        | none, value :: args => parse formal args (set value s)
        | none, [] => .error (.text ("flag needs an argument: -" ++ name))

variable {σ : Type} {formal : String → Option (Formal σ)} {s s' : σ} {word : String}
  {flags args : List String}

/-- Parsing stops at a word that is no flag. -/
lemma parse_of_notFlag (h : readWord word = .notFlag) (args : List String) (s : σ) :
    parse formal (word :: args) s = .ok (s, word :: args) := by
  rw [parse, h]

/-- A list of nothing but flags can stand before a word that is none. -/
lemma parse_append (hword : readWord word = .notFlag) (args : List String)
    (h : parse formal flags s = .ok (s', [])) :
    parse formal (flags ++ word :: args) s = .ok (s', word :: args) := by
  fun_induction parse formal flags s with
  | case1 s =>
    obtain rfl := (Prod.mk.inj (Except.ok.inj h)).1
    exact parse_of_notFlag hword args s
  | case2 => cases h
  | case3 w rest s hread =>
    obtain ⟨rfl, rfl⟩ := Prod.mk.inj (Except.ok.inj h)
    rw [List.cons_append, List.nil_append, parse, hread]
  | case4 | case5 | case6 | case9 | case12 => cases h
  | case7 w rest s name set hformal hread ih =>
    rw [List.cons_append, parse, hread]
    dsimp only
    rw [hformal]
    exact ih h
  | case8 w rest s name set hformal value b hbool hread ih =>
    rw [List.cons_append, parse, hread]
    dsimp only
    rw [hformal]
    dsimp only
    rw [hbool]
    exact ih h
  | case10 w s name set hformal value rest hread ih =>
    rw [List.cons_append, parse, hread]
    dsimp only
    rw [hformal]
    exact ih h
  | case11 w s name set hformal value rest hread ih =>
    rw [List.cons_append, List.cons_append, parse, hread]
    dsimp only
    rw [hformal]
    exact ih h

/-- The first word of a list of nothing but flags is one. -/
lemma readWord_ne_of_parse (h : parse formal (word :: flags) s = .ok (s', [])) :
    readWord word ≠ .notFlag := by
  intro hword
  rw [parse_of_notFlag hword] at h
  cases h

end Arcsent.Go.Flag
