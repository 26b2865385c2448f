import CareDirect.Lib.Pattern
import Mathlib.Data.Bool.AllAny

/-!
# The pattern syntax of ICU

The part of the syntax that is read here: literals, `.`, sets with ranges and `\d`, escapes of punctuation, the
quantifiers `+`, `*` and `{m,n}` after a single character or set, `^` and look-ahead. Anything else is not a pattern
(`compile` is `none`). In a set a `-` between two characters makes a range; before the closing bracket it is literal.

What the text of a pattern does not fix is which characters are decimal digits; that is the Unicode table `Digits`.
-/

namespace Icu

/-- The characters that `.` does not match. -/
def lineTerminators : List Char := ['\u000a', '\u000b', '\u000c', '\u000d', '\u0085', '\u2028', '\u2029']

/-- A table of the Unicode general category `Nd`. In ASCII these are `0` to `9`; no line terminator is one. -/
structure Digits where
  decimal : Char → Bool
  decimal_ascii : ∀ c, c.toNat < 128 → decimal c = c.isDigit
  decimal_terminator : ∀ c ∈ lineTerminators, decimal c = false

theorem isDigit_ascii {c : Char} (h : c.isDigit = true) : c.toNat < 128 := by
  change (decide ('0'.val ≤ c.val) && decide (c.val ≤ '9'.val)) = true at h
  have hc : c.val ≤ '9'.val := of_decide_eq_true (Bool.and_eq_true_iff.1 h).2
  exact Nat.lt_of_le_of_lt hc (by decide)

theorem Digits.decimal_of_isDigit (digits : Digits) {c : Char} (h : c.isDigit = true) : digits.decimal c = true :=
  (digits.decimal_ascii c (isDigit_ascii h)).trans h

/-- The table restricted to ASCII. -/
def asciiDigits : Digits where
  decimal := Char.isDigit
  decimal_ascii _ _ := rfl
  decimal_terminator := List.all_iff_forall_prop.1 (by decide)

/-- One item of a set. -/
inductive Item
  | range (lo hi : Char)
  | decimalDigit
  deriving DecidableEq

inductive CharSet
  /-- `.` -/
  | any
  | items (items : List Item)
  deriving DecidableEq

def Item.mem (digits : Digits) : Item → Char → Bool
  | range lo hi, c => decide (lo ≤ c ∧ c ≤ hi)
  | decimalDigit, c => digits.decimal c

def CharSet.mem (digits : Digits) : CharSet → Char → Bool
  | any, c => !lineTerminators.contains c
  | items is, c => is.any (·.mem digits c)

/-! ## Reading a pattern -/

/-- The items up to the closing bracket. -/
def readItems : List Char → Option (List Item × List Char)
  | [] => none
  | ']' :: cs => some ([], cs)
  | '\\' :: 'd' :: cs => (readItems cs).map fun r => (.decimalDigit :: r.1, r.2)
  | '\\' :: _ => none
  | '[' :: _ => none
  | '&' :: '&' :: _ => none
  | '-' :: '-' :: _ => none
  | a :: '-' :: ']' :: cs => some ([.range a a, .range '-' '-'], cs)
  | a :: '-' :: b :: cs => (readItems cs).map fun r => (.range a b :: r.1, r.2)
  | a :: cs => (readItems cs).map fun r => (.range a a :: r.1, r.2)

/-- A character or a set. -/
def readSet : List Char → Option (CharSet × List Char)
  | '[' :: '^' :: _ => none
  | '[' :: cs => (readItems cs).map fun r => (.items r.1, r.2)
  | '.' :: cs => some (.any, cs)
  | '\\' :: 'd' :: cs => some (.items [.decimalDigit], cs)
  | '\\' :: c :: cs => if c.isAlphanum then none else some (.items [.range c c], cs)
  | c :: cs => if "\\+*?{}|()]$".toList.contains c then none else some (.items [.range c c], cs)
  | [] => none

def readNumber (cs : List Char) : Option (ℕ × List Char) :=
  match cs.takeWhile Char.isDigit with
  | [] => none
  | digits => some (digits.foldl (fun n d => 10 * n + (d.toNat - '0'.toNat)) 0, cs.dropWhile Char.isDigit)

/-- What stands behind a character or a set. -/
def readQuantifier (s : CharSet) : List Char → Option (Pattern CharSet × List Char)
  | '+' :: cs => some (.many s 1 none, cs)
  | '*' :: cs => some (.many s 0 none, cs)
  | '{' :: cs => do
    let (lo, cs) ← readNumber cs
    let cs ← if cs.head? = some ',' then some cs.tail else none
    let (hi, cs) ← readNumber cs
    let cs ← if cs.head? = some '}' then some cs.tail else none
    some (.many s lo (some hi), cs)
  | cs => some (.set s, cs)

def sequence (p : Pattern CharSet) : Pattern CharSet → Pattern CharSet
  | .empty => p
  | q => .seq p q

/-- A sequence up to the end or a closing parenthesis. -/
def readSequence : ℕ → List Char → Option (Pattern CharSet × List Char)
  | 0, _ => none
  | _ + 1, [] => some (.empty, [])
  | _ + 1, ')' :: cs => some (.empty, ')' :: cs)
  | fuel + 1, '^' :: cs => (readSequence fuel cs).map fun r => (sequence .start r.1, r.2)
  | fuel + 1, '(' :: '?' :: '=' :: cs => do
    let (p, cs) ← readSequence fuel cs
    let cs ← if cs.head? = some ')' then some cs.tail else none
    let (q, cs) ← readSequence fuel cs
    some (sequence (.ahead p) q, cs)
  | fuel + 1, cs => do
    let (s, cs) ← readSet cs
    let (p, cs) ← readQuantifier s cs
    let (q, cs) ← readSequence fuel cs
    some (sequence p q, cs)

/-- The pattern that a text stands for. -/
def compile (regex : String) : Option (Pattern CharSet) :=
  match readSequence (regex.toList.length + 1) regex.toList with
  | some (p, []) => some p
  | _ => none

end Icu
