/-
# `Bytes` — text as byte strings

Every text the packager handles (paths, arguments, file contents, messages)
is a list of bytes; no encoding is assumed.  This file holds what the rest of
the library needs of such lists: the constants written in ASCII, the two
character classes of the template language, decimal numerals, substring
search, splitting and stripping, and the byte order used for listings.
-/
namespace WasmPackager

abbrev Bytes := List UInt8

/-- The bytes of a constant written in ASCII. -/
def ascii (s : String) : Bytes := s.toList.map fun c => UInt8.ofNat c.toNat

/-! ## Character classes -/

/-- Whitespace is space, tab, line feed, vertical tab, form feed and carriage return. -/
def isSpace (b : UInt8) : Bool := b == 32 || (9 ≤ b && b ≤ 13)

/-- Identifiers are made of ASCII letters, digits and the underscore. -/
def isWord (b : UInt8) : Bool :=
  (48 ≤ b && b ≤ 57) || (65 ≤ b && b ≤ 90) || (97 ≤ b && b ≤ 122) || b == 95

namespace Bytes

/-! ## Numerals -/

/-- The decimal numeral of a natural number. -/
def ofNat (n : Nat) : Bytes := (Nat.toDigits 10 n).map fun c => UInt8.ofNat c.toNat

/-- The decimal numeral of an integer, with a minus sign if it is negative. -/
def ofInt : Int → Bytes
  | .ofNat n => ofNat n
  | .negSucc n => 45 :: ofNat (n + 1)

/-- The number a non-empty string of ASCII digits denotes. -/
def toNat? (s : Bytes) : Option Nat :=
  if s.isEmpty || !s.all (fun b => 48 ≤ b && b ≤ 57) then none
  else some (s.foldl (fun n b => 10 * n + (b.toNat - 48)) 0)

/-! ## Searching -/

/-- `token.occursIn s`: the bytes of `token` stand somewhere in `s`, side by side. -/
def occursIn (token : Bytes) : Bytes → Bool
  | [] => token.isEmpty
  | b :: s => token.isPrefixOf (b :: s) || occursIn token s

/-! ## Splitting and stripping -/

/-- The pieces of `s` between the occurrences of `sep`: one piece more than there
are separators, and some of them may be empty. -/
def splitOn (sep : UInt8) (s : Bytes) : List Bytes :=
  s.foldr (fun b pieces =>
    if b == sep then [] :: pieces
    else match pieces with
      | [] => [[b]]
      | piece :: rest => (b :: piece) :: rest) [[]]

/-- `s` without the bytes of class `p` at its two ends. -/
def strip (p : UInt8 → Bool) (s : Bytes) : Bytes :=
  ((s.dropWhile p).reverse.dropWhile p).reverse

def joinWith (sep : Bytes) : List Bytes → Bytes
  | [] => []
  | piece :: rest => piece ++ rest.flatMap (sep ++ ·)

/-- The lines written out, each ended by a line feed. -/
def unlines (lines : List Bytes) : Bytes := lines.flatMap (· ++ [10])

/-! ## Order -/

/-- Byte order: the first differing byte decides, and a string comes after its beginnings. -/
def le (a b : Bytes) : Bool := !decide (b < a)

/-- Puts a value before the first one whose key does not come before its own. -/
def insertBy {α : Type} (key : α → Bytes) (x : α) : List α → List α
  | [] => [x]
  | y :: ys => if le (key x) (key y) then x :: y :: ys else y :: insertBy key x ys

/-- The values in byte order of their keys; those with equal keys keep their order. -/
def sortBy {α : Type} (key : α → Bytes) (xs : List α) : List α := xs.foldr (insertBy key) []

def sort (xs : List Bytes) : List Bytes := sortBy id xs

end Bytes
end WasmPackager
