/-
# `Shell.Text.Decimal` — real numbers in decimal notation

A number is read as the double that is nearest to it and written with as many
digits as are asked for.  The digits are those of the exact value of the
double, rounded once; of two that are equally near the even one is taken.
-/
import WasmPackager.Bytes

namespace WasmPackager.Decimal

/-- The exact value of a positive double, as a fraction of natural numbers. -/
def fraction (x : Float) : Nat × Nat :=
  let bits : Nat := x.toBits.toNat
  let exponent : Nat := bits / Nat.pow 2 52 % Nat.pow 2 11
  let rest : Nat := bits % Nat.pow 2 52
  let mantissa : Nat := if exponent = 0 then rest else rest + Nat.pow 2 52
  let power : Int := if exponent = 0 then -1074 else (exponent : Int) - 1075
  if 0 ≤ power then (mantissa * Nat.pow 2 power.toNat, 1) else (mantissa, Nat.pow 2 (-power).toNat)

/-- The quotient, rounded to the nearest number; a half goes to the even neighbour. -/
def roundedQuotient (num den : Nat) : Nat :=
  let q := num / den
  let r := 2 * (num % den)
  if r < den then q else if den < r then q + 1 else if q % 2 = 0 then q else q + 1

/-- The text with zeros in front up to a length. -/
def padded (length : Nat) (s : Bytes) : Bytes := List.replicate (length - s.length) 48 ++ s

/-- The positional notation of a positive double with a number of places. -/
def positional (x : Float) (places : Nat) : Bytes :=
  let (num, den) := fraction x
  let digits := padded (places + 1) (Bytes.ofNat (roundedQuotient (num * Nat.pow 10 places) den))
  let whole := digits.take (digits.length - places)
  if places = 0 then whole else whole ++ 46 :: digits.drop (digits.length - places)

/-- The exponent of ten of the first digit of a fraction. -/
def leading (num den : Nat) : Int :=
  let zeros : Nat := ((List.range 400).find? fun k => den ≤ num * Nat.pow 10 (k + 1)).getD 0
  if den ≤ num then ((Bytes.ofNat (num / den)).length : Int) - 1 else -1 - (zeros : Int)

/-- The digits of a fraction, one and then as many as there are places, with the exponent of ten
of the first one. -/
def scientificDigits (num den places : Nat) : Bytes × Int :=
  if num = 0 then (List.replicate (places + 1) 48, 0)
  else
    let e := leading num den
    let shift : Int := places - e
    let n := if 0 ≤ shift then roundedQuotient (num * Nat.pow 10 shift.toNat) den
      else roundedQuotient num (den * Nat.pow 10 (-shift).toNat)
    let digits := Bytes.ofNat n
    if places + 1 < digits.length then (digits.take (places + 1), e + 1) else (digits, e)

/-- An exponent, with its sign and at least two digits. -/
def exponentText (e : Int) : Bytes :=
  (if e < 0 then 45 else 43) :: padded 2 (Bytes.ofNat e.natAbs)

/-- The scientific notation of a positive double with a number of places. -/
def scientific (x : Float) (places : Nat) : Bytes :=
  let (num, den) := fraction x
  let (digits, e) := scientificDigits num den places
  digits.take 1 ++ (if places = 0 then [] else 46 :: digits.drop 1) ++ 101 :: exponentText e

/-- The text without zeros at its end behind a point, and without a point at its end. -/
def withoutZeros (s : Bytes) : Bytes :=
  if s.contains 46 then
    let s := (s.reverse.dropWhile (· == 48)).reverse
    if s.getLast? == some 46 then s.dropLast else s
  else s

/-- The shorter notation of a positive double with a number of significant digits; `plain` keeps
the zeros at the end. -/
def general (x : Float) (significant : Nat) (plain : Bool) : Bytes :=
  let significant := max 1 significant
  let (num, den) := fraction x
  let (digits, e) := scientificDigits num den (significant - 1)
  let tidy (s : Bytes) : Bytes := if plain then s else withoutZeros s
  if e < -4 || (significant : Int) ≤ e then
    let mantissa := digits.take 1 ++ (if significant = 1 then [] else 46 :: digits.drop 1)
    tidy mantissa ++ 101 :: exponentText e
  else tidy (positional x ((significant : Int) - 1 - e).toNat)

/-! ## Reading -/

/-- A number at the beginning of a text: sign, digits with a point, and an exponent. -/
def read? (text : Bytes) : Option (Float × Bytes) :=
  let digit (b : UInt8) : Bool := 48 ≤ b && b ≤ 57
  let (negative, s) := match text with
    | 45 :: rest => (true, rest)
    | 43 :: rest => (false, rest)
    | s => (false, s)
  let whole := s.takeWhile digit
  let s := s.drop whole.length
  let (places, s) := match s with
    | 46 :: rest => (rest.takeWhile digit, rest.drop (rest.takeWhile digit).length)
    | s => ([], s)
  if whole.isEmpty && places.isEmpty then none
  else
    let value (digits : Bytes) : Nat := digits.foldl (fun n b => 10 * n + (b.toNat - 48)) 0
    let (exponent, s) : Int × Bytes := match s with
      | e :: rest =>
        if e == 101 || e == 69 then
          let (down, rest') := match rest with
            | 45 :: r => (true, r)
            | 43 :: r => (false, r)
            | r => (false, r)
          let digits := rest'.takeWhile digit
          if digits.isEmpty then (0, s)
          else (if down then -(value digits : Int) else value digits, rest'.drop digits.length)
        else (0, s)
      | [] => (0, s)
    let power : Int := exponent - places.length
    let x := Float.ofScientific (value (whole ++ places)) (power < 0) power.natAbs
    some (if negative then -x else x, s)

end WasmPackager.Decimal
