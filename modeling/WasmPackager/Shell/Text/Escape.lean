/-
# `Shell.Text.Escape` — bytes written with a backslash

A backslash and a letter, or a backslash and a number in base eight, stand for
a byte.  In a format the number has up to three digits; in an argument it can
also have a zero in front of them, and a backslash with a `c` ends everything.
-/
import WasmPackager.Bytes

namespace WasmPackager.Escape

def isOctal (b : UInt8) : Bool := 48 ≤ b && b ≤ 55

/-- The number that digits denote in a base. -/
def inBase (base : Nat) (digits : Bytes) : Nat :=
  digits.foldl (fun n b =>
    base * n + if b ≤ 57 then b.toNat - 48 else if 97 ≤ b then b.toNat - 87 else b.toNat - 55) 0

def isHexadecimal (b : UInt8) : Bool :=
  (48 ≤ b && b ≤ 57) || (65 ≤ b && b ≤ 70) || (97 ≤ b && b ≤ 102)

/-- The byte that a letter behind a backslash stands for. -/
def letter? (b : UInt8) : Option UInt8 :=
  if b == 97 then some 7
  else if b == 98 then some 8
  else if b == 101 then some 27
  else if b == 102 then some 12
  else if b == 110 then some 10
  else if b == 114 then some 13
  else if b == 116 then some 9
  else if b == 118 then some 11
  else if b == 92 then some 92
  else none

/-- The byte that the text behind a backslash of a format stands for, and what is behind it.
`hexadecimal` allows for numbers in base sixteen behind an `x`. -/
def ofFormat (hexadecimal : Bool) (text : Bytes) : UInt8 × Bytes :=
  match text with
  | [] => (92, [])
  | b :: rest =>
    match letter? b with
    | some c => (c, rest)
    | none =>
      if isOctal b then
        let digits := (text.take 3).takeWhile isOctal
        (UInt8.ofNat (inBase 8 digits), text.drop digits.length)
      else if hexadecimal && b == 120 && (rest.head?.any isHexadecimal) then
        let digits := (rest.take 2).takeWhile isHexadecimal
        (UInt8.ofNat (inBase 16 digits), rest.drop digits.length)
      else (92, text)

/-- The bytes that an argument stands for, and whether it ends everything. -/
def ofArgument (hexadecimal : Bool) : (fuel : Nat) → (reversed : Bytes) → Bytes → Bytes × Bool
  | 0, reversed, _ => (reversed.reverse, false)
  | fuel + 1, reversed, text =>
    match text with
    | [] => (reversed.reverse, false)
    | 92 :: 99 :: _ => (reversed.reverse, true)
    | 92 :: 48 :: rest =>
      let digits := (rest.take 3).takeWhile isOctal
      ofArgument hexadecimal fuel (UInt8.ofNat (inBase 8 digits) :: reversed)
        (rest.drop digits.length)
    | 92 :: rest =>
      let (b, rest) := ofFormat hexadecimal rest
      ofArgument hexadecimal fuel (b :: reversed) rest
    | b :: rest => ofArgument hexadecimal fuel (b :: reversed) rest

/-- The bytes that an argument stands for, and whether it ends everything. -/
def expand (hexadecimal : Bool) (text : Bytes) : Bytes × Bool :=
  ofArgument hexadecimal (text.length + 1) [] text

end WasmPackager.Escape
