/-
# `Shell.Text.Directive` — texts with gaps that are filled in

A directive tells how a value fills a gap: as text, as a whole number in some
base or as a real number, with which width, with how many digits, and on which
side of the room that is left.
-/
import WasmPackager.Shell.Text.Decimal

namespace WasmPackager

/-- How a gap is filled. -/
structure Directive where
  /-- The value stands at the left of its room. -/
  left : Bool
  /-- Positive numbers have a sign. -/
  signed : Bool
  /-- A blank stands where a sign could be. -/
  spaced : Bool
  /-- The room is filled up with zeros. -/
  zeros : Bool
  /-- The base of a number shows. -/
  alternate : Bool
  width : Nat
  precision : Option Nat
  letter : UInt8

namespace Directive

def plain : Directive := ⟨false, false, false, false, false, 0, none, 0⟩

def flag? (d : Directive) (b : UInt8) : Option Directive :=
  if b == 45 then some { d with left := true }
  else if b == 43 then some { d with signed := true }
  else if b == 32 then some { d with spaced := true }
  else if b == 48 then some { d with zeros := true }
  else if b == 35 then some { d with alternate := true }
  else none

/-- The flags at the beginning of a text, and the text behind them. -/
def takeFlags : Directive → Bytes → Directive × Bytes
  | d, [] => (d, [])
  | d, b :: rest =>
    match d.flag? b with
    | some d => takeFlags d rest
    | none => (d, b :: rest)

/-- The directive with a width, which stands at the left if it is negative. -/
def withWidth (d : Directive) (n : Int) : Directive :=
  if n < 0 then { d with left := true, width := n.natAbs } else { d with width := n.natAbs }

def pad (d : Directive) (s : Bytes) : Bytes :=
  let room := List.replicate (d.width - s.length) (32 : UInt8)
  if d.left then s ++ room else room ++ s

/-- A text in its room; the precision is the most of it that is used. -/
def text (d : Directive) (s : Bytes) : Bytes :=
  d.pad (match d.precision with
    | some n => s.take n
    | none => s)

/-- The digits with what stands in front of them, in their room. -/
def number (d : Directive) (front digits : Bytes) (fillable : Bool) : Bytes :=
  if d.zeros && !d.left && fillable then
    front ++ List.replicate (d.width - front.length - digits.length) 48 ++ digits
  else d.pad (front ++ digits)

def sign (d : Directive) (negative : Bool) : Bytes :=
  if negative then [45] else if d.signed then [43] else if d.spaced then [32] else []

/-- The digits of a number, with at least as many as the precision says. -/
def digits (d : Directive) (base n : Nat) : Bytes :=
  let digits := if n = 0 && d.precision == some 0 then []
    else (Nat.toDigits base n).map fun c => UInt8.ofNat c.toNat
  Decimal.padded (d.precision.getD 1) digits

def integer (d : Directive) (n : Int) : Bytes :=
  d.number (d.sign (n < 0)) (d.digits 10 n.natAbs) d.precision.isNone

/-- The text with small letters made big. -/
def upper (s : Bytes) : Bytes := s.map fun b => if 97 ≤ b && b ≤ 122 then b - 32 else b

/-- A natural number in the base of the directive's letter. -/
def natural (d : Directive) (n : Nat) : Bytes :=
  let fillable := d.precision.isNone
  if d.letter == 111 then
    let digits := d.digits 8 n
    let digits := if d.alternate && digits.head? != some 48 then 48 :: digits else digits
    d.number [] digits fillable
  else if d.letter == 120 || d.letter == 88 then
    let front := if d.alternate && n != 0 then ascii "0x" else []
    let result := d.number front (d.digits 16 n) fillable
    if d.letter == 88 then upper result else result
  else d.number [] (d.digits 10 n) fillable

/-- A real number in the notation of the directive's letter. -/
def real (d : Directive) (x : Float) : Bytes :=
  let negative := x.toBits >>> 63 == 1
  let magnitude := Float.abs x
  let precision := d.precision.getD 6
  if x.isNaN then { d with zeros := false }.number (d.sign negative) (ascii "nan") false
  else if x.isInf then { d with zeros := false }.number (d.sign negative) (ascii "inf") false
  else
    let letter := if d.letter < 97 then d.letter + 32 else d.letter
    let digits :=
      if letter == 102 then Decimal.positional magnitude precision
      else if letter == 101 then Decimal.scientific magnitude precision
      else Decimal.general magnitude precision d.alternate
    let result := d.number (d.sign negative) digits true
    if d.letter < 97 then upper result else result

end Directive
end WasmPackager
