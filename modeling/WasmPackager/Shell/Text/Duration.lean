/-
# `Shell.Text.Duration` — stretches of time as texts

A duration is a number, which can have a fraction, and perhaps a letter for a
unit longer than a second.  It is counted in the units of the clock.
-/
import WasmPackager.Shell.Machine.Basic

namespace WasmPackager.Duration

/-- The number of seconds in the unit of a letter. -/
def unit? (b : UInt8) : Option Nat :=
  if b == 115 then some 1
  else if b == 109 then some 60
  else if b == 104 then some 3600
  else if b == 100 then some 86400
  else none

def endless : Nat := 1000000000 * Machine.second

/-- The value of digits behind the point, in units of the clock. -/
def fractionOf (digits : Bytes) : Nat :=
  let nine := (digits ++ List.replicate 9 48).take 9
  (Bytes.toNat? nine).getD 0

def ofText? (text : Bytes) : Option Nat :=
  let isDigit (b : UInt8) : Bool := 48 ≤ b && b ≤ 57
  let text := match text with
    | 43 :: rest => rest
    | text => text
  if text == ascii "infinity" || text == ascii "inf" then some endless
  else
    let whole := text.takeWhile isDigit
    let rest := text.drop whole.length
    let (fraction, rest) : Bytes × Bytes := match rest with
      | 46 :: behind => (behind.takeWhile isDigit, behind.dropWhile isDigit)
      | rest => ([], rest)
    if whole.isEmpty && fraction.isEmpty then none
    else
      let amount := (Bytes.toNat? whole).getD 0 * Machine.second + fractionOf fraction
      match rest with
      | [] => some (min amount endless)
      | [b] => (unit? b).map fun seconds => min (amount * seconds) endless
      | _ => none

end WasmPackager.Duration
