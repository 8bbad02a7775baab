/-
# `Shell.Text.Quote` — names within messages

A name in a message is put into quotes, always or where it would be misread
otherwise, so that a shell would read the name back.
-/
import WasmPackager.Shell.Text.Permissions

namespace WasmPackager.Quote

def isPrintable (b : UInt8) : Bool := 32 ≤ b && b ≤ 126

/-- A shell reads something else than the byte. -/
def isSpecial (b : UInt8) : Bool := (ascii " !\"$&()*;<=>[\\^\x60|?'\t\n").contains b

def isPlain (s : Bytes) : Bool :=
  !s.isEmpty && s.all (fun b => isPrintable b && !isSpecial b) &&
    s.head? != some 35 && s.head? != some 126 && s != [123] && s != [125]

/-- The letter that stands for an unprintable byte behind a backslash. -/
def letter? (b : UInt8) : Option UInt8 :=
  if b == 7 then some 97
  else if b == 8 then some 98
  else if b == 12 then some 102
  else if b == 10 then some 110
  else if b == 13 then some 114
  else if b == 9 then some 116
  else if b == 11 then some 118
  else none

/-- An unprintable byte behind a backslash. -/
def escaped (b : UInt8) : Bytes :=
  match letter? b with
  | some c => [92, c]
  | none => 92 :: Permissions.octal 3 b.toNat

/-- The bytes between single quotes: a quote and an unprintable byte interrupt them. -/
def interrupted : (escaping : Bool) → Bytes → Bytes
  | escaping, [] => if escaping then [39, 39] else []
  | escaping, b :: rest =>
    if !isPrintable b then
      (if escaping then [] else [39, 36, 39]) ++ escaped b ++ interrupted true rest
    else
      (if escaping then [39, 39] else []) ++ (if b == 39 then [39, 92, 39, 39] else [b]) ++
        interrupted false rest

def always (s : Bytes) : Bytes :=
  let troublesome (b : UInt8) : Bool := !isPrintable b || (ascii "\"$\x60\\!").contains b
  if s.contains 39 && !s.any troublesome then 34 :: (s ++ [34])
  else
    match s.reverse with
    | last :: _ =>
      if isPrintable last then 39 :: (interrupted false s ++ [39])
      else 39 :: (interrupted false s).dropLast.dropLast ++ [39]
    | [] => [39, 39]

/-- The text, in quotes where they are needed. -/
def ifNeeded (s : Bytes) : Bytes := if isPlain s then s else always s

end WasmPackager.Quote
