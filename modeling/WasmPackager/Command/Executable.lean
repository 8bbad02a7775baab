/-
# `Command.Executable` — what the system makes of an executable file

A file that may be executed is a script that names its interpreter in the first
line, an image of one of the system's own programs, or nothing the system
knows.  The interpreter's name must not be cut off by the end of what the
system reads; what is cut off of its argument does not matter.
-/
import WasmPackager.FileSystem.Inode

namespace WasmPackager

inductive Format
  /-- To be read by an interpreter, which may be given one argument before the file. -/
  | script (interpreter : Bytes) (argument : Option Bytes)
  | program (name : Name)
  | unknown
deriving DecidableEq

namespace Format

/-! ## Images of programs -/

/-- How the image of a program begins. -/
def imageHeader : Bytes :=
  [0x7f, 0x45, 0x4c, 0x46, 2, 1, 1, 0, 0, 0, 0, 0, 0, 0, 0, 0, 3, 0, 62, 0]

/-- The contents of the file of one of the system's programs. -/
def image (name : Name) : Bytes := imageHeader ++ name

/-! ## Scripts -/

/-- How many bytes of a file the system looks at. -/
def headerSize : Nat := 256

/-- Separates an interpreter from its argument. -/
def isBlank (b : UInt8) : Bool := b == 32 || b == 9

/-- The interpreter's name goes on. -/
def inName (b : UInt8) : Bool := !isBlank b && b != 0

/-- The bytes behind the mark of a script up to the end of its first line.  If that is not
among the bytes read, the line is what was read, provided that the interpreter's name ends in
it; behind a shorter file there are zero bytes. -/
def scriptLine? (text : Bytes) : Option Bytes :=
  if text.contains 10 then some (text.takeWhile (· != 10))
  else
    let padded := text ++ List.replicate (headerSize - 2 - text.length) 0
    let name := padded.dropWhile isBlank
    if name.all inName then none else some (padded.take (headerSize - 3))

def trimmed (line : Bytes) : Bytes := (line.reverse.dropWhile isBlank).reverse

/-- The interpreter and its argument in the first line of a script. -/
def ofLine (line : Bytes) : Format :=
  let line := (trimmed line).dropWhile isBlank
  if line.isEmpty then .unknown
  else
    let rest := line.dropWhile inName
    let argument : Option Bytes :=
      match rest with
      | [] | 0 :: _ => none
      | _ => some ((rest.dropWhile isBlank).takeWhile (· != 0))
    .script (line.takeWhile inName) argument

def ofContents (contents : Contents) : Format :=
  match (contents.written ++ List.replicate contents.hole 0 |>.take headerSize) with
  | 35 :: 33 :: text =>
    match scriptLine? text with
    | some line => ofLine line
    | none => .unknown
  | _ =>
    if imageHeader.isPrefixOf contents.written then
      .program (contents.written.drop imageHeader.length)
    else .unknown

end Format
end WasmPackager
