/-
# `Project.Manifest` — the file `screeps.project`

A manifest is read line by line.  Blanks at the ends of a line do not count;
what is then empty or begins with `#` is passed over.  Every other line is a
directive, blanks, and a value: `cargo` with any value, or `release` with a
switch.  Each directive may stand once.  The first line that is none of this
is reported with its number, and nothing behind it is looked at.

Line numbers have no bound here.  Where they are kept in 32 bits with a sign,
that is right of manifests of at most `lineLimit` lines.
-/
import WasmPackager.Project.Config
import WasmPackager.Report.Failure

namespace WasmPackager.Manifest

/-- Separates a directive from its value. -/
def isBlank (b : UInt8) : Bool := b == 32 || b == 9

/-- Does not count at the ends of a line. -/
def isMargin (b : UInt8) : Bool := isBlank b || b == 13

/-- How far the reading of a manifest has come. -/
structure Progress where
  config : Config
  /-- A `cargo` line has been read. -/
  hasCargo : Bool
  /-- A `release` line has been read. -/
  hasRelease : Bool
deriving DecidableEq

def Progress.start (config : Config) : Progress := ⟨config, false, false⟩

/-- The position of a switch: `on`, `true`, `yes`, or `off`, `false`, `no`. -/
def switch? (value : Bytes) : Option Bool :=
  if [ascii "on", ascii "true", ascii "yes"].contains value then some true
  else if [ascii "off", ascii "false", ascii "no"].contains value then some false
  else none

/-- Takes a directive with its value in. -/
def apply (p : Progress) (directive value : Bytes) : Except LineFault Progress :=
  if directive == ascii "cargo" then
    if p.hasCargo then .error (.duplicate directive)
    else .ok { p with config := { p.config with cargo := value }, hasCargo := true }
  else if directive == ascii "release" then
    if p.hasRelease then .error (.duplicate directive)
    else
      match switch? value with
      | some release => .ok { p with config := { p.config with release }, hasRelease := true }
      | none => .error (.notSwitch value)
  else .error (.unknown directive)

def readLine (p : Progress) (line : Bytes) : Except LineFault Progress :=
  let line := Bytes.strip isMargin line
  if line.isEmpty || line.head? == some 35 then .ok p
  else
    let directive := line.takeWhile (!isBlank ·)
    let value := (line.dropWhile (!isBlank ·)).dropWhile isBlank
    if value.isEmpty then .error (.valueMissing line) else apply p directive value

/-- Reads lines, of which the first has the given number.  A fault comes with the number of
its line. -/
def readLines : (number : Nat) → Progress → List Bytes → Except (Nat × LineFault) Progress
  | _, p, [] => .ok p
  | number, p, line :: rest =>
    match readLine p line with
    | .ok p => readLines (number + 1) p rest
    | .error fault => .error (number, fault)

/-- The greatest line number that 32 bits with a sign have room for. -/
def lineLimit : Nat := Nat.pow 2 31 - 1

/-- The configuration a manifest's text makes of a given one; the path is for messages. -/
def parse (path text : Bytes) (base : Config) : Except Failure Config :=
  match readLines 1 (.start base) (Bytes.splitOn 10 text) with
  | .ok p => .ok p.config
  | .error (number, fault) => .error (.manifestLine path number fault)

end WasmPackager.Manifest
