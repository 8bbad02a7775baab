/-
# `Shell.Text.Permissions` — permissions as texts

Permissions are twelve bits: three each for the owner, the group and the
others, and three for special purposes.  A mode is written as a number in base
eight, or as a list of changes such as `u+x,go-w`.
-/
import WasmPackager.Shell.Text.Escape

namespace WasmPackager.Permissions

/-! ## Numbers -/

/-- The permissions in base eight with at least so many digits. -/
def octal (width mode : Nat) : Bytes :=
  let digits := (Nat.toDigits 8 mode).map fun c => UInt8.ofNat c.toNat
  List.replicate (width - digits.length) 48 ++ digits

/-- The permissions that digits in base eight denote. -/
def ofOctal? (text : Bytes) : Option Nat :=
  if text.isEmpty || !text.all Escape.isOctal then none
  else
    let mode := Escape.inBase 8 text
    if mode ≤ 0o7777 then some mode else none

/-! ## Changes -/

/-- What a change does with the bits it is about. -/
inductive Action
  | add
  | remove
  | replace
deriving DecidableEq

/-- What is granted. -/
inductive Grant
  | read
  | write
  | execute
  /-- Execution, if it is a directory or somebody can execute already. -/
  | executeIfUseful
  | special
  | sticky
  /-- What the owner, the group or the others have, told by the place of their bits. -/
  | sameAs (place : Nat)
deriving DecidableEq

/-- A change of permissions. -/
structure Change where
  /-- Whom it is about, by the places of their bits; nobody in particular if empty. -/
  whom : List Nat
  action : Action
  grants : List Grant
  /-- The bits as a number, if they were given as one. -/
  bits : Option Nat
deriving DecidableEq

def whom? (b : UInt8) : Option (List Nat) :=
  if b == 117 then some [6]
  else if b == 103 then some [3]
  else if b == 111 then some [0]
  else if b == 97 then some [6, 3, 0]
  else none

def action? (b : UInt8) : Option Action :=
  if b == 43 then some .add else if b == 45 then some .remove
  else if b == 61 then some .replace else none

def grant? (b : UInt8) : Option Grant :=
  if b == 114 then some .read
  else if b == 119 then some .write
  else if b == 120 then some .execute
  else if b == 88 then some .executeIfUseful
  else if b == 115 then some .special
  else if b == 116 then some .sticky
  else if b == 117 then some (.sameAs 6)
  else if b == 103 then some (.sameAs 3)
  else if b == 111 then some (.sameAs 0)
  else none

/-- The changes that actions on the same people make. -/
def actions (whom : List Nat) : (fuel : Nat) → Bytes → Option (List Change)
  | 0, _ => none
  | _ + 1, [] => some []
  | fuel + 1, b :: rest => do
    let action ← action? b
    if rest.head?.any Escape.isOctal then
      let digits := rest.takeWhile Escape.isOctal
      let bits ← ofOctal? digits
      let more ← actions whom fuel (rest.drop digits.length)
      return ⟨whom, action, [], some bits⟩ :: more
    else
      let letters := rest.takeWhile fun b => (grant? b).isSome
      let more ← actions whom fuel (rest.drop letters.length)
      return ⟨whom, action, letters.filterMap grant?, none⟩ :: more

/-- The changes that one piece of a list of changes makes. -/
def clause (text : Bytes) : Option (List Change) :=
  let people := text.takeWhile fun b => (whom? b).isSome
  let rest := text.drop people.length
  if rest.isEmpty then none
  else actions ((people.filterMap whom?).flatten) (rest.length + 1) rest

def ofSymbols? (text : Bytes) : Option (List Change) :=
  ((Bytes.splitOn 44 text).mapM clause).map List.flatten

/-- The bits of a grant for people at a place. -/
def Grant.bits (isDirectory : Bool) (mode place : Nat) : Grant → Nat
  | .read => 4 <<< place
  | .write => 2 <<< place
  | .execute => 1 <<< place
  | .executeIfUseful => if isDirectory || mode &&& 0o111 != 0 then 1 <<< place else 0
  | .special => if place = 6 then 0o4000 else if place = 3 then 0o2000 else 0
  | .sticky => 0o1000
  | .sameAs other => ((mode >>> other) &&& 7) <<< place

def without (mode bits : Nat) : Nat := mode - (mode &&& bits)

/-- Makes one change; where nobody is named, all are meant but for what the mask keeps from
them. -/
def Change.apply (c : Change) (isDirectory : Bool) (mask mode : Nat) : Nat :=
  match c.bits with
  | some bits =>
    match c.action with
    | .add => mode ||| bits
    | .remove => without mode bits
    | .replace => bits
  | none =>
    let places := if c.whom.isEmpty then [6, 3, 0] else c.whom
    let granted := places.foldl (fun bits place =>
      c.grants.foldl (fun bits g => bits ||| g.bits isDirectory mode place) bits) 0
    let granted := if c.whom.isEmpty then without granted mask else granted
    let theirs := places.foldl (fun bits place => bits ||| (7 <<< place)) 0
    let theirs := theirs ||| (if c.whom.isEmpty then 0o7000
      else c.whom.foldl (fun bits place =>
        bits ||| (if place = 6 then 0o4000 else if place = 3 then 0o2000 else 0o1000)) 0)
    let theirs := if isDirectory then theirs - (theirs &&& 0o6000) else theirs
    match c.action with
    | .add => mode ||| granted
    | .remove => without mode granted
    | .replace => without mode theirs ||| granted

def apply (changes : List Change) (isDirectory : Bool) (mask mode : Nat) : Nat :=
  changes.foldl (fun mode c => c.apply isDirectory mask mode) mode

/-! ## Letters -/

/-- The letters of the permissions that people at a place have. -/
def letters (mode place : Nat) : Bytes :=
  (if mode.testBit (place + 2) then [114] else []) ++
    (if mode.testBit (place + 1) then [119] else []) ++
    (if mode.testBit place then [120] else [])

/-- The permissions that a mask leaves, as a list of changes. -/
def symbolic (mask : Nat) : Bytes :=
  let mode := 511 - mask % 512
  ascii "u=" ++ letters mode 6 ++ ascii ",g=" ++ letters mode 3 ++ ascii ",o=" ++ letters mode 0

/-- The nine letters of the permissions of a file, with those for special purposes. -/
def columns (mode : Nat) : Bytes :=
  let one (place special : Nat) (marked unmarked : UInt8) : Bytes :=
    [if mode.testBit (place + 2) then 114 else 45, if mode.testBit (place + 1) then 119 else 45,
      if mode.testBit special then (if mode.testBit place then marked else unmarked)
      else if mode.testBit place then 120 else 45]
  one 6 11 115 83 ++ one 3 10 115 83 ++ one 0 9 116 84

end WasmPackager.Permissions
