/-
# `Shell.Pattern` — forms that texts can have

A pattern is written as text in which some bytes are quoted.  An unquoted `*`
stands for any text, `?` for any byte and a pair of brackets for one byte of
those within; everything else stands for itself.
-/
import WasmPackager.Shell.Script

namespace WasmPackager.Shell

/-- A byte of a pattern, and whether it is quoted. -/
abbrev Letter := Bool × UInt8

/-- A member of a set of bytes. -/
inductive Member
  | range (low high : UInt8)
  | group (holds : UInt8 → Bool)

/-- What a piece of a pattern stands for. -/
inductive Form
  | byte (b : UInt8)
  | any
  | many
  | oneOf (excluded : Bool) (members : List Member)

namespace Pattern

/-! ## Sets of bytes -/

def between (low high b : UInt8) : Bool := low ≤ b && b ≤ high

def groups : List (String × (UInt8 → Bool)) :=
  let digit := between 48 57
  let upper := between 65 90
  let lower := between 97 122
  let alpha (b : UInt8) : Bool := upper b || lower b
  let alnum (b : UInt8) : Bool := alpha b || digit b
  [("alnum", alnum), ("alpha", alpha), ("blank", fun b => b == 32 || b == 9),
   ("cntrl", fun b => b < 32 || b == 127), ("digit", digit), ("graph", between 33 126),
   ("lower", lower), ("print", between 32 126),
   ("punct", fun b => between 33 126 b && !alnum b), ("space", isSpace), ("upper", upper),
   ("xdigit", fun b => digit b || between 65 70 b || between 97 102 b)]

/-- The named set at the beginning of a text behind an opening bracket, and the text behind it. -/
def group? (letters : List Letter) : Option (Member × List Letter) :=
  groups.findSome? fun (name, holds) =>
    let written := ascii (":" ++ name ++ ":]")
    if written.isPrefixOf (letters.map Prod.snd) then
      some (.group holds, letters.drop written.length)
    else none

/-- The members of a set up to the bracket that closes it, and what is behind that.  A bracket
that comes first is a member. -/
def members : (fuel : Nat) → (first : Bool) → (reversed : List Member) → List Letter →
    Option (List Member × List Letter)
  | 0, _, _, _ => none
  | fuel + 1, first, reversed, letters =>
    match letters with
    | [] => none
    | (quoted, b) :: rest =>
      if b == 93 && !quoted && !first then some (reversed.reverse, rest)
      else
        match if b == 91 && !quoted then group? rest else none with
        | some (member, rest) => members fuel false (member :: reversed) rest
        | none =>
          match rest with
          | (false, 45) :: (closing, high) :: behind =>
            if high == 93 && !closing then members fuel false (.range b b :: reversed) rest
            else members fuel false (.range b high :: reversed) behind
          | _ => members fuel false (.range b b :: reversed) rest

/-- The letters behind those that a backslash protects: the backslash goes and what it protects
is quoted. -/
def protect : List Letter → List Letter
  | (false, 92) :: (_, b) :: rest => (true, b) :: protect rest
  | letter :: rest => letter :: protect rest
  | [] => []

def formsOf : (fuel : Nat) → List Letter → List Form
  | 0, _ => []
  | _ + 1, [] => []
  | fuel + 1, (true, b) :: rest => .byte b :: formsOf fuel rest
  | fuel + 1, (false, b) :: rest =>
    if b == 42 then .many :: formsOf fuel rest
    else if b == 63 then .any :: formsOf fuel rest
    else if b == 91 then
      let (excluded, inside) := match rest with
        | (false, 33) :: inside => (true, inside)
        | inside => (false, inside)
      match members (inside.length + 1) true [] inside with
      | some (found, behind) => .oneOf excluded found :: formsOf fuel behind
      | none => .byte b :: formsOf fuel rest
    else .byte b :: formsOf fuel rest

end Pattern

/-- A pattern: one form behind the other. -/
abbrev Pattern := List Form

namespace Pattern

def ofLetters (letters : List Letter) : Pattern :=
  let letters := protect letters
  formsOf (letters.length + 1) letters

/-! ## Matching -/

def Member.holds (b : UInt8) : Member → Bool
  | .range low high => between low high b
  | .group holds => holds b

/-- `rest` accepts the text or what is behind one of its beginnings. -/
def behindSome (rest : Bytes → Bool) : Bytes → Bool
  | [] => rest []
  | b :: s => rest (b :: s) || behindSome rest s

/-- The text has the form of the pattern. -/
def accepts : Pattern → Bytes → Bool
  | [], s => s.isEmpty
  | .many :: rest, s => behindSome (accepts rest) s
  | .byte b :: rest, c :: s => b == c && accepts rest s
  | .any :: rest, _ :: s => accepts rest s
  | .oneOf excluded members :: rest, c :: s =>
    members.any (Member.holds c) != excluded && accepts rest s
  | _ :: _, [] => false

/-- How much of the text the pattern takes from its beginning: the shortest or longest of the
beginnings that have its form. -/
def beginning? (p : Pattern) (longest : Bool) (s : Bytes) : Option Nat :=
  let lengths := List.range (s.length + 1)
  (if longest then lengths.reverse else lengths).find? fun n => p.accepts (s.take n)

/-- How much of the text is left in front of an end that has the pattern's form. -/
def ending? (p : Pattern) (longest : Bool) (s : Bytes) : Option Nat :=
  let lengths := List.range (s.length + 1)
  (if longest then lengths else lengths.reverse).find? fun n => p.accepts (s.drop n)

/-- Something in the letters is not just a byte. -/
def isSelective (letters : List Letter) : Bool :=
  letters.any fun (quoted, b) => !quoted && (b == 42 || b == 63 || b == 91)

/-- The text without the shortest or longest beginning or end of the pattern's form. -/
def trim (p : Pattern) (atEnd longest : Bool) (s : Bytes) : Bytes :=
  if atEnd then (p.ending? longest s).elim s s.take
  else (p.beginning? longest s).elim s s.drop

end Pattern
end WasmPackager.Shell
