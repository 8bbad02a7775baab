/-
# `Shell.Text.Regex` — forms of texts with choices and repetitions

An expression describes a set of texts.  The match that counts is the first one
in the text and of those that begin there the longest one.  Its length is found
by following all possibilities at once; what its groups stand for is then found
by trying the possibilities one after the other, longer repetitions first,
until one ends where the match ends.
-/
import WasmPackager.Shell.Pattern

namespace WasmPackager

/-- An expression. -/
inductive Regex
  | empty
  | byte (b : UInt8)
  /-- Any byte. -/
  | any
  | oneOf (excluded : Bool) (members : List Shell.Member)
  /-- Here the text begins, or ends. -/
  | atStart
  | atEnd
  /-- Here a line of the text begins, or ends. -/
  | lineStart
  | lineEnd
  /-- Here a word begins or ends, or does not. -/
  | border (isBorder : Bool)
  | wordStart
  | wordEnd
  | group (number : Nat) (inside : Regex)
  /-- What a group stands for, once more. -/
  | again (number : Nat)
  | sequence (first second : Regex)
  | choice (first second : Regex)
  | repeated (least : Nat) (most : Option Nat) (inside : Regex)

namespace Regex

/-! ## Matching -/

/-- The text that is looked at, and how. -/
structure Subject where
  text : Array UInt8
  /-- Letters in their big and small forms are the same. -/
  ignoreCase : Bool
  /-- The text does not really begin where it begins. -/
  continued : Bool

def small (b : UInt8) : UInt8 := if 65 ≤ b && b ≤ 90 then b + 32 else b

def big (b : UInt8) : UInt8 := if 97 ≤ b && b ≤ 122 then b - 32 else b

namespace Subject

/-- The byte at a place belongs to a word. -/
def isWordAt (s : Subject) (i : Nat) : Bool := (s.text[i]?).any isWord

def startsWord (s : Subject) (i : Nat) : Bool :=
  s.isWordAt i && !(0 < i && s.isWordAt (i - 1))

def endsWord (s : Subject) (i : Nat) : Bool :=
  0 < i && s.isWordAt (i - 1) && !s.isWordAt i

def holdsAt (s : Subject) (p : UInt8 → Bool) (i : Nat) : Bool :=
  match s.text[i]? with
  | some b => if s.ignoreCase then p (small b) || p (big b) else p b
  | none => false

/-- The pieces of the text at two places have the same bytes. -/
def sameAt (s : Subject) (i j length : Nat) : Bool :=
  (List.range length).all fun k =>
    match s.text[i + k]?, s.text[j + k]? with
    | some a, some b => if s.ignoreCase then small a == small b else a == b
    | _, _ => false

end Subject

/-- A byte is one of the members, or none of them. -/
def isMember (excluded : Bool) (members : List Shell.Member) (b : UInt8) : Bool :=
  members.any (Shell.Pattern.Member.holds b) != excluded

/-- The condition that an expression without length puts on a place. -/
def condition? (s : Subject) (i : Nat) : Regex → Option Bool
  | empty => some true
  | atStart => some (i == 0 && !s.continued)
  | atEnd => some (i == s.text.size)
  | lineStart => some ((i == 0 && !s.continued) || (0 < i && s.text[i - 1]? == some 10))
  | lineEnd => some (i == s.text.size || s.text[i]? == some 10)
  | border isBorder => some ((s.startsWord i || s.endsWord i) == isBorder)
  | wordStart => some (s.startsWord i)
  | wordEnd => some (s.endsWord i)
  | _ => none

/-- The class of bytes that an expression of length one describes. -/
def class? : Regex → Option (UInt8 → Bool)
  | byte b => some (· == b)
  | any => some fun _ => true
  | oneOf excluded members => some (isMember excluded members)
  | _ => none

/-- The places without those that occur again. -/
def distinct (places : List Nat) : List Nat :=
  places.foldl (fun kept i => if kept.contains i then kept else i :: kept) [] |>.reverse

/-- The places behind a repetition: those reached in at least `least` rounds and at most
`most`.  A round that reaches nothing new is the last one. -/
def repeatEnds (ends : List Nat → List Nat) : (fuel : Nat) → (least : Nat) → (most : Option Nat) →
    (found here : List Nat) → List Nat
  | 0, _, _, found, _ => found
  | fuel + 1, least + 1, most, found, here =>
    repeatEnds ends fuel least (most.map (· - 1)) found (distinct (ends here))
  | fuel + 1, 0, most, found, here =>
    let new := here.filter (!found.contains ·)
    if new.isEmpty || most == some 0 then found ++ new
    else repeatEnds ends fuel 0 (most.map (· - 1)) (found ++ new) (distinct (ends new))

/-- All the places where the expression can end that begins at one of the places. -/
def ends (s : Subject) : Regex → List Nat → List Nat
  | group _ r, places => ends s r places
  | again _, places => places
  | sequence a b, places => ends s b (ends s a places)
  | choice a b, places => distinct (ends s a places ++ ends s b places)
  | repeated least most r, places =>
    distinct (repeatEnds (ends s r) (s.text.size + least + 2) least most [] places)
  | r, places =>
    match class? r with
    | some p => (places.filter (s.holdsAt p)).map (· + 1)
    | none => places.filter fun i => (condition? s i r).getD false

/-- What groups stand for: their places in the text. -/
abbrev Groups := List (Nat × Nat × Nat)

/-- Goes on behind rounds of a repetition, as many as possible first. -/
def repeatFrom (one : Nat → Groups → (Nat → Groups → Option (Nat × Groups)) →
      Option (Nat × Groups)) :
    (fuel : Nat) → (least : Nat) → (most : Option Nat) → Nat → Groups →
    (Nat → Groups → Option (Nat × Groups)) → Option (Nat × Groups)
  | 0, _, _, i, g, next => next i g
  | fuel + 1, least, most, i, g, next =>
    let more : Option (Nat × Groups) :=
      if most == some 0 then none
      else one i g fun j g =>
        if j == i && least == 0 then none
        else repeatFrom one fuel (least - 1) (most.map (· - 1)) j g next
    match more with
    | some found => some found
    | none => if least == 0 then next i g else none

/-- Goes on behind the expression at a place, with each way to match it in turn. -/
def tryFrom (s : Subject) : Regex → Nat → Groups →
    (Nat → Groups → Option (Nat × Groups)) → Option (Nat × Groups)
  | group n r, i, g, next =>
    tryFrom s r i g fun j g => next j ((n, i, j) :: g.filter (·.1 != n))
  | again n, i, g, next =>
    match g.lookup n with
    | some (a, b) => if s.sameAt a i (b - a) then next (i + (b - a)) g else none
    | none => none
  | sequence a b, i, g, next => tryFrom s a i g fun j g => tryFrom s b j g next
  | choice a b, i, g, next =>
    match tryFrom s a i g next with
    | some found => some found
    | none => tryFrom s b i g next
  | repeated least most r, i, g, next =>
    repeatFrom (tryFrom s r) (s.text.size + least + 2) least most i g next
  | r, i, g, next =>
    match class? r with
    | some p => if s.holdsAt p i then next (i + 1) g else none
    | none => if (condition? s i r).getD false then next i g else none

/-- The expression refers to what a group stands for. -/
def refersBack : Regex → Bool
  | again _ => true
  | group _ r | repeated _ _ r => refersBack r
  | sequence a b | choice a b => refersBack a || refersBack b
  | empty | byte _ | any | oneOf .. | atStart | atEnd | lineStart | lineEnd | border _ | wordStart
  | wordEnd => false

/-- The expression in which the ends of the text are those of its lines. -/
def perLine : Regex → Regex
  | atStart => lineStart
  | atEnd => lineEnd
  | group n r => group n (perLine r)
  | sequence a b => sequence (perLine a) (perLine b)
  | choice a b => choice (perLine a) (perLine b)
  | repeated least most r => repeated least most (perLine r)
  | r => r

/-- A match: where it begins and ends, and what the groups stand for. -/
structure Match where
  first : Nat
  last : Nat
  groups : Groups

/-- The longest match that begins at a place. -/
def matchAt? (r : Regex) (s : Subject) (i : Nat) : Option Match :=
  if refersBack r then
    (tryFrom s r i [] fun j g => some (j, g)).map fun (j, g) => ⟨i, j, g⟩
  else
    match ends s r [i] with
    | [] => none
    | j :: others =>
      let last := others.foldl max j
      let groups := match tryFrom s r i [] fun j g => if j == last then some (j, g) else none with
        | some (_, g) => g
        | none => []
      some ⟨i, last, groups⟩

def find? (r : Regex) (s : Subject) : (fuel : Nat) → (from_ : Nat) → Option Match
  | 0, _ => none
  | fuel + 1, i =>
    match matchAt? r s i with
    | some m => some m
    | none => if i < s.text.size then find? r s fuel (i + 1) else none

def search (r : Regex) (s : Subject) (from_ : Nat) : Option Match :=
  find? r s (s.text.size + 1 - from_) from_

def occurs (r : Regex) (s : Subject) : Bool := (search r s 0).isSome

/-- The bytes of a group, of which the one without a number is the match itself. -/
def Match.part (m : Match) (s : Subject) (n : Nat) : Bytes :=
  let (a, b) := if n = 0 then (m.first, m.last) else (m.groups.lookup n).getD (0, 0)
  (s.text.extract a b).toList

/-! ## Reading -/

/-- Why a text is not an expression. -/
inductive Problem
  | unmatchedOpening
  | unmatchedClosing
  | unmatchedBracket
  | trailingBackslash
  | badRepetition
  | badReference
  | unmatchedBrace
  | badBounds
  | tooBig
  | badClass
  | bareClass
  | badRange
deriving DecidableEq

def Problem.message : Problem → Bytes
  | unmatchedOpening => ascii "Unmatched ( or \\("
  | unmatchedClosing => ascii "Unmatched ) or \\)"
  | unmatchedBracket => ascii "Unmatched [, [^, [:, [., or [="
  | trailingBackslash => ascii "Trailing backslash"
  | badRepetition => ascii "Invalid preceding regular expression"
  | badReference => ascii "Invalid back reference"
  | unmatchedBrace => ascii r"Unmatched \{"
  | badBounds => ascii r"Invalid content of \{\}"
  | tooBig => ascii "Regular expression too big"
  | badClass => ascii "Invalid character class name"
  | bareClass => ascii "character class syntax is [[:space:]], not [:space:]"
  | badRange => ascii "Invalid range end"

/-- How an expression is written. -/
structure Writing where
  /-- Operators are written without a backslash. -/
  extended : Bool
  /-- A repetition has to have something in front of it, and its braces have to be closed. -/
  strict : Bool

/-- A token of an expression. -/
inductive Token
  | literal (b : UInt8)
  | plain (r : Regex)
  | opening
  | closing
  | bar
  /-- A repetition, which a text in front of it repeats. -/
  | repetition (least : Nat) (most : Option Nat) (written : Bytes)
  | caret
  | dollar

/-- A name between colons that is not that of a class. -/
def hasBadClass : (fuel : Nat) → Bytes → Bool
  | 0, _ => false
  | fuel + 1, text =>
    match text with
    | [] => false
    | 91 :: 58 :: rest =>
      let name := rest.takeWhile fun b => b != 58 && b != 93
      if [58, 93].isPrefixOf (rest.drop name.length) &&
          !Shell.Pattern.groups.any (fun (known, _) => ascii known == name) then true
      else hasBadClass fuel rest
    | _ :: rest => hasBadClass fuel rest

/-- A set in brackets, behind the opening one. -/
def bracket (text : Bytes) : Except Problem (Regex × Bytes) :=
  let (excluded, inside) : Bool × Bytes := match text with
    | 94 :: rest => (true, rest)
    | rest => (false, rest)
  match Shell.Pattern.members (inside.length + 1) true [] (inside.map (false, ·)) with
  | some (members, behind) =>
    let body := inside.take (inside.length - behind.length - 1)
    if 1 < body.length && body.head? == some 58 && body.getLast? == some 58 then
      .error .bareClass
    else if hasBadClass (body.length + 1) (body ++ [93]) then .error .badClass
    else if members.any fun m => match m with
        | .range low high => high < low
        | .group _ => false
      then .error .badRange
    else .ok (.oneOf excluded members, behind.map Prod.snd)
  | none => .error .unmatchedBracket

def mostRepetitions : Nat := 32767

/-- The bounds of a repetition make sense. -/
def checkBounds (least : Nat) (most : Option Nat) : Except Problem Unit :=
  if most.any (· < least) then .error .badBounds
  else if mostRepetitions < least || most.any (mostRepetitions < ·) then .error .tooBig
  else .ok ()

/-- The bounds of a repetition in braces, behind the opening one. -/
def bounds (extended : Bool) (text : Bytes) : Option (Nat × Option Nat × Bytes) := do
  let isDigit (b : UInt8) : Bool := 48 ≤ b && b ≤ 57
  let low := text.takeWhile isDigit
  let rest := text.drop low.length
  let least := (Bytes.toNat? low).getD 0
  let (most, rest) : Option Nat × Bytes ← match rest with
    | 44 :: behind =>
      let high := behind.takeWhile isDigit
      some (Bytes.toNat? high, behind.drop high.length)
    | rest => if low.isEmpty then none else some (some least, rest)
  match extended, rest with
  | true, 125 :: rest => some (least, most, rest)
  | false, 92 :: 125 :: rest => some (least, most, rest)
  | _, _ => none

/-- What a letter behind a backslash stands for in both notations. -/
def escaped? (b : UInt8) : Option Regex :=
  let word : List Shell.Member := [.group isWord]
  let space : List Shell.Member := [.group isSpace]
  if b == 119 then some (.oneOf false word)
  else if b == 87 then some (.oneOf true word)
  else if b == 115 then some (.oneOf false space)
  else if b == 83 then some (.oneOf true space)
  else if b == 98 then some (.border true)
  else if b == 66 then some (.border false)
  else if b == 60 then some .wordStart
  else if b == 62 then some .wordEnd
  else if b == 96 then some .atStart
  else if b == 39 then some .atEnd
  else if 49 ≤ b && b ≤ 57 then some (.again (b.toNat - 48))
  else none

/-- The operator that a byte is where operators are written plainly. -/
def operator? (b : UInt8) : Option Token :=
  if b == 40 then some .opening
  else if b == 41 then some .closing
  else if b == 124 then some .bar
  else if b == 43 then some (.repetition 1 none [43])
  else if b == 63 then some (.repetition 0 (some 1) [63])
  else none

def tokens (w : Writing) : (fuel : Nat) → (reversed : List Token) → Bytes →
    Except Problem (List Token)
  | 0, reversed, _ => .ok reversed.reverse
  | fuel + 1, reversed, text => do
    match text with
    | [] => return reversed.reverse
    | [92] => throw .trailingBackslash
    | 92 :: b :: rest =>
      if b == 123 && !w.extended then
        match bounds false rest with
        | some (least, most, behind) =>
          checkBounds least most
          tokens w fuel (.repetition least most (text.take (text.length - behind.length))
            :: reversed) behind
        | none => throw .unmatchedBrace
      else
        match if w.extended then none else operator? b with
        | some t => tokens w fuel (t :: reversed) rest
        | none =>
          match escaped? b with
          | some r => tokens w fuel (.plain r :: reversed) rest
          | none => tokens w fuel (.plain (.byte b) :: reversed) rest
    | 91 :: rest =>
      let (r, rest) ← bracket rest
      tokens w fuel (.plain r :: reversed) rest
    | 46 :: rest => tokens w fuel (.plain .any :: reversed) rest
    | 42 :: rest => tokens w fuel (.repetition 0 none [42] :: reversed) rest
    | 94 :: rest => tokens w fuel (.caret :: reversed) rest
    | 36 :: rest => tokens w fuel (.dollar :: reversed) rest
    | b :: rest =>
      let bracesRead := if b == 123 && w.extended then bounds true rest else none
      match bracesRead with
      | some (least, most, behind) =>
        checkBounds least most
        tokens w fuel (.repetition least most (text.take (text.length - behind.length))
          :: reversed) behind
      | none =>
        if b == 123 && w.extended && w.strict then throw .unmatchedBrace
        match if w.extended then operator? b else none with
        | some t => tokens w fuel (t :: reversed) rest
        | none => tokens w fuel (.literal b :: reversed) rest

/-- An expression that was read, the tokens behind it, and the number of groups so far. -/
abbrev Parsed := Except Problem (Regex × List Token × Nat)

/-- What the recursion reads. -/
inductive Level
  | choice
  /-- A sequence, of which something was read. -/
  | sequence (first : Bool)

def ofBytes (s : Bytes) : Regex := s.foldr (fun b r => .sequence (.byte b) r) .empty

/-- The atom followed by the repetitions that come next. -/
def withRepetitions (r : Regex) : List Token → Regex × List Token
  | .repetition least most _ :: rest => withRepetitions (.repeated least most r) rest
  | ts => (r, ts)

/-- A caret means the beginning at the beginning of a sequence, and everywhere where operators
are written plainly; a dollar means the end at the end. -/
def readWith (w : Writing) (read : Level → (depth groups : Nat) → List Token → Parsed) :
    Level → (depth groups : Nat) → List Token → Parsed
  | .choice, depth, groups, ts => do
    let (a, ts, groups) ← read (.sequence true) depth groups ts
    match ts with
    | .bar :: ts => do
      let (b, ts, groups) ← read .choice depth groups ts
      return (.choice a b, ts, groups)
    | _ => return (a, ts, groups)
  | .sequence first, depth, groups, ts => do
    let goOn (r : Regex) (groups : Nat) (ts : List Token) : Parsed := do
      let (r, ts) := withRepetitions r ts
      let (more, ts, groups) ← read (.sequence false) depth groups ts
      return (.sequence r more, ts, groups)
    match ts with
    | [] => return (.empty, [], groups)
    | .bar :: _ => return (.empty, ts, groups)
    | .closing :: rest =>
      if 0 < depth then return (.empty, ts, groups)
      else if w.extended && !w.strict then goOn (.byte 41) groups rest
      else throw .unmatchedClosing
    | .opening :: rest => do
      let number := groups + 1
      let (inside, rest, groups) ← read .choice (depth + 1) number rest
      match rest with
      | .closing :: rest => goOn (.group number inside) groups rest
      | _ => throw .unmatchedOpening
    | .caret :: rest =>
      if w.extended then goOn .atStart groups rest
      else if first then do
        match rest with
        | .repetition _ _ written :: rest => goOn (.sequence .atStart (ofBytes written)) groups rest
        | _ =>
          let (more, ts, groups) ← read (.sequence false) depth groups rest
          return (.sequence .atStart more, ts, groups)
      else goOn (.byte 94) groups rest
    | .dollar :: rest =>
      let last := match rest with
        | [] | .closing :: _ | .bar :: _ => true
        | _ => false
      if w.extended || last then goOn .atEnd groups rest else goOn (.byte 36) groups rest
    | .repetition _ _ written :: rest =>
      if first && w.strict && (w.extended || written.head? == some 92) then throw .badRepetition
      else if w.extended && first then do
        read (.sequence true) depth groups rest
      else goOn (ofBytes written) groups rest
    | .plain (.again n) :: rest =>
      if groups < n then throw .badReference else goOn (.again n) groups rest
    | .plain r :: rest => goOn r groups rest
    | .literal b :: rest => goOn (.byte b) groups rest

/-- Reads an expression; every token needs a few units of fuel. -/
def readLevel (w : Writing) : (fuel : Nat) → Level → (depth groups : Nat) → List Token → Parsed
  | 0, _, _, groups, ts => .ok (.empty, ts, groups)
  | fuel + 1, level, depth, groups, ts =>
    readWith w (readLevel w fuel) level depth groups ts

def ofText (w : Writing) (text : Bytes) : Except Problem Regex := do
  let ts ← tokens w (text.length + 1) [] text
  let (r, _, _) ← readLevel w (3 * ts.length + 8) .choice 0 0 ts
  return r

end Regex
end WasmPackager
