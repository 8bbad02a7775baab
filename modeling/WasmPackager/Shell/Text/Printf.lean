/-
# `Shell.Text.Printf` — arguments written as a format says

A format is text with directives.  Each directive uses up an argument, and the
format is used again as long as there are arguments left; where there are none
any more, an empty text or zero is used.
-/
import WasmPackager.Shell.Text.Directive
import WasmPackager.Shell.Text.Escape

namespace WasmPackager.Printf

/-- Who writes: the shell itself, or a program of its own.  They complain differently. -/
inductive Style
  | shell
  | program
deriving DecidableEq

/-- What was written so far. -/
structure Progress where
  /-- The arguments that are left. -/
  arguments : List Bytes
  /-- The bytes written, the last one first. -/
  reversed : Bytes
  /-- The complaints about arguments, the last one first. -/
  complaints : List Bytes

/-- How writing ended. -/
inductive Ending
  | done
  /-- An argument said so. -/
  | stopped
  | mistake (message : Bytes)

/-! ## Numbers -/

/-- A number at the beginning of a text, in the base that its beginning tells. -/
structure Numeral where
  negative : Bool
  magnitude : Nat
  /-- What is behind it. -/
  rest : Bytes
  /-- There is no number. -/
  empty : Bool

/-- The number at the beginning of a text. -/
def numeral (text : Bytes) : Numeral :=
  let s := text.dropWhile isSpace
  let (negative, s) := match s with
    | 45 :: rest => (true, rest)
    | 43 :: rest => (false, rest)
    | s => (false, s)
  let inBase (base : Nat) (p : UInt8 → Bool) (s : Bytes) : Numeral :=
    let digits := s.takeWhile p
    if digits.isEmpty then ⟨false, 0, text, true⟩
    else ⟨negative, Escape.inBase base digits, s.drop digits.length, false⟩
  match s with
  | 48 :: x :: d :: rest =>
    if (x == 120 || x == 88) && Escape.isHexadecimal d then
      inBase 16 Escape.isHexadecimal (d :: rest)
    else inBase 8 Escape.isOctal s
  | 48 :: _ => inBase 8 Escape.isOctal s
  | _ => inBase 10 (fun b => 48 ≤ b && b ≤ 57) s

/-- The text in the quotes of a complaint. -/
def quoted (style : Style) (text : Bytes) : Bytes :=
  match style with
  | .shell => text
  | .program => 39 :: (text ++ [39])

/-- The complaint about an argument that is not, or not only, a number, or is too large. -/
def complaint? (style : Style) (text : Bytes) (n : Numeral) (tooLarge : Bool) : Option Bytes :=
  let q := quoted style text
  if text.isEmpty then none
  else if n.empty then
    some (q ++ ascii (match style with
      | .shell => ": expected numeric value"
      | .program => ": expected a numeric value"))
  else if !n.rest.isEmpty then
    some (q ++ ascii (match style with
      | .shell => ": not completely converted"
      | .program => ": value not completely converted"))
  else if tooLarge then some (q ++ ascii ": Numerical result out of range")
  else none

namespace Progress

def add (p : Progress) (bytes : Bytes) : Progress :=
  { p with reversed := bytes.reverse ++ p.reversed }

def next (p : Progress) : Option Bytes × Progress :=
  match p.arguments with
  | [] => (none, p)
  | a :: rest => (some a, { p with arguments := rest })

def complain (p : Progress) (message : Option Bytes) : Progress :=
  { p with complaints := message.toList ++ p.complaints }

/-- The next argument as a whole number: with a sign, or the number of 64 bits that stands for
it.  A quote in front of a letter makes a number of the letter. -/
def nextInteger (p : Progress) (style : Style) (signed : Bool) : Int × Progress :=
  match p.next with
  | (none, p) => (0, p)
  | (some (39 :: b :: _), p) | (some (34 :: b :: _), p) => (b.toNat, p)
  | (some text, p) =>
    let n := numeral text
    let magnitude : Int := n.magnitude
    let value : Int := if n.negative then -magnitude else magnitude
    let (value, tooLarge) : Int × Bool :=
      if signed then
        if Int.pow 2 63 ≤ value then (Int.pow 2 63 - 1, true)
        else if value < -Int.pow 2 63 then (-Int.pow 2 63, true)
        else (value, false)
      else if Int.pow 2 64 ≤ magnitude then (Int.pow 2 64 - 1, true)
      else (value % Int.pow 2 64, false)
    (value, p.complain (complaint? style text n tooLarge))

def nextReal (p : Progress) (style : Style) : Float × Progress :=
  match p.next with
  | (none, p) => (0, p)
  | (some (39 :: b :: _), p) | (some (34 :: b :: _), p) => (b.toNat.toFloat, p)
  | (some text, p) =>
    match Decimal.read? (text.dropWhile isSpace) with
    | some (x, rest) => (x, p.complain (complaint? style text ⟨false, 0, rest, false⟩ false))
    | none => (0, p.complain (complaint? style text ⟨false, 0, text, true⟩ false))

end Progress

/-! ## Directives -/

/-- A width or precision, which can be an argument. -/
def takeAmount (style : Style) (p : Progress) (text : Bytes) : Option Int × Progress × Bytes :=
  match text with
  | 42 :: rest =>
    let (n, p) := p.nextInteger style true
    (some n, p, rest)
  | text =>
    let digits := text.takeWhile fun b => 48 ≤ b && b ≤ 57
    (if digits.isEmpty then none else some (Escape.inBase 10 digits), p, text.drop digits.length)

def letters : Bytes := ascii "bcsdiouxXaAeEfFgG"

/-- Fills the gap of a directive; tells whether the argument ends everything. -/
def fill (style : Style) (d : Directive) (p : Progress) : Progress × Bool :=
  let letter := d.letter
  if letter == 98 then
    let (a, p) := p.next
    let (bytes, stops) := Escape.expand (style == .program) (a.getD [])
    (p.add (d.text bytes), stops)
  else if letter == 115 then
    let (a, p) := p.next
    (p.add (d.text (a.getD [])), false)
  else if letter == 99 then
    let (a, p) := p.next
    let b : Bytes := match a with
      | some (b :: _) => [b]
      | _ => match style with
        | .shell => [0]
        | .program => []
    (p.add (d.pad b), false)
  else if letter == 100 || letter == 105 then
    let (n, p) := p.nextInteger style true
    (p.add (d.integer n), false)
  else if letter == 111 || letter == 117 || letter == 120 || letter == 88 then
    let (n, p) := p.nextInteger style false
    (p.add (d.natural n.toNat), false)
  else
    let (x, p) := p.nextReal style
    (p.add (d.real x), false)

/-- The complaint about a directive that is none, of which the given text was read. -/
def wrongDirective (style : Style) (text : Bytes) (missing : Bool) : Bytes :=
  match style, missing with
  | .shell, true => ascii "missing format character"
  | .shell, false => text ++ ascii ": invalid directive"
  | .program, _ => text ++ ascii ": invalid conversion specification"

def once (style : Style) : (fuel : Nat) → Bytes → Progress → Progress × Ending
  | 0, _, p => (p, .done)
  | fuel + 1, format, p =>
    match format with
    | [] => (p, .done)
    | 92 :: rest =>
      match style, rest with
      | .program, 99 :: _ => (p, .stopped)
      | _, _ =>
        let (b, rest) := Escape.ofFormat (style == .program) rest
        once style fuel rest (p.add [b])
    | 37 :: 37 :: rest => once style fuel rest (p.add [37])
    | 37 :: start =>
      let (d, rest) := Directive.plain.takeFlags start
      let (width, p, rest) := takeAmount style p rest
      let d := match width with
        | some n => d.withWidth n
        | none => d
      let (d, p, rest) : Directive × Progress × Bytes := match rest with
        | 46 :: rest =>
          let (precision, p, rest) := takeAmount style p rest
          let n := precision.getD 0
          ({ d with precision := if n < 0 then none else some n.toNat }, p, rest)
        | rest => (d, p, rest)
      let rest := match style with
        | .shell => rest
        | .program => rest.dropWhile fun b => [104, 106, 108, 76, 116, 122].contains b
      match rest with
      | [] => (p, .mistake (wrongDirective style (37 :: start) true))
      | letter :: rest =>
        if letters.contains letter then
          match fill style { d with letter } p with
          | (p, true) => (p, .stopped)
          | (p, false) => once style fuel rest p
        else
          (p, .mistake (wrongDirective style (37 :: start.take (start.length - rest.length)) false))
    | b :: rest => once style fuel rest (p.add [b])

/-- Writes the format as often as there are arguments. -/
def often (style : Style) (format : Bytes) : (fuel : Nat) → Progress → Progress × Ending
  | 0, p => (p, .done)
  | fuel + 1, p =>
    match once style (format.length + 1) format p with
    | (after, .done) =>
      if after.arguments.isEmpty || after.arguments.length == p.arguments.length then (after, .done)
      else often style format fuel after
    | result => result

/-- Writes arguments as a format says: what is written, the complaints, and how it ended. -/
def write (style : Style) (format : Bytes) (arguments : List Bytes) :
    Bytes × List Bytes × Ending :=
  let (p, ending) := often style format (arguments.length + 1) ⟨arguments, [], []⟩
  (p.reversed.reverse, p.complaints.reverse, ending)

end WasmPackager.Printf
