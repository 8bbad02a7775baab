/-
# `Shell.Tools.Values` — programs that compute and print values

Texts, conditions, numbers and series of numbers; none of these programs
touches a file.
-/
import WasmPackager.Shell.Tools.Basic
import WasmPackager.Shell.Builtins.Condition
import WasmPackager.Shell.Builtins.Printing
import WasmPackager.Shell.Text.Regex

namespace WasmPackager.Tools

/-! ## Texts -/

def succeed : Tool := fun _ => return 0

def failing : Tool := fun _ => return 1

/-- The arguments of `echo`, with or without escapes. -/
def echoed (escapes : Bool) : List Bytes → Bytes × Bool
  | [] => ([], false)
  | a :: rest =>
    let (bytes, stopped) := if escapes then Escape.expand true a else (a, false)
    if stopped then (bytes, true)
    else
      match rest with
      | [] => (bytes, false)
      | _ :: _ =>
        let (more, stopped) := echoed escapes rest
        (bytes ++ 32 :: more, stopped)

def echo : Tool := fun c => do
  if c.args == [ascii "--help"] then
    c.say (ascii "Usage: " ++ c.name ++ ascii " [SHORT-OPTION]... [STRING]...\n")
    return 0
  else if c.args == [ascii "--version"] then
    c.say (ascii "echo (GNU coreutils) 9.4\n")
    return 0
  else
    let (style, args) := Shell.Builtins.echoOptions ⟨true, false⟩ c.args
    let (bytes, stopped) := echoed style.escapes args
    c.say (if stopped || !style.lineFeed then bytes else bytes ++ [10])
    return 0

/-- Writes its arguments as a format says. -/
def printf : Tool := fun c => do
  let args := match c.args with
    | [45, 45] :: rest => rest
    | args => args
  match args with
  | [] => c.misuse (ascii "missing operand") 1
  | format :: args =>
    let (bytes, complaints, ending) := Printf.write .program format args
    complaints.forM c.complain
    match ending with
    | .mistake message => do
      c.say bytes
      c.complain message
      return 1
    | .done | .stopped =>
      c.say bytes
      return if complaints.isEmpty then 0 else 1

/-- Writes a line again and again, until nobody wants it any more. -/
def yes : Tool := fun c => do
  let line := (if c.args.isEmpty then [121] else Bytes.joinWith [32] c.args) ++ [10]
  let block := (List.replicate 8 line).flatten
  let rec again : (fuel : Nat) → Act UInt8
    | 0 => throw (.killed Signal.brokenPipe)
    | fuel + 1 => do
      c.say block
      modify (·.later 20000)
      let m ← get
      match m.nextStop with
      | some d => if d.time ≤ m.files.clock then throw (.killed d.signal) else again fuel
      | none => again fuel
  again 100000

/-! ## Conditions -/

def test : Tool := fun c => do
  let name := Call.baseName c.name
  match Shell.Condition.ofCommand .common (← get).host name c.args with
  | .ok holds => return if holds then 0 else 1
  | .error message =>
    c.complain message
    return 2

/-! ## Expressions -/

namespace Expr

def number? (value : Bytes) : Option Int :=
  match value with
  | 45 :: digits => (Bytes.toNat? digits).map fun n => -(n : Int)
  | digits => (Bytes.toNat? digits).map Int.ofNat

/-- The value counts as nothing: it is empty or zero. -/
def isNull (value : Bytes) : Bool :=
  let digits := match value with
    | 45 :: rest => rest
    | value => value
  value.isEmpty || (!digits.isEmpty && digits.all (· == 48))

/-- How an operator of a level is called. -/
def operatorsOf : Nat → List Bytes
  | 0 => [ascii "|"]
  | 1 => [ascii "&"]
  | 2 => ["<", "<=", "=", "==", "!=", ">=", ">"].map ascii
  | 3 => ["+", "-"].map ascii
  | 4 => ["*", "/", "%"].map ascii
  | _ => [ascii ":"]

def truth (holds : Bool) : Bytes := if holds then [49] else [48]

/-- Compares two values, as numbers if both are. -/
def compare (operator a b : Bytes) : Bytes :=
  let less := match number? a, number? b with
    | some x, some y => decide (x < y)
    | _, _ => decide (a < b)
  let same := match number? a, number? b with
    | some x, some y => x == y
    | _, _ => a == b
  truth (
    if operator == ascii "<" then less
    else if operator == ascii "<=" then less || same
    else if operator == ascii "=" || operator == ascii "==" then same
    else if operator == ascii "!=" then !same
    else if operator == ascii ">=" then !less
    else !less && !same)

def compute (operator a b : Bytes) : Except Bytes Bytes :=
  match number? a, number? b with
  | some x, some y =>
    if operator == ascii "+" then .ok (Bytes.ofInt (x + y))
    else if operator == ascii "-" then .ok (Bytes.ofInt (x - y))
    else if operator == ascii "*" then .ok (Bytes.ofInt (x * y))
    else if y == 0 then .error (ascii "division by zero")
    else if operator == ascii "/" then .ok (Bytes.ofInt (x.tdiv y))
    else .ok (Bytes.ofInt (x.tmod y))
  | _, _ => .error (ascii "non-integer argument")

/-- What a form finds at the beginning of a text: its first group, or how long it is. -/
def matching (text form : Bytes) : Except Bytes Bytes :=
  match Regex.ofText ⟨false, false⟩ form with
  | .error problem => .error problem.message
  | .ok r =>
    let subject : Regex.Subject := ⟨text.toArray, false, false⟩
    let hasGroup := Regex.occurs (.sequence (.byte 92) (.byte 40)) ⟨form.toArray, false, false⟩
    match r.matchAt? subject 0 with
    | some m => .ok (if hasGroup then m.part subject 1 else Bytes.ofNat m.last)
    | none => .ok (if hasGroup then [] else [48])

def apply (operator a b : Bytes) : Except Bytes Bytes :=
  if operator == ascii "|" then
    .ok (if !isNull a then a else if !isNull b then b else [48])
  else if operator == ascii "&" then .ok (if isNull a || isNull b then [48] else a)
  else if operator == ascii ":" then matching a b
  else if (operatorsOf 2).contains operator then .ok (compare operator a b)
  else compute operator a b

/-- The operator does not look at its second value. -/
def decides (operator a : Bytes) : Bool :=
  (operator == ascii "|" && !isNull a) || (operator == ascii "&" && isNull a)

/-- What the recursion reads. -/
inductive Stage
  /-- An expression whose operators are of a level or bind more tightly. -/
  | level (n : Nat)
  /-- The rest of such an expression, behind a value. -/
  | rest (n : Nat) (value : Bytes)

/-- A value and the words behind it.  The word that was read last is for messages. -/
abbrev Parsed := Except Bytes (Bytes × List Bytes × Bytes)

/-- The value of a place in a text where one of some bytes stands first. -/
def placeOf (text among : Bytes) : Nat :=
  let before := text.takeWhile (!among.contains ·)
  if before.length < text.length then before.length + 1 else 0

def piece (text start length : Bytes) : Bytes :=
  match number? start, number? length with
  | some (.ofNat (s + 1)), some (.ofNat n) => (text.drop s).take n
  | _, _ => []

/-- Reads and computes; `live` tells that the value is wanted. -/
def value : (fuel : Nat) → Stage → (live : Bool) → (last : Bytes) → List Bytes → Parsed
  | 0, _, _, last, ts => .ok ([], ts, last)
  | fuel + 1, .rest n a, live, last, ts => do
    match ts with
    | o :: ts =>
      if (operatorsOf n).contains o then
        let wanted := live && !decides o a
        let (b, ts, last) ← value fuel (.level (n + 1)) wanted o ts
        let v ← if !live then pure a
          else if decides o a then pure (if o == ascii "&" then [48] else a)
          else apply o a b
        value fuel (.rest n v) live last ts
      else return (a, o :: ts, last)
    | [] => return (a, [], last)
  | fuel + 1, .level n, live, last, ts => do
    if n < 6 then
      let (a, ts, last) ← value fuel (.level (n + 1)) live last ts
      value fuel (.rest n a) live last ts
    else
      match ts with
      | [] => throw (ascii "syntax error: missing argument after " ++ Quote.always last)
      | word :: rest =>
        if word == ascii "+" then
          match rest with
          | text :: rest => return (text, rest, text)
          | [] => throw (ascii "syntax error: missing argument after " ++ Quote.always word)
        else if word == ascii "length" then
          let (a, rest, last) ← value fuel (.level 6) live word rest
          return (Bytes.ofNat a.length, rest, last)
        else if word == ascii "match" then
          let (a, rest, last) ← value fuel (.level 6) live word rest
          let (b, rest, last) ← value fuel (.level 6) live last rest
          return (← if live then matching a b else pure [], rest, last)
        else if word == ascii "index" then
          let (a, rest, last) ← value fuel (.level 6) live word rest
          let (b, rest, last) ← value fuel (.level 6) live last rest
          return (Bytes.ofNat (placeOf a b), rest, last)
        else if word == ascii "substr" then
          let (a, rest, last) ← value fuel (.level 6) live word rest
          let (b, rest, last) ← value fuel (.level 6) live last rest
          let (n, rest, last) ← value fuel (.level 6) live last rest
          return (piece a b n, rest, last)
        else if word == ascii "(" then
          let (a, rest, last) ← value fuel (.level 0) live word rest
          match rest with
          | close :: rest =>
            if close == ascii ")" then return (a, rest, close)
            else throw (ascii "syntax error: expecting ')' instead of " ++ Quote.always close)
          | [] => throw (ascii "syntax error: expecting ')' after " ++ Quote.always last)
        else if word == ascii ")" then throw (ascii "syntax error: unexpected ')'")
        else return (word, rest, word)

def ofWords (ts : List Bytes) : Except Bytes Bytes := do
  let (v, rest, _) ← value (16 * ts.length + 32) (.level 0) true [] ts
  match rest with
  | [] => return v
  | word :: _ => throw (ascii "syntax error: unexpected argument " ++ Quote.always word)

end Expr

def expr : Tool := fun c => do
  let args := match c.args with
    | [45, 45] :: rest => rest
    | args => args
  if args.isEmpty then c.misuse (ascii "missing operand") 2
  else
    match Expr.ofWords args with
    | .error message => c.abort message 2
    | .ok v =>
      c.say (v ++ [10])
      return if Expr.isNull v then 1 else 0

/-! ## Series -/

namespace Series

/-- A number with places behind the point. -/
structure Decimal where
  /-- The number in units of its last place. -/
  units : Int
  places : Nat

def ofText? (text : Bytes) : Option Decimal :=
  let (negative, digits) : Bool × Bytes := match text with
    | 45 :: rest => (true, rest)
    | 43 :: rest => (false, rest)
    | text => (false, text)
  let whole := digits.takeWhile (· != 46)
  let fraction := (digits.drop whole.length).drop 1
  match Bytes.toNat? (whole ++ fraction) with
  | some n => some ⟨if negative then -(n : Int) else n, fraction.length⟩
  | none => none

/-- The number in units of a later place. -/
def Decimal.at (d : Decimal) (places : Nat) : Int := d.units * Int.pow 10 (places - d.places)

/-- The number written with a number of places. -/
def written (units : Int) (places : Nat) : Bytes :=
  let digits := WasmPackager.Decimal.padded (places + 1) (Bytes.ofNat units.natAbs)
  let whole := digits.take (digits.length - places)
  let sign := if units < 0 then [45] else []
  sign ++ if places = 0 then whole else whole ++ 46 :: digits.drop (digits.length - places)

/-- The numbers from one on in steps, up to a last one. -/
def numbers (step last : Int) : (fuel : Nat) → (reversed : List Int) → Int → List Int
  | 0, reversed, _ => reversed.reverse
  | fuel + 1, reversed, n =>
    if (0 < step && last < n) || (step < 0 && n < last) then reversed.reverse
    else numbers step last fuel (n :: reversed) (n + step)

/-- How many numbers are written at most. -/
def limit : Nat := 200000

/-- The number with zeros in front up to a width. -/
def widened (width : Nat) (s : Bytes) : Bytes :=
  match s with
  | 45 :: digits => 45 :: WasmPackager.Decimal.padded (width - 1) digits
  | s => WasmPackager.Decimal.padded width s

end Series

def seq : Tool := fun c => do
  let isNumber (a : Bytes) : Bool := (Series.ofText? a).isSome
  let front := c.args.takeWhile fun a => a.head? == some 45 && !isNumber a
  let behind := c.args.drop front.length
  let needed := match front.getLast? with
    | some last => (last == ascii "-s" || last == ascii "-f") && !behind.isEmpty
    | none => false
  let optionWords := if needed then front ++ behind.take 1 else front
  let found ← { c with args := optionWords }.arguments
    (.usual "s:f:w" [⟨"separator", .value, 's'⟩, ⟨"format", .value, 'f'⟩,
      ⟨"equal-width", .nothing, 'w'⟩])
  let operands := found.operands ++ (if needed then behind.drop 1 else behind)
  let numbers ← operands.mapM fun text => do
    match Series.ofText? text with
    | some d => return d
    | none => c.misuse (ascii "invalid floating point argument: " ++ Quote.always text) 1
  let one : Series.Decimal := ⟨1, 0⟩
  let (first, step, last) ← match numbers with
    | [] => c.misuse (ascii "missing operand") 1
    | [last] => pure (one, one, last)
    | [first, last] => pure (first, one, last)
    | [first, step, last] => pure (first, step, last)
    | _ => c.misuse (ascii "extra operand " ++ Quote.always (operands.getD 3 [])) 1
  if step.units == 0 then
    c.misuse (ascii "invalid Zero increment value: " ++ Quote.always (operands.getD 1 [])) 1
  let places := max first.places step.places
  let scale := max places last.places
  let all := Series.numbers (step.at scale) (last.at scale) Series.limit [] (first.at scale)
  let texts := all.map fun n => Series.written (n.tdiv (Nat.pow 10 (scale - places))) places
  let width := texts.foldl (fun w t => max w t.length) 0
  let texts := if found.has 'w' then texts.map (Series.widened width) else texts
  let texts := match found.value? 'f' with
    | some format => texts.map fun t => (Printf.write .program format [t]).1
    | none => texts
  let separator := (found.value? 's').getD [10]
  if texts.isEmpty then return 0
  else
    c.say (Bytes.joinWith separator texts ++ [10])
    return 0

/-! ## Facts about the system -/

def whoami : Tool := fun c => do
  c.say (ascii "root\n")
  return 0

def identity : Tool := fun c => do
  let found ← c.arguments (.usual "ugnGr" [⟨"user", .nothing, 'u'⟩, ⟨"group", .nothing, 'g'⟩,
    ⟨"name", .nothing, 'n'⟩, ⟨"groups", .nothing, 'G'⟩])
  if found.options.any fun o => ['u', 'g', 'G'].contains o.letter then
    c.say (if found.has 'n' then ascii "root\n" else ascii "0\n")
  else c.say (ascii "uid=0(root) gid=0(root) groups=0(root)\n")
  return 0

def systemName : Tool := fun c => do
  let found ← c.arguments (.usual "asnrvmpio" [])
  let facts := [('s', "Linux"), ('n', "localhost"), ('m', "x86_64"), ('o', "GNU/Linux")]
  let chosen := facts.filter fun (letter, _) =>
    found.has letter || found.has 'a' || (found.options.isEmpty && letter == 's')
  c.say (Bytes.joinWith [32] (chosen.map fun (_, fact) => ascii fact) ++ [10])
  return 0

def printVariables : Tool := fun c => do
  let m ← get
  match c.args with
  | [] =>
    c.say (m.acting.environment.flatMap fun (name, value) => name ++ 61 :: (value ++ [10]))
    return 0
  | names =>
    let found := names.filterMap m.environmentValue?
    c.say (found.flatMap (· ++ [10]))
    return if found.length == names.length then 0 else 1

/-- Writes the time in seconds, the only form in which it is kept. -/
def date : Tool := fun c => do
  c.say (Bytes.ofNat ((← get).files.clock / Machine.second) ++ [10])
  return 0

end WasmPackager.Tools
