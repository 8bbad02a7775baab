/-
# `Shell.Expansion` — what words stand for

Parameters are replaced by their values, scripts by their output, expressions
by their results and tildes by home directories.  What comes of it is split
into fields, each of which can stand for names of files — or is taken as one
text, as a pattern, or as a document, depending on where the word stands.
-/
import WasmPackager.Shell.Arithmetic
import WasmPackager.Shell.Fields
import WasmPackager.Shell.Filenames
import WasmPackager.Shell.Child

namespace WasmPackager.Shell

/-! ## Home directories -/

/-- Where tildes stand for home directories. -/
inductive Tildes
  | nowhere
  | atStart
  /-- Also behind colons. -/
  | inList

namespace Tildes

/-- The users of the system and their home directories. -/
def users : List (String × String) :=
  [("root", "/root"), ("daemon", "/usr/sbin"), ("bin", "/bin"), ("sys", "/dev"),
   ("sync", "/bin"), ("games", "/usr/games"), ("man", "/var/cache/man"), ("lp", "/var/spool/lpd"),
   ("mail", "/var/mail"), ("news", "/var/spool/news"), ("uucp", "/var/spool/uucp"),
   ("proxy", "/bin"), ("www-data", "/var/www"), ("backup", "/var/backups"),
   ("list", "/var/list"), ("irc", "/run/ircd"), ("_apt", "/nonexistent"),
   ("nobody", "/nonexistent")]

/-- The home directory of a user; without a name that of whoever runs the shell. -/
def home? (s : State) (user : Bytes) : Option Bytes :=
  if user.isEmpty then s.value? (ascii "HOME")
  else (users.find? fun (name, _) => ascii name == user).map fun (_, home) => ascii home

/-- The parts of a text with the tilde at its beginning replaced; `last` tells that nothing
comes behind the text. -/
def replaceFirst (s : State) (inList last : Bool) (bytes : Bytes) : List Part :=
  match bytes with
  | 126 :: rest =>
    let user := rest.takeWhile fun b => b != Path.slash && !(inList && b == 58)
    let behind := rest.drop user.length
    match if behind.isEmpty && !last then none else home? s user with
    | some home => .text true home :: (if behind.isEmpty then [] else [.text false behind])
    | none => [.text false bytes]
  | _ => [.text false bytes]

/-- The parts of a text with the tildes at its beginning and behind colons replaced. -/
def replaceAll (s : State) (atStart last : Bool) (bytes : Bytes) : List Part :=
  let pieces := Bytes.splitOn 58 bytes
  let count := pieces.length
  (pieces.zipIdx.flatMap fun (piece, i) =>
    let isLast := i + 1 == count
    let parts := if i == 0 && !atStart then [.text false piece]
      else replaceFirst s true (last || !isLast) piece
    if isLast then parts else parts ++ [.text false [58]]).filter fun
    | .text _ bytes => !bytes.isEmpty
    | _ => true

/-- The word behind its first part, with tildes replaced. -/
def replaceRest (s : State) : Word → Word
  | [] => []
  | .text false bytes :: rest =>
    replaceAll s false rest.isEmpty bytes ++ replaceRest s rest
  | part :: rest => part :: replaceRest s rest

def replace (s : State) (tildes : Tildes) (word : Word) : Word :=
  match tildes, word with
  | .nowhere, word => word
  | .atStart, .text false bytes :: rest => replaceFirst s false rest.isEmpty bytes ++ rest
  | .inList, .text false bytes :: rest =>
    replaceAll s true rest.isEmpty bytes ++ replaceRest s rest
  | .atStart, word => word
  | .inList, word => replaceRest s word

end Tildes

/-! ## Parameters -/

namespace State

def isArguments (name : Bytes) : Bool := name == [64] || name == [42]

/-- The value of a parameter other than all arguments. -/
def parameter? (s : State) (name : Bytes) : Option Bytes :=
  if name == ascii "#" then some (Bytes.ofNat s.arguments.length)
  else if name == ascii "?" then some (Bytes.ofNat s.status.toNat)
  else if name == ascii "$" then some (Bytes.ofNat s.number)
  else if name == ascii "!" then s.lastJob.map Bytes.ofNat
  else if name == ascii "-" then some s.options
  else if name == ascii "LINENO" && s.dialect == Dialect.extended then some (Bytes.ofNat s.line)
  else
    match Bytes.toNat? name with
    | some 0 => some s.name
    | some n => s.arguments[n - 1]?
    | none => s.value? name

/-- The value of a parameter as one text. -/
def whole? (s : State) (name : Bytes) : Option Bytes :=
  if isArguments name then some (Bytes.joinWith s.joint s.arguments) else s.parameter? name

/-- The value of a parameter as pieces; `fields` tells that fields are made of them. -/
def pieces (s : State) (quoted fields : Bool) (name : Bytes) : List Piece :=
  if isArguments name then
    if fields && quoted && name == [64] then [.arguments s.arguments]
    else if fields && !quoted then [.values s.arguments]
    else if quoted then [.text true (Bytes.joinWith s.joint s.arguments)]
    else [.values [Bytes.joinWith s.joint s.arguments]]
  else
    match s.parameter? name with
    | none => []
    | some value => if quoted then [.text true value] else [.values [value]]

end State

/-! ## Expressions -/

namespace Eval

/-- The number a text denotes; `none` if it denotes none. -/
def number? (text : Bytes) : Option Int64 :=
  let text := (text.dropWhile isSpace).reverse.dropWhile isSpace |>.reverse
  let (negative, digits) := match text with
    | 45 :: rest => (true, rest)
    | 43 :: rest => (false, rest)
    | _ => (false, text)
  match digits with
  | [] => none
  | b :: _ =>
    if 48 ≤ b && b ≤ 57 then
      let (value, rest) := Arithmetic.takeNumber digits
      if rest.isEmpty then some (if negative then -value else value) else none
    else none

/-- The number a variable has in an expression: none is zero. -/
def numberOf : (depth : Nat) → Bytes → Eval Int64
  | depth, name => do
    let text := ((← get).parameter? name).getD []
    if text.isEmpty then return 0
    match number? text, depth, (← get).dialect with
    | some n, _, _ => return n
    | none, depth + 1, .extended =>
      if isName text then numberOf depth text else fail (ascii "Illegal number: " ++ text)
    | none, _, _ => fail (ascii "Illegal number: " ++ text)

def calculate (text : Bytes) : Eval Int64 := do
  let problem {α : Type} (reason : String) : Eval α :=
    fail (ascii ("arithmetic expression: " ++ reason ++ ": \"") ++ text ++ ascii "\"")
  match Arithmetic.parse (← get).dialect text with
  | .error reason => problem reason
  | .ok e =>
    e.value (problem "division by zero") (numberOf 20) fun name n =>
      assign name (Bytes.ofInt n.toInt) false

end Eval

/-! ## Words -/

namespace Eval

/-- The parameter must have a value where the shell insists on it. -/
def demandSet (name : Bytes) : Eval Unit := do
  let s ← get
  if s.has 'u' && !State.isArguments name && (s.parameter? name).isNone then
    fail (name ++ ascii ": parameter not set")

def isMissing (name : Bytes) (orEmpty : Bool) : Eval Bool := do
  let s ← get
  if State.isArguments name then return orEmpty && (s.whole? name).getD [] == []
  else
    match s.parameter? name with
    | none => return true
    | some value => return orEmpty && value.isEmpty

/-- The pieces of a value that takes the place of a parameter. -/
def piecesOf (quoted : Bool) (value : Bytes) : List Piece :=
  if quoted then [.text true value] else [.values [value]]

/-- Gives a parameter that is assigned within a word its value. -/
def assignParameter (name value : Bytes) : Eval Unit := do
  if isName name then assign name value false
  else fail (name ++ ascii ": bad variable name")

def missing {α : Type} (name : Bytes) (orEmpty : Bool) (message : Option Bytes) : Eval α :=
  match message with
  | some m => fail (name ++ ascii ": " ++ m)
  | none => fail (name ++ ascii ": parameter not set" ++ if orEmpty then ascii " or null" else [])

/-- The letters with those that a first unquoted slash separates from the others. -/
def cutAtSlash (letters : List Letter) : List Letter × List Letter :=
  let first := letters.takeWhile (· != (false, Path.slash))
  (first, letters.drop (first.length + 1))

/-- The text with what has a form replaced, at most once or everywhere. -/
def replaceForm (p : Pattern) (new : Bytes) (everywhere : Bool) : (fuel : Nat) → Bytes → Bytes
  | 0, text => text
  | fuel + 1, text =>
    match p.beginning? true text, text with
    | some (n + 1), _ =>
      new ++ (if everywhere then replaceForm p new everywhere fuel (text.drop (n + 1))
        else text.drop (n + 1))
    | _, b :: rest => b :: replaceForm p new everywhere fuel rest
    | _, [] => []

/-- The text with forms replaced as written behind a parameter: at its beginning, at its end, or
anywhere. -/
def replaced (form : List Letter) (new : Bytes) (everywhere : Bool) (text : Bytes) : Bytes :=
  match form with
  | (false, 35) :: form =>
    match (Pattern.ofLetters form).beginning? true text with
    | some n => new ++ text.drop n
    | none => text
  | (false, 37) :: form =>
    match (Pattern.ofLetters form).ending? true text with
    | some n => text.take n ++ new
    | none => text
  | form => replaceForm (Pattern.ofLetters form) new everywhere (text.length + 1) text

/-- The piece of a text that begins somewhere, and ends somewhere if that is said; what is
negative counts from the end. -/
def slice (text : Bytes) (start : Int64) (length : Option Int64) : Bytes :=
  let size : Int := text.length
  let start := if start.toInt < 0 then max 0 (size + start.toInt) else start.toInt
  let rest := text.drop start.toNat
  match length with
  | none => rest
  | some n =>
    if n.toInt < 0 then rest.take (size + n.toInt - start).toNat else rest.take n.toInt.toNat

def cased (big : Bool) (b : UInt8) : UInt8 :=
  if big && 97 ≤ b && b ≤ 122 then b - 32
  else if !big && 65 ≤ b && b ≤ 90 then b + 32
  else b

mutual

/-- The pieces of a part of a word.  `fields` tells that fields are made of them, and `within`
that the part belongs to the word of a parameter, where what is written is split as well. -/
def part (engine : Engine) (fields within : Bool) : Part → Eval (List Piece)
  | .text quoted bytes =>
    return if within && fields && !quoted then [.values [bytes]] else [.text quoted bytes]
  | .quoteMark => return [.mark]
  | .arithmetic quoted expression => do
    let text := Piece.bytes (← parts engine false false expression)
    return piecesOf quoted (Bytes.ofInt (← calculate text).toInt)
  | .substitution quoted script => return piecesOf quoted (← capture engine script)
  | .parameter quoted name use word => do
    match use with
    | .nonsense => fail (ascii "Bad substitution")
    | .value =>
      demandSet name
      return (← get).pieces quoted fields name
    | .length =>
      demandSet name
      return piecesOf quoted (Bytes.ofNat (((← get).whole? name).getD []).length)
    | .fallback orEmpty =>
      if ← isMissing name orEmpty then tilded engine fields word
      else return (← get).pieces quoted fields name
    | .alternative orEmpty =>
      if ← isMissing name orEmpty then return [] else tilded engine fields word
    | .assignment orEmpty =>
      if ← isMissing name orEmpty then
        assignParameter name (Piece.bytes (← tilded engine false word))
      return (← get).pieces quoted fields name
    | .demand orEmpty =>
      if ← isMissing name orEmpty then
        let message ← tilded engine false word
        missing name orEmpty (if word.isEmpty then none else some (Piece.bytes message))
      else return (← get).pieces quoted fields name
    | .trim atEnd longest =>
      demandSet name
      match (← get).whole? name with
      | none => return []
      | some value =>
        let form := Piece.letters (← tilded engine false word)
        return piecesOf quoted ((Pattern.ofLetters form).trim atEnd longest value)
    | .replacement everywhere =>
      demandSet name
      let (form, new) := cutAtSlash (Piece.letters (← parts engine false false word))
      return piecesOf quoted
        (replaced form (new.map Prod.snd) everywhere (((← get).whole? name).getD []))
    | .slice =>
      demandSet name
      let text := Piece.bytes (← parts engine false false word)
      let start ← calculate (text.takeWhile (· != 58))
      let value := ((← get).whole? name).getD []
      if text.contains 58 then
        let length ← calculate ((text.dropWhile (· != 58)).drop 1)
        return piecesOf quoted (slice value start (some length))
      else return piecesOf quoted (slice value start none)
    | .letters big everywhere =>
      demandSet name
      let value := ((← get).whole? name).getD []
      return piecesOf quoted (if everywhere then value.map (cased big)
        else (value.take 1).map (cased big) ++ value.drop 1)

/-- The pieces of a word.  All arguments in quotes of their own have no quote marks: where there
are none there is no field. -/
def parts (engine : Engine) (fields within : Bool) : List Part → Eval (List Piece)
  | [] => return []
  | .quoteMark :: .parameter true [64] .value [] :: .quoteMark :: rest => do
    let first ← part engine fields within (.parameter true [64] .value [])
    return first ++ (← parts engine fields within rest)
  | first :: rest => do
    let pieces ← part engine fields within first
    return pieces ++ (← parts engine fields within rest)

/-- The pieces of the word of a parameter. -/
def tilded (engine : Engine) (fields : Bool) : List Part → Eval (List Piece)
  | .text false bytes :: rest => do
    let s ← get
    let first := (Tildes.replaceFirst s false rest.isEmpty bytes).map fun
      | .text true home => Piece.text true home
      | .text false bytes => if fields then .values [bytes] else .text false bytes
      | _ => .mark
    return first ++ (← parts engine fields true rest)
  | word => parts engine fields true word

end

/-! ## Where words stand -/

def pieces (engine : Engine) (fields : Bool) (tildes : Tildes) (word : Word) :
    Eval (List Piece) := do
  parts engine fields false (Tildes.replace (← get) tildes word)

def textOf (engine : Engine) (tildes : Tildes) (word : Word) : Eval Bytes :=
  return Piece.bytes (← pieces engine false tildes word)

/-- The pattern a word stands for, in letters. -/
def formOf (engine : Engine) (word : Word) : Eval (List Letter) :=
  return Piece.letters (← pieces engine false .atStart word)

def fieldsOf (engine : Engine) (word : Word) : Eval (List Bytes) := do
  let pieces ← pieces engine true .atStart word
  let s ← get
  let fields := Piece.fields s.separators pieces
  if s.has 'f' then return fields.map (·.map Prod.snd)
  else return fields.flatMap (Filenames.ofField s.machine.host)

end Eval
end WasmPackager.Shell
