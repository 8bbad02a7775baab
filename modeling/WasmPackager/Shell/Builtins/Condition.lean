/-
# `Shell.Builtins.Condition` — the conditions that `test` decides

Conditions about files, texts and numbers, put together with "and", "or" and
"not".  What a word means depends on the words around it: an operator that
lacks its operand is a text, which holds unless it is empty.
-/
import WasmPackager.Shell.Expansion

namespace WasmPackager.Shell.Condition

/-- A question about one word. -/
inductive Question
  | readable | writable | executable
  | present | file | directory | characterDevice | blockDevice | queue
  | withMode (bit : Nat)
  | owned
  | link | nonEmpty
  | terminal
  | emptyText | someText
deriving DecidableEq

/-- A question about two words. -/
inductive Comparison
  | same | different | before | after
  | equal | notEqual | greaterOrEqual | greater | lessOrEqual | less
  | newer | older | sameFile
deriving DecidableEq

/-- What a word can mean beside itself. -/
inductive Operator
  | question (q : Question)
  | comparison (c : Comparison)
  | negation
  | conjunction
  | disjunction
  | opening
  | closing
deriving DecidableEq

def operators : List (Bytes × Operator) :=
  [("-r", .question .readable), ("-w", .question .writable), ("-x", .question .executable),
   ("-e", .question .present), ("-f", .question .file), ("-d", .question .directory),
   ("-c", .question .characterDevice), ("-b", .question .blockDevice),
   ("-p", .question .queue), ("-u", .question (.withMode 11)), ("-g", .question (.withMode 10)),
   ("-k", .question (.withMode 9)), ("-s", .question .nonEmpty), ("-t", .question .terminal),
   ("-z", .question .emptyText), ("-n", .question .someText), ("-h", .question .link),
   ("-O", .question .owned), ("-G", .question .owned), ("-L", .question .link),
   ("-S", .question .blockDevice), ("=", .comparison .same), ("!=", .comparison .different),
   ("<", .comparison .before), (">", .comparison .after), ("-eq", .comparison .equal),
   ("-ne", .comparison .notEqual), ("-ge", .comparison .greaterOrEqual),
   ("-gt", .comparison .greater), ("-le", .comparison .lessOrEqual),
   ("-lt", .comparison .less), ("-nt", .comparison .newer), ("-ot", .comparison .older),
   ("-ef", .comparison .sameFile), ("!", .negation), ("-a", .conjunction),
   ("-o", .disjunction), ("(", .opening), (")", .closing)].map fun (name, o) => (ascii name, o)

/-- The operators that are understood by the extended language. -/
def extendedOperators : List (Bytes × Operator) :=
  (ascii "==", .comparison .same) :: operators

def operator? (known : List (Bytes × Operator)) (word : Bytes) : Option Operator :=
  known.lookup word

def Operator.isComparison : Operator → Bool
  | .comparison _ => true
  | _ => false

def Operator.isQuestion : Operator → Bool
  | .question _ => true
  | _ => false

/-! ## Answers -/

def answer (h : Host) (q : Question) (word : Bytes) : Bool :=
  let about (holds : Inode → Bool) : Bool := match h.stat word with
    | .ok i => holds i
    | .error _ => false
  match q with
  | .emptyText => word.isEmpty
  | .someText => !word.isEmpty
  | .terminal => false
  | .present | .owned => about fun _ => true
  | .file => about (·.node.isRegular)
  | .directory => about (·.node.isDirectory)
  | .characterDevice => about fun i => match i.node with
    | .device _ => true
    | _ => false
  | .blockDevice => false
  | .queue => about fun i => match i.node with
    | .fifo _ => true
    | _ => false
  | .withMode bit => about fun i => i.mode.testBit bit
  | .nonEmpty => about fun i => match i.node with
    | .file c => c.size != 0
    | .dir .. => true
    | _ => false
  | .readable => about (·.allows .read)
  | .writable => about (·.allows .write)
  | .executable => about (·.allows .execute)
  | .link => match h.statLink word with
    | .ok i => i.node.isLink
    | .error _ => false

/-- The whole number a word denotes, blanks around it left out. -/
def number? (word : Bytes) : Option Int :=
  let s := word.dropWhile isSpace
  let s := (s.reverse.dropWhile isSpace).reverse
  match s with
  | 45 :: digits => (Bytes.toNat? digits).map fun n => -(n : Int)
  | 43 :: digits => (Bytes.toNat? digits).map Int.ofNat
  | digits => (Bytes.toNat? digits).map Int.ofNat

/-- The number of a word that has to denote one. -/
def numberOf (word : Bytes) : Except Bytes Int :=
  match number? word with
  | some n =>
    if Int.pow 2 63 ≤ n || n < -Int.pow 2 63 then .error (ascii "Illegal number: " ++ word)
    else .ok n
  | none => .error (ascii "Illegal number: " ++ word)

def compare (h : Host) (c : Comparison) (a b : Bytes) : Except Bytes Bool :=
  let numbers (holds : Int → Int → Bool) : Except Bytes Bool := do
    return holds (← numberOf a) (← numberOf b)
  let times (holds : Nat → Nat → Bool) : Bool := match h.stat a, h.stat b with
    | .ok i, .ok j => holds i.modified j.modified
    | _, _ => false
  match c with
  | .same => .ok (a == b)
  | .different => .ok (a != b)
  | .before => .ok (decide (a < b))
  | .after => .ok (decide (b < a))
  | .equal => numbers fun x y => x == y
  | .notEqual => numbers fun x y => x != y
  | .greaterOrEqual => numbers fun x y => y ≤ x
  | .greater => numbers fun x y => y < x
  | .lessOrEqual => numbers fun x y => x ≤ y
  | .less => numbers fun x y => x < y
  | .newer => .ok (times fun x y => y < x)
  | .older => .ok (times fun x y => x < y)
  | .sameFile => .ok (match h.locate a true, h.locate b true with
    | .ok n, .ok m => n == m
    | _, _ => false)

/-! ## Reading conditions -/

/-- The words of a condition from the one looked at on. -/
abbrev Words := List Bytes

/-- A word as it is read: an operator, or an operand if it stands for itself; `none` behind the
last word. -/
inductive Reading
  | ended
  | operand
  | operator (o : Operator)
deriving DecidableEq

/-- How the first of the words is read.  A question is an operand when it lacks its operand, and
when it stands on the left of a comparison. -/
def read (known : List (Bytes × Operator)) : Words → Reading
  | [] => .ended
  | word :: rest =>
    match operator? known word with
    | none => .operand
    | some o =>
      let lonely := match rest with
        | [] => true
        | [_] => false
        | second :: _ => (operator? known second).any Operator.isComparison
      if o.isQuestion && lonely then .operand
      else if o == .opening && rest.isEmpty then .operand
      else .operator o

/-- The result of a part of a condition, with the words from its last one on. -/
abbrev Part := Except Bytes (Bool × Words)

/-- The complaint that an operand is missing. -/
def lacking {α : Type} (word : Bytes) : Except Bytes α :=
  .error ((if word.isEmpty then [] else word ++ ascii ": ") ++ ascii "argument expected")

/-- The parts of a condition. -/
inductive Level
  | disjunction
  | conjunction
  | negation

/-- Decides a part of a condition, with `within` for the parts inside. -/
def decideWith (known : List (Bytes × Operator)) (h : Host)
    (within : Level → Reading → Words → Part) : Level → Reading → Words → Part
  | .disjunction, reading, words => do
    let (a, words) ← within .conjunction reading words
    match read known (words.drop 1) with
    | .operator .disjunction =>
      let behind := words.drop 2
      let (b, words) ← within .disjunction (read known behind) behind
      return (a || b, words)
    | _ => return (a, words)
  | .conjunction, reading, words => do
    let (a, words) ← within .negation reading words
    match read known (words.drop 1) with
    | .operator .conjunction =>
      let behind := words.drop 2
      let (b, words) ← within .conjunction (read known behind) behind
      return (a && b, words)
    | _ => return (a, words)
  | .negation, .operator .negation, words => do
    let behind := words.drop 1
    match read known behind with
    | .ended => return (true, words)
    | reading =>
      let (a, words) ← within .negation reading behind
      return (!a, words)
  | .negation, .ended, words => return (false, words)
  | .negation, .operator .opening, words => do
    let inside := words.drop 1
    match read known inside with
    | .operator .closing => return (false, inside)
    | reading =>
      let (a, words) ← within .disjunction reading inside
      let behind := words.drop 1
      match read known behind with
      | .operator .closing => return (a, behind)
      | _ => throw (ascii "closing paren expected")
  | .negation, .operator (.question q), words =>
    match words with
    | _ :: operand :: rest => return (answer h q operand, operand :: rest)
    | word :: [] => lacking word
    | [] => lacking []
  | .negation, _, words =>
    match words with
    | a :: rest =>
      match read known rest, rest with
      | .operator (.comparison c), _ :: b :: behind => do
        return (← compare h c a b, b :: behind)
      | .operator (.comparison _), [word] => lacking word
      | _, _ => return (!a.isEmpty, words)
    | [] => return (false, [])

/-- Decides a part of a condition; every word needs a few units of fuel. -/
def decideLevel (known : List (Bytes × Operator)) (h : Host) :
    (fuel : Nat) → Level → Reading → Words → Part
  | 0, _, _, words => .ok (false, words)
  | fuel + 1, level, reading, words =>
    decideWith known h (decideLevel known h fuel) level reading words

/-- Decides a condition of which the first word is read in a certain way. -/
def decideFrom (known : List (Bytes × Operator)) (h : Host) (reading : Reading) (words : Words) :
    Except Bytes Bool := do
  let (result, rest) ← decideLevel known h (8 * words.length + 16) .disjunction reading words
  match rest with
  | word :: _ :: _ => throw ((if word.isEmpty then [] else word ++ ascii ": ") ++
      ascii "unexpected operator")
  | _ => return result

/-- Decides a condition.  Few words are read in a way that lets a comparison of any two texts be
a comparison. -/
def holds (known : List (Bytes × Operator)) (h : Host) : (fuel : Nat) → Words → Except Bytes Bool
  | 0, _ => .ok false
  | fuel + 1, words =>
    let whole : Except Bytes Bool := decideFrom known h (read known words) words
    let few : Except Bytes Bool :=
      if words.head? == some (ascii "(") && words.getLast? == some (ascii ")") then
        let inside := (words.drop 1).dropLast
        decideFrom known h (read known inside) inside
      else if words.head? == some (ascii "!") then
        (holds known h fuel (words.drop 1)).map (!·)
      else whole
    match words with
    | [] => .ok false
    | [_, o, _] =>
      if (operator? known o).any Operator.isComparison then decideFrom known h .operand words
      else few
    | [_, _, _, _] => few
    | _ => whole

/-- Decides the condition of the command `test`, or of `[`, which a bracket has to end.  Gives
whether it holds, or why it is none. -/
def ofCommand (dialect : Dialect) (h : Host) (name : Bytes) (words : Words) : Except Bytes Bool :=
  let known := if dialect == .extended then extendedOperators else operators
  if name == ascii "[" then
    if words.getLast? == some (ascii "]") then holds known h (words.length + 1) words.dropLast
    else .error (ascii "missing ]")
  else holds known h (words.length + 1) words

end WasmPackager.Shell.Condition
