/-
# `Shell.Arithmetic` — expressions over whole numbers

The numbers have 64 bits and wrap around.  A text is first read as an
expression; what evaluating it needs to know of variables, and what it does to
them, is left to whoever evaluates it.
-/
import WasmPackager.Shell.Script

namespace WasmPackager.Shell

/-- An operator with two operands. -/
inductive BinaryOperator
  | power
  | multiply | divide | remainder
  | add | subtract
  | shiftLeft | shiftRight
  | less | lessOrEqual | greater | greaterOrEqual
  | equal | notEqual
  | bitAnd
  | bitXor
  | bitOr
deriving DecidableEq

namespace BinaryOperator

def looseness : BinaryOperator → Nat
  | power => 0
  | multiply | divide | remainder => 1
  | add | subtract => 2
  | shiftLeft | shiftRight => 3
  | less | lessOrEqual | greater | greaterOrEqual => 4
  | equal | notEqual => 5
  | bitAnd => 6
  | bitXor => 7
  | bitOr => 8

def truth (holds : Bool) : Int64 := if holds then 1 else 0

/-- The result of an operation; `none` for a division by zero. -/
def apply (op : BinaryOperator) (a b : Int64) : Option Int64 :=
  match op with
  | power => some ((List.range b.toNatClampNeg).foldl (fun product _ => product * a) 1)
  | multiply => some (a * b)
  | divide => if b == 0 then none else some (a / b)
  | remainder => if b == 0 then none else some (a % b)
  | add => some (a + b)
  | subtract => some (a - b)
  | shiftLeft => some (a <<< b)
  | shiftRight => some (a >>> b)
  | less => some (truth (a < b))
  | lessOrEqual => some (truth (a ≤ b))
  | greater => some (truth (b < a))
  | greaterOrEqual => some (truth (b ≤ a))
  | equal => some (truth (a == b))
  | notEqual => some (truth (a != b))
  | bitAnd => some (a &&& b)
  | bitXor => some (a ^^^ b)
  | bitOr => some (a ||| b)

end BinaryOperator

/-- An expression. -/
inductive Expression
  | number (value : Int64)
  | named (name : Bytes)
  /-- Gives a variable a value, perhaps one made of the value it has. -/
  | assignment (name : Bytes) (operator : Option BinaryOperator) (value : Expression)
  /-- Changes a variable by a number and gives the value it has afterwards or had before. -/
  | stepping (name : Bytes) (by_ : Int64) (afterwards : Bool)
  | choice (condition onTrue onFalse : Expression)
  | disjunction (a b : Expression)
  | conjunction (a b : Expression)
  | binary (operator : BinaryOperator) (a b : Expression)
  | negative (a : Expression)
  | negation (a : Expression)
  | complement (a : Expression)
  | inOrder (a b : Expression)

namespace Arithmetic

/-! ## Tokens -/

/-- A token of an expression. -/
inductive Token
  | number (value : Int64)
  | name (name : Bytes)
  | symbol (text : String)
deriving DecidableEq

/-- The value of a digit in some base up to sixteen. -/
def digitValue (b : UInt8) : Nat :=
  if 48 ≤ b && b ≤ 57 then b.toNat - 48
  else if 97 ≤ b && b ≤ 102 then b.toNat - 87
  else if 65 ≤ b && b ≤ 70 then b.toNat - 55
  else 16

def largest : Nat := Nat.pow 2 63 - 1

/-- The number that digits denote in a base; one that is too large becomes the largest one. -/
def numeral (base : Nat) (digits : Bytes) : Int64 :=
  Int64.ofNat (min largest (digits.foldl (fun n d => base * n + digitValue d) 0))

/-- The number at the beginning of a text, and what is behind it. -/
def takeNumber (text : Bytes) : Int64 × Bytes :=
  let inBase (base : Nat) (text : Bytes) : Int64 × Bytes :=
    let digits := text.takeWhile (digitValue · < base)
    (numeral base digits, text.drop digits.length)
  match text with
  | 48 :: x :: d :: rest =>
    if (x == 120 || x == 88) && digitValue d < 16 then inBase 16 (d :: rest) else inBase 8 text
  | 48 :: _ => inBase 8 text
  | _ => inBase 10 text

/-- The symbols of expressions, a longer one before those it begins with. -/
def symbols : List String :=
  ["<<=", ">>=", "<<", ">>", "<=", ">=", "==", "!=", "&&", "||", "+=", "-=", "*=", "/=", "%=",
   "&=", "^=", "|=", "<", ">", "=", "!", "&", "|", "+", "-", "*", "/", "%", "^", "~", "(", ")",
   "?", ":"]

/-- The symbols that only the extended language has. -/
def extendedSymbols : List String := ["++", "--", "**", ","]

/-- The tokens of a text; a byte that belongs to no token is an empty symbol, and the last. -/
def tokens (known : List String) : (fuel : Nat) → (reversed : List Token) → Bytes → List Token
  | 0, reversed, _ => reversed.reverse
  | fuel + 1, reversed, text =>
    match text with
    | [] => reversed.reverse
    | b :: rest =>
      if b == 32 || b == 9 || b == 10 then tokens known fuel reversed rest
      else if 48 ≤ b && b ≤ 57 then
        let (value, rest) := takeNumber text
        tokens known fuel (.number value :: reversed) rest
      else if isWord b then
        let name := text.takeWhile isWord
        tokens known fuel (.name name :: reversed) (text.drop name.length)
      else
        match known.find? fun symbol => (ascii symbol).isPrefixOf text with
        | some symbol =>
          tokens known fuel (.symbol symbol :: reversed) (text.drop symbol.length)
        | none => (.symbol "" :: reversed).reverse

/-! ## Reading -/

abbrev Problem := String

/-- An expression at the beginning of tokens, and the tokens behind it. -/
abbrev Parsed := Except Problem (Expression × List Token)

def operators : List (String × BinaryOperator) :=
  [("**", .power), ("*", .multiply), ("/", .divide), ("%", .remainder), ("+", .add),
   ("-", .subtract), ("<<", .shiftLeft), (">>", .shiftRight), ("<", .less),
   ("<=", .lessOrEqual), (">", .greater), (">=", .greaterOrEqual), ("==", .equal),
   ("!=", .notEqual), ("&", .bitAnd), ("^", .bitXor), ("|", .bitOr)]

def operator? : List Token → Option (BinaryOperator × List Token)
  | .symbol text :: rest => (operators.lookup text).map (·, rest)
  | _ => none

/-- The operator of an assignment, if the symbol assigns. -/
def assignment? (symbol : String) : Option (Option BinaryOperator) :=
  if symbol == "=" then some none
  else
    [("+=", BinaryOperator.add), ("-=", .subtract), ("*=", .multiply), ("/=", .divide),
     ("%=", .remainder), ("<<=", .shiftLeft), (">>=", .shiftRight), ("&=", .bitAnd),
     ("^=", .bitXor), ("|=", .bitOr)].lookup symbol |>.map some

/-- What the recursion reads. -/
inductive Level
  | whole
  | assignment
  | choice
  | disjunction
  | conjunction
  | primary
  /-- The right-hand side of an operator, as far as it binds less loosely than the given
  looseness. -/
  | operand (left : Expression) (operator : BinaryOperator) (limit : Nat)

def loosest : Nat := 9

/-- Reads what an expression of a level is, with `read` for what is within it. -/
def readWith (read : Level → List Token → Parsed) : Level → List Token → Parsed
  | .whole, ts => do
    let (a, ts) ← read .assignment ts
    match ts with
    | .symbol "," :: ts => do
      let (b, ts) ← read .whole ts
      return (.inOrder a b, ts)
    | _ => return (a, ts)
  | .assignment, ts =>
    match ts with
    | .name name :: .symbol symbol :: rest =>
      match assignment? symbol with
      | some operator => do
        let (value, rest) ← read .assignment rest
        return (.assignment name operator value, rest)
      | none => read .choice ts
    | _ => read .choice ts
  | .choice, ts => do
    let (a, ts) ← read .disjunction ts
    match ts with
    | .symbol "?" :: ts => do
      let (b, ts) ← read .assignment ts
      match ts with
      | .symbol ":" :: ts => do
        let (c, ts) ← read .choice ts
        return (.choice a b c, ts)
      | _ => throw "expecting ':'"
    | _ => return (a, ts)
  | .disjunction, ts => do
    let (a, ts) ← read .conjunction ts
    match ts with
    | .symbol "||" :: ts => do
      let (b, ts) ← read .disjunction ts
      return (.disjunction a b, ts)
    | _ => return (a, ts)
  | .conjunction, ts => do
    let (a, ts) ← read .primary ts
    let (a, ts) ← match operator? ts with
      | some (operator, rest) => read (.operand a operator loosest) rest
      | none => pure (a, ts)
    match ts with
    | .symbol "&&" :: ts => do
      let (b, ts) ← read .conjunction ts
      return (.conjunction a b, ts)
    | _ => return (a, ts)
  | .operand left operator limit, ts => do
    let (right, ts) ← read .primary ts
    let (right, ts) ← match operator? ts with
      | some (next, rest) =>
        if next.looseness < operator.looseness then
          read (.operand right next operator.looseness) rest
        else pure (right, ts)
      | none => pure (right, ts)
    let whole := Expression.binary operator left right
    match operator? ts with
    | some (next, rest) =>
      if next.looseness < limit then read (.operand whole next limit) rest else return (whole, ts)
    | none => return (whole, ts)
  | .primary, ts =>
    match ts with
    | .symbol "(" :: ts => do
      let (a, ts) ← read .whole ts
      match ts with
      | .symbol ")" :: ts => return (a, ts)
      | _ => throw "expecting ')'"
    | .number value :: ts => return (.number value, ts)
    | .name name :: .symbol "++" :: ts => return (.stepping name 1 false, ts)
    | .name name :: .symbol "--" :: ts => return (.stepping name (-1) false, ts)
    | .symbol "++" :: .name name :: ts => return (.stepping name 1 true, ts)
    | .symbol "--" :: .name name :: ts => return (.stepping name (-1) true, ts)
    | .name name :: ts => return (.named name, ts)
    | .symbol "+" :: ts => read .primary ts
    | .symbol "-" :: ts => do
      let (a, ts) ← read .primary ts
      return (.negative a, ts)
    | .symbol "!" :: ts => do
      let (a, ts) ← read .primary ts
      return (.negation a, ts)
    | .symbol "~" :: ts => do
      let (a, ts) ← read .primary ts
      return (.complement a, ts)
    | _ => throw "expecting primary"

/-- Reads an expression of a level; every token needs a few units of fuel. -/
def readLevel : (fuel : Nat) → Level → List Token → Parsed
  | 0, _, _ => throw "expression too long"
  | fuel + 1, level, ts => readWith (readLevel fuel) level ts

def parse (dialect : Dialect) (text : Bytes) : Except Problem Expression := do
  let known := if dialect == .extended then extendedSymbols ++ symbols else symbols
  let ts := tokens known (text.length + 1) [] text
  match dialect, ts with
  | .extended, [] => return .number 0
  | _, _ =>
    match ← readLevel (8 * ts.length + 16) .whole ts with
    | (e, []) => return e
    | _ => throw "expecting EOF"

end Arithmetic

/-! ## Evaluation -/

namespace Expression

/-- The value of an expression, found by a monad that knows variables.  `failing` is what a
division by zero does. -/
def value {m : Type → Type} [Monad m] (failing : m Int64) (lookup : Bytes → m Int64)
    (assign : Bytes → Int64 → m Unit) : Expression → m Int64
  | number value => pure value
  | named name => lookup name
  | assignment name operator e => do
    let new ← e.value failing lookup assign
    let new ← match operator with
      | none => pure new
      | some operator =>
        match operator.apply (← lookup name) new with
        | some result => pure result
        | none => failing
    assign name new
    return new
  | stepping name step afterwards => do
    let old ← lookup name
    assign name (old + step)
    return if afterwards then old + step else old
  | choice condition onTrue onFalse => do
    if (← condition.value failing lookup assign) != 0 then onTrue.value failing lookup assign
    else onFalse.value failing lookup assign
  | disjunction a b => do
    if (← a.value failing lookup assign) != 0 then return 1
    else return BinaryOperator.truth ((← b.value failing lookup assign) != 0)
  | conjunction a b => do
    if (← a.value failing lookup assign) == 0 then return 0
    else return BinaryOperator.truth ((← b.value failing lookup assign) != 0)
  | binary operator a b => do
    let x ← a.value failing lookup assign
    let y ← b.value failing lookup assign
    match operator.apply x y with
    | some result => return result
    | none => failing
  | negative a => return -(← a.value failing lookup assign)
  | negation a => return BinaryOperator.truth ((← a.value failing lookup assign) == 0)
  | complement a => return ~~~(← a.value failing lookup assign)
  | inOrder a b => do
    let _ ← a.value failing lookup assign
    b.value failing lookup assign

end Expression
end WasmPackager.Shell
