/-
# `Shell.Trial` — tests in double brackets

Such a test is read before its words are expanded, so nothing in it is split.
The right-hand side of an equality is a pattern.
-/
import WasmPackager.Shell.Builtins.Condition
import WasmPackager.Shell.Text.Regex

namespace WasmPackager.Shell.Eval

/-- The operator that a word of a test is written as. -/
def operatorText (word : Word) : Bytes :=
  match word with
  | [.text false bytes] => bytes
  | _ => []

/-- A pair of texts has the form of an expression. -/
def hasRegex (text form : Bytes) : Bool :=
  match Regex.ofText ⟨true, true⟩ form with
  | .ok r => r.occurs ⟨text.toArray, false, false⟩
  | .error _ => false

def compareWords (engine : Engine) (operator : Bytes) (a b : Word) : Eval Bool := do
  let left ← textOf engine .atStart a
  if operator == ascii "==" || operator == ascii "=" || operator == ascii "!=" then
    let holds := (Pattern.ofLetters (← formOf engine b)).accepts left
    return holds == (operator != ascii "!=")
  else if operator == ascii "=~" then return hasRegex left (← textOf engine .atStart b)
  else
    let right ← textOf engine .atStart b
    let s ← get
    let isNumeric := ["-eq", "-ne", "-lt", "-le", "-gt", "-ge"].any fun o => ascii o == operator
    if isNumeric then
      let x ← calculate left
      let y ← calculate right
      let texts := [Bytes.ofInt x.toInt, operator, Bytes.ofInt y.toInt]
      return (Condition.ofCommand .extended s.machine.host (ascii "test") texts).toOption.getD false
    else
      return (Condition.ofCommand .extended s.machine.host (ascii "test")
        [left, operator, right]).toOption.getD false

def comparisons : List Bytes :=
  ["==", "=", "!=", "=~", "<", ">", "-eq", "-ne", "-lt", "-le", "-gt", "-ge", "-nt", "-ot",
   "-ef"].map ascii

/-- What the recursion decides. -/
inductive TrialLevel
  | disjunction
  | conjunction
  | primary

/-- Decides a part of a test; gives the words behind it.  With `live` false nothing is expanded
and nothing holds. -/
def trialLevel (engine : Engine) : (fuel : Nat) → TrialLevel → (live : Bool) → List Word →
    Eval (Bool × List Word)
  | 0, _, _, _ => return (false, [])
  | fuel + 1, .disjunction, live, words => do
    let (a, rest) ← trialLevel engine fuel .conjunction live words
    match rest with
    | o :: behind =>
      if operatorText o == ascii "||" then
        let (b, rest) ← trialLevel engine fuel .disjunction (live && !a) behind
        return (a || b, rest)
      else return (a, rest)
    | [] => return (a, [])
  | fuel + 1, .conjunction, live, words => do
    let (a, rest) ← trialLevel engine fuel .primary live words
    match rest with
    | o :: behind =>
      if operatorText o == ascii "&&" then
        let (b, rest) ← trialLevel engine fuel .conjunction (live && a) behind
        return (a && b, rest)
      else return (a, rest)
    | [] => return (a, [])
  | fuel + 1, .primary, live, words => do
    match words with
    | [] => return (false, [])
    | first :: rest =>
      let o := operatorText first
      if o == ascii "!" then
        let (a, rest) ← trialLevel engine fuel .primary live rest
        return (live && !a, rest)
      else if o == ascii "(" then
        let (a, rest) ← trialLevel engine fuel .disjunction live rest
        return (a, rest.drop 1)
      else
        match rest with
        | second :: third :: behind =>
          if comparisons.contains (operatorText second) then
            if live then return (← compareWords engine (operatorText second) first third, behind)
            else return (false, behind)
          else single fuel live o first rest
        | _ => single fuel live o first rest
where
  /-- Decides a question about one word, or whether a word is empty. -/
  single (_fuel : Nat) (live : Bool) (o : Bytes) (first : Word) (rest : List Word) :
      Eval (Bool × List Word) := do
    match (Condition.operator? Condition.operators o), rest with
    | some (.question q), operand :: behind =>
      if live then
        let text ← textOf engine .atStart operand
        return (Condition.answer (← get).machine.host q text, behind)
      else return (false, behind)
    | _, _ =>
      if live then return (!(← textOf engine .atStart first).isEmpty, rest)
      else return (false, rest)

def trial (engine : Engine) (words : List Word) : Eval UInt8 := do
  let (holds, _) ← trialLevel engine (4 * words.length + 8) .disjunction true words
  return if holds then 0 else 1

end WasmPackager.Shell.Eval
