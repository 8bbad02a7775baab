/-
# `Shell.Tools.Order` — programs that put lines in order

Lines are compared as texts or by keys; lines that are the same can be dropped,
counted, or looked up in another file that is in order.
-/
import WasmPackager.Shell.Tools.Reading
import WasmPackager.Shell.Text.Regex

namespace WasmPackager.Tools

/-! ## Sorting -/

/-- Two lists in order made one; of what is equal the first list's comes first. -/
def merge {α : Type} (le : α → α → Bool) : (reversed : List α) → List α → List α → List α
  | reversed, [], ys => reversed.reverseAux ys
  | reversed, xs, [] => reversed.reverseAux xs
  | reversed, x :: xs, y :: ys =>
    if le x y then merge le (x :: reversed) xs (y :: ys) else merge le (y :: reversed) (x :: xs) ys
termination_by _ xs ys => xs.length + ys.length

/-- The values in order; those that are equal keep theirs. -/
def sortWith {α : Type} (le : α → α → Bool) : (fuel : Nat) → List α → List α
  | 0, xs => xs
  | fuel + 1, xs =>
    match xs with
    | [] | [_] => xs
    | _ =>
      let half := xs.length / 2
      merge le [] (sortWith le fuel (xs.take half)) (sortWith le fuel (xs.drop half))

/-- How keys are compared. -/
structure KeyOrder where
  numeric : Bool
  general : Bool
  human : Bool
  version : Bool
  month : Bool
  ignoreCase : Bool
  dictionary : Bool
  printable : Bool
  skipBlanks : Bool
  reverse : Bool

namespace KeyOrder

def plain : KeyOrder := ⟨false, false, false, false, false, false, false, false, false, false⟩

/-- The ordering with what a letter asks for. -/
def including (o : KeyOrder) (letter : Char) : KeyOrder :=
  match letter with
  | 'n' => { o with numeric := true }
  | 'g' => { o with general := true }
  | 'h' => { o with human := true }
  | 'V' => { o with version := true }
  | 'M' => { o with month := true }
  | 'f' => { o with ignoreCase := true }
  | 'd' => { o with dictionary := true }
  | 'i' => { o with printable := true }
  | 'b' => { o with skipBlanks := true }
  | 'r' => { o with reverse := true }
  | _ => o

def isPlain (o : KeyOrder) : Bool :=
  !(o.numeric || o.general || o.human || o.version || o.month || o.ignoreCase || o.dictionary ||
    o.printable || o.skipBlanks || o.reverse)

end KeyOrder

/-- A number at the beginning of a text, as a fraction of a power of ten. -/
def leadingNumber (text : Bytes) : Int × Nat :=
  let isDigit (b : UInt8) : Bool := 48 ≤ b && b ≤ 57
  let text := text.dropWhile Format.isBlank
  let (negative, text) : Bool × Bytes := match text with
    | 45 :: rest => (true, rest)
    | rest => (false, rest)
  let whole := text.takeWhile isDigit
  let fraction := match text.drop whole.length with
    | 46 :: rest => rest.takeWhile isDigit
    | _ => []
  let n := (Bytes.toNat? (whole ++ fraction)).getD 0
  (if negative then -(n : Int) else n, fraction.length)

def compareNumbers (a b : Int × Nat) : Ordering :=
  compare (a.1 * Int.pow 10 b.2) (b.1 * Int.pow 10 a.2)

/-- The place of the unit behind a number. -/
def unitRank (text : Bytes) : Nat :=
  let isDigit (b : UInt8) : Bool := (48 ≤ b && b ≤ 57) || b == 46
  let rest := ((text.dropWhile Format.isBlank).dropWhile (· == 45)).dropWhile isDigit
  match rest.head? with
  | some b => match (ascii "KMGTPEZY").idxOf? (if b == 107 then 75 else b) with
    | some i => i + 1
    | none => 0
  | none => 0

/-- The place of the month whose name a text begins with. -/
def monthRank (text : Bytes) : Nat :=
  let name := ((text.dropWhile Format.isBlank).take 3).map fun b =>
    if 97 ≤ b && b ≤ 122 then b - 32 else b
  let names := ["JAN", "FEB", "MAR", "APR", "MAY", "JUN", "JUL", "AUG", "SEP", "OCT", "NOV", "DEC"]
  match (names.map ascii).idxOf? name with
  | some i => i + 1
  | none => 0

/-- The text cut into runs of digits and runs of others. -/
def runs (text : Bytes) : List Bytes :=
  let isDigit (b : UInt8) : Bool := 48 ≤ b && b ≤ 57
  text.foldr (fun b pieces => match pieces with
    | (d :: piece) :: rest => if isDigit b == isDigit d then (b :: d :: piece) :: rest
      else [b] :: (d :: piece) :: rest
    | pieces => [b] :: pieces) []

/-- Compares two texts in which numbers are compared as numbers. -/
def compareVersions : List Bytes → List Bytes → Ordering
  | [], [] => .eq
  | [], _ => .lt
  | _, [] => .gt
  | a :: as, b :: bs =>
    let first := match Bytes.toNat? a, Bytes.toNat? b with
      | some x, some y => compare x y
      | _, _ => if a < b then .lt else if b < a then .gt else .eq
    first.then (compareVersions as bs)

def compareTexts (a b : Bytes) : Ordering := if a < b then .lt else if b < a then .gt else .eq

def KeyOrder.compare (o : KeyOrder) (a b : Bytes) : Ordering :=
  let prepare (s : Bytes) : Bytes :=
    let s := if o.skipBlanks then s.dropWhile Format.isBlank else s
    let s := if o.dictionary then s.filter fun b => (isWord b && b != 95) || Format.isBlank b else s
    let s := if o.printable then s.filter Quote.isPrintable else s
    if o.ignoreCase then s.map fun b => if 97 ≤ b && b ≤ 122 then b - 32 else b else s
  let result :=
    if o.numeric then compareNumbers (leadingNumber a) (leadingNumber b)
    else if o.general then
      let value (s : Bytes) : Option Float := (Decimal.read? (s.dropWhile isSpace)).map Prod.fst
      match value a, value b with
      | some x, some y => if x < y then .lt else if y < x then .gt else .eq
      | none, some _ => .lt
      | some _, none => .gt
      | none, none => .eq
    else if o.human then
      let sign (s : Bytes) : Int := (leadingNumber s).1.sign
      let byUnit := Ord.compare (unitRank a) (unitRank b)
      let byUnit := if sign a < 0 then byUnit.swap else byUnit
      (Ord.compare (sign a) (sign b)).then
        (byUnit.then (compareNumbers (leadingNumber a) (leadingNumber b)))
    else if o.month then Ord.compare (monthRank a) (monthRank b)
    else if o.version then compareVersions (runs (prepare a)) (runs (prepare b))
    else compareTexts (prepare a) (prepare b)
  if o.reverse then result.swap else result

/-- A key of a line: from one field and letter to another. -/
structure SortKey where
  first : Nat × Nat
  last : Option (Nat × Nat)
  ordering : KeyOrder

/-- The fields of a line; where blanks separate them they belong to the field behind. -/
def sortFields (separator : Option UInt8) (line : Bytes) : List Bytes :=
  match separator with
  | some b => Bytes.splitOn b line
  | none =>
    let rec go : (fuel : Nat) → Bytes → List Bytes
      | 0, _ => []
      | fuel + 1, s =>
        if s.isEmpty then []
        else
          let blanks := s.takeWhile Format.isBlank
          let word := (s.drop blanks.length).takeWhile (!Format.isBlank ·)
          let field := blanks ++ word
          field :: go fuel (s.drop field.length)
    go (line.length + 1) line

/-- The place in a line where a field begins. -/
def fieldStart (separator : Option UInt8) (fields : List Bytes) (i : Nat) : Nat :=
  let gap := if separator.isSome then 1 else 0
  total ((fields.take i).map fun f => f.length + gap)

def SortKey.of (k : SortKey) (separator : Option UInt8) (line : Bytes) : Bytes :=
  let fields := sortFields separator line
  let place (skip : Bool) (spot : Nat × Nat) : Nat :=
    if fields.length < spot.1 then line.length
    else
      let start := fieldStart separator fields (spot.1 - 1)
      let field := fields.getD (spot.1 - 1) []
      let blanks := if skip then (field.takeWhile Format.isBlank).length else 0
      min line.length (start + blanks + (spot.2 - 1))
  let first := place k.ordering.skipBlanks k.first
  let last := match k.last with
    | none => line.length
    | some (field, 0) =>
      if fields.length < field then line.length
      else fieldStart separator fields (field - 1) + (fields.getD (field - 1) []).length
    | some (field, letter) => place k.ordering.skipBlanks (field, letter + 1)
  (line.take last).drop first

/-- One end of a key, as it is written, and the letters behind it. -/
def keyEnd? (text : Bytes) : Option (Nat × Option Nat × Bytes) := do
  let isDigit (b : UInt8) : Bool := 48 ≤ b && b ≤ 57
  let field := text.takeWhile isDigit
  let n ← Bytes.toNat? field
  match text.drop field.length with
  | 46 :: rest =>
    let letter := rest.takeWhile isDigit
    return (n, some (← Bytes.toNat? letter), rest.drop letter.length)
  | rest => return (n, none, rest)

def keyOf? (global : KeyOrder) (text : Bytes) : Option SortKey := do
  let parts := Bytes.splitOn 44 text
  let (field, letter, options) ← keyEnd? (parts.headD [])
  let last ← match parts with
    | [_, last] => (keyEnd? last).map some
    | [_] => some none
    | _ => none
  let letters := options ++ (last.map fun l => l.2.2).getD []
  if !letters.all fun b => (ascii "bdfgiMhnRrV").contains b then none
  else if field = 0 then none
  else
    let own := letters.foldl (fun (o : KeyOrder) (b : UInt8) => o.including (Call.charOf b)) .plain
    return ⟨(field, letter.getD 1), last.map fun l => (l.1, l.2.1.getD 0),
      if own.isPlain then global else own⟩

def sort : Tool := fun c => do
  let found ← c.arguments ⟨"bcCdfghik:mMno:rRsS:t:T:uVz", [⟨"key", .value, 'k'⟩,
    ⟨"numeric-sort", .nothing, 'n'⟩, ⟨"reverse", .nothing, 'r'⟩, ⟨"unique", .nothing, 'u'⟩,
    ⟨"output", .value, 'o'⟩, ⟨"field-separator", .value, 't'⟩, ⟨"stable", .nothing, 's'⟩,
    ⟨"check", .maybe, 'c'⟩, ⟨"ignore-case", .nothing, 'f'⟩, ⟨"zero-terminated", .nothing, 'z'⟩,
    ⟨"ignore-leading-blanks", .nothing, 'b'⟩, ⟨"general-numeric-sort", .nothing, 'g'⟩,
    ⟨"human-numeric-sort", .nothing, 'h'⟩, ⟨"version-sort", .nothing, 'V'⟩,
    ⟨"month-sort", .nothing, 'M'⟩, ⟨"dictionary-order", .nothing, 'd'⟩,
    ⟨"merge", .nothing, 'm'⟩], false, 2⟩
  let global := found.options.foldl (fun (o : KeyOrder) (g : Given) =>
    if g.value.isNone then o.including g.letter else o) .plain
  let separator ← match found.value? 't' with
    | none => pure none
    | some [b] => pure (some b)
    | some text =>
      if text == ascii "\\0" then pure (some 0)
      else if text.isEmpty then c.abort (ascii "empty tab") 2
      else c.abort (ascii "multi-character tab " ++ Quote.always text) 2
  let keys ← (found.values 'k').mapM fun text => do
    match keyOf? global text with
    | some k => return k
    | none =>
      if (text.takeWhile (· != 44)).head? == some 48 then
        c.abort (ascii "field number is zero: invalid field specification " ++ Quote.always text) 2
      else c.abort (ascii "invalid number at field start: invalid count at start of " ++
        Quote.always text) 2
  let mark : UInt8 := if found.has 'z' then 0 else 10
  let texts ← (orInput found.operands).mapM fun operand => do
    match ← Call.input operand with
    | .ok bytes => return (linesOf mark bytes).map (withoutMark mark)
    | .error .isDirectory =>
      c.abort (ascii "read failed: " ++ Quote.ifNeeded operand ++ ascii ": Is a directory") 2
    | .error cause =>
      c.abort (ascii "cannot read: " ++ Quote.ifNeeded operand ++ ascii ": " ++ cause.message) 2
  let lines := texts.flatten
  let byKeys (a b : Bytes) : Ordering :=
    if keys.isEmpty then global.compare a b
    else keys.foldl (fun result k =>
      result.then (k.ordering.compare (k.of separator a) (k.of separator b))) .eq
  let byAll (a b : Bytes) : Ordering :=
    let result := byKeys a b
    if result != .eq || found.has 's' || found.has 'u' then result
    else if global.reverse then (compareTexts a b).swap else compareTexts a b
  if found.has 'c' || found.has 'C' then
    let pairs := (lines.zip (lines.drop 1)).zipIdx
    match pairs.find? fun ((a, b), _) =>
        byAll a b == .gt || (found.has 'u' && byKeys a b == .eq) with
    | none => return 0
    | some ((_, b), i) =>
      if found.has 'c' then
        c.complain ((orInput found.operands).headD [] ++ [58] ++ Bytes.ofNat (i + 2) ++
          ascii ": disorder: " ++ b)
      return 1
  else
    let sorted := sortWith (fun a b => byAll a b != .gt) (lines.length + 1) lines
    let sorted := if found.has 'u' then
        (sorted.foldl (fun (kept : List Bytes) line => match kept with
          | last :: _ => if byKeys last line == .eq then kept else line :: kept
          | [] => [line]) []).reverse
      else sorted
    let text := sorted.flatMap (· ++ [mark])
    match found.value? 'o' with
    | none =>
      c.say text
      return 0
    | some path =>
      let m ← get
      match m.host.openForWriting path true (m.masked 0o666) with
      | .error cause =>
        c.abort (ascii "open failed: " ++ Quote.ifNeeded path ++ ascii ": " ++ cause.message) 2
      | .ok (n, h) =>
        let (result, h) := h.appendAt n text
        set (m.withHost h)
        match result with
        | .ok () => return 0
        | .error cause =>
          c.abort (ascii "write failed: " ++ Quote.ifNeeded path ++ ascii ": " ++ cause.message) 2

/-! ## Lines that are the same -/

/-- The lines with how often each of them comes in a row. -/
def groups (same : Bytes → Bytes → Bool) (lines : List Bytes) : List (List Bytes) :=
  ((lines.foldl (fun (found : List (List Bytes)) line => match found with
    | (last :: more) :: rest =>
      if same last line then (last :: line :: more) :: rest else [line] :: (last :: more) :: rest
    | found => [line] :: found) []).map fun group => match group with
      | first :: more => first :: more.reverse
      | [] => []).reverse

/-- Drops lines that are the same as the one before. -/
def uniq : Tool := fun c => do
  let found ← c.arguments (.usual "cdDf:is:uw:z" [⟨"count", .nothing, 'c'⟩,
    ⟨"repeated", .nothing, 'd'⟩, ⟨"all-repeated", .maybe, 'D'⟩, ⟨"skip-fields", .value, 'f'⟩,
    ⟨"ignore-case", .nothing, 'i'⟩, ⟨"skip-chars", .value, 's'⟩, ⟨"unique", .nothing, 'u'⟩,
    ⟨"check-chars", .value, 'w'⟩, ⟨"zero-terminated", .nothing, 'z'⟩])
  let mark : UInt8 := if found.has 'z' then 0 else 10
  let amount (letter : Char) : Option Nat := (found.value? letter).bind Bytes.toNat?
  let key (line : Bytes) : Bytes :=
    let s := (List.range ((amount 'f').getD 0)).foldl (fun s _ =>
      (s.dropWhile Format.isBlank).dropWhile (!Format.isBlank ·)) line
    let s := s.drop ((amount 's').getD 0)
    let s := match amount 'w' with
      | some n => s.take n
      | none => s
    if found.has 'i' then s.map Regex.small else s
  match found.operands with
  | _ :: _ :: extra :: _ => c.misuse (ascii "extra operand " ++ Quote.always extra) 1
  | operands =>
    match ← Call.input (operands.headD [45]) with
    | .error .isDirectory =>
      c.complain (ascii "error reading " ++ Quote.always (operands.headD []) ++
        ascii ": Is a directory")
      return 1
    | .error cause =>
      c.complainOf (Quote.ifNeeded (operands.headD [])) cause
      return 1
    | .ok bytes =>
      let lines := (linesOf mark bytes).map (withoutMark mark)
      let all := groups (fun a b => key a == key b) lines
      let wanted := all.filter fun group =>
        !((found.has 'd' || found.has 'D') && group.length < 2) &&
          !(found.has 'u' && 1 < group.length)
      let text := wanted.flatMap fun group =>
        let count := Bytes.ofNat group.length
        let front :=
          if found.has 'c' then List.replicate (7 - count.length) 32 ++ count ++ [32] else []
        (if found.has 'D' then group else group.take 1).flatMap fun line => front ++ line ++ [mark]
      match operands with
      | [_, path] =>
        let m ← get
        match m.host.openForWriting path true (m.masked 0o666) with
        | .ok (n, h) =>
          set (m.withHost (h.appendAt n text).2)
          return 0
        | .error cause =>
          c.complainOf (Quote.ifNeeded path) cause
          return 1
      | _ =>
        c.say text
        return 0

/-! ## Two files -/

/-- Tells which lines two files in order have in common. -/
def compareOrdered : (reversed : List (Nat × Bytes)) → List Bytes → List Bytes → List (Nat × Bytes)
  | reversed, [], ys => reversed.reverseAux (ys.map (2, ·))
  | reversed, xs, [] => reversed.reverseAux (xs.map (1, ·))
  | reversed, x :: xs, y :: ys =>
    if x == y then compareOrdered ((3, x) :: reversed) xs ys
    else if x < y then compareOrdered ((1, x) :: reversed) xs (y :: ys)
    else compareOrdered ((2, y) :: reversed) (x :: xs) ys
termination_by _ xs ys => xs.length + ys.length

/-- The lines of an operand; gives up if they cannot be read. -/
def demandLines (c : Call) (operand : Bytes) : Act (List Bytes) := do
  match ← Call.input operand with
  | .ok bytes => return plainLines bytes
  | .error cause =>
    c.complainOf (Quote.ifNeeded operand) cause
    Act.exit 1

/-- Shows in columns which lines two files have in common. -/
def comm : Tool := fun c => do
  let found ← c.arguments (.usual "123" [⟨"output-delimiter", .value, 'o'⟩,
    ⟨"total", .nothing, 't'⟩,
    ⟨"check-order", .nothing, 'k'⟩, ⟨"nocheck-order", .nothing, 'K'⟩])
  match found.operands with
  | [first, second] =>
    let a ← demandLines c first
    let b ← demandLines c second
    let tab := (found.value? 'o').getD [9]
    let shown (column : Nat) : Bool := !found.has (Char.ofNat (48 + column))
    let indent (column : Nat) : Bytes :=
      ((List.range (column - 1)).filter fun i => shown (i + 1)).flatMap fun _ => tab
    c.say ((compareOrdered [] a b).flatMap fun (column, line) =>
      if shown column then indent column ++ line ++ [10] else [])
    return 0
  | [] => c.misuse (ascii "missing operand") 1
  | [only] => c.misuse (ascii "missing operand after " ++ Quote.always only) 1
  | _ :: _ :: extra :: _ => c.misuse (ascii "extra operand " ++ Quote.always extra) 1

/-- The words of a line that something separates. -/
def joinFields (separator : Option UInt8) (line : Bytes) : List Bytes :=
  match separator with
  | some b => Bytes.splitOn b line
  | none => (Bytes.splitOn 32 (line.map fun b => if b == 9 then 32 else b)).filter (!·.isEmpty)

/-- Puts together the lines of two files that have a field in common. -/
def join : Tool := fun c => do
  let found ← c.arguments (.usual "a:e:ij:o:t:v:1:2:" [])
  let separator := (found.value? 't').bind List.head?
  let number (letter : Char) : Nat :=
    (((found.value? letter).orElse fun _ => found.value? 'j').bind Bytes.toNat?).getD 1
  match found.operands with
  | [first, second] =>
    let a ← demandLines c first
    let b ← demandLines c second
    let mark : Bytes := [separator.getD 32]
    let parts (letter : Char) (line : Bytes) : Bytes × List Bytes :=
      let fields := joinFields separator line
      (fields.getD (number letter - 1) [], fields.eraseIdx (number letter - 1))
    let left := a.map (parts '1')
    let right := b.map (parts '2')
    let line (key : Bytes) (rest : List Bytes) : Bytes := Bytes.joinWith mark (key :: rest) ++ [10]
    let only := found.has 'v'
    let alone (n : String) : Bool :=
      (found.values 'a').contains (ascii n) || (found.values 'v').contains (ascii n)
    c.say ((left.flatMap fun (key, rest) =>
      let matching := right.filter (·.1 == key)
      if matching.isEmpty then (if alone "1" then line key rest else [])
      else if only then [] else matching.flatMap fun (_, more) => line key (rest ++ more)) ++
      (right.flatMap fun (key, rest) =>
        if alone "2" && !left.any (·.1 == key) then line key rest else []))
    return 0
  | _ => c.misuse (ascii "missing operand") 1

end WasmPackager.Tools
