import OtDetection.FieldLookup
import Mathlib.Data.Rat.Cast.Order

/-! `int` and `float` of the values of an event. Whitespace is that of `str.isspace`; the
decimal digits and the lower case of what lies beyond ASCII are tables of the
interpreter. -/

namespace OtDetection.PyNumber
open PyText FieldLookup

/-- The tables beyond ASCII. -/
structure Unicode where
  isPrintable : ℕ → Bool
  decimal : ℕ → Option (Fin 10)
  lower : Text → Text

def noTables : Unicode := ⟨fun _ => true, fun _ => none, id⟩

/-! ## Texts -/

def isSpace (c : ℕ) : Bool :=
  (0x09 ≤ c ∧ c ≤ 0x0D) ∨ (0x1C ≤ c ∧ c ≤ 0x20) ∨ c = 0x85 ∨ c = 0xA0 ∨ c = 0x1680 ∨
    (0x2000 ≤ c ∧ c ≤ 0x200A) ∨ c = 0x2028 ∨ c = 0x2029 ∨ c = 0x202F ∨ c = 0x205F ∨ c = 0x3000

def isAsciiSpace (c : ℕ) : Bool := (0x09 ≤ c ∧ c ≤ 0x0D) ∨ c = 0x20

def stripBy {α : Type} (space : α → Bool) (text : List α) : List α :=
  ((text.dropWhile space).reverse.dropWhile space).reverse

def strip (text : Text) : Text := stripBy isSpace text

def lowerAscii (c : ℕ) : ℕ := if 0x41 ≤ c ∧ c ≤ 0x5A then c + 0x20 else c

def lower (unicode : Unicode) (text : Text) : Text :=
  if ∀ c ∈ text, c < 0x80 then text.map lowerAscii else unicode.lower text

def toAscii (unicode : Unicode) (c : ℕ) : ℕ :=
  if c < 0x7F then c
  else if isSpace c then 0x20
  else match unicode.decimal c with
  | some d => 0x30 + d
  | none => 0x3F

def numeral (unicode : Unicode) (text : Text) : Text :=
  stripBy isAsciiSpace (text.map (toAscii unicode))

def isDigit (c : ℕ) : Bool := 0x30 ≤ c ∧ c ≤ 0x39

def digitsValue (digits : Text) : ℕ := digits.foldl (fun n c => 10 * n + (c - 0x30)) 0

def signed : Text → Bool × Text
  | 0x2D :: rest => (true, rest)
  | 0x2B :: rest => (false, rest)
  | rest => (false, rest)

def dropUnderscores : ℕ → Text → Option Text
  | previous, [] => if previous = 0x5F then none else some []
  | previous, c :: rest =>
    if c = 0x5F then if isDigit previous then dropUnderscores c rest else none
    else if previous = 0x5F ∧ ¬ isDigit c then none
    else (dropUnderscores c rest).map (c :: ·)

/-! ## Integers -/

/-- What ends a conversion. -/
inductive PyError
  | typeError
  | valueError
  | overflowError
  deriving DecidableEq, Repr

/-- `int(text)`, which refuses more than 4300 digits. -/
def intOfText (unicode : Unicode) (text : Text) : Option ℤ := do
  let (negative, rest) := signed (numeral unicode text)
  let digits ← dropUnderscores 0 rest
  if digits ≠ [] ∧ digits.all isDigit ∧ digits.length ≤ 4300 then
    some (if negative then -digitsValue digits else digitsValue digits)
  else none

/-! ## Floats -/

/-- The numbers of an IEEE 754 double, with the two zeros as one. -/
inductive Double
  | nan
  | inf (negative : Bool)
  | finite (q : ℚ)
  deriving DecidableEq, Repr

namespace Double

def eq : Double → Double → Bool
  | .finite p, .finite q => p = q
  | .inf s, .inf t => s = t
  | _, _ => false

def lt : Double → Double → Bool
  | .finite p, .finite q => p < q
  | .inf true, .inf t => !t
  | .inf true, .finite _ => true
  | .finite _, .inf t => !t
  | _, _ => false

def le (a b : Double) : Bool := a.lt b || a.eq b

end Double

def roundDouble (q : ℚ) : Option ℚ :=
  if q = 0 then some 0
  else if 2 ^ 1024 ≤ nearestDouble |q| then none
  else some (if q < 0 then -nearestDouble |q| else nearestDouble |q|)

def doubleOfFloat (f : PyFloat) : Double :=
  match floatKey f with
  | .number q => .finite q
  | .inf negative => .inf negative
  | _ => .nan

def readExponent (rest : Text) : Option ℤ :=
  match rest with
  | [] => some 0
  | c :: rest =>
    if c = 0x65 ∨ c = 0x45 then
      let (negative, digits) := signed rest
      if digits ≠ [] ∧ digits.all isDigit then
        some (if negative then -digitsValue digits else digitsValue digits)
      else none
    else none

def readFraction : Text → Text × Text
  | 0x2E :: rest => (rest.takeWhile isDigit, rest.dropWhile isDigit)
  | rest => ([], rest)

def readDecimal (text : Text) : Option ℚ := do
  let int := text.takeWhile isDigit
  let (fraction, rest) := readFraction (text.dropWhile isDigit)
  let exponent ← readExponent rest
  if int ++ fraction = [] then none
  else some (digitsValue (int ++ fraction) * 10 ^ (exponent - fraction.length))

def toDouble (negative : Bool) (q : ℚ) : Double :=
  match roundDouble q with
  | some q => .finite q
  | none => .inf negative

def readDouble (text : Text) : Option Double :=
  let (negative, rest) := signed text
  let word := rest.map lowerAscii
  if word = codes "inf" ∨ word = codes "infinity" then some (.inf negative)
  else if word = codes "nan" then some .nan
  else (readDecimal rest).map fun size => toDouble negative (if negative then -size else size)

def floatOfText (unicode : Unicode) (text : Text) : Option Double :=
  (dropUnderscores 0 (numeral unicode text)).bind readDouble

/-! ## Values -/

def truncate (q : ℚ) : ℤ := if q < 0 then ⌈q⌉ else ⌊q⌋

/-- `int(value)`. -/
def intOf (unicode : Unicode) : PyValue → Except PyError ℤ
  | .bool b => .ok (if b then 1 else 0)
  | .int n => .ok n
  | .float f =>
    match doubleOfFloat f with
    | .nan => .error .valueError
    | .inf _ => .error .overflowError
    | .finite q => .ok (truncate q)
  | .str s =>
    match intOfText unicode s with
    | some n => .ok n
    | none => .error .valueError
  | .none | .list _ | .dict _ => .error .typeError

def floatOfInt (n : ℤ) : Except PyError Double :=
  match roundDouble n with
  | some q => .ok (.finite q)
  | none => .error .overflowError

end OtDetection.PyNumber
