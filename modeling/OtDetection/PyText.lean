import Mathlib.Data.Int.Notation
import Mathlib.Data.List.Lex
import Mathlib.Data.Nat.Notation
import Mathlib.Tactic.Common

/-! Python values as `json.loads` yields them, and their `str`. A text is its code
points, so that a lone surrogate is a character like any other. Which characters
beyond ASCII are printable is a table of the interpreter and stays a parameter. -/

namespace OtDetection.PyText

abbrev Text := List ℕ

def codes (text : String) : Text := text.toList.map Char.toNat

/-- A float by the shortest digits that round to it: `0.d₁d₂… * 10 ^ point`. -/
inductive PyFloat
  | nan
  | inf (negative : Bool)
  | finite (negative : Bool) (digits : List (Fin 10)) (point : ℤ)
  deriving DecidableEq, Repr

inductive PyValue
  | none
  | bool (b : Bool)
  | int (n : ℤ)
  | float (f : PyFloat)
  | str (s : Text)
  | list (items : List PyValue)
  | dict (items : List (Text × PyValue))

abbrev Event := List (Text × PyValue)

def join (sep : Text) : List Text → Text
  | [] => []
  | [text] => text
  | text :: next :: texts => text ++ (sep ++ join sep (next :: texts))

/-! ## Numbers -/

def sign (negative : Bool) : Text := if negative then codes "-" else []

def natText (n : ℕ) : Text := (Nat.toDigits 10 n).map Char.toNat

def intText (n : ℤ) : Text := sign (decide (n < 0)) ++ natText n.natAbs

def digitsText (digits : List (Fin 10)) : Text := digits.map fun d => 48 + d.val

def exponentText (e : ℤ) : Text :=
  codes "e" ++ (if e < 0 then codes "-" else codes "+") ++
    (if e.natAbs < 10 then codes "0" else []) ++ natText e.natAbs

/-- `float.__repr__`: positional from `1e-4` up to `1e16`, with an exponent elsewhere. -/
def PyFloat.repr : PyFloat → Text
  | .nan => codes "nan"
  | .inf negative => sign negative ++ codes "inf"
  | .finite negative digits point =>
    sign negative ++
      if point ≤ -4 ∨ 16 < point then
        digitsText (digits.take 1) ++
          (if digits.length ≤ 1 then [] else codes "." ++ digitsText (digits.drop 1)) ++
          exponentText (point - 1)
      else if point ≤ 0 then
        codes "0." ++ digitsText (List.replicate (-point).toNat 0 ++ digits)
      else if digits.length ≤ point.toNat then
        digitsText (digits ++ List.replicate (point.toNat - digits.length) 0) ++ codes ".0"
      else digitsText (digits.take point.toNat) ++ codes "." ++ digitsText (digits.drop point.toNat)

/-! ## Texts -/

def hexDigit (d : ℕ) : ℕ := if d < 10 then 48 + d else 87 + d

def hexText : ℕ → ℕ → Text
  | 0, _ => []
  | width + 1, n => hexText width (n / 16) ++ [hexDigit (n % 16)]

section Repr

variable (isPrintable : ℕ → Bool)

def reprChar (quote c : ℕ) : Text :=
  if c = quote ∨ c = 0x5C then [0x5C, c]
  else if c = 0x09 then codes "\\t"
  else if c = 0x0A then codes "\\n"
  else if c = 0x0D then codes "\\r"
  else if c < 0x20 ∨ c = 0x7F then codes "\\x" ++ hexText 2 c
  else if c < 0x7F then [c]
  else if isPrintable c then [c]
  else if c < 0x100 then codes "\\x" ++ hexText 2 c
  else if c < 0x10000 then codes "\\u" ++ hexText 4 c
  else codes "\\U" ++ hexText 8 c

def reprStr (s : Text) : Text :=
  let quote := if 0x27 ∈ s ∧ 0x22 ∉ s then 0x22 else 0x27
  quote :: (s.flatMap (reprChar isPrintable quote) ++ [quote])

mutual

def pyRepr : PyValue → Text
  | .none => codes "None"
  | .bool b => if b then codes "True" else codes "False"
  | .int n => intText n
  | .float f => f.repr
  | .str s => reprStr isPrintable s
  | .list items => codes "[" ++ (join (codes ", ") (reprItems items) ++ codes "]")
  | .dict items => codes "\x7b" ++ (join (codes ", ") (reprPairs items) ++ codes "\x7d")

def reprItems : List PyValue → List Text
  | [] => []
  | item :: items => pyRepr item :: reprItems items

def reprPairs : List (Text × PyValue) → List Text
  | [] => []
  | (name, value) :: items =>
    (reprStr isPrintable name ++ (codes ": " ++ pyRepr value)) :: reprPairs items

end

/-- `str(value)`. -/
def pyStr : PyValue → Text
  | .str s => s
  | value => pyRepr isPrintable value

end Repr

/-! ## Order -/

/-- `sorted` of texts. -/
def sortTexts (texts : List Text) : List Text := texts.mergeSort fun a b => a ≤ b

theorem mem_sortTexts {texts : List Text} {text : Text} : text ∈ sortTexts texts ↔ text ∈ texts :=
  List.mem_mergeSort

end OtDetection.PyText
