import OtDetection.IsoTime
import OtDetection.ZeekLog

/-! The reader of native Suricata rules. Physical lines are put together to logical ones
through a buffer, and the options of a rule are found by their keys. -/

namespace OtDetection.SuricataRules
open PyText PyNumber
open IsoTime (isDecimal)

/-! ## Patterns -/

section Patterns

def skipSpace (text : Text) : Text := text.dropWhile isSpace

def afterWord (word : String) (text : Text) : Option Text :=
  if codes word <+: text then some (text.drop (codes word).length) else none

def afterKey (key : String) (text : Text) : Option Text := do
  let rest ← afterWord key (skipSpace text)
  afterWord ":" (skipSpace rest)

def behindSemicolons : Text → List Text
  | [] => []
  | c :: rest => if c = 0x3B then rest :: behindSemicolons rest else behindSemicolons rest

def search (key : String) (value : Text → Option Text) (options : Text) : Option Text :=
  (options :: behindSemicolons options).findSome? fun rest => (afterKey key rest).bind value

def ends (rest : Text) : Bool := (skipSpace rest).head? = some 0x3B

def digitsGroup (unicode : Unicode) (text : Text) : Option Text :=
  let digits := (skipSpace text).takeWhile (isDecimal unicode)
  if digits ≠ [] ∧ ends ((skipSpace text).dropWhile (isDecimal unicode)) then some digits else none

def quotedGroup (text : Text) : Option Text := do
  let rest ← afterWord "\"" (skipSpace text)
  let behind ← afterWord "\"" (rest.dropWhile (· ≠ 0x22))
  if ends behind then some (rest.takeWhile (· ≠ 0x22)) else none

/-- `\s*([^;]+?)\s*;`: of nothing but whitespace the last character is left. -/
def phraseGroup (text : Text) : Option Text :=
  let inside := text.takeWhile (· ≠ 0x3B)
  if inside = [] ∨ inside = text then none
  else if strip inside = [] then some (inside.drop (inside.length - 1))
  else some (strip inside)

def isTechniqueChar (c : ℕ) : Bool :=
  isDigit c ∨ (0x41 ≤ c ∧ c ≤ 0x5A) ∨ (0x61 ≤ c ∧ c ≤ 0x7A) ∨ c = 0x2E

/-- `attack_ics\s+([A-Za-z0-9.]+)` at the start of a text: the group and the length of the
match. -/
def attackIcsAt (text : Text) : Option (Text × ℕ) := do
  let rest ← afterWord "attack_ics" text
  let value := (skipSpace rest).takeWhile isTechniqueChar
  if (rest.head?.any isSpace) ∧ value ≠ [] then
    some (value, text.length - ((skipSpace rest).length - value.length))
  else none

/-- `re.findall`, which goes on behind each match; `skip` characters belong to the last one. -/
def findAll (pattern : Text → Option (Text × ℕ)) : ℕ → Text → List Text
  | _, [] => []
  | skip + 1, _ :: rest => findAll pattern skip rest
  | 0, c :: rest =>
    match pattern (c :: rest) with
    | some (value, length) => value :: findAll pattern (length - 1) rest
    | none => findAll pattern 0 rest

/-! ### The header -/

structure Header where
  action : Text
  proto : Text
  options : Text

def field (text : Text) : Option (Text × Text) :=
  let rest := skipSpace text
  let value := rest.takeWhile fun c => !isSpace c
  if (text.head?.any isSpace) ∧ value ≠ [] then some (value, rest.drop value.length) else none

def isAction (action : Text) : Bool :=
  action = codes "alert" ∨ action = codes "drop" ∨ action = codes "pass" ∨ action = codes "reject"

def isDirection (direction : Text) : Bool := direction = codes "->" ∨ direction = codes "<>"

def rstrip (text : Text) : Text := (text.reverse.dropWhile isSpace).reverse

def optionsIn (text : Text) : Option Text := do
  let rest ← afterWord "(" (skipSpace text)
  if (text.head?.any isSpace) ∧ (rstrip rest).getLast? = some 0x29 then
    some (rstrip rest).dropLast
  else none

/-- `HEADER_RE.match`, on a text in one line. Every field is up to the next whitespace. -/
def header (text : Text) : Option Header := do
  let action := text.takeWhile fun c => !isSpace c
  let rest := text.drop action.length
  let (proto, rest) ← field rest
  let (_src, rest) ← field rest
  let (_sport, rest) ← field rest
  let (direction, rest) ← field rest
  let (_dst, rest) ← field rest
  let (_dport, rest) ← field rest
  let options ← optionsIn rest
  if isAction action ∧ isDirection direction then some ⟨action, proto, options⟩ else none

end Patterns

/-! ## Logical lines -/

/-- The variables of `_logical_lines`. -/
structure Scan where
  lines : List (ℕ × Text)
  buffer : Text
  start : ℕ

def readPhysical (scan : Scan) (number : ℕ) (physical : Text) : Scan :=
  let stripped := strip physical
  if scan.buffer = [] ∧ (stripped = [] ∨ [0x23] <+: stripped) then scan
  else
    let start := if scan.buffer = [] then number else scan.start
    let buffer := scan.buffer ++ stripped
    if buffer.getLast? = some 0x5C then ⟨scan.lines, buffer.dropLast, start⟩
    else ⟨scan.lines ++ [(start, buffer)], [], start⟩

def scanLines (number : ℕ) (scan : Scan) : List Text → Scan
  | [] => scan
  | physical :: rest => scanLines (number + 1) (readPhysical scan number physical) rest

def logicalLines (text : List Char) : List (ℕ × Text) :=
  (scanLines 1 ⟨[], [], 0⟩ (ZeekLog.readLines text)).lines

/-! ## Rules -/

structure SuricataRule where
  source : Text
  lineNumber : ℕ
  raw : Text
  action : Text
  protocol : Text
  msg : Option Text
  classtype : Option Text
  sid : Option ℤ
  rev : Option ℤ
  attackIcs : List Text

section Rules

variable (unicode : Unicode)

def number (key : String) (options : Text) : Except PyError (Option ℤ) :=
  match search key (digitsGroup unicode) options with
  | none => .ok none
  | some digits =>
    match intOfText unicode digits with
    | none => .error .valueError
    | some n => .ok (some n)

def optionsOf (text : Text) : Text := ((header text).map Header.options).getD text

def attackIcsOf (options : Text) : List Text :=
  match search "metadata" phraseGroup options with
  | none => []
  | some metadata => findAll attackIcsAt 0 metadata

def readRule (source : Text) (line : ℕ × Text) : Except PyError SuricataRule := do
  let options := optionsOf line.2
  let sid ← number unicode "sid" options
  let rev ← number unicode "rev" options
  return {
    source := source
    lineNumber := line.1
    raw := line.2
    action := ((header line.2).map Header.action).getD []
    protocol := ((header line.2).map Header.proto).getD []
    msg := search "msg" quotedGroup options
    classtype := search "classtype" phraseGroup options
    sid := sid
    rev := rev
    attackIcs := attackIcsOf options }

def readRules (source : Text) (text : List Char) : Except PyError (List SuricataRule) :=
  (logicalLines text).mapM (readRule unicode source)

end Rules

end OtDetection.SuricataRules
