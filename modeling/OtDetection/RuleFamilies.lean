import OtDetection.Steps
import OtDetection.InvertedIndex
import OtDetection.SuricataRules

/-! The five families of rule files and the techniques that they detect: by the directory a
file is discovered in, and by the suffix of its path. What the YAML loader and pySigma make
of a text are parameters. -/

namespace OtDetection.RuleFamilies
open PyText PyNumber InvertedIndex
open IsoTime (isDecimal)
open SuricataRules (afterWord skipSpace findAll readRules SuricataRule)

/-! ## YAML documents -/

/-- A number, a truth value or a date is a scalar by its `str`. -/
inductive Yaml
  | null
  | string (text : Text)
  | scalar (text : Text)
  | sequence (items : List Yaml)
  | mapping (items : List (Text × Yaml))

inductive Error
  | valueError (message : Text)
  | python (error : PyError)
  | attributeError
  | isADirectory
  | yaml
  | sigma
  deriving DecidableEq

def Yaml.has (key : String) : Yaml → Bool
  | .mapping items => (items.lookup (codes key)).isSome
  | _ => false

/-- A rule of a collection: whether it is a correlation rule, and its tags as texts. -/
structure LoadedRule where
  isCorrelation : Bool
  tags : List Text

/-- `REPO_ROOT`, the tables of the interpreter, and the libraries. -/
structure Environment where
  root : Text
  unicode : Unicode
  upper : Text → Text
  repr : Yaml → Text
  safeLoad : List Char → Except Error Yaml
  ruleFromYaml : List Char → Except Error (List Text)
  collectionFromYaml : List Char → Except Error (List LoadedRule)

section Techniques

variable (env : Environment)

def strOf : Yaml → Text
  | .null => codes "None"
  | .string text | .scalar text => text
  | value => env.repr value

/-! ## Techniques of a file -/

def isNumber (text : Text) : Bool :=
  (text.length = 4 ∧ text.all (isDecimal env.unicode)) ∨
    (text.length = 8 ∧ (text.take 4).all (isDecimal env.unicode) ∧ text[4]? = some 0x2E ∧
      (text.drop 5).all (isDecimal env.unicode))

def tagNumber (tag : Text) : Option Text := do
  let rest ← afterWord "attack.t" tag
  let number := if rest.getLast? = some 0x0A then rest.dropLast else rest
  if isNumber env number then some number else none

/-- `if technique not in techniques: techniques.append(technique)`. -/
def addNew (techniques : List Text) (technique : Text) : List Text :=
  if techniques.contains technique then techniques else techniques ++ [technique]

def techniquesFromTags (tags : List Text) : List Text :=
  tags.foldl (fun techniques tag =>
    match tagNumber env tag with
    | some number => addNew techniques (codes "T" ++ env.upper number)
    | none => techniques) []

def isCorrelationRule (text : List Char) : Except Error Bool :=
  (env.safeLoad text).map (Yaml.has "correlation")

def loadSigmaRule (path : Text) (text : List Char) : Except Error (List Text) := do
  if ← isCorrelationRule env text then
    match ← env.collectionFromYaml text with
    | [⟨true, tags⟩] => return tags
    | _ => .error (.valueError (env.root ++ (codes "/" ++ (path ++
        codes " is not a single correlation rule"))))
  else env.ruleFromYaml text

def sigmaTechniques (path : Text) (text : List Char) : Except Error (List Text) :=
  (loadSigmaRule env path text).map (techniquesFromTags env)

def listOf : Yaml → Except Error (List Text)
  | .sequence items => .ok (items.map (strOf env))
  | .string text => .ok (text.map fun c => [c])
  | .mapping items => .ok (items.map Prod.fst)
  | .null | .scalar _ => .error (.python .typeError)

def documentTags : Yaml → Except Error (List Text)
  | .mapping items => listOf env ((items.lookup (codes "tags")).getD (.sequence []))
  | _ => .error .attributeError

def documentTechniques (text : List Char) : Except Error (List Text) := do
  let data ← env.safeLoad text
  (documentTags env data).map (techniquesFromTags env)

def baselineTechniques (text : List Char) : Except Error (List Text) := documentTechniques env text

def conduitTechniques (text : List Char) : Except Error (List Text) := documentTechniques env text

def attackIcsEntry (text : Text) : Option (Text × ℕ) := do
  let rest ← afterWord "attack_ics" text
  let rest ← afterWord "=" (skipSpace rest)
  let rest ← afterWord "\"" (skipSpace rest)
  let value := rest.takeWhile (· ≠ 0x22)
  if value ≠ [] ∧ value ≠ rest then some (value, text.length - rest.length + value.length + 1)
  else none

def yaraTechniques (text : List Char) : List Text :=
  (findAll attackIcsEntry 0 (text.map Char.toNat)).map env.upper

def nativeTechniques (path : Text) (text : List Char) : Except Error (List Text) :=
  match readRules env.unicode path text with
  | .error error => .error (.python error)
  | .ok rules => .ok ((rules.flatMap SuricataRule.attackIcs).foldl addNew [])

/-! ## Families -/

inductive Family
  | sigma
  | baseline
  | conduit
  | yara
  | native
  deriving DecidableEq

def families : List Family := [.sigma, .baseline, .conduit, .yara, .native]

namespace Family

def directory : Family → Text
  | sigma => codes "rules/sigma/"
  | baseline => codes "rules/baseline/"
  | conduit => codes "rules/conduit/"
  | yara => codes "rules/yara/"
  | native => codes "rules/native/"

def extension : Family → Text
  | sigma | baseline | conduit => codes "yml"
  | yara => codes "yar"
  | native => codes "rules"

end Family

def familyTechniques (family : Family) (path : Text) (text : List Char) :
    Except Error (List Text) :=
  match family with
  | .sigma => sigmaTechniques env path text
  | .baseline => baselineTechniques env text
  | .conduit => conduitTechniques env text
  | .yara => .ok (yaraTechniques env text)
  | .native => nativeTechniques env path text

/-! ## Paths -/

abbrev Tree := AList fun _ : Text => List Char

def parts (path : Text) : List Text := path.splitOn 0x2F

def nameOf (path : Text) : Text := (parts path).getLast?.getD []

def suffix (path : Text) : Text :=
  let name := nameOf path
  let extension := (name.reverse.takeWhile (· ≠ 0x2E)).reverse
  if extension ≠ [] ∧ extension.length + 1 < name.length then 0x2E :: extension else []

/-- A file under the directory of the family, of its extension and without `.test.` in its
name; a native rules file may have that. -/
def belongs (family : Family) (path : Text) : Bool :=
  family.directory <+: path ∧ 0x2E :: family.extension <:+ nameOf path ∧
    (family = .native ∨ ¬ codes ".test." <:+: nameOf path)

def rulePaths (tree : Tree) (family : Family) : List Text :=
  (tree.keys.filter (belongs family)).mergeSort fun path other => parts path ≤ parts other

/-- `path.read_text()` of a file that is there. -/
def readText (tree : Tree) (path : Text) : List Char := (tree.lookup path).getD []

/-! ## The two ways of asking -/

def techniquesFor (path : Text) (text : List Char) : Except Error (List Text) :=
  if suffix path = codes ".rules" then nativeTechniques env path text
  else if suffix path = codes ".yml" ∨ suffix path = codes ".yaml" then
    sigmaTechniques env path text
  else .error (.valueError (codes "unsupported rule format: " ++ (env.root ++ (codes "/" ++ path))))

def creditRule (tree : Tree) (family : Family) (sources : List (Text × List Text)) (path : Text) :
    Except Error (List (Text × List Text)) :=
  (familyTechniques env family path (readText tree path)).map (credit sources path)

def tidy (sources : List (Text × List Text)) : List (Text × List Text) :=
  sources.map fun entry => (entry.1, entry.2.dedup.mergeSort fun path other => path ≤ other)

def detectedTechniques (tree : Tree) : Except Error (List (Text × List Text)) := do
  let sources ← families.foldlM (fun sources family =>
    (rulePaths tree family).foldlM (creditRule env tree family) sources) []
  return tidy sources

end Techniques

end OtDetection.RuleFamilies
