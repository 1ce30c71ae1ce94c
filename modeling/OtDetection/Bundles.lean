import OtDetection.ConversionOrder
import OtDetection.Steps
import OtDetection.JsonDumps
import OtDetection.KeyedMaps
import OtDetection.PyNumber

/-! The artifacts of a ruleset, as queries of one backend and as the deployment bundle. An
artifact goes by the stem of the rule's file alone. What pySigma makes of a rule, the
digest and the replacement of a group name are parameters. -/

namespace OtDetection.Bundles
open PyText PyNumber ConversionOrder JsonDumps KeyedWrites ExceptSteps

/-! ## Paths -/

abbrev Path := List Text

/-- `path.stem`: the name up to its last dot, unless that is its first or its last character. -/
def stem (path : Path) : Text :=
  let name := path.getLast?.getD []
  let suffix := (name.reverse.takeWhile (· ≠ 0x2E)).reverse
  if suffix ≠ [] ∧ suffix.length + 1 < name.length then
    name.take (name.length - (suffix.length + 1))
  else name

def relativeTo (root path : Path) : Option Path :=
  if root <+: path then some (path.drop root.length) else none

def asPosix (parts : Path) : Text := join (codes "/") parts

/-! ## Backends -/

inductive Backend
  | loki
  | opensearch
  | splunk
  | sentinel
  deriving DecidableEq

namespace Backend

def name : Backend → Text
  | loki => codes "loki"
  | opensearch => codes "opensearch"
  | splunk => codes "splunk"
  | sentinel => codes "sentinel"

def extension : Backend → Text
  | loki => codes "logql"
  | opensearch => codes "ppl"
  | splunk => codes "spl"
  | sentinel => codes "kql"

/-- The output format in `SIGMA_DEPLOY`. -/
def outputFormat : Backend → Option Text
  | loki => some (codes "ruler")
  | splunk => some (codes "savedsearches")
  | sentinel | opensearch => none

def comment : Backend → Text
  | sentinel => codes "//"
  | loki | splunk | opensearch => codes "#"

def directory : Backend → Text
  | loki => codes "loki/rules"
  | splunk => codes "splunk"
  | sentinel => codes "sentinel"
  | opensearch => codes "opensearch"

/-- The extension in `EXTENSIONS`. -/
def deployExtension : Backend → Text
  | loki => codes "yaml"
  | splunk => codes "conf"
  | sentinel => codes "kql"
  | opensearch => codes "ppl"

end Backend

def sigmaDeploy : List Backend := [.loki, .splunk, .sentinel, .opensearch]

/-! ## Rules and what surrounds them -/

structure Collection (Rule : Type) extends Ruleset Rule where
  path : Rule → Path
  isCorrelation : Rule → Bool

/-- `sub` is `LOKI_GROUP_RE.sub(template, document, count=1)`, which may refuse the template;
the native rules are the sorted `*.rules` files, relative to the root. -/
structure Environment (Rule : Type) where
  root : Path
  readText : Path → Text
  sha256 : Text → Text
  supportsCorrelation : Backend → Bool
  defaultFormat : Backend → Text
  convertRuleObject : Backend → Option Text → Rule → List Text
  correlationLokiDocument : Rule → Text
  sub : Text → Text → Option Text
  nativeRules : List Path

inductive Error
  | order (error : ConversionOrder.Error)
  | valueError
  | badTemplate
  deriving DecidableEq

structure Unsupported where
  source : Text
  backend : Text
  reason : Text
  deriving DecidableEq

/-- A turn of a loop over rules: the rule is recorded as unsupported, or its artifact is
written and listed. -/
inductive Turn (Entry : Type)
  | skip (gap : Unsupported)
  | write (artifact body : Text) (entry : Entry)

/-- The variables of such a loop. -/
structure Build (Entry : Type) where
  files : AList fun _ : Text => Text
  manifest : List Entry
  unsupported : List Unsupported

namespace Build

variable {Entry : Type}

def empty : Build Entry := ⟨∅, [], []⟩

def add (build : Build Entry) : Turn Entry → Build Entry
  | .skip gap => { build with unsupported := build.unsupported ++ [gap] }
  | .write artifact body entry =>
    { build with files := build.files.insert artifact body, manifest := build.manifest ++ [entry] }

end Build

section Pipelines

variable {Rule : Type} [DecidableEq Rule] (env : Environment Rule)

/-- A correlation rule for a backend that does not convert these. -/
def isUnsupported (backend : Backend) (collection : Collection Rule) (rule : Rule) : Bool :=
  collection.isCorrelation rule && !env.supportsCorrelation backend

def unsupported (backend : Backend) (source : Text) : Unsupported :=
  ⟨source, backend.name, codes "backend does not implement correlation conversion"⟩

/-- `"\n".join(queries).rstrip("\n") + "\n"`. -/
def queriesText (queries : List Text) : Text :=
  ((join (codes "\n") queries).reverse.dropWhile (· = 0x0A)).reverse ++ codes "\n"

/-! ### `build_artifacts` -/

structure ArtifactEntry where
  source : Text
  sourceSha256 : Text
  artifact : Text
  backend : Text
  queries : List Text

def relative (path : Path) : Text :=
  match relativeTo env.root path with
  | some parts => asPosix parts
  | none => codes "/" ++ asPosix path

def artifactName (backend : Backend) (path : Path) : Text :=
  stem path ++ (codes "." ++ backend.extension)

def artifactQueries (backend : Backend) (rule : Rule) : List Text :=
  env.convertRuleObject backend (some (env.defaultFormat backend)) rule

def artifactText (backend : Backend) (collection : Collection Rule) (rule : Rule) : Text :=
  codes "# source: " ++ (relative env (collection.path rule) ++ (codes "\n# backend: " ++
    (backend.name ++ (codes "\n" ++ queriesText (artifactQueries env backend rule)))))

def artifactTurn (backend : Backend) (collection : Collection Rule) (rule : Rule) :
    Turn ArtifactEntry :=
  let path := collection.path rule
  if isUnsupported env backend collection rule then .skip (unsupported backend (relative env path))
  else .write (artifactName backend path) (artifactText env backend collection rule)
    ⟨relative env path, env.sha256 (env.readText path), artifactName backend path, backend.name,
      artifactQueries env backend rule⟩

def buildArtifacts (backend : Backend) (collection : Collection Rule) :
    Except ConversionOrder.Error (Build ArtifactEntry) := do
  let ordered ← conversionOrder collection.toRuleset
  return (ordered.map (artifactTurn env backend collection)).foldl Build.add .empty

/-! ### `build_bundle` -/

structure BundleEntry where
  source : Text
  sourceSha256 : Text
  target : Text
  backend : Text

def deployPath (target : Backend) (path : Path) : Text :=
  target.directory ++ (codes "/" ++ (stem path ++ (codes "." ++ target.deployExtension)))

def renameRulerGroup (document name : Text) : Except Error Text :=
  match env.sub (codes "\\g<1>" ++ name) document with
  | some renamed => .ok renamed
  | none => .error .badTemplate

def deployQueries (target : Backend) (collection : Collection Rule) (rule : Rule) :
    Except Error (List Text) :=
  if target = .loki then
    (if collection.isCorrelation rule then [env.correlationLokiDocument rule]
      else env.convertRuleObject target target.outputFormat rule).mapM fun query =>
        renameRulerGroup env query (stem (collection.path rule))
  else .ok (env.convertRuleObject target target.outputFormat rule)

def deployText (target : Backend) (relative : Text) (queries : List Text) : Text :=
  target.comment ++ (codes " source: " ++ (relative ++ (codes "\n" ++ queriesText queries)))

def deployTurn (target : Backend) (collection : Collection Rule) (rule : Rule) :
    Except Error (Turn BundleEntry) :=
  let path := collection.path rule
  match relativeTo env.root path with
  | none => .error .valueError
  | some parts =>
    if isUnsupported env target collection rule then
      .ok (.skip (unsupported target (asPosix parts)))
    else (deployQueries env target collection rule).map fun queries =>
      .write (deployPath target path) (deployText target (asPosix parts) queries)
        ⟨asPosix parts, env.sha256 (env.readText path), deployPath target path, target.name⟩

def deployTarget (collections : Backend → Collection Rule) (build : Build BundleEntry)
    (target : Backend) : Except Error (Build BundleEntry) :=
  match conversionOrder (collections target).toRuleset with
  | .error error => .error (.order error)
  | .ok ordered => ordered.foldlM (fun build rule =>
      (deployTurn env target (collections target) rule).map build.add) build

def nativePath : Text := codes "suricata/ot-detection.rules"

def nativePart (path : Path) : Text :=
  codes "# === " ++ (asPosix path ++ (codes " ===\n" ++
    (((env.readText (env.root ++ path)).reverse.dropWhile isSpace).reverse ++ codes "\n")))

def nativeText : Text :=
  codes "# OT detection ruleset for Suricata.\n" ++
    (codes "# Generated by pipelines/deploy.py; do not edit by hand.\n" ++
      (codes "# Install: copy to the Suricata rules directory and reload.\n\n" ++
        join (codes "\n") (env.nativeRules.map (nativePart env))))

def nativeEntry (path : Path) : BundleEntry :=
  ⟨asPosix path, env.sha256 (env.readText (env.root ++ path)), nativePath, codes "suricata"⟩

/-- What `manifest.json` lists. -/
structure Manifest where
  artifacts : List BundleEntry
  unsupported : List Unsupported

def BundleEntry.doc (entry : BundleEntry) : Doc := .object [
  (codes "source", .string entry.source),
  (codes "source_sha256", .string entry.sourceSha256),
  (codes "target", .string entry.target),
  (codes "backend", .string entry.backend)]

def Unsupported.doc (gap : Unsupported) : Doc := .object [
  (codes "source", .string gap.source),
  (codes "backend", .string gap.backend),
  (codes "reason", .string gap.reason)]

def Manifest.doc (manifest : Manifest) : Doc := .object [
  (codes "artifacts", .array (manifest.artifacts.map BundleEntry.doc)),
  (codes "unsupported", .array (manifest.unsupported.map Unsupported.doc))]

def sortEntries (entries : List BundleEntry) : List BundleEntry :=
  entries.mergeSort fun a b => a.target < b.target ∨ a.target = b.target ∧ a.source ≤ b.source

def sortUnsupported (gaps : List Unsupported) : List Unsupported :=
  gaps.mergeSort fun a b => a.backend < b.backend ∨ a.backend = b.backend ∧ a.source ≤ b.source

def manifestOf (build : Build BundleEntry) : Manifest where
  artifacts := sortEntries (build.manifest ++ env.nativeRules.map (nativeEntry env))
  unsupported := sortUnsupported build.unsupported

/-- The bundle, and beside it what its manifest lists. Each target loads a collection of
its own. -/
def buildBundle (collections : Backend → Collection Rule) :
    Except Error ((AList fun _ : Text => Text) × Manifest) := do
  let build ← sigmaDeploy.foldlM (deployTarget env collections) .empty
  let manifest := manifestOf env build
  return ((build.files.insert nativePath (nativeText env)).insert (codes "manifest.json")
    (dumps manifest.doc ++ codes "\n"), manifest)

end Pipelines

/-! ## Turns -/

namespace Turn

variable {Entry : Type}

def written : Turn Entry → Option (Text × Text)
  | .skip _ => none
  | .write artifact body _ => some (artifact, body)

def entry : Turn Entry → Option Entry
  | .skip _ => none
  | .write _ _ entry => some entry

def gap : Turn Entry → Option Unsupported
  | .skip gap => some gap
  | .write _ _ _ => none

def artifact (turn : Turn Entry) : Option Text := turn.written.map Prod.fst

end Turn

section Turns

variable {Entry : Type}

theorem foldl_add (turns : List (Turn Entry)) (build : Build Entry) :
    turns.foldl Build.add build =
      ⟨store build.files (turns.filterMap Turn.written),
        build.manifest ++ turns.filterMap Turn.entry,
        build.unsupported ++ turns.filterMap Turn.gap⟩ := by
  induction turns generalizing build with
  | nil => simp [store]
  | cons turn turns ih =>
    rw [List.foldl_cons, ih]
    cases turn with
    | skip gap => simp [List.filterMap_cons, Build.add, Turn.written, Turn.entry, Turn.gap]
    | write artifact body entry =>
      simp [List.filterMap_cons, Build.add, Turn.written, Turn.entry, Turn.gap, store_cons]

theorem map_fst_written (turns : List (Turn Entry)) :
    (turns.filterMap Turn.written).map Prod.fst = turns.filterMap Turn.artifact :=
  List.map_filterMap ..

theorem length_entries (turns : List (Turn Entry)) :
    (turns.filterMap Turn.entry).length = (turns.filterMap Turn.artifact).length := by
  induction turns with
  | nil => rfl
  | cons turn turns ih =>
    cases turn with
    | skip gap => exact ih
    | write artifact body entry => exact congrArg Nat.succ ih

theorem artifacts_eq {α : Type} {turns : List (Turn Entry)} {items : List α} {skipped : α → Bool}
    {name : α → Text} (h : turns.map Turn.artifact =
      items.map fun item => if skipped item then none else some (name item)) :
    turns.filterMap Turn.artifact = (items.filter fun item => !skipped item).map name := by
  induction items generalizing turns with
  | nil =>
    rw [List.map_nil, List.map_eq_nil_iff] at h
    rw [h]
    rfl
  | cons item items ih =>
    cases turns with
    | nil => cases h
    | cons turn turns =>
      rw [List.map_cons, List.map_cons, List.cons.injEq] at h
      rw [List.filterMap_cons, h.1, ih h.2]
      cases skip : skipped item with
      | true => simp [skip]
      | false => simp [skip]

theorem kept_of_nodup {turns : List (Turn Entry)} (nodup : (turns.filterMap Turn.artifact).Nodup)
    {artifact body : Text} {entry : Entry} (mem : .write artifact body entry ∈ turns) :
    (turns.foldl Build.add .empty).files.lookup artifact = some body := by
  have inside : (artifact, body) ∈ turns.filterMap Turn.written :=
    List.mem_filterMap.mpr ⟨_, mem, rfl⟩
  rw [foldl_add]
  rw [← map_fst_written] at nodup
  exact lookup_store_of_nodup nodup inside

theorem count_iff (turns : List (Turn Entry)) :
    (turns.foldl Build.add .empty).files.keys.length =
        (turns.foldl Build.add .empty).manifest.length ↔
      (turns.filterMap Turn.artifact).Nodup := by
  have keys : (store ∅ (turns.filterMap Turn.written)).keys.length =
      (turns.filterMap Turn.artifact).toFinset.card := by
    rw [length_keys_store, map_fst_written]
  rw [foldl_add]
  simp only [Build.empty, List.nil_append]
  rw [keys, length_entries, card_toFinset_eq_length_iff]

end Turns

theorem artifactTurn_cases {Rule : Type} (env : Environment Rule) (backend : Backend)
    (collection : Collection Rule) (rule : Rule) :
    (isUnsupported env backend collection rule = true ∧ artifactTurn env backend collection rule =
      .skip (unsupported backend (relative env (collection.path rule)))) ∨
    (isUnsupported env backend collection rule = false ∧
      ∃ entry, artifactTurn env backend collection rule =
        .write (artifactName backend (collection.path rule))
          (artifactText env backend collection rule) entry) := by
  unfold artifactTurn
  cases isUnsupported env backend collection rule with
  | true => exact .inl ⟨rfl, rfl⟩
  | false => exact .inr ⟨rfl, _, rfl⟩

theorem deployTurn_ok {Rule : Type} {env : Environment Rule} {target : Backend}
    {collection : Collection Rule} {rule : Rule} {turn : Turn BundleEntry}
    (h : deployTurn env target collection rule = .ok turn) :
    ∃ parts, relativeTo env.root (collection.path rule) = some parts ∧
      ((isUnsupported env target collection rule = true ∧
          turn = .skip (unsupported target (asPosix parts))) ∨
        (isUnsupported env target collection rule = false ∧
          ∃ queries, deployQueries env target collection rule = .ok queries ∧
            turn = .write (deployPath target (collection.path rule))
              (deployText target (asPosix parts) queries)
              ⟨asPosix parts, env.sha256 (env.readText (collection.path rule)),
                deployPath target (collection.path rule), target.name⟩)) := by
  unfold deployTurn at h
  cases path : relativeTo env.root (collection.path rule) with
  | none =>
    simp only [path] at h
    cases h
  | some parts =>
    refine ⟨parts, rfl, ?_⟩
    simp only [path] at h
    cases skip : isUnsupported env target collection rule with
    | true =>
      rw [skip] at h
      exact .inl ⟨rfl, (Except.ok.inj h).symm⟩
    | false =>
      rw [skip] at h
      obtain ⟨queries, convert, same⟩ := map_eq_ok_iff.mp h
      exact .inr ⟨rfl, queries, convert, same.symm⟩

end OtDetection.Bundles
