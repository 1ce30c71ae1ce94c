import OtDetection.Bundles
import OtDetection.KeyedMaps

/-! Which rules keep their artifact. Two rules of one backend whose files have the same stem
share an artifact and the later one replaces the earlier; the targets of the bundle keep
apart by their directories. -/

namespace OtDetection.Bundles
open PyText ConversionOrder KeyedWrites ExceptSteps

section Kept

variable {Rule : Type} [DecidableEq Rule] (env : Environment Rule)

def yielded (collection : Collection Rule) : List Rule :=
  (conversionOrder collection.toRuleset).toOption.getD []

def converted (backend : Backend) (collection : Collection Rule) : List Rule :=
  (yielded collection).filter fun rule => !isUnsupported env backend collection rule

def DistinctStems (backend : Backend) (collection : Collection Rule) : Prop :=
  ((converted env backend collection).map fun rule => stem (collection.path rule)).Nodup

/-- An entry records the rule as unsupported. -/
def Recorded (gaps : List Unsupported) (backend : Backend) (source : Text) : Prop :=
  ∃ gap ∈ gaps, gap.source = source ∧ gap.backend = backend.name

/-- Each rule is recorded as unsupported or has an artifact with its own text, and the
artifacts are as many as the entries of the manifest. -/
structure ArtifactsKept (backend : Backend) (collection : Collection Rule)
    (build : Build ArtifactEntry) : Prop where
  rules : ∀ rule ∈ yielded collection,
    Recorded build.unsupported backend (relative env (collection.path rule)) ∨
      build.files.lookup (artifactName backend (collection.path rule)) =
        some (artifactText env backend collection rule)
  count : build.files.keys.length = build.manifest.length

variable {env}

theorem yielded_eq {collection : Collection Rule} {ordered : List Rule}
    (order : conversionOrder collection.toRuleset = .ok ordered) :
    yielded collection = ordered := by
  rw [yielded, order]
  rfl

/-! ### `build_artifacts` -/

theorem buildArtifacts_ok {backend : Backend} {collection : Collection Rule}
    {build : Build ArtifactEntry} (run : buildArtifacts env backend collection = .ok build) :
    build = ((yielded collection).map (artifactTurn env backend collection)).foldl
      Build.add .empty := by
  obtain ⟨ordered, order, made⟩ := bind_eq_ok_iff.mp run
  rw [yielded_eq order]
  exact (Except.ok.inj made).symm

theorem nodup_artifactName_iff (backend : Backend) (collection : Collection Rule) :
    ((converted env backend collection).map fun rule =>
      artifactName backend (collection.path rule)).Nodup ↔
        DistinctStems env backend collection := by
  have injective : Function.Injective fun name : Text => name ++ (codes "." ++ backend.extension) :=
    fun _ _ same => List.append_cancel_right same
  have stems := @List.nodup_map_iff _ _ _
    ((converted env backend collection).map fun rule => stem (collection.path rule)) injective
  rwa [List.map_map] at stems

theorem buildArtifacts_keeps_iff {backend : Backend} {collection : Collection Rule}
    {build : Build ArtifactEntry} (run : buildArtifacts env backend collection = .ok build) :
    ArtifactsKept env backend collection build ↔ DistinctStems env backend collection := by
  have built := buildArtifacts_ok run
  have artifacts : ((yielded collection).map (artifactTurn env backend collection)).filterMap
      Turn.artifact = (converted env backend collection).map fun rule =>
        artifactName backend (collection.path rule) := by
    apply artifacts_eq
    rw [List.map_map]
    apply List.map_congr_left
    intro rule _
    rcases artifactTurn_cases env backend collection rule with ⟨skip, turn⟩ | ⟨skip, entry, turn⟩
    · simp [turn, skip, Turn.artifact, Turn.written]
    · simp [turn, skip, Turn.artifact, Turn.written]
  have count := count_iff ((yielded collection).map (artifactTurn env backend collection))
  rw [← built, artifacts, nodup_artifactName_iff] at count
  refine ⟨fun kept => count.mp kept.count, fun distinct => ⟨?_, count.mpr distinct⟩⟩
  intro rule mem
  have turned := List.mem_map_of_mem (f := artifactTurn env backend collection) mem
  rcases artifactTurn_cases env backend collection rule with ⟨-, turn⟩ | ⟨-, entry, turn⟩
  · refine .inl ⟨unsupported backend (relative env (collection.path rule)), ?_, rfl, rfl⟩
    rw [built, foldl_add]
    exact List.mem_append_right _ (List.mem_filterMap.mpr ⟨_, turned, by rw [turn]; rfl⟩)
  · right
    rw [turn] at turned
    rw [← nodup_artifactName_iff, ← artifacts] at distinct
    rw [built]
    exact kept_of_nodup distinct turned

/-! ### `build_bundle` -/

theorem foldlM_turns {α Entry : Type} {turn : α → Except Error (Turn Entry)} {items : List α}
    {build next : Build Entry}
    (run : items.foldlM (fun build item => (turn item).map build.add) build = .ok next) :
    ∃ turns : List (Turn Entry), turns.map .ok = items.map turn ∧
      next = turns.foldl Build.add build := by
  induction items generalizing build with
  | nil => exact ⟨[], rfl, (Except.ok.inj run).symm⟩
  | cons item items ih =>
    obtain ⟨middle, step, run⟩ := foldlM_cons_eq_ok_iff.mp run
    obtain ⟨made, first, rfl⟩ := map_eq_ok_iff.mp step
    obtain ⟨turns, rest, last⟩ := ih run
    refine ⟨made :: turns, ?_, last⟩
    rw [List.map_cons, List.map_cons, first, rest]

/-- The rules of the targets in the order in which they are deployed. -/
def deployed (targets : List Backend) (collections : Backend → Collection Rule) :
    List (Backend × Rule) :=
  targets.flatMap fun target => (yielded (collections target)).map (target, ·)

theorem deployTarget_ok {collections : Backend → Collection Rule} {target : Backend}
    {build next : Build BundleEntry}
    (h : deployTarget env collections build target = .ok next) :
    ∃ ordered, conversionOrder (collections target).toRuleset = .ok ordered ∧
      ordered.foldlM (fun build rule =>
        (deployTurn env target (collections target) rule).map build.add) build = .ok next := by
  rw [deployTarget] at h
  cases order : conversionOrder (collections target).toRuleset with
  | error e =>
    rw [order] at h
    cases h
  | ok ordered =>
    rw [order] at h
    exact ⟨ordered, rfl, h⟩

theorem deployTargets_ok {collections : Backend → Collection Rule} {targets : List Backend}
    {build next : Build BundleEntry}
    (run : targets.foldlM (deployTarget env collections) build = .ok next) :
    ∃ turns : List (Turn BundleEntry), turns.map .ok = (deployed targets collections).map
        (fun rule => deployTurn env rule.1 (collections rule.1) rule.2) ∧
      next = turns.foldl Build.add build := by
  induction targets generalizing build with
  | nil => exact ⟨[], rfl, (Except.ok.inj run).symm⟩
  | cons target targets ih =>
    obtain ⟨middle, first, run⟩ := foldlM_cons_eq_ok_iff.mp run
    obtain ⟨later, rest, last⟩ := ih run
    obtain ⟨ordered, order, loop⟩ := deployTarget_ok first
    obtain ⟨turns, here, middle_eq⟩ := foldlM_turns loop
    refine ⟨turns ++ later, ?_, ?_⟩
    · rw [List.map_append, here, rest, deployed, deployed, List.flatMap_cons, List.map_append,
        yielded_eq order, List.map_map]
      rfl
    · rw [last, middle_eq, List.foldl_append]

theorem deployPath_take (target : Backend) (path : Path) :
    (deployPath target path).take 2 = target.directory.take 2 := by
  cases target <;> rfl

theorem deployPath_ne {artifact : Text} (other : ∀ target : Backend,
    target.directory.take 2 ≠ artifact.take 2) (target : Backend) (path : Path) :
    deployPath target path ≠ artifact := by
  intro same
  apply other target
  rw [← deployPath_take target path, same]

theorem deployPath_ne_nativePath (target : Backend) (path : Path) :
    deployPath target path ≠ nativePath := by
  apply deployPath_ne
  intro target
  cases target <;> decide

theorem deployPath_ne_manifest (target : Backend) (path : Path) :
    deployPath target path ≠ codes "manifest.json" := by
  apply deployPath_ne
  intro target
  cases target <;> decide

theorem mem_sigmaDeploy (target : Backend) : target ∈ sigmaDeploy := by
  cases target <;> decide

theorem directory_inj {target other : Backend}
    (same : target.directory.take 2 = other.directory.take 2) : target = other := by
  cases target <;> cases other <;> first | rfl | exact absurd same (by decide)

theorem nodup_deployPath_iff (collections : Backend → Collection Rule) :
    (((deployed sigmaDeploy collections).filter fun rule =>
      !isUnsupported env rule.1 (collections rule.1) rule.2).map fun rule =>
        deployPath rule.1 ((collections rule.1).path rule.2)).Nodup ↔
      ∀ target, DistinctStems env target (collections target) := by
  have paths : ((deployed sigmaDeploy collections).filter fun rule =>
      !isUnsupported env rule.1 (collections rule.1) rule.2).map (fun rule =>
        deployPath rule.1 ((collections rule.1).path rule.2)) =
      sigmaDeploy.flatMap fun target => (converted env target (collections target)).map fun rule =>
        deployPath target ((collections target).path rule) := by
    rw [deployed, List.filter_flatMap, List.map_flatMap]
    congr 1
    funext target
    rw [List.filter_map, List.map_map]
    rfl
  have apart : sigmaDeploy.Pairwise (Function.onFun List.Disjoint fun target =>
      (converted env target (collections target)).map fun rule =>
        deployPath target ((collections target).path rule)) := by
    have distinct : sigmaDeploy.Pairwise (· ≠ ·) := by decide
    apply distinct.imp
    intro target other differ artifact mem mem'
    obtain ⟨rule, -, here⟩ := List.mem_map.mp mem
    obtain ⟨rule', -, there⟩ := List.mem_map.mp mem'
    apply differ
    apply directory_inj
    rw [← deployPath_take target ((collections target).path rule), here, ← there, deployPath_take]
  have stems (target : Backend) : ((converted env target (collections target)).map fun rule =>
      deployPath target ((collections target).path rule)).Nodup ↔
        DistinctStems env target (collections target) := by
    have injective : Function.Injective fun name : Text =>
        target.directory ++ (codes "/" ++ (name ++ (codes "." ++ target.deployExtension))) := by
      intro name other same
      exact List.append_cancel_right (List.append_cancel_left (List.append_cancel_left same))
    have named := @List.nodup_map_iff _ _ _ ((converted env target (collections target)).map
      fun rule => stem ((collections target).path rule)) injective
    rwa [List.map_map] at named
  rw [paths, List.nodup_flatMap]
  simp only [stems, mem_sigmaDeploy, forall_const, apart, and_true]

def sigmaEntries (manifest : Manifest) : List BundleEntry :=
  manifest.artifacts.filter fun entry => entry.backend ≠ codes "suricata"

variable (env) in
/-- For each target, each rule is recorded as unsupported or has an artifact with its own
text, and there are as many artifacts as entries. -/
structure BundleKept (collections : Backend → Collection Rule) (files : AList fun _ : Text => Text)
    (manifest : Manifest) : Prop where
  rules : ∀ target, ∀ rule ∈ yielded (collections target),
    ∃ parts, relativeTo env.root ((collections target).path rule) = some parts ∧
      (Recorded manifest.unsupported target (asPosix parts) ∨
        ∃ queries, deployQueries env target (collections target) rule = .ok queries ∧
          files.lookup (deployPath target ((collections target).path rule)) =
            some (deployText target (asPosix parts) queries))
  count : ((sigmaEntries manifest).map BundleEntry.target).toFinset.card =
    (sigmaEntries manifest).length

variable (env) in
/-- A turn for each rule of each target. -/
def AreTurns (collections : Backend → Collection Rule) (turns : List (Turn BundleEntry)) : Prop :=
  turns.map .ok = (deployed sigmaDeploy collections).map
    fun rule => deployTurn env rule.1 (collections rule.1) rule.2

theorem buildBundle_ok {collections : Backend → Collection Rule}
    {files : AList fun _ : Text => Text} {manifest : Manifest}
    (run : buildBundle env collections = .ok (files, manifest)) :
    ∃ turns, AreTurns env collections turns ∧
      manifest = manifestOf env (turns.foldl Build.add .empty) ∧
      ∀ target path, files.lookup (deployPath target path) =
        (turns.foldl Build.add .empty).files.lookup (deployPath target path) := by
  obtain ⟨build, built, made⟩ := bind_eq_ok_iff.mp run
  obtain ⟨turns, each, build_eq⟩ := deployTargets_ok built
  obtain ⟨files_eq, manifest_eq⟩ := Prod.mk.inj (Except.ok.inj made)
  refine ⟨turns, each, by rw [← manifest_eq, build_eq], ?_⟩
  intro target path
  rw [← files_eq, AList.lookup_insert_ne (deployPath_ne_manifest target path),
    AList.lookup_insert_ne (deployPath_ne_nativePath target path), build_eq]

theorem mem_deployed {collections : Backend → Collection Rule} {rule : Backend × Rule} :
    rule ∈ deployed sigmaDeploy collections ↔ rule.2 ∈ yielded (collections rule.1) := by
  rw [deployed, List.mem_flatMap]
  constructor
  · intro ⟨target, _, mem⟩
    obtain ⟨rule', inside, rfl⟩ := List.mem_map.mp mem
    exact inside
  · intro mem
    exact ⟨rule.1, mem_sigmaDeploy rule.1, List.mem_map_of_mem mem⟩

theorem name_ne_suricata (target : Backend) : target.name ≠ codes "suricata" := by
  cases target <;> decide

namespace AreTurns

variable {collections : Backend → Collection Rule} {turns : List (Turn BundleEntry)}

theorem of_rule (h : AreTurns env collections turns) {target : Backend} {rule : Rule}
    (mem : rule ∈ yielded (collections target)) :
    ∃ turn ∈ turns, deployTurn env target (collections target) rule = .ok turn := by
  have inside := List.mem_map_of_mem (f := fun rule : Backend × Rule =>
    deployTurn env rule.1 (collections rule.1) rule.2)
    (mem_deployed.mpr mem : (target, rule) ∈ deployed sigmaDeploy collections)
  rw [← h] at inside
  obtain ⟨turn, made, same⟩ := List.mem_map.mp inside
  exact ⟨turn, made, same.symm⟩

theorem of_turn (h : AreTurns env collections turns) {turn : Turn BundleEntry}
    (mem : turn ∈ turns) :
    ∃ target rule, deployTurn env target (collections target) rule = .ok turn := by
  have inside : Except.ok turn ∈ turns.map (Except.ok (ε := Error)) := List.mem_map_of_mem mem
  rw [h] at inside
  obtain ⟨rule, -, made⟩ := List.mem_map.mp inside
  exact ⟨rule.1, rule.2, made⟩

theorem artifacts (h : AreTurns env collections turns) :
    turns.filterMap Turn.artifact = ((deployed sigmaDeploy collections).filter fun rule =>
      !isUnsupported env rule.1 (collections rule.1) rule.2).map fun rule =>
        deployPath rule.1 ((collections rule.1).path rule.2) := by
  apply artifacts_eq
  apply InsertionGroups.map_eq_map_of_ok h
  intro rule turn made
  obtain ⟨parts, -, ⟨skip, rfl⟩ | ⟨skip, queries, -, rfl⟩⟩ := deployTurn_ok made
  · simp [skip, Turn.artifact, Turn.written]
  · simp [skip, Turn.artifact, Turn.written]

theorem entry (h : AreTurns env collections turns) {turn : Turn BundleEntry} (mem : turn ∈ turns) :
    turn.entry.map BundleEntry.target = turn.artifact ∧
      ∀ entry ∈ turn.entry, entry.backend ≠ codes "suricata" := by
  obtain ⟨target, rule, made⟩ := h.of_turn mem
  obtain ⟨parts, -, ⟨-, rfl⟩ | ⟨-, queries, -, rfl⟩⟩ := deployTurn_ok made
  · exact ⟨rfl, by simp [Turn.entry]⟩
  · refine ⟨rfl, ?_⟩
    intro entry named
    rw [← Option.some.inj named]
    exact name_ne_suricata target

theorem targets (h : AreTurns env collections turns) :
    (turns.filterMap Turn.entry).map BundleEntry.target = turns.filterMap Turn.artifact := by
  rw [List.map_filterMap]
  apply List.filterMap_congr
  intro turn mem
  exact (h.entry mem).1

theorem sigmaEntries_perm (h : AreTurns env collections turns) :
    (sigmaEntries (manifestOf env (turns.foldl Build.add .empty))).Perm
      (turns.filterMap Turn.entry) := by
  have own : (turns.filterMap Turn.entry).filter (fun entry => entry.backend ≠ codes "suricata") =
      turns.filterMap Turn.entry := by
    rw [List.filter_eq_self]
    intro entry mem
    obtain ⟨turn, inside, named⟩ := List.mem_filterMap.mp mem
    exact decide_eq_true ((h.entry inside).2 entry named)
  have native : (env.nativeRules.map (nativeEntry env)).filter
      (fun entry => entry.backend ≠ codes "suricata") = [] := by
    rw [List.filter_eq_nil_iff]
    intro entry mem
    obtain ⟨path, -, rfl⟩ := List.mem_map.mp mem
    simp [nativeEntry]
  have sorted := (List.mergeSort_perm ((turns.foldl Build.add .empty).manifest ++
    env.nativeRules.map (nativeEntry env)) fun a b =>
      a.target < b.target ∨ a.target = b.target ∧ a.source ≤ b.source).filter
        fun entry => entry.backend ≠ codes "suricata"
  rw [List.filter_append, native, List.append_nil, foldl_add] at sorted
  simp only [Build.empty, List.nil_append] at sorted
  rw [own] at sorted
  rw [foldl_add]
  exact sorted

end AreTurns

theorem buildBundle_keeps_iff {collections : Backend → Collection Rule}
    {files : AList fun _ : Text => Text} {manifest : Manifest}
    (run : buildBundle env collections = .ok (files, manifest)) :
    BundleKept env collections files manifest ↔
      ∀ target, DistinctStems env target (collections target) := by
  obtain ⟨turns, each, manifest_eq, found⟩ := buildBundle_ok run
  have count : ((sigmaEntries manifest).map BundleEntry.target).toFinset.card =
      (sigmaEntries manifest).length ↔ (turns.filterMap Turn.artifact).Nodup := by
    have number : ((sigmaEntries manifest).map BundleEntry.target).length =
        (sigmaEntries manifest).length := List.length_map _
    rw [← number, card_toFinset_eq_length_iff, manifest_eq, ← each.targets]
    exact (each.sigmaEntries_perm.map BundleEntry.target).nodup_iff
  have stems := each.artifacts ▸ @nodup_deployPath_iff _ _ env collections
  refine ⟨fun kept => stems.mp (count.mp kept.count), fun distinct =>
    ⟨?_, count.mpr (stems.mpr distinct)⟩⟩
  intro target rule mem
  obtain ⟨turn, turned, made⟩ := each.of_rule mem
  obtain ⟨parts, below, ⟨-, rfl⟩ | ⟨-, queries, queries_eq, rfl⟩⟩ := deployTurn_ok made
  · refine ⟨parts, below, .inl ⟨unsupported target (asPosix parts), ?_, rfl, rfl⟩⟩
    rw [manifest_eq, foldl_add]
    exact List.mem_mergeSort.mpr (List.mem_append_right _ (List.mem_filterMap.mpr ⟨_, turned, rfl⟩))
  · refine ⟨parts, below, .inr ⟨queries, queries_eq, ?_⟩⟩
    rw [found]
    exact kept_of_nodup (stems.mpr distinct) turned

theorem manifest_count_iff {collections : Backend → Collection Rule}
    {files : AList fun _ : Text => Text} {manifest : Manifest}
    (run : buildBundle env collections = .ok (files, manifest)) :
    (manifest.artifacts.map BundleEntry.target).toFinset.card = manifest.artifacts.length ↔
      (∀ target, DistinctStems env target (collections target)) ∧ env.nativeRules.length ≤ 1 := by
  obtain ⟨turns, each, manifest_eq, -⟩ := buildBundle_ok run
  have sorted : (manifest.artifacts.map BundleEntry.target).Perm
      (turns.filterMap Turn.artifact ++ List.replicate env.nativeRules.length nativePath) := by
    have native : (env.nativeRules.map (nativeEntry env)).map BundleEntry.target =
        List.replicate env.nativeRules.length nativePath := by
      rw [List.map_map]
      exact List.map_const' ..
    rw [manifest_eq, ← each.targets, ← native, ← List.map_append, foldl_add]
    exact (List.mergeSort_perm _ _).map BundleEntry.target
  have apart : (turns.filterMap Turn.artifact).Disjoint
      (List.replicate env.nativeRules.length nativePath) := by
    intro artifact mem native
    rw [each.artifacts] at mem
    obtain ⟨rule, -, path⟩ := List.mem_map.mp mem
    exact deployPath_ne_nativePath _ _ (path.trans (List.eq_of_mem_replicate native))
  have number : (manifest.artifacts.map BundleEntry.target).length = manifest.artifacts.length :=
    List.length_map _
  rw [← number, card_toFinset_eq_length_iff, sorted.nodup_iff, List.nodup_append', each.artifacts,
    nodup_deployPath_iff, List.nodup_replicate]
  rw [each.artifacts] at apart
  simp only [apart, and_true]

/-- Both pipelines keep every artifact exactly when the stems of the converted rules are
distinct, in the bundle for each target. -/
theorem artifacts_kept_iff {backend : Backend} {collection : Collection Rule}
    {build : Build ArtifactEntry} (run : buildArtifacts env backend collection = .ok build)
    {collections : Backend → Collection Rule} {files : AList fun _ : Text => Text}
    {manifest : Manifest} (bundled : buildBundle env collections = .ok (files, manifest)) :
    (ArtifactsKept env backend collection build ↔ DistinctStems env backend collection) ∧
    (BundleKept env collections files manifest ↔
      ∀ target, DistinctStems env target (collections target)) ∧
    ((manifest.artifacts.map BundleEntry.target).toFinset.card = manifest.artifacts.length ↔
      (∀ target, DistinctStems env target (collections target)) ∧ env.nativeRules.length ≤ 1) :=
  ⟨buildArtifacts_keeps_iff run, buildBundle_keeps_iff bundled, manifest_count_iff bundled⟩

theorem buildArtifacts_returns {backend : Backend} {collection : Collection Rule}
    {ordered : List Rule} (order : conversionOrder collection.toRuleset = .ok ordered) :
    ∃ build, buildArtifacts env backend collection = .ok build := by
  rw [buildArtifacts, order]
  exact ⟨_, rfl⟩

theorem buildBundle_returns {collections : Backend → Collection Rule}
    (order : ∀ target, ∃ ordered, conversionOrder (collections target).toRuleset = .ok ordered)
    (deploys : ∀ target rule, ∃ turn, deployTurn env target (collections target) rule = .ok turn) :
    ∃ bundle, buildBundle env collections = .ok bundle := by
  have loop : ∃ build, sigmaDeploy.foldlM (deployTarget env collections) .empty = .ok build := by
    apply foldlM_returns
    intro build target _
    obtain ⟨ordered, yields⟩ := order target
    rw [deployTarget, yields]
    apply foldlM_returns
    intro build rule _
    obtain ⟨turn, made⟩ := deploys target rule
    exact ⟨_, map_eq_ok_iff.mpr ⟨turn, made, rfl⟩⟩
  obtain ⟨build, built⟩ := loop
  rw [buildBundle, built]
  exact ⟨_, rfl⟩

end Kept

/-! A tree of two rules in two directories, once with different file names and once with the
same. -/

def plainQueries : Environment ℕ where
  root := [codes "repo"]
  readText _ := []
  sha256 _ := codes "e3b0c44298fc1c149afbf4c8996fb92427ae41e4649b934ca495991b7852b855"
  supportsCorrelation backend := backend = .loki
  defaultFormat _ := codes "default"
  convertRuleObject _ _ rule := [codes "rule=" ++ natText rule]
  correlationLokiDocument rule := codes "rule=" ++ natText rule
  sub _ document := some document
  nativeRules := []

def tree (first second : String) : Collection ℕ where
  rules := [0, 1]
  referencedRules _ := []
  eq rule other := rule = other
  path rule := [codes "repo", codes "rules", codes "sigma"] ++
    if rule = 0 then [codes "it", codes first] else [codes "ot", codes second]
  isCorrelation _ := false

theorem conversionOrder_tree (first second : String) :
    conversionOrder (tree first second).toRuleset = .ok [0, 1] := by
  have order : conversionOrder ⟨[0, 1], fun _ => [], fun rule other => decide (rule = other)⟩ =
      .ok [0, 1] := by decide +kernel
  exact order

theorem deployTurn_tree (first second : String) (target : Backend) (rule : ℕ) :
    ∃ turn, deployTurn plainQueries target (tree first second) rule = .ok turn := by
  have below : relativeTo plainQueries.root ((tree first second).path rule) =
      some (((tree first second).path rule).drop 1) := if_pos ⟨_, rfl⟩
  rw [deployTurn, below]
  cases target <;> exact ⟨_, rfl⟩

theorem artifacts_kept_scan_probe :
    ∃ build files manifest, buildArtifacts plainQueries .splunk (tree "scan.yml" "probe.yml") =
        .ok build ∧
      buildBundle plainQueries (fun _ => tree "scan.yml" "probe.yml") = .ok (files, manifest) ∧
      ArtifactsKept plainQueries .splunk (tree "scan.yml" "probe.yml") build ∧
      BundleKept plainQueries (fun _ => tree "scan.yml" "probe.yml") files manifest := by
  obtain ⟨build, run⟩ := @buildArtifacts_returns _ _ plainQueries .splunk _ _
    (conversionOrder_tree "scan.yml" "probe.yml")
  obtain ⟨⟨files, manifest⟩, bundled⟩ := @buildBundle_returns _ _ plainQueries
    (fun _ => tree "scan.yml" "probe.yml") (fun _ => ⟨_, conversionOrder_tree _ _⟩)
    (fun target rule => deployTurn_tree _ _ target rule)
  obtain ⟨artifacts, bundle, -⟩ := artifacts_kept_iff run bundled
  have distinct (target : Backend) :
      DistinctStems plainQueries target (tree "scan.yml" "probe.yml") := by
    rw [DistinctStems, converted, yielded_eq (conversionOrder_tree _ _)]
    cases target <;> decide
  exact ⟨build, files, manifest, run, bundled, artifacts.mpr (distinct .splunk),
    bundle.mpr distinct⟩

/-- The second rule takes the place of the first. -/
theorem artifacts_kept_not_scan_scan :
    ∃ build files manifest, buildArtifacts plainQueries .splunk (tree "scan.yml" "scan.yml") =
        .ok build ∧
      buildBundle plainQueries (fun _ => tree "scan.yml" "scan.yml") = .ok (files, manifest) ∧
      build.files.keys = [codes "scan.spl"] ∧ build.manifest.length = 2 ∧
      build.files.lookup (codes "scan.spl") = some
        (codes "# source: rules/sigma/ot/scan.yml\n# backend: splunk\nrule=1\n") ∧
      ¬ ArtifactsKept plainQueries .splunk (tree "scan.yml" "scan.yml") build ∧
      ¬ BundleKept plainQueries (fun _ => tree "scan.yml" "scan.yml") files manifest := by
  obtain ⟨build, run⟩ := @buildArtifacts_returns _ _ plainQueries .splunk _ _
    (conversionOrder_tree "scan.yml" "scan.yml")
  obtain ⟨⟨files, manifest⟩, bundled⟩ := @buildBundle_returns _ _ plainQueries
    (fun _ => tree "scan.yml" "scan.yml") (fun _ => ⟨_, conversionOrder_tree _ _⟩)
    (fun target rule => deployTurn_tree _ _ target rule)
  have collide : ¬ DistinctStems plainQueries .splunk (tree "scan.yml" "scan.yml") := by
    rw [DistinctStems, converted, yielded_eq (conversionOrder_tree _ _)]
    decide
  have built := buildArtifacts_ok run
  rw [yielded_eq (conversionOrder_tree _ _)] at built
  refine ⟨build, files, manifest, run, bundled, ?_, ?_, ?_, ?_, ?_⟩
  · rw [built]
    decide +kernel
  · rw [built]
    rfl
  · rw [built]
    decide +kernel
  · exact fun kept => collide ((buildArtifacts_keeps_iff run).mp kept)
  · exact fun kept => collide ((buildBundle_keeps_iff bundled).mp kept .splunk)

end OtDetection.Bundles
