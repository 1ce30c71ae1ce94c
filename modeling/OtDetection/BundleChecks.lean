import OtDetection.DeployTree

/-! The check of the deployment bundle: it passes exactly on a tree that has the bundle and
nothing else that is generated, and after a write it names what the write has left alone. -/

namespace OtDetection.DeployTree
open PyText ExceptSteps KeyedWrites

/-! ## The items of a bundle -/

theorem mem_items {bundle : FileTree} {path : RelativePath} {content : Content} :
    (path, content) ∈ items bundle ↔ bundle.files.lookup path = some content := by
  rw [items, List.mem_mergeSort, List.mem_map, ← Option.mem_def, AList.mem_lookup_iff]
  constructor
  · rintro ⟨entry, mem, same⟩
    obtain ⟨rfl, rfl⟩ := Prod.mk.inj same
    exact mem
  · exact fun mem => ⟨_, mem, rfl⟩

theorem mem_paths_items {bundle : FileTree} {path : RelativePath} :
    path ∈ (items bundle).map Prod.fst ↔ path ∈ bundle.files := by
  rw [← AList.lookup_isSome, Option.isSome_iff_exists, List.mem_map]
  simp only [← mem_items]
  exact ⟨fun ⟨item, mem, same⟩ => ⟨item.2, same ▸ mem⟩, fun ⟨content, mem⟩ => ⟨_, mem, rfl⟩⟩

theorem nodup_paths_items (bundle : FileTree) : ((items bundle).map Prod.fst).Nodup := by
  have sorted := ((List.mergeSort_perm (bundle.files.entries.map fun entry => (entry.1, entry.2))
    fun item other => item.1.1 ≤ other.1.1).map Prod.fst).nodup_iff
  rw [items, sorted, List.map_map]
  exact bundle.files.keys_nodup

/-! ## What the check says -/

/-- No path of the bundle is a directory above a file. -/
def Clear (bundle outDir : FileTree) : Prop :=
  ∀ path ∈ bundle.files, ∀ file ∈ outDir.files, isAbove path.1 file.1 = false

/-- The tree has the files of the bundle with their contents, and else only what is not
generated. -/
structure Matches (bundle outDir : FileTree) : Prop where
  bundled : ∀ path ∈ bundle.files, outDir.files.lookup path = bundle.files.lookup path
  others : ∀ file ∈ outDir.files, file ∉ bundle.files → isNonGenerated file.1 = true

theorem checkItem_spec {outDir : FileTree} {item : RelativePath × Content}
    (file : outDir.isDirectory item.1.1 = false) :
    ∃ problems, checkItem outDir item = .ok problems ∧
      (problems = [] ↔ outDir.files.lookup item.1 = some item.2) := by
  rw [checkItem]
  cases outDir.files.lookup item.1 with
  | none =>
    rw [file]
    exact ⟨_, rfl, iff_of_false (List.cons_ne_nil _ _) nofun⟩
  | some content =>
    refine ⟨_, rfl, ?_⟩
    rw [PyLines.universalNewlines_eq_self content.2, Option.some.injEq, Subtype.ext_iff]
    by_cases same : content.1 = item.2.1
    · simp [same]
    · simp [same]

theorem mem_extraFiles {bundle outDir : FileTree} {file : RelativePath} :
    file ∈ extraFiles bundle outDir ↔ file ∈ outDir.files ∧ file ∉ bundle.files := by
  rw [extraFiles, List.mem_mergeSort, List.mem_filter, decide_eq_true_eq]
  rfl

def extraLines (bundle outDir : FileTree) : List Text :=
  ((extraFiles bundle outDir).filter fun file => !isNonGenerated file.1).map
    fun file => unexpected file.1

theorem mem_extraLines {bundle outDir : FileTree} {line : Text} :
    line ∈ extraLines bundle outDir ↔ ∃ file ∈ outDir.files, file ∉ bundle.files ∧
      isNonGenerated file.1 = false ∧ line = unexpected file.1 := by
  simp only [extraLines, List.mem_map, List.mem_filter, mem_extraFiles, Bool.not_eq_true',
    and_assoc]
  simp only [@eq_comm _ line]

theorem nodup_extraLines (bundle outDir : FileTree) : (extraLines bundle outDir).Nodup := by
  have files : (extraFiles bundle outDir).Nodup :=
    (List.mergeSort_perm _ _).nodup_iff.mpr (outDir.files.keys_nodup.filter _)
  refine (files.filter _).map fun file other same => ?_
  exact Subtype.ext (List.append_cancel_left same)

theorem checkBundle_spec {bundle outDir : FileTree} (clear : Clear bundle outDir) :
    ∃ problems, checkBundle bundle outDir = .ok (problems ++ extraLines bundle outDir) ∧
      (problems = [] ↔
        ∀ path ∈ bundle.files, outDir.files.lookup path = bundle.files.lookup path) := by
  have each : ∀ item ∈ items bundle, ∃ problems, checkItem outDir item = .ok problems ∧
      (problems = [] ↔ outDir.files.lookup item.1 = some item.2) := by
    intro item mem
    apply checkItem_spec
    rw [FileTree.isDirectory_eq_false_iff]
    exact clear item.1 (mem_paths_items.mp (List.mem_map_of_mem mem))
  obtain ⟨lists, run⟩ := mapM_returns_iff.mpr fun item mem =>
    (each item mem).imp fun _ both => both.1
  refine ⟨lists.flatten, bind_eq_ok_iff.mpr ⟨lists, run, rfl⟩, ?_⟩
  rw [List.flatten_eq_nil_iff]
  constructor
  · intro silent path mem
    obtain ⟨content, bundled⟩ := Option.isSome_iff_exists.mp (AList.lookup_isSome.mpr mem)
    have inside := mem_items.mpr bundled
    obtain ⟨list, made, empty⟩ := each _ inside
    rw [bundled]
    exact empty.mp (silent list ((mem_mapM_iff run list).mpr ⟨_, inside, made⟩))
  · intro bundled list mem
    obtain ⟨item, inside, made⟩ := (mem_mapM_iff run list).mp mem
    obtain ⟨other, same, empty⟩ := each item inside
    obtain rfl := Except.ok.inj (made.symm.trans same)
    rw [empty, bundled _ (mem_paths_items.mp (List.mem_map_of_mem inside))]
    exact mem_items.mp inside

theorem checkBundle_eq_nil_iff {bundle outDir : FileTree} (clear : Clear bundle outDir) :
    checkBundle bundle outDir = .ok [] ↔ Matches bundle outDir := by
  obtain ⟨problems, made, silent⟩ := checkBundle_spec clear
  have others : extraLines bundle outDir = [] ↔
      ∀ file ∈ outDir.files, file ∉ bundle.files → isNonGenerated file.1 = true := by
    rw [List.eq_nil_iff_forall_not_mem]
    simp only [mem_extraLines]
    constructor
    · intro none file mem extra
      by_contra generated
      exact none _ ⟨file, mem, extra, Bool.eq_false_of_not_eq_true generated, rfl⟩
    · rintro exempt line ⟨file, mem, extra, generated, -⟩
      rw [exempt file mem extra] at generated
      exact nomatch generated
  rw [made, Except.ok.injEq, List.append_eq_nil_iff, silent, others]
  exact ⟨fun ⟨bundled, others⟩ => ⟨bundled, others⟩, fun ⟨bundled, others⟩ => ⟨bundled, others⟩⟩

/-! ## What a write leaves -/

theorem write_ok {tree next : FileTree} {path : RelativePath} {content : Content}
    (written : tree.write path content = .ok next) :
    next.files = tree.files.insert path content := by
  rw [FileTree.write] at written
  split_ifs at written
  rw [← Except.ok.inj written]

theorem writeItems_store (list : List (RelativePath × Content)) (tree : FileTree) :
    ∃ written rest, list = written ++ rest ∧
      (writeItems list tree).1.files = store tree.files written ∧
      ((writeItems list tree).2 = none → rest = []) := by
  induction list generalizing tree with
  | nil => exact ⟨[], [], rfl, rfl, fun _ => rfl⟩
  | cons item list ih =>
    rw [writeItems]
    cases made : tree.write item.1 item.2 with
    | error error => exact ⟨[], item :: list, rfl, rfl, nofun⟩
    | ok next =>
      obtain ⟨written, rest, rfl, files, whole⟩ := ih next
      refine ⟨item :: written, rest, rfl, ?_, whole⟩
      rw [files, write_ok made, store_cons]

theorem writeItems_completes_iff {list : List (RelativePath × Content)} {tree : FileTree}
    (apart : ∀ item ∈ list, ∀ other ∈ list, isAbove item.1.1 other.1.1 = false)
    (clear : ∀ item ∈ list, ∀ file ∈ tree.files, isAbove item.1.1 file.1 = false) :
    (writeItems list tree).2 = none ↔
      ∀ item ∈ list, ∀ file ∈ tree.files, isAbove file.1 item.1.1 = false := by
  induction list generalizing tree with
  | nil => exact iff_of_true rfl (List.forall_mem_nil _)
  | cons item list ih =>
    rw [List.forall_mem_cons] at clear
    rw [writeItems, List.forall_mem_cons, ← FileTree.isBlocked_eq_false_iff]
    have file := FileTree.isDirectory_eq_false_iff.mpr clear.1
    cases blocked : tree.isBlocked item.1.1 with
    | true =>
      rw [FileTree.write, dif_pos blocked]
      exact iff_of_false nofun nofun
    | false =>
      have unblocked : ¬ tree.isBlocked item.1.1 = true := by simp [blocked]
      have writable : ¬ tree.isDirectory item.1.1 = true := by simp [file]
      rw [FileTree.write, dif_neg unblocked, dif_neg writable]
      dsimp only
      have later : ∀ other ∈ list, isAbove other.1.1 item.1.1 = false ∧
          isAbove item.1.1 other.1.1 = false := fun other mem =>
        ⟨apart other (List.mem_cons_of_mem _ mem) item List.mem_cons_self,
          apart item List.mem_cons_self other (List.mem_cons_of_mem _ mem)⟩
      rw [ih]
      · simp only [AList.mem_insert, forall_eq_or_imp, true_and]
        exact forall₂_congr fun other mem => and_iff_right (later other mem).2
      · exact fun first here second there =>
          apart first (List.mem_cons_of_mem _ here) second (List.mem_cons_of_mem _ there)
      · simp only [AList.mem_insert, forall_eq_or_imp]
        exact fun other mem => ⟨(later other mem).1, clear.2 other mem⟩

theorem writeBundle_completes_iff {bundle outDir : FileTree} (clear : Clear bundle outDir) :
    (writeBundle bundle outDir).2 = none ↔
      ∀ path ∈ bundle.files, ∀ file ∈ outDir.files, isAbove file.1 path.1 = false := by
  have paths (P : RelativePath → Prop) :
      (∀ item ∈ items bundle, P item.1) ↔ ∀ path ∈ bundle.files, P path := by
    simp only [← mem_paths_items, List.forall_mem_map]
  rw [writeBundle, writeItems_completes_iff]
  · exact paths fun path => ∀ file ∈ outDir.files, isAbove file.1 path.1 = false
  · intro item here other there
    exact bundle.apart _ (mem_paths_items.mp (List.mem_map_of_mem here)) _
      (mem_paths_items.mp (List.mem_map_of_mem there))
  · exact (paths _).mpr clear

theorem lookup_writeBundle_of_not_mem (outDir : FileTree) {bundle : FileTree} {path : RelativePath}
    (outside : path ∉ bundle.files) :
    (writeBundle bundle outDir).1.files.lookup path = outDir.files.lookup path := by
  obtain ⟨written, rest, same, files, -⟩ := writeItems_store (items bundle) outDir
  rw [writeBundle, files]
  apply lookup_store_of_not_mem
  intro mem
  apply outside
  rw [← mem_paths_items, same, List.map_append]
  exact List.mem_append_left _ mem

theorem writeBundle_files {bundle outDir : FileTree}
    (completed : (writeBundle bundle outDir).2 = none) :
    (writeBundle bundle outDir).1.files = store outDir.files (items bundle) := by
  obtain ⟨written, rest, same, files, whole⟩ := writeItems_store (items bundle) outDir
  rw [whole completed, List.append_nil] at same
  rw [writeBundle, files, ← same]

theorem check_after_write {bundle outDir : FileTree} (clear : Clear bundle outDir)
    (completed : (writeBundle bundle outDir).2 = none) :
    ∃ lines, checkBundle bundle (writeBundle bundle outDir).1 = .ok lines ∧ lines.Nodup ∧
      ∀ line, line ∈ lines ↔ ∃ file ∈ outDir.files, file ∉ bundle.files ∧
        isNonGenerated file.1 = false ∧ line = unexpected file.1 := by
  have files := writeBundle_files completed
  have inside (file : RelativePath) : file ∈ (writeBundle bundle outDir).1.files ↔
      file ∈ outDir.files ∨ file ∈ bundle.files := by
    rw [files, mem_store, mem_paths_items]
  have still_clear : Clear bundle (writeBundle bundle outDir).1 := by
    intro path mem file there
    rcases (inside file).mp there with old | new
    · exact clear path mem file old
    · exact bundle.apart path mem file new
  obtain ⟨problems, made, silent⟩ := checkBundle_spec still_clear
  have bundled : problems = [] := by
    rw [silent]
    intro path mem
    obtain ⟨content, value⟩ := Option.isSome_iff_exists.mp (AList.lookup_isSome.mpr mem)
    rw [files, value]
    exact lookup_store_of_nodup (nodup_paths_items bundle) (mem_items.mpr value)
  rw [bundled, List.nil_append] at made
  refine ⟨_, made, nodup_extraLines _ _, fun line => ?_⟩
  rw [mem_extraLines]
  refine exists_congr fun file => ?_
  rw [inside]
  tauto

/-- Writing and checking agree. -/
theorem bundle_agrees {bundle outDir : FileTree} (clear : Clear bundle outDir) :
    (checkBundle bundle outDir = .ok [] ↔ Matches bundle outDir) ∧
      ((writeBundle bundle outDir).2 = none ↔
        ∀ path ∈ bundle.files, ∀ file ∈ outDir.files, isAbove file.1 path.1 = false) ∧
      ((writeBundle bundle outDir).2 = none →
        ∃ lines, checkBundle bundle (writeBundle bundle outDir).1 = .ok lines ∧ lines.Nodup ∧
          ∀ line, line ∈ lines ↔ ∃ file ∈ outDir.files, file ∉ bundle.files ∧
            isNonGenerated file.1 = false ∧ line = unexpected file.1) ∧
      ∀ path ∉ bundle.files,
        (writeBundle bundle outDir).1.files.lookup path = outDir.files.lookup path :=
  ⟨checkBundle_eq_nil_iff clear, writeBundle_completes_iff clear, check_after_write clear,
    fun _ outside => lookup_writeBundle_of_not_mem outDir outside⟩

/-! ## A stale file in the way -/

def rulePath : RelativePath := ⟨codes "loki/rules/operate.yaml", by unfold IsRelative; decide⟩

def lokiPath : RelativePath := ⟨codes "loki", by unfold IsRelative; decide⟩

def ruleContent : Content := ⟨"# source: rules/sigma/operate.yml\n".toList, by decide⟩

def staleContent : Content := ⟨"stale\n".toList, by decide⟩

def oneFile (path : RelativePath) (content : Content) : FileTree where
  files := AList.singleton path content
  apart first here second there := by
    rw [List.mem_singleton.mp (AList.mem_keys.mp here),
      List.mem_singleton.mp (AList.mem_keys.mp there)]
    exact FileTree.isAbove_self _

theorem items_oneFile (path : RelativePath) (content : Content) :
    items (oneFile path content) = [(path, content)] := List.mergeSort_singleton _

theorem clear_oneFile {path file : RelativePath} (content other : Content)
    (apart : isAbove path.1 file.1 = false) :
    Clear (oneFile path content) (oneFile file other) := by
  intro path mem file there
  obtain rfl := List.mem_singleton.mp (AList.mem_keys.mp mem)
  obtain rfl := List.mem_singleton.mp (AList.mem_keys.mp there)
  exact apart

/-- A file where the bundle has a directory: the write raises, and the check then misses the rule
and finds the file. -/
theorem stale_file_blocks :
    Clear (oneFile rulePath ruleContent) (oneFile lokiPath staleContent) ∧
    (writeBundle (oneFile rulePath ruleContent) (oneFile lokiPath staleContent)).2 =
      some .notADirectory ∧
    checkBundle (oneFile rulePath ruleContent)
        (writeBundle (oneFile rulePath ruleContent) (oneFile lokiPath staleContent)).1 =
      .ok [codes "missing: loki/rules/operate.yaml", codes "unexpected: loki"] := by
  have run : writeBundle (oneFile rulePath ruleContent) (oneFile lokiPath staleContent) =
      (oneFile lokiPath staleContent, some .notADirectory) := by
    rw [writeBundle, items_oneFile]
    rfl
  have extra : extraFiles (oneFile rulePath ruleContent) (oneFile lokiPath staleContent) =
      [lokiPath] := List.mergeSort_singleton _
  refine ⟨clear_oneFile _ _ (by decide), congrArg Prod.snd run, ?_⟩
  rw [run, checkBundle, items_oneFile, extra]
  rfl

def stalePath : RelativePath := ⟨codes "suricata/old.rules", by unfold IsRelative; decide⟩

/-- A stale file beside the bundle has its line after the write. -/
theorem bundle_agrees_stale : ∃ lines, checkBundle (oneFile rulePath ruleContent)
      (writeBundle (oneFile rulePath ruleContent) (oneFile stalePath staleContent)).1 = .ok lines ∧
    lines.Nodup ∧ ∀ line, line ∈ lines ↔ ∃ file ∈ (oneFile stalePath staleContent).files,
      file ∉ (oneFile rulePath ruleContent).files ∧ isNonGenerated file.1 = false ∧
        line = unexpected file.1 := by
  have clear : Clear (oneFile rulePath ruleContent) (oneFile stalePath staleContent) :=
    clear_oneFile _ _ (by decide)
  refine (bundle_agrees clear).2.2.1 ?_
  rw [writeBundle, items_oneFile]
  rfl

end OtDetection.DeployTree
