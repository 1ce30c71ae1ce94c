import OtDetection.RuleFamilies

/-! What the map of detected techniques lists: each rule file under exactly the techniques that
the reader of its family finds. -/

namespace OtDetection.RuleFamilies
open PyText PyNumber InvertedIndex ExceptSteps

/-! ## The loops as one list of files -/

/-- The discovered files in the order of the loops. -/
def discovered (tree : Tree) : List (Family × Text) :=
  families.flatMap fun family => (rulePaths tree family).map (family, ·)

def assignments (env : Environment) (tree : Tree) : Except Error (List (Text × List Text)) :=
  (discovered tree).mapM fun file =>
    (familyTechniques env file.1 file.2 (readText tree file.2)).map (file.2, ·)

variable {env : Environment} {tree : Tree}

theorem mem_discovered {family : Family} {path : Text} :
    (family, path) ∈ discovered tree ↔ path ∈ tree ∧ belongs family path = true := by
  have every : family ∈ families := by cases family <;> decide
  simp only [discovered, List.mem_flatMap, List.mem_map, Prod.mk.injEq]
  constructor
  · rintro ⟨other, -, found, inside, rfl, rfl⟩
    rw [rulePaths, List.mem_mergeSort, List.mem_filter] at inside
    exact ⟨AList.mem_keys.mpr inside.1, inside.2⟩
  · rintro ⟨inside, of_family⟩
    refine ⟨family, every, path, ?_, rfl, rfl⟩
    rw [rulePaths, List.mem_mergeSort, List.mem_filter]
    exact ⟨AList.mem_keys.mp inside, of_family⟩

theorem foldlM_families (list : List Family) (sources : List (Text × List Text)) :
    list.foldlM (fun sources family =>
        (rulePaths tree family).foldlM (creditRule env tree family) sources) sources =
      (list.flatMap fun family => (rulePaths tree family).map (family, ·)).foldlM
        (fun sources file => creditRule env tree file.1 sources file.2) sources := by
  induction list generalizing sources with
  | nil => rfl
  | cons family list ih =>
    rw [List.foldlM_cons, List.flatMap_cons, List.foldlM_append, List.foldlM_map]
    simp only [ih]

theorem detectedTechniques_eq (env : Environment) (tree : Tree) : detectedTechniques env tree =
    (assignments env tree).map fun entries => tidy (invert entries) := by
  have turn : ∀ sources (file : Family × Text), creditRule env tree file.1 sources file.2 =
      ((familyTechniques env file.1 file.2 (readText tree file.2)).map (file.2, ·)).map
        fun entry => credit sources entry.1 entry.2 := by
    intro sources file
    rw [creditRule]
    cases familyTechniques env file.1 file.2 (readText tree file.2) <;> rfl
  rw [detectedTechniques, foldlM_families]
  simp only [turn]
  have read := foldlM_map_eq (fun file : Family × Text =>
      (familyTechniques env file.1 file.2 (readText tree file.2)).map (file.2, ·))
    (fun sources entry => credit sources entry.1 entry.2) (discovered tree) []
  rw [discovered] at read
  rw [read]
  change ((assignments env tree).map _).bind _ = _
  cases assignments env tree <;> rfl

theorem mentions_assignments {entries : List (Text × List Text)}
    (made : assignments env tree = .ok entries) (technique path : Text) :
    Mentions entries technique path ↔ ∃ family techniques, (family, path) ∈ discovered tree ∧
      familyTechniques env family path (readText tree path) = .ok techniques ∧
        technique ∈ techniques := by
  constructor
  · rintro ⟨entry, inside, rfl, mem⟩
    obtain ⟨file, found, read⟩ := (mem_mapM_iff made entry).mp inside
    obtain ⟨techniques, value, rfl⟩ := map_eq_ok_iff.mp read
    exact ⟨file.1, techniques, found, value, mem⟩
  · rintro ⟨family, techniques, found, read, mem⟩
    exact ⟨(path, techniques), (mem_mapM_iff made _).mpr
      ⟨(family, path), found, map_eq_ok_iff.mpr ⟨techniques, read, rfl⟩⟩, rfl, mem⟩

/-! ## Sorted sets -/

theorem lists_tidy (sources : List (Text × List Text)) (technique path : Text) :
    Lists (tidy sources) technique path ↔ Lists sources technique path := by
  constructor
  · rintro ⟨entry, inside, rfl, mem⟩
    obtain ⟨old, there, rfl⟩ := List.mem_map.mp inside
    exact ⟨old, there, rfl, List.mem_dedup.mp (List.mem_mergeSort.mp mem)⟩
  · rintro ⟨entry, inside, rfl, mem⟩
    exact ⟨_, List.mem_map_of_mem inside, rfl, List.mem_mergeSort.mpr (List.mem_dedup.mpr mem)⟩

theorem isIndex_tidy {sources : List (Text × List Text)} (is_index : IsIndex sources) :
    IsIndex (tidy sources) where
  nodup := by
    rw [tidy, List.map_map]
    exact is_index.nodup
  nonempty entry mem := by
    obtain ⟨old, inside, rfl⟩ := List.mem_map.mp mem
    obtain ⟨path, some_path⟩ := List.exists_mem_of_ne_nil _ (is_index.nonempty old inside)
    apply List.ne_nil_of_mem (a := path)
    rwa [List.mem_mergeSort, List.mem_dedup]

theorem nodup_tidy (sources : List (Text × List Text)) : ∀ entry ∈ tidy sources, entry.2.Nodup := by
  intro entry mem
  obtain ⟨old, -, rfl⟩ := List.mem_map.mp mem
  exact (List.mergeSort_perm _ _).nodup_iff.mpr (List.nodup_dedup _)

end OtDetection.RuleFamilies
