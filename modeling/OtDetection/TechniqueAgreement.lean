import OtDetection.DetectedTechniques

/-! The question for the techniques of one file, by its suffix, and the map of the techniques of
all discovered files, by their directories: where the two agree. -/

namespace OtDetection.RuleFamilies
open PyText InvertedIndex ExceptSteps
open SuricataRules (readRules)

/-! ## Suffixes and directories -/

theorem extension_ne_nil (family : Family) : family.extension ≠ [] := by cases family <;> decide

theorem no_dot_in_extension (family : Family) : ∀ c ∈ family.extension, c ≠ 0x2E := by
  cases family <;> decide

theorem suffix_eq {family : Family} {path : Text}
    (ends : 0x2E :: family.extension <:+ nameOf path) : suffix path =
      if nameOf path = 0x2E :: family.extension then [] else 0x2E :: family.extension := by
  obtain ⟨stem, name⟩ := ends
  have taken : ((nameOf path).reverse.takeWhile (· ≠ 0x2E)).reverse = family.extension := by
    rw [← name, List.reverse_append, List.reverse_cons, List.append_assoc,
      List.takeWhile_append_of_pos]
    · simp
    · exact fun c mem => decide_eq_true (no_dot_in_extension family c (List.mem_reverse.mp mem))
  have length : (nameOf path).length = stem.length + (family.extension.length + 1) := by
    rw [← name, List.length_append, List.length_cons]
  rw [suffix, taken]
  by_cases bare : nameOf path = 0x2E :: family.extension
  · rw [if_pos bare, if_neg]
    rw [bare, List.length_cons]
    exact fun both => absurd both.2 (Nat.lt_irrefl _)
  · have some_stem : stem ≠ [] := fun none => bare (by rw [← name, none, List.nil_append])
    have longer : family.extension.length + 1 < (nameOf path).length := by
      rw [length]
      exact Nat.lt_add_of_pos_left (List.length_pos_of_ne_nil some_stem)
    rw [if_neg bare, if_pos ⟨extension_ne_nil family, longer⟩]

theorem family_unique {path : Text} {family other : Family} (first : belongs family path = true)
    (second : belongs other path = true) : family = other := by
  have here : family.directory <+: path := (of_decide_eq_true first).1
  have there : other.directory <+: path := (of_decide_eq_true second).1
  have nested := List.prefix_or_prefix_of_prefix here there
  revert nested
  cases family <;> cases other <;> decide

theorem suffix_of_belongs {family : Family} {path : Text} (of_family : belongs family path = true) :
    suffix path =
      if nameOf path = 0x2E :: family.extension then [] else 0x2E :: family.extension :=
  suffix_eq (of_decide_eq_true of_family).2.1

/-! ## Where the two agree -/

variable (env : Environment)

/-- pySigma loads the text, as a correlation rule where it has that block, with such tags. -/
def LoadsTo (text : List Char) (document : Yaml) (tags : List Text) : Prop :=
  env.safeLoad text = .ok document ∧
    if document.has "correlation" then env.collectionFromYaml text = .ok [⟨true, tags⟩]
    else env.ruleFromYaml text = .ok tags

/-- What is known of pySigma: a single-event rule has a detection block, and the tags of a
loaded rule are those of its document. -/
structure PySigma : Prop where
  refuses {text : List Char} {document : Yaml} {tags : List Text} :
    env.safeLoad text = .ok document → document.has "detection" = false →
      env.ruleFromYaml text ≠ .ok tags
  keeps {text : List Char} {document : Yaml} {tags texts : List Text} :
    LoadsTo env text document tags → documentTags env document = .ok texts → tags = texts

def Readable : Family → Text → List Char → Prop
  | .sigma, _, text => ∃ document tags, LoadsTo env text document tags
  | .baseline, _, text | .conduit, _, text =>
    ∃ document tags, env.safeLoad text = .ok document ∧ documentTags env document = .ok tags
  | .yara, _, _ => True
  | .native, path, text => ∃ rules, readRules env.unicode path text = .ok rules

/-- The suffix of a file leads to a reader that takes it: there is none for YARA, and a baseline
or a conduit rule is to have a block of a Sigma rule and to be one for pySigma. -/
def Dispatched (family : Family) (path : Text) (text : List Char) : Prop :=
  nameOf path ≠ 0x2E :: family.extension ∧
    match family with
    | .sigma | .native => True
    | .baseline | .conduit => ∃ document tags, LoadsTo env text document tags ∧
        (document.has "detection" ∨ document.has "correlation")
    | .yara => False

variable {env}

theorem loadSigmaRule_ok_iff {path : Text} {text : List Char} {tags : List Text} :
    loadSigmaRule env path text = .ok tags ↔ ∃ document, LoadsTo env text document tags := by
  cases loaded : env.safeLoad text with
  | error error =>
    simp only [loadSigmaRule, isCorrelationRule, LoadsTo, loaded]
    exact iff_of_false nofun nofun
  | ok document =>
    have only : (∃ other, LoadsTo env text other tags) ↔
        if document.has "correlation" then env.collectionFromYaml text = .ok [⟨true, tags⟩]
        else env.ruleFromYaml text = .ok tags := by
      simp only [LoadsTo, loaded, Except.ok.injEq]
      exact exists_eq_left'
    rw [only, loadSigmaRule, isCorrelationRule, loaded]
    change (if document.has "correlation" then _ else _) = _ ↔ _
    split_ifs with correlation
    · refine Iff.trans bind_eq_ok_iff ⟨?_, ?_⟩
      · rintro ⟨rules, made, single⟩
        split at single
        · rw [made, Except.ok.inj single]
        · exact nomatch single
      · exact fun made => ⟨_, made, rfl⟩
    · exact Iff.rfl

theorem sigmaTechniques_ok_iff {path : Text} {text : List Char} {techniques : List Text} :
    sigmaTechniques env path text = .ok techniques ↔ ∃ document tags,
      LoadsTo env text document tags ∧ techniquesFromTags env tags = techniques := by
  rw [sigmaTechniques, map_eq_ok_iff]
  simp only [loadSigmaRule_ok_iff]
  grind

theorem documentTechniques_ok_iff {text : List Char} {techniques : List Text} :
    documentTechniques env text = .ok techniques ↔ ∃ document tags,
      env.safeLoad text = .ok document ∧ documentTags env document = .ok tags ∧
        techniquesFromTags env tags = techniques := by
  refine Iff.trans bind_eq_ok_iff ?_
  simp only [map_eq_ok_iff]
  grind

theorem readable_iff (family : Family) (path : Text) (text : List Char) :
    Readable env family path text ↔
      ∃ techniques, familyTechniques env family path text = .ok techniques := by
  cases family with
  | sigma =>
    simp only [Readable, familyTechniques, sigmaTechniques_ok_iff]
    grind
  | baseline =>
    simp only [Readable, familyTechniques, baselineTechniques, documentTechniques_ok_iff]
    grind
  | conduit =>
    simp only [Readable, familyTechniques, conduitTechniques, documentTechniques_ok_iff]
    grind
  | yara => exact iff_of_true trivial ⟨_, rfl⟩
  | native =>
    rw [Readable, familyTechniques, nativeTechniques]
    cases readRules env.unicode path text with
    | error error => exact iff_of_false nofun nofun
    | ok rules => exact iff_of_true ⟨rules, rfl⟩ ⟨_, rfl⟩

/-! ## The reader by the suffix -/

theorem techniquesFor_bare {family : Family} {path : Text} {text : List Char}
    {techniques : List Text} (of_family : belongs family path = true)
    (bare : nameOf path = 0x2E :: family.extension) :
    techniquesFor env path text ≠ .ok techniques := by
  rw [techniquesFor, suffix_of_belongs of_family, if_pos bare, if_neg (by decide),
    if_neg (by decide)]
  nofun

theorem techniquesFor_named {family : Family} {path : Text} {text : List Char}
    {techniques : List Text} (of_family : belongs family path = true)
    (named : nameOf path ≠ 0x2E :: family.extension) :
    techniquesFor env path text = .ok techniques ↔
      match family with
      | .sigma | .baseline | .conduit => sigmaTechniques env path text = .ok techniques
      | .yara => False
      | .native => nativeTechniques env path text = .ok techniques := by
  rw [techniquesFor, suffix_of_belongs of_family, if_neg named]
  cases family with
  | sigma => rw [if_neg (by decide), if_pos (by decide)]
  | baseline => rw [if_neg (by decide), if_pos (by decide)]
  | conduit => rw [if_neg (by decide), if_pos (by decide)]
  | yara =>
    rw [if_neg (by decide), if_neg (by decide)]
    exact iff_of_false nofun id
  | native => rw [if_pos (by decide)]

theorem dispatched_of_ok (pySigma : PySigma env) {family : Family} {path : Text}
    {text : List Char} {techniques : List Text} (of_family : belongs family path = true)
    (asked : techniquesFor env path text = .ok techniques) : Dispatched env family path text := by
  have named : nameOf path ≠ 0x2E :: family.extension :=
    fun bare => techniquesFor_bare of_family bare asked
  have taken := (techniquesFor_named of_family named).mp asked
  have blocks (loads : sigmaTechniques env path text = .ok techniques) : ∃ document tags,
      LoadsTo env text document tags ∧
        (document.has "detection" ∨ document.has "correlation") := by
    obtain ⟨document, tags, loads, -⟩ := sigmaTechniques_ok_iff.mp loads
    refine ⟨document, tags, loads, ?_⟩
    by_contra neither
    rw [not_or, Bool.not_eq_true, Bool.not_eq_true] at neither
    have single := loads.2
    rw [neither.2, if_neg Bool.false_ne_true] at single
    exact pySigma.refuses loads.1 neither.1 single
  refine ⟨named, ?_⟩
  cases family with
  | sigma => trivial
  | baseline => exact blocks taken
  | conduit => exact blocks taken
  | yara => exact taken
  | native => trivial

theorem techniquesFor_of_dispatched (pySigma : PySigma env) {family : Family} {path : Text}
    {text : List Char} {techniques : List Text} (of_family : belongs family path = true)
    (dispatched : Dispatched env family path text)
    (read : familyTechniques env family path text = .ok techniques) :
    techniquesFor env path text = .ok techniques := by
  have kept (read : documentTechniques env text = .ok techniques) {document : Yaml}
      {tags : List Text} (loads : LoadsTo env text document tags) :
      sigmaTechniques env path text = .ok techniques := by
    obtain ⟨other, texts, loaded, listed, rfl⟩ := documentTechniques_ok_iff.mp read
    obtain rfl := Except.ok.inj (loads.1.symm.trans loaded)
    obtain rfl := pySigma.keeps loads listed
    exact sigmaTechniques_ok_iff.mpr ⟨document, tags, loads, rfl⟩
  rw [techniquesFor_named of_family dispatched.1]
  cases family with
  | sigma => exact read
  | baseline =>
    obtain ⟨document, tags, loads, -⟩ := dispatched.2
    exact kept read loads
  | conduit =>
    obtain ⟨document, tags, loads, -⟩ := dispatched.2
    exact kept read loads
  | yara => exact dispatched.2
  | native => exact read

/-! ## The map of a readable tree -/

theorem detectedTechniques_returns_iff (env : Environment) (tree : Tree) :
    (∃ detected, detectedTechniques env tree = .ok detected) ↔
      ∀ file ∈ discovered tree, Readable env file.1 file.2 (readText tree file.2) := by
  rw [detectedTechniques_eq, map_returns_iff, assignments, mapM_returns_iff]
  refine forall₂_congr fun file _ => ?_
  rw [readable_iff, map_returns_iff]

theorem lists_detected_iff {tree : Tree} {detected : List (Text × List Text)}
    (made : detectedTechniques env tree = .ok detected) {family : Family} {path : Text}
    (found : (family, path) ∈ discovered tree) {techniques : List Text}
    (read : familyTechniques env family path (readText tree path) = .ok techniques)
    (technique : Text) : Lists detected technique path ↔ technique ∈ techniques := by
  rw [detectedTechniques_eq] at made
  obtain ⟨entries, assigned, rfl⟩ := map_eq_ok_iff.mp made
  rw [lists_tidy, lists_invert, mentions_assignments assigned]
  constructor
  · rintro ⟨other, others, also_found, also_read, mem⟩
    obtain rfl := family_unique (mem_discovered.mp found).2 (mem_discovered.mp also_found).2
    rwa [Except.ok.inj (read.symm.trans also_read)]
  · exact fun mem => ⟨family, techniques, found, read, mem⟩

end OtDetection.RuleFamilies
