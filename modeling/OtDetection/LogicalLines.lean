import OtDetection.Steps
import OtDetection.SuricataRules

/-! A rules file by its layout: comments, blank lines and logical rules, each over any number
of physical lines. The reader keeps a rule unless its buffer runs empty inside the rule, is
never flushed, or takes a backslash of the text for one of the layout. -/

namespace OtDetection.SuricataRules
open PyText PyNumber ExceptSteps

/-! ## Layouts -/

def Ignored (line : Text) : Prop := strip line = [] ∨ [0x23] <+: strip line

def Continues (line : Text) : Prop := (strip line).getLast? = some 0x5C

def content (line : Text) : Text := (strip line).dropLast

def contents (lines : List Text) : Text := (lines.map content).flatten

structure LogicalRule where
  front : List Text
  last : Text
  starts : ∀ first ∈ (front ++ [last]).head?, ¬ Ignored first
  continued : ∀ line ∈ front, Continues line
  ended : ¬ Continues last

namespace LogicalRule

def lines (rule : LogicalRule) : List Text := rule.front ++ [rule.last]

def raw (rule : LogicalRule) : Text := contents rule.front ++ strip rule.last

end LogicalRule

/-- A rule whose last line is the last of the file and has a backslash at its end. -/
structure OpenRule where
  lines : List Text
  nonempty : lines ≠ []
  starts : ∀ first ∈ lines.head?, ¬ Ignored first
  continued : ∀ line ∈ lines, Continues line

def OpenRule.raw (rule : OpenRule) : Text := contents rule.lines

inductive Item
  | ignored (line : Text) (ignored : Ignored line)
  | rule (logical : LogicalRule)

def Item.lines : Item → List Text
  | .ignored line _ => [line]
  | .rule logical => logical.lines

structure RulesFile where
  items : List Item
  openRule : Option OpenRule

namespace RulesFile

def logicalFrom (openRule : Option OpenRule) : ℕ → List Item → List (ℕ × Text)
  | number, [] => (openRule.map fun rule => (number, rule.raw)).toList
  | number, .ignored _ _ :: items => logicalFrom openRule (number + 1) items
  | number, .rule rule :: items =>
    (number, rule.raw) :: logicalFrom openRule (number + rule.lines.length) items

def linesFrom (openRule : Option OpenRule) (items : List Item) : List Text :=
  items.flatMap Item.lines ++ (openRule.map OpenRule.lines).getD []

variable (file : RulesFile)

def lines : List Text := linesFrom file.openRule file.items

def logical : List (ℕ × Text) := logicalFrom file.openRule 1 file.items

end RulesFile

/-- The first line is more than its backslash, and a blank last line follows no text that
ends in a backslash. -/
structure LogicalRule.Sound (rule : LogicalRule) : Prop where
  firm : ∀ first ∈ rule.front.head?, strip first ≠ [0x5C]
  closed : strip rule.last = [] → (contents rule.front).getLast? ≠ some 0x5C

theorem continues_or_ends (lines : List Text) : (∀ line ∈ lines, Continues line) ∨
    ∃ front last rest, lines = front ++ last :: rest ∧ (∀ line ∈ front, Continues line) ∧
      ¬ Continues last := by
  induction lines with
  | nil => exact .inl (List.forall_mem_nil _)
  | cons line lines ih =>
    by_cases here : Continues line
    · rcases ih with all | ⟨front, last, rest, rfl, continued, ended⟩
      · exact .inl (List.forall_mem_cons.mpr ⟨here, all⟩)
      · exact .inr ⟨line :: front, last, rest, rfl, List.forall_mem_cons.mpr ⟨here, continued⟩,
          ended⟩
    · exact .inr ⟨[], line, lines, rfl, List.forall_mem_nil _, here⟩

/-- Every list of physical lines is laid out in this way. -/
theorem RulesFile.exists_lines (lines : List Text) : ∃ file : RulesFile, file.lines = lines := by
  induction length : lines.length using Nat.strong_induction_on generalizing lines with
  | _ n ih =>
    cases lines with
    | nil => exact ⟨⟨[], none⟩, rfl⟩
    | cons line rest =>
      rw [List.length_cons] at length
      by_cases ignored : Ignored line
      · obtain ⟨file, same⟩ := ih rest.length (by omega) rest rfl
        exact ⟨⟨.ignored line ignored :: file.items, file.openRule⟩, congrArg (line :: ·) same⟩
      have starts : ∀ first ∈ (line :: rest).head?, ¬ Ignored first := by simpa using ignored
      rcases continues_or_ends (line :: rest) with all | ⟨front, last, more, whole, continued, ended⟩
      · exact ⟨⟨[], some ⟨line :: rest, List.cons_ne_nil line rest, starts, all⟩⟩, rfl⟩
      · have begun : ∀ first ∈ (front ++ [last]).head?, ¬ Ignored first := by
          have same_head : (front ++ [last]).head? = (line :: rest).head? := by
            rw [whole]
            cases front <;> rfl
          rw [same_head]
          exact starts
        have shorter := congrArg List.length whole
        rw [List.length_append, List.length_cons, List.length_cons] at shorter
        obtain ⟨file, same⟩ := ih more.length (by omega) more rfl
        refine ⟨⟨.rule ⟨front, last, begun, continued, ended⟩ :: file.items, file.openRule⟩,
          Eq.trans ?_ whole.symm⟩
        rw [← same, List.append_cons]
        exact List.append_assoc ..

/-- Every rule of the file is sound and none is open. -/
structure RulesFile.Sound (file : RulesFile) : Prop where
  rules : ∀ rule, .rule rule ∈ file.items → rule.Sound
  closed : file.openRule = none

/-! ## Steps of the reader -/

theorem readPhysical_ignored {scan : Scan} (empty : scan.buffer = []) (number : ℕ) {line : Text}
    (ignored : Ignored line) : readPhysical scan number line = scan :=
  if_pos ⟨empty, ignored⟩

theorem readPhysical_continued {scan : Scan} (number : ℕ) {line : Text}
    (taken : scan.buffer = [] → ¬ Ignored line)
    (backslash : (scan.buffer ++ strip line).getLast? = some 0x5C) :
    readPhysical scan number line = ⟨scan.lines, (scan.buffer ++ strip line).dropLast,
      if scan.buffer = [] then number else scan.start⟩ := by
  rw [readPhysical, if_neg fun skipped => taken skipped.1 skipped.2]
  exact if_pos backslash

theorem readPhysical_ended {scan : Scan} (number : ℕ) {line : Text}
    (taken : scan.buffer = [] → ¬ Ignored line)
    (plain : (scan.buffer ++ strip line).getLast? ≠ some 0x5C) :
    readPhysical scan number line =
      ⟨scan.lines ++ [(if scan.buffer = [] then number else scan.start,
        scan.buffer ++ strip line)], [], if scan.buffer = [] then number else scan.start⟩ := by
  rw [readPhysical, if_neg fun skipped => taken skipped.1 skipped.2]
  exact if_neg plain

theorem readPhysical_cases (scan : Scan) (number : ℕ) (line : Text) :
    readPhysical scan number line = scan ∨
    (∃ buffer, readPhysical scan number line =
      ⟨scan.lines, buffer, if scan.buffer = [] then number else scan.start⟩) ∨
    (∃ text, text.getLast? ≠ some 0x5C ∧ readPhysical scan number line =
      ⟨scan.lines ++ [(if scan.buffer = [] then number else scan.start, text)], [],
        if scan.buffer = [] then number else scan.start⟩) := by
  by_cases skipped : scan.buffer = [] ∧ Ignored line
  · exact .inl (readPhysical_ignored skipped.1 number skipped.2)
  · have taken : scan.buffer = [] → ¬ Ignored line := fun empty ignored => skipped ⟨empty, ignored⟩
    by_cases backslash : (scan.buffer ++ strip line).getLast? = some 0x5C
    · exact .inr (.inl ⟨_, readPhysical_continued number taken backslash⟩)
    · exact .inr (.inr ⟨_, backslash, readPhysical_ended number taken backslash⟩)

theorem scanLines_keeps {inv : ℕ → Scan → Prop}
    (step : ∀ number scan line, inv number scan → inv (number + 1) (readPhysical scan number line))
    {number : ℕ} {scan : Scan} (start : inv number scan) (lines : List Text) :
    inv (number + lines.length) (scanLines number scan lines) := by
  induction lines generalizing number scan with
  | nil => exact start
  | cons line lines ih =>
    rw [List.length_cons, Nat.add_comm lines.length, ← Nat.add_assoc]
    exact ih (step number scan line start)

theorem scanLines_plain {number : ℕ} {scan : Scan}
    (start : ∀ line ∈ scan.lines, line.2.getLast? ≠ some 0x5C) (lines : List Text) :
    ∀ line ∈ (scanLines number scan lines).lines, line.2.getLast? ≠ some 0x5C := by
  refine @scanLines_keeps (fun _ scan => ∀ line ∈ scan.lines, line.2.getLast? ≠ some 0x5C) ?_
    number scan start lines
  intro number scan line plain
  rcases readPhysical_cases scan number line with same | ⟨buffer, same⟩ | ⟨text, ends, same⟩
  · rwa [same]
  · rwa [same]
  · rw [same]
    intro logical mem
    rcases List.mem_append.mp mem with old | new
    · exact plain logical old
    · rw [List.mem_singleton.mp new]
      exact ends

theorem scanLines_passed {passed number : ℕ} (before : passed < number) {scan : Scan}
    (start : (∀ line ∈ scan.lines, line.1 ≠ passed) ∧ (scan.buffer = [] ∨ scan.start ≠ passed))
    (lines : List Text) : ∀ line ∈ (scanLines number scan lines).lines, line.1 ≠ passed := by
  have kept := @scanLines_keeps (fun number scan => passed < number ∧
    (∀ line ∈ scan.lines, line.1 ≠ passed) ∧ (scan.buffer = [] ∨ scan.start ≠ passed))
    (fun number scan line => ?_) number scan ⟨before, start⟩ lines
  · exact kept.2.1
  · rintro ⟨later, apart, current⟩
    refine ⟨Nat.lt_succ_of_lt later, ?_⟩
    have fresh : (if scan.buffer = [] then number else scan.start) ≠ passed := by
      split_ifs with empty
      · omega
      · exact current.resolve_left empty
    rcases readPhysical_cases scan number line with same | ⟨buffer, same⟩ | ⟨text, -, same⟩
    · rw [same]
      exact ⟨apart, current⟩
    · rw [same]
      exact ⟨apart, .inr fresh⟩
    · rw [same]
      refine ⟨fun logical mem => ?_, .inl rfl⟩
      rcases List.mem_append.mp mem with old | new
      · exact apart logical old
      · rw [List.mem_singleton.mp new]
        exact fresh

theorem scanLines_continued {lines : List Text} (continued : ∀ line ∈ lines, Continues line)
    (number : ℕ) (scan : Scan) : (scanLines number scan lines).lines = scan.lines := by
  induction lines generalizing number scan with
  | nil => rfl
  | cons line lines ih =>
    obtain ⟨here, later⟩ := List.forall_mem_cons.mp continued
    rw [scanLines, ih later]
    by_cases skipped : scan.buffer = [] ∧ Ignored line
    · rw [readPhysical_ignored skipped.1 number skipped.2]
    · rw [readPhysical_continued number fun empty ignored => skipped ⟨empty, ignored⟩]
      rw [List.getLast?_append, here]
      rfl

theorem scanLines_append (number : ℕ) (scan : Scan) (first second : List Text) :
    scanLines number scan (first ++ second) =
      scanLines (number + first.length) (scanLines number scan first) second := by
  induction first generalizing number scan with
  | nil => rfl
  | cons line first ih =>
    rw [List.cons_append, scanLines, scanLines, ih, List.length_cons, Nat.add_comm first.length,
      Nat.add_assoc]

/-! ## Sound rules are kept -/

theorem strip_eq_content {line : Text} (continues : Continues line) :
    strip line = content line ++ [0x5C] := (List.dropLast_append_getLast? 0x5C continues).symm

theorem scanLines_front {front : List Text} (continued : ∀ line ∈ front, Continues line)
    (number : ℕ) {scan : Scan} (held : scan.buffer ≠ []) :
    scanLines number scan front = ⟨scan.lines, scan.buffer ++ contents front, scan.start⟩ := by
  induction front generalizing number scan with
  | nil =>
    rw [contents, List.map_nil, List.flatten_nil, List.append_nil]
    rfl
  | cons line front ih =>
    obtain ⟨here, later⟩ := List.forall_mem_cons.mp continued
    have backslash : (scan.buffer ++ strip line).getLast? = some 0x5C := by
      rw [List.getLast?_append, here]
      rfl
    have shorter : (scan.buffer ++ strip line).dropLast = scan.buffer ++ content line := by
      rw [strip_eq_content here, ← List.append_assoc, List.dropLast_concat]
    rw [scanLines, readPhysical_continued number (fun empty => absurd empty held) backslash,
      if_neg held, shorter, ih later (number + 1) (List.append_ne_nil_of_left_ne_nil held _),
      List.append_assoc]
    rfl

theorem raw_plain_iff (rule : LogicalRule) : rule.raw.getLast? ≠ some 0x5C ↔
    (strip rule.last = [] → (contents rule.front).getLast? ≠ some 0x5C) := by
  have ended := rule.ended
  rw [LogicalRule.raw, List.getLast?_append]
  rw [Continues] at ended
  cases last : (strip rule.last).getLast? with
  | none => simp [List.getLast?_eq_none_iff.mp last]
  | some c =>
    rw [last] at ended
    refine iff_of_true ended fun blank => ?_
    rw [blank] at last
    cases last

theorem scanLines_sound {rule : LogicalRule} (sound : rule.Sound) (number start : ℕ)
    (done : List (ℕ × Text)) :
    scanLines number ⟨done, [], start⟩ rule.lines =
      ⟨done ++ [(number, rule.raw)], [], number⟩ := by
  have plain := (raw_plain_iff rule).mpr sound.closed
  have starts := rule.starts
  have continued := rule.continued
  have firm := sound.firm
  rw [LogicalRule.raw] at plain ⊢
  rw [LogicalRule.lines]
  cases front : rule.front with
  | nil =>
    rw [front] at starts plain
    have taken : ¬ Ignored rule.last := starts rule.last rfl
    exact readPhysical_ended number (fun _ => taken) plain
  | cons first rest =>
    rw [front] at starts continued firm plain
    obtain ⟨here, later⟩ := List.forall_mem_cons.mp continued
    have taken : ¬ Ignored first := starts first rfl
    have some_content : content first ≠ [] := by
      intro nothing
      have whole := strip_eq_content here
      rw [nothing] at whole
      exact firm first rfl whole
    have held : contents (first :: rest) ≠ [] := List.append_ne_nil_of_left_ne_nil some_content _
    have begun : readPhysical ⟨done, [], start⟩ number first = ⟨done, content first, number⟩ :=
      readPhysical_continued number (fun _ => taken) here
    rw [List.cons_append, scanLines, begun, scanLines_append,
      scanLines_front later (number + 1) some_content]
    have finished := @readPhysical_ended ⟨done, contents (first :: rest), number⟩
      (number + 1 + rest.length) rule.last (fun empty => absurd empty held) plain
    simp only [if_neg held] at finished
    exact finished

/-! ## Exactly the sound files are kept -/

theorem scanLines_bare {rule : LogicalRule} {first : Text} (front : first ∈ rule.front.head?)
    (bare : strip first = [0x5C]) (number start : ℕ) {done : List (ℕ × Text)}
    (before : ∀ line ∈ done, line.1 < number) (rest : List Text) :
    ∀ line ∈ (scanLines number ⟨done, [], start⟩ (rule.lines ++ rest)).lines, line.1 ≠ number := by
  obtain ⟨more, whole⟩ : ∃ more, rule.front = first :: more := by
    cases front_eq : rule.front with
    | nil =>
      rw [front_eq] at front
      cases front
    | cons head more =>
      rw [front_eq, List.head?_cons, Option.mem_some_iff] at front
      exact ⟨more, by rw [front]⟩
  have taken : ¬ Ignored first := rule.starts first (by rw [whole]; rfl)
  have here : Continues first := rule.continued first (by rw [whole]; exact List.mem_cons_self)
  have emptied : readPhysical ⟨done, [], start⟩ number first =
      ⟨done, (strip first).dropLast, number⟩ :=
    readPhysical_continued number (fun _ => taken) here
  rw [LogicalRule.lines, whole, List.cons_append, List.cons_append, scanLines, emptied, bare]
  exact scanLines_passed (Nat.lt_succ_self number)
    ⟨fun line mem => (before line mem).ne, .inl rfl⟩ _

theorem scanLines_logical_iff (openRule : Option OpenRule) (items : List Item)
    (number start : ℕ) {done : List (ℕ × Text)} (before : ∀ line ∈ done, line.1 < number)
    (plain : ∀ line ∈ done, line.2.getLast? ≠ some 0x5C) :
    (scanLines number ⟨done, [], start⟩ (RulesFile.linesFrom openRule items)).lines =
        done ++ RulesFile.logicalFrom openRule number items ↔
      (∀ rule, .rule rule ∈ items → rule.Sound) ∧ openRule = none := by
  induction items generalizing number start done with
  | nil =>
    cases openRule with
    | none => simp [RulesFile.linesFrom, RulesFile.logicalFrom, scanLines]
    | some rule =>
      have nothing := scanLines_continued rule.continued number ⟨done, [], start⟩
      have lines : RulesFile.linesFrom (some rule) [] = rule.lines := rfl
      rw [lines, nothing]
      simp [RulesFile.logicalFrom]
  | cons item items ih =>
    cases item with
    | ignored line ignored =>
      have lines : RulesFile.linesFrom openRule (.ignored line ignored :: items) =
        line :: RulesFile.linesFrom openRule items := rfl
      rw [lines, scanLines, readPhysical_ignored rfl number ignored, RulesFile.logicalFrom,
        ih (number + 1) start (fun line mem => Nat.lt_succ_of_lt (before line mem)) plain]
      simp
    | rule rule =>
      have lines : RulesFile.linesFrom openRule (.rule rule :: items) =
          rule.lines ++ RulesFile.linesFrom openRule items := by
        simp [RulesFile.linesFrom, Item.lines]
      rw [lines, RulesFile.logicalFrom]
      by_cases sound : rule.Sound
      · have kept := (raw_plain_iff rule).mpr sound.closed
        have longer : 0 < rule.lines.length := by simp [LogicalRule.lines]
        rw [scanLines_append, scanLines_sound sound,
          List.append_cons done (number, rule.raw) (RulesFile.logicalFrom _ _ _),
          ih (number + rule.lines.length) number _ _]
        · simp [sound]
        · intro line mem
          rcases List.mem_append.mp mem with old | new
          · exact Nat.lt_add_right _ (before line old)
          · rw [List.mem_singleton.mp new]
            omega
        · intro line mem
          rcases List.mem_append.mp mem with old | new
          · exact plain line old
          · rw [List.mem_singleton.mp new]
            exact kept
      · refine iff_of_false (fun same => sound ?_) fun all => sound (all.1 rule List.mem_cons_self)
        have mem : (number, rule.raw) ∈ (scanLines number ⟨done, [], start⟩
            (rule.lines ++ RulesFile.linesFrom openRule items)).lines := by
          rw [same]
          simp
        refine ⟨fun first front bare => ?_, (raw_plain_iff rule).mp ?_⟩
        · exact scanLines_bare front bare number start before _ _ mem rfl
        · exact scanLines_plain plain _ _ mem

theorem logicalLines_eq_iff {file : RulesFile} {text : List Char}
    (layout : ZeekLog.readLines text = file.lines) :
    logicalLines text = file.logical ↔ file.Sound := by
  have kept := @scanLines_logical_iff file.openRule file.items 1 0 [] (List.forall_mem_nil _)
    (List.forall_mem_nil _)
  rw [List.nil_append] at kept
  rw [logicalLines, layout]
  exact kept.trans ⟨fun both => ⟨both.1, both.2⟩, fun sound => ⟨sound.rules, sound.closed⟩⟩

/-! ## Records -/

/-- `int` takes the digits that are found for a sid and for a rev. -/
def NumbersFit (unicode : Unicode) (text : Text) : Prop :=
  (∀ digits ∈ search "sid" (digitsGroup unicode) (optionsOf text),
    (intOfText unicode digits).isSome) ∧
  ∀ digits ∈ search "rev" (digitsGroup unicode) (optionsOf text),
    (intOfText unicode digits).isSome

/-- The record of a logical rule, under the sid that the rule has. -/
structure Recorded (unicode : Unicode) (logical : ℕ × Text) (record : SuricataRule) : Prop where
  lineNumber : record.lineNumber = logical.1
  raw : record.raw = logical.2
  sid : record.sid = (search "sid" (digitsGroup unicode) (optionsOf logical.2)).bind
    (intOfText unicode)

/-- One record for each logical rule of the file, in order. -/
def Complete (unicode : Unicode) (source : Text) (text : List Char) (file : RulesFile) : Prop :=
  ∃ records, readRules unicode source text = .ok records ∧
    List.Forall₂ (Recorded unicode) file.logical records

variable {unicode : Unicode}

theorem number_ok_iff {key : String} {options : Text} {n : Option ℤ} :
    number unicode key options = .ok n ↔
      (∀ digits ∈ search key (digitsGroup unicode) options, (intOfText unicode digits).isSome) ∧
        n = (search key (digitsGroup unicode) options).bind (intOfText unicode) := by
  rw [number]
  cases search key (digitsGroup unicode) options with
  | none => exact ⟨fun same => ⟨by simp, (Except.ok.inj same).symm⟩, fun both => by rw [both.2]; rfl⟩
  | some digits =>
    simp only [Option.mem_some_iff, forall_eq', Option.bind_some]
    cases read : intOfText unicode digits with
    | none => simp
    | some value => simp only [Except.ok.injEq, Option.isSome_some, true_and, eq_comm]

theorem readRule_ok {source : Text} {logical : ℕ × Text} {record : SuricataRule}
    (read : readRule unicode source logical = .ok record) :
    NumbersFit unicode logical.2 ∧ Recorded unicode logical record := by
  obtain ⟨sid, sid_read, read⟩ := bind_eq_ok_iff.mp read
  obtain ⟨rev, rev_read, read⟩ := bind_eq_ok_iff.mp read
  obtain rfl := Except.ok.inj read
  obtain ⟨sid_fits, sid_eq⟩ := number_ok_iff.mp sid_read
  obtain ⟨rev_fits, -⟩ := number_ok_iff.mp rev_read
  exact ⟨⟨sid_fits, rev_fits⟩, rfl, rfl, sid_eq⟩

theorem readRule_returns {text : Text} (fits : NumbersFit unicode text) (source : Text)
    (number : ℕ) : ∃ record, readRule unicode source (number, text) = .ok record := by
  have sid := number_ok_iff.mpr ⟨fits.1, rfl⟩
  have rev := number_ok_iff.mpr ⟨fits.2, rfl⟩
  exact ⟨_, bind_eq_ok_iff.mpr ⟨_, sid,
    bind_eq_ok_iff.mpr ⟨_, rev, rfl⟩⟩⟩

theorem logical_eq_of_recorded {logical : List (ℕ × Text)} {records : List SuricataRule}
    (recorded : List.Forall₂ (Recorded unicode) logical records) :
    logical = records.map fun record => (record.lineNumber, record.raw) := by
  induction recorded with
  | nil => rfl
  | cons here _ ih => rw [List.map_cons, ← ih, here.lineNumber, here.raw]

/-- The reader yields the records of a file exactly when its rules are sound, none is open and
every sid and rev is a number that `int` takes. -/
theorem readRules_complete_iff (unicode : Unicode) (source : Text) {file : RulesFile}
    {text : List Char} (layout : ZeekLog.readLines text = file.lines) :
    Complete unicode source text file ↔
      file.Sound ∧ ∀ logical ∈ file.logical, NumbersFit unicode logical.2 := by
  rw [← logicalLines_eq_iff layout]
  constructor
  · rintro ⟨records, read, complete⟩
    have each := mapM_eq_ok_iff.mp read
    have recorded := each.imp fun _ _ read => (readRule_ok read).2
    have same : logicalLines text = file.logical :=
      (logical_eq_of_recorded recorded).trans (logical_eq_of_recorded complete).symm
    refine ⟨same, fun logical mem => ?_⟩
    rw [← same] at mem
    obtain ⟨record, made⟩ := mapM_returns_iff.mp ⟨records, read⟩ logical mem
    exact (readRule_ok made).1
  · rintro ⟨same, fits⟩
    have each : ∀ logical ∈ logicalLines text,
        ∃ record, readRule unicode source logical = .ok record := by
      rw [same]
      exact fun logical mem => readRule_returns (fits logical mem) source logical.1
    obtain ⟨records, read⟩ := mapM_returns_iff.mpr each
    refine ⟨records, read, ?_⟩
    rw [← same]
    exact (mapM_eq_ok_iff.mp read).imp fun _ _ made => (readRule_ok made).2

/-! A comment and a rule over two lines, and a rule that the file leaves open. -/

def twoLines : LogicalRule where
  front := [codes "alert tcp any any -> any 502 (\\"]
  last := codes "  sid:9000001;)"
  starts := by
    unfold Ignored
    decide
  continued := by
    unfold Continues
    decide
  ended := by
    unfold Continues
    decide

def commented : RulesFile where
  items := [.ignored (codes "# native") (by unfold Ignored; decide), .rule twoLines]
  openRule := none

theorem sound_commented : commented.Sound := by
  have sound : twoLines.Sound := ⟨by decide, by decide⟩
  refine ⟨fun rule mem => ?_, rfl⟩
  have same : rule = twoLines := by simpa [commented] using mem
  rwa [same]

theorem readRules_complete_commented : Complete noTables (codes "modbus.rules")
    "# native\nalert tcp any any -> any 502 (\\\n  sid:9000001;)\n".toList commented :=
  (readRules_complete_iff noTables (codes "modbus.rules") (by decide)).mpr
    ⟨sound_commented, by
      unfold NumbersFit
      decide +kernel⟩

def cutOff : OpenRule where
  lines := [codes "alert tcp any any -> any 502 (sid:9000001;)\\"]
  nonempty := by decide
  starts := by
    unfold Ignored
    decide
  continued := by
    unfold Continues
    decide

/-- The rule in front of the end of the file has no record. -/
theorem readRules_loses_last :
    ZeekLog.readLines "alert tcp any any -> any 502 (sid:9000001;)\\".toList =
      (⟨[], some cutOff⟩ : RulesFile).lines ∧
    (⟨[], some cutOff⟩ : RulesFile).logical =
      [(1, codes "alert tcp any any -> any 502 (sid:9000001;)")] ∧
    logicalLines "alert tcp any any -> any 502 (sid:9000001;)\\".toList = [] ∧
    ¬ Complete noTables (codes "modbus.rules")
      "alert tcp any any -> any 502 (sid:9000001;)\\".toList ⟨[], some cutOff⟩ := by
  have unread : logicalLines "alert tcp any any -> any 502 (sid:9000001;)\\".toList = [] := by
    decide +kernel
  refine ⟨by decide +kernel, by decide +kernel, unread, ?_⟩
  rintro ⟨records, read, complete⟩
  rw [readRules, unread] at read
  obtain rfl := Except.ok.inj read
  cases complete

end OtDetection.SuricataRules
