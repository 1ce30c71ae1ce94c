import OtDetection.BundleStems
import OtDetection.LogicalLines

/-! The native rules in the deployment bundle. Comments stand between the files, and the reader is
between two logical lines where one file ends and the next begins, unless a file ends in a
backslash. -/

namespace OtDetection.NativeBundle
open PyText PyNumber PyLines SuricataRules Bundles ExceptSteps

/-! ## Lines of a concatenation -/

theorem linesFrom_newline (front : List Char) {after : Bool} {line : List Char}
    (fresh : after = true → line = []) (rest : List Char) :
    linesFrom after line (front ++ '\n' :: rest) =
      linesFrom after line (front ++ ['\n']) ++ splitlines rest := by
  induction front generalizing after line with
  | nil =>
    have stops : isLineBreak '\n' := by decide
    cases after with
    | false =>
      rw [List.nil_append, List.nil_append, linesFrom, linesFrom, if_neg (by simp), if_pos stops,
        if_neg (by simp), if_pos stops]
      rfl
    | true =>
      obtain rfl := fresh rfl
      rw [List.nil_append, List.nil_append, linesFrom, linesFrom, if_pos ⟨rfl, rfl⟩,
        if_pos ⟨rfl, rfl⟩]
      rfl
  | cons c front ih =>
    rw [List.cons_append, List.cons_append, linesFrom, linesFrom]
    split_ifs with pair stops
    · exact ih fun same => absurd same Bool.false_ne_true
    · rw [ih fun _ => rfl, List.cons_append]
    · exact ih fun same => absurd same Bool.false_ne_true

theorem splitlines_newline (front rest : List Char) :
    splitlines (front ++ '\n' :: rest) = splitlines (front ++ ['\n']) ++ splitlines rest :=
  @linesFrom_newline front false [] (fun same => absurd same Bool.false_ne_true) rest

theorem linesFrom_append (front : List Char) (after : Bool) (line : List Char) :
    ∃ lines after' line', ∀ rest,
      linesFrom after line (front ++ rest) = lines ++ linesFrom after' line' rest := by
  induction front generalizing after line with
  | nil => exact ⟨[], after, line, fun rest => rfl⟩
  | cons c front ih =>
    by_cases pair : after = true ∧ c = '\n'
    · obtain ⟨lines, after', line', same⟩ := ih false line
      refine ⟨lines, after', line', fun rest => ?_⟩
      rw [List.cons_append, linesFrom, if_pos pair, same]
    by_cases stops : isLineBreak c
    · obtain ⟨lines, after', line', same⟩ := ih (c == '\r') []
      refine ⟨line :: lines, after', line', fun rest => ?_⟩
      rw [List.cons_append, linesFrom, if_neg pair, if_pos stops, same, List.cons_append]
    · obtain ⟨lines, after', line', same⟩ := ih false (line ++ [c])
      refine ⟨lines, after', line', fun rest => ?_⟩
      rw [List.cons_append, linesFrom, if_neg pair, if_neg stops, same]

def isSpaceChar (c : Char) : Bool := isSpace c.toNat

theorem isSpaceChar_of_isLineBreak {c : Char} (stops : isLineBreak c) : isSpaceChar c = true :=
  ZeekLog.isSpace_of_isBreak stops

theorem splitlines_letter (front : List Char) {c : Char} (letter : isSpaceChar c = false) :
    ∃ lines line, ∀ rest, splitlines (front ++ c :: rest) =
      lines ++ linesFrom false (line ++ [c]) rest := by
  obtain ⟨lines, after, line, same⟩ := linesFrom_append front false []
  have inside : ¬ isLineBreak c := by
    intro stops
    rw [isSpaceChar_of_isLineBreak stops] at letter
    cases letter
  have other : ¬ (after = true ∧ c = '\n') := by
    rintro ⟨-, rfl⟩
    exact inside (by decide)
  refine ⟨lines, line, fun rest => ?_⟩
  rw [splitlines, same, linesFrom, if_neg other, if_neg inside]

theorem blank_linesFrom {spaces : List Char} (space : ∀ c ∈ spaces, isSpaceChar c = true)
    (after : Bool) {line : List Char} (blank : ∀ c ∈ line, isSpaceChar c = true) :
    ∀ part ∈ linesFrom after line spaces, ∀ c ∈ part, isSpaceChar c = true := by
  induction spaces generalizing after line with
  | nil =>
    rw [linesFrom]
    split_ifs
    · exact List.forall_mem_nil _
    · exact List.forall_mem_singleton.mpr blank
  | cons c spaces ih =>
    obtain ⟨here, later⟩ := List.forall_mem_cons.mp space
    rw [linesFrom]
    split_ifs
    · exact ih later false blank
    · exact List.forall_mem_cons.mpr ⟨blank, ih later _ (List.forall_mem_nil _)⟩
    · exact ih later false (List.forall_mem_append.mpr ⟨blank, List.forall_mem_singleton.mpr here⟩)

theorem linesFrom_spaces {spaces : List Char} (space : ∀ c ∈ spaces, isSpaceChar c = true)
    {line : List Char} (some_line : line ≠ []) :
    ∃ pad blanks, linesFrom false line spaces = (line ++ pad) :: blanks ∧
      (∀ c ∈ pad, isSpaceChar c = true) ∧ ∀ part ∈ blanks, ∀ c ∈ part, isSpaceChar c = true := by
  induction spaces generalizing line with
  | nil =>
    refine ⟨[], [], ?_, List.forall_mem_nil _, List.forall_mem_nil _⟩
    rw [linesFrom, if_neg some_line, List.append_nil]
  | cons c spaces ih =>
    obtain ⟨here, later⟩ := List.forall_mem_cons.mp space
    rw [linesFrom, if_neg (by simp)]
    split_ifs with stops
    · exact ⟨[], _, by rw [List.append_nil], List.forall_mem_nil _,
        blank_linesFrom later _ (List.forall_mem_nil _)⟩
    · obtain ⟨pad, blanks, same, padded, blank⟩ :=
        ih later (List.append_ne_nil_of_left_ne_nil some_line [c])
      refine ⟨c :: pad, blanks, ?_, List.forall_mem_cons.mpr ⟨here, padded⟩, blank⟩
      rw [same, List.append_assoc, List.singleton_append]

/-! ## The reader on two layouts -/

/-- The reader of the second layout has what the first has, behind what it had before. -/
def Follows (done : List Text) (first second : Scan) : Prop :=
  second.lines.map Prod.snd = done ++ first.lines.map Prod.snd ∧ second.buffer = first.buffer

theorem Follows.readPhysical {done : List Text} {first second : Scan}
    (follows : Follows done first second) {line line' : Text}
    (same : strip line = strip line') (number number' : ℕ) :
    Follows done (readPhysical first number line) (readPhysical second number' line') := by
  obtain ⟨lines, buffer⟩ := follows
  rw [SuricataRules.readPhysical, SuricataRules.readPhysical, ← same, buffer]
  dsimp only
  split_ifs
  · exact ⟨lines, buffer⟩
  · exact ⟨lines, rfl⟩
  · exact ⟨lines, rfl⟩
  · refine ⟨?_, rfl⟩
    rw [List.map_append, List.map_append, lines, List.append_assoc]
    rfl
  · refine ⟨?_, rfl⟩
    rw [List.map_append, List.map_append, lines, List.append_assoc]
    rfl

theorem Follows.scanLines {done : List Text} {lines lines' : List Text}
    (same : List.Forall₂ (fun line line' => strip line = strip line') lines lines')
    {first second : Scan} (follows : Follows done first second) (number number' : ℕ) :
    Follows done (scanLines number first lines) (scanLines number' second lines') := by
  induction same generalizing first second number number' with
  | nil => exact follows
  | cons here _ ih => exact ih (follows.readPhysical here number number') _ _

theorem scanLines_blank {lines : List Text} (blank : ∀ line ∈ lines, strip line = []) (number : ℕ)
    {scan : Scan} (empty : scan.buffer = []) : scanLines number scan lines = scan := by
  induction lines generalizing number with
  | nil => rfl
  | cons line lines ih =>
    obtain ⟨here, later⟩ := List.forall_mem_cons.mp blank
    rw [scanLines, readPhysical_ignored empty number (.inl here), ih later]

theorem readPhysical_closed (scan : Scan) (number : ℕ) {line : Text} {c : ℕ}
    (last : (strip line).getLast? = some c) (other : c ≠ 0x5C) :
    (readPhysical scan number line).buffer = [] := by
  have plain : (scan.buffer ++ strip line).getLast? ≠ some 0x5C := by
    rw [List.getLast?_append, last]
    exact fun same => other (Option.some.inj same)
  by_cases skipped : scan.buffer = [] ∧ Ignored line
  · rw [readPhysical_ignored skipped.1 number skipped.2]
    exact skipped.1
  · rw [readPhysical_ended number (fun empty ignored => skipped ⟨empty, ignored⟩) plain]

/-- The logical lines of some physical ones, without their numbers. -/
def rulesOf (lines : List Text) : List Text := (scanLines 1 ⟨[], [], 0⟩ lines).lines.map Prod.snd

/-- No logical line is open behind the physical ones. -/
def Closed (lines : List Text) : Prop := (scanLines 1 ⟨[], [], 0⟩ lines).buffer = []

theorem rulesOf_congr {lines lines' : List Text}
    (same : List.Forall₂ (fun line line' => strip line = strip line') lines lines') :
    rulesOf lines' = rulesOf lines ∧ (Closed lines' ↔ Closed lines) := by
  have follows := @Follows.scanLines [] lines lines' same ⟨[], [], 0⟩ ⟨[], [], 0⟩ ⟨rfl, rfl⟩ 1 1
  exact ⟨follows.1, by rw [Closed, Closed, follows.2]⟩

theorem rulesOf_append {front back : List Text} (closed : Closed front) :
    rulesOf (front ++ back) = rulesOf front ++ rulesOf back ∧
      (Closed (front ++ back) ↔ Closed back) := by
  have begins : Follows (rulesOf front) ⟨[], [], 0⟩ (scanLines 1 ⟨[], [], 0⟩ front) :=
    ⟨(List.append_nil _).symm, closed⟩
  have same : List.Forall₂ (fun line line' => strip line = strip line') back back :=
    List.forall₂_same.mpr fun line _ => rfl
  have follows := begins.scanLines same 1 (1 + front.length)
  rw [← scanLines_append] at follows
  exact ⟨follows.1, by rw [Closed, Closed, follows.2]⟩

theorem rulesOf_blank {lines : List Text} (blank : ∀ line ∈ lines, strip line = []) :
    rulesOf lines = [] ∧ Closed lines := by
  have same := @scanLines_blank lines blank 1 ⟨[], [], 0⟩ rfl
  rw [rulesOf, Closed, same]
  exact ⟨rfl, rfl⟩

theorem rulesOf_comment {line : Text} (comment : [0x23] <+: strip line) :
    rulesOf [line] = [] ∧ Closed [line] := by
  have same : scanLines 1 ⟨[], [], 0⟩ [line] = ⟨[], [], 0⟩ :=
    readPhysical_ignored rfl 1 (.inr comment)
  rw [rulesOf, Closed, same]
  exact ⟨rfl, rfl⟩

/-! ## A file and its part of the bundle -/

open ZeekLog (readLines)

theorem strip_head {c : ℕ} (letter : isSpace c = false) (rest : Text) :
    [c] <+: strip (c :: rest) := by
  have starts (back : Text) : (c :: back).dropWhile isSpace = c :: back := by
    rw [List.dropWhile_cons, letter]
    rfl
  rw [strip, stripBy, starts, List.reverse_cons, List.dropWhile_append, starts]
  split_ifs with nothing
  · exact List.prefix_rfl
  · rw [List.reverse_append]
    exact ⟨_, rfl⟩

theorem strip_blank {line : List Char} (blank : ∀ c ∈ line, isSpaceChar c = true) :
    strip (line.map Char.toNat) = [] := by
  have nothing : (line.map Char.toNat).dropWhile isSpace = [] := by
    rw [List.dropWhile_eq_nil_iff, List.forall_mem_map]
    exact blank
  rw [strip, stripBy, nothing]
  rfl

/-- `text.rstrip()`. -/
def trimmed (text : List Char) : List Char := (text.reverse.dropWhile isSpaceChar).reverse

theorem trimmed_append (text : List Char) :
    ∃ spaces, text = trimmed text ++ spaces ∧ ∀ c ∈ spaces, isSpaceChar c = true := by
  refine ⟨(text.reverse.takeWhile isSpaceChar).reverse, ?_, fun c mem => ?_⟩
  · rw [trimmed, ← List.reverse_append, List.takeWhile_append_dropWhile, List.reverse_reverse]
  · exact List.mem_takeWhile_imp (List.mem_reverse.mp mem)

theorem trimmed_cases (text : List Char) :
    trimmed text = [] ∨ ∃ front c, trimmed text = front ++ [c] ∧ isSpaceChar c = false := by
  cases kept : text.reverse.dropWhile isSpaceChar with
  | nil =>
    refine .inl ?_
    rw [trimmed, kept]
    rfl
  | cons c rest =>
    refine .inr ⟨rest.reverse, c, ?_, ?_⟩
    · rw [trimmed, kept, List.reverse_cons]
    · have first := List.head?_dropWhile_not isSpaceChar text.reverse
      rw [kept] at first
      exact first

theorem splitlines_spaces (front : List Char) {c : Char} (letter : isSpaceChar c = false)
    {spaces : List Char} (space : ∀ d ∈ spaces, isSpaceChar d = true) :
    ∃ lines line pad blanks, splitlines (front ++ [c] ++ ['\n']) = lines ++ [line ++ [c]] ∧
      splitlines (front ++ [c] ++ spaces) = lines ++ (line ++ [c] ++ pad) :: blanks ∧
      (∀ d ∈ pad, isSpaceChar d = true) ∧ ∀ part ∈ blanks, ∀ d ∈ part, isSpaceChar d = true := by
  obtain ⟨lines, line, same⟩ := splitlines_letter front letter
  obtain ⟨pad, blanks, padding, padded, blank⟩ :=
    linesFrom_spaces space (List.append_ne_nil_of_right_ne_nil line (List.cons_ne_nil c []))
  have last := @linesFrom_append_newline [] (line ++ [c]) (List.forall_mem_nil _)
  rw [List.nil_append, List.append_nil] at last
  refine ⟨lines, line, pad, blanks, ?_, ?_, padded, blank⟩
  · rw [List.append_assoc, List.singleton_append, same, last]
  · rw [List.append_assoc, List.singleton_append, same, padding]

theorem strip_pad (line : List Char) {c : Char} (letter : isSpaceChar c = false) {pad : List Char}
    (padded : ∀ d ∈ pad, isSpaceChar d = true) :
    strip ((line ++ [c] ++ pad).map Char.toNat) =
      (line.map Char.toNat).dropWhile isSpace ++ [c.toNat] := by
  have blank : ∀ d ∈ pad.map Char.toNat, isSpace d = true := List.forall_mem_map.mpr padded
  rw [List.append_assoc, List.map_append]
  exact NumberText.stripBy_letter (line.map Char.toNat) letter blank

theorem rulesOf_spaces {spaces : List Char} (space : ∀ c ∈ spaces, isSpaceChar c = true) :
    rulesOf (readLines spaces) = [] ∧ Closed (readLines spaces) := by
  refine rulesOf_blank ?_
  rw [readLines, List.forall_mem_map]
  exact fun line mem =>
    strip_blank (blank_linesFrom space false (List.forall_mem_nil _) line mem)

theorem rulesOf_trimmed {text : List Char} (ends : (trimmed text).getLast? ≠ some '\\') :
    rulesOf (readLines (trimmed text ++ ['\n'])) = rulesOf (readLines text) ∧
      Closed (readLines (trimmed text ++ ['\n'])) := by
  obtain ⟨spaces, whole, space⟩ := trimmed_append text
  rcases trimmed_cases text with nothing | ⟨front, c, trim, letter⟩
  · -- The text has only spaces.
    have newline : ∀ c ∈ ['\n'], isSpaceChar c = true := List.forall_mem_singleton.mpr (by decide)
    rw [nothing, List.nil_append] at whole
    rw [nothing, List.nil_append, whole, (rulesOf_spaces space).1, (rulesOf_spaces newline).1]
    exact ⟨rfl, (rulesOf_spaces newline).2⟩
  · obtain ⟨lines, line, pad, blanks, short, long, padded, blank⟩ :=
      splitlines_spaces front letter space
    rw [← trim] at short long
    rw [← whole] at long
    have other : c.toNat ≠ 0x5C := by
      intro backslash
      rw [trim, List.getLast?_concat] at ends
      exact ends (congrArg some (Char.toNat_inj.mp backslash))
    have own := strip_pad line letter (List.forall_mem_nil _)
    rw [List.append_nil] at own
    have closed : Closed (readLines (trimmed text ++ ['\n'])) := by
      rw [readLines, short, List.map_append, Closed, scanLines_append]
      refine readPhysical_closed _ _ ?_ other
      rw [own, List.getLast?_concat]
    have padded_lines : List.Forall₂ (fun line line' => strip line = strip line')
        (readLines (trimmed text ++ ['\n']))
        ((lines ++ [line ++ [c] ++ pad]).map (List.map Char.toNat)) := by
      rw [readLines, short, List.map_append, List.map_append]
      exact @List.rel_append _ _ (fun line line' => strip line = strip line') _ _
        (List.forall₂_same.mpr fun line _ => rfl) _ _
        (.cons (own.trans (strip_pad line letter padded).symm) .nil)
    have behind : ∀ line ∈ blanks.map (List.map Char.toNat), strip line = [] :=
      List.forall_mem_map.mpr fun line mem => strip_blank (blank line mem)
    have all : readLines text = (lines ++ [line ++ [c] ++ pad]).map (List.map Char.toNat) ++
        blanks.map (List.map Char.toNat) := by
      rw [readLines, long, List.append_cons, List.map_append]
    obtain ⟨rules, still⟩ := rulesOf_congr padded_lines
    rw [all, (rulesOf_append (still.mpr closed)).1, (rulesOf_blank behind).1,
      List.append_nil, rules]
    exact ⟨rfl, closed⟩

/-! ## The bundle -/

section Bundle

variable {Rule : Type} {env : Environment Rule}

/-- A native rule file in characters. Its path is one line, and its text does not end in a
backslash. -/
structure NativeFile (env : Environment Rule) where
  path : Path
  name : List Char
  text : List Char
  name_eq : name.map Char.toNat = asPosix path
  text_eq : text.map Char.toNat = env.readText (env.root ++ path)
  one_line : ∀ c ∈ name, ¬ isLineBreak c
  ends : (trimmed text).getLast? ≠ some '\\'

namespace NativeFile

variable (file : NativeFile env)

def banner : List Char := '#' :: (" === ".toList ++ (file.name ++ " ===".toList))

def part : List Char := file.banner ++ '\n' :: (trimmed file.text ++ ['\n'])

theorem map_part (first : Char) (front name back rest : List Char) :
    ((first :: (front ++ (name ++ back))) ++ '\n' :: (rest ++ ['\n'])).map Char.toNat =
      first.toNat :: front.map Char.toNat ++ (name.map Char.toNat ++
        ((back.map Char.toNat ++ [0x0A]) ++ (rest.map Char.toNat ++ [0x0A]))) := by
  simp only [List.map_append, List.map_cons, List.map_nil, List.cons_append, List.append_assoc,
    List.nil_append]
  rfl

theorem part_eq : file.part.map Char.toNat = nativePart env file.path := by
  have back : (file.text.map Char.toNat).reverse = file.text.reverse.map Char.toNat :=
    List.map_reverse.symm
  have trim : (trimmed file.text).map Char.toNat =
      ((env.readText (env.root ++ file.path)).reverse.dropWhile isSpace).reverse := by
    rw [trimmed, List.map_reverse, ← file.text_eq, back, List.dropWhile_map]
    rfl
  have mapped := map_part '#' " === ".toList file.name " ===".toList (trimmed file.text)
  rw [file.name_eq, trim] at mapped
  exact mapped

theorem banner_clean : ∀ c ∈ file.banner, ¬ isLineBreak c := by
  have front : ∀ c ∈ '#' :: " === ".toList, ¬ isLineBreak c := by simp [isLineBreak]
  have back : ∀ c ∈ " ===".toList, ¬ isLineBreak c := by simp [isLineBreak]
  rw [List.forall_mem_cons] at front
  exact List.forall_mem_cons.mpr ⟨front.1, List.forall_mem_append.mpr ⟨front.2,
    List.forall_mem_append.mpr ⟨file.one_line, back⟩⟩⟩

theorem banner_comment : [0x23] <+: strip (file.banner.map Char.toNat) := strip_head (by decide) _

theorem readLines_part :
    readLines file.part =
      [file.banner.map Char.toNat] ++ readLines (trimmed file.text ++ ['\n']) := by
  rw [readLines, part, splitlines, linesFrom_line file.banner_clean, List.map_cons]
  rfl

theorem readLines_part_append (rest : List Char) :
    readLines (file.part ++ '\n' :: rest) = readLines file.part ++ ([[]] ++ readLines rest) := by
  have empty : splitlines ('\n' :: rest) = [] :: splitlines rest :=
    @linesFrom_line [] (List.forall_mem_nil _) [] rest
  have behind : file.part ++ '\n' :: rest =
      (file.banner ++ '\n' :: trimmed file.text) ++ '\n' :: ('\n' :: rest) := by
    rw [part, List.append_assoc, List.cons_append, List.append_assoc, List.append_assoc]
    rfl
  have alone : (file.banner ++ '\n' :: trimmed file.text) ++ ['\n'] = file.part := by
    rw [part, List.append_assoc]
    rfl
  rw [readLines, behind, splitlines_newline, alone, empty, List.map_append, List.map_cons]
  rfl

theorem rulesOf_part : rulesOf (readLines file.part) = rulesOf (readLines file.text) ∧
    Closed (readLines file.part) := by
  obtain ⟨none, comment⟩ := rulesOf_comment file.banner_comment
  obtain ⟨rules, closed⟩ := rulesOf_trimmed file.ends
  obtain ⟨together, still⟩ := @rulesOf_append _ (readLines (trimmed file.text ++ ['\n'])) comment
  rw [readLines_part, together, none, List.nil_append]
  exact ⟨rules, still.mpr closed⟩

end NativeFile

/-- The parts, each on a line of its own. -/
def joined : List (NativeFile env) → List Char
  | [] => []
  | [file] => file.part
  | file :: next :: files => file.part ++ '\n' :: joined (next :: files)

theorem joined_eq (files : List (NativeFile env)) : (joined files).map Char.toNat =
    join (codes "\n") ((files.map NativeFile.path).map (nativePart env)) := by
  induction files with
  | nil => rfl
  | cons file files ih =>
    cases files with
    | nil => exact file.part_eq
    | cons next files =>
      rw [joined, List.map_append, List.map_cons, file.part_eq, ih]
      rfl

theorem rulesOf_joined (files : List (NativeFile env)) :
    rulesOf (readLines (joined files)) =
      files.flatMap fun file => rulesOf (readLines file.text) := by
  induction files with
  | nil => rfl
  | cons file files ih =>
    cases files with
    | nil =>
      rw [joined, List.flatMap_singleton]
      exact file.rulesOf_part.1
    | cons next files =>
      obtain ⟨rules, closed⟩ := file.rulesOf_part
      obtain ⟨none, blank⟩ := @rulesOf_blank [[]] (by decide)
      rw [joined, file.readLines_part_append, (rulesOf_append closed).1, (rulesOf_append blank).1,
        none, List.nil_append, ih, rules]
      rfl

/-- The last comment above all parts. -/
def installComment : List Char :=
  "# Install: copy to the Suricata rules directory and reload.\n".toList

/-- The comments above all parts, without the empty line. -/
def heading : List Char := "# OT detection ruleset for Suricata.\n".toList ++
  ("# Generated by pipelines/deploy.py; do not edit by hand.\n".toList ++ installComment)

theorem rulesOf_heading : rulesOf (readLines (heading ++ ['\n'])) = [] ∧
    Closed (readLines (heading ++ ['\n'])) := by
  constructor
  · decide +kernel
  · rw [Closed]
    decide +kernel

def nativeChars (files : List (NativeFile env)) : List Char := heading ++ '\n' :: joined files

theorem map_comments (first second third rest : List Char) :
    ((first ++ (second ++ third)) ++ '\n' :: rest).map Char.toNat = first.map Char.toNat ++
      (second.map Char.toNat ++ (third.map Char.toNat ++ 0x0A :: rest.map Char.toNat)) := by
  rw [List.map_append, List.map_append, List.map_append, List.map_cons, List.append_assoc,
    List.append_assoc]
  rfl

theorem codes_installComment (rest : Text) :
    codes "# Install: copy to the Suricata rules directory and reload.\n\n" ++ rest =
      installComment.map Char.toNat ++ 0x0A :: rest := by
  have whole : codes "# Install: copy to the Suricata rules directory and reload.\n\n" =
      installComment.map Char.toNat ++ [0x0A] := by decide +kernel
  rw [whole, List.append_assoc]
  rfl

theorem nativeChars_eq {files : List (NativeFile env)}
    (all : files.map NativeFile.path = env.nativeRules) :
    (nativeChars files).map Char.toNat = nativeText env := by
  have behind := codes_installComment (join (codes "\n") (env.nativeRules.map (nativePart env)))
  have front := map_comments "# OT detection ruleset for Suricata.\n".toList
    "# Generated by pipelines/deploy.py; do not edit by hand.\n".toList installComment
    (joined files)
  rewrite [joined_eq, all] at front
  refine front.trans ?_
  exact congrArg (codes "# OT detection ruleset for Suricata.\n" ++ ·)
    (congrArg (codes "# Generated by pipelines/deploy.py; do not edit by hand.\n" ++ ·) behind.symm)

theorem rulesOf_nativeChars (files : List (NativeFile env)) :
    rulesOf (readLines (nativeChars files)) =
      files.flatMap fun file => rulesOf (readLines file.text) := by
  have lines : readLines (nativeChars files) =
      readLines (heading ++ ['\n']) ++ readLines (joined files) := by
    rw [readLines, nativeChars, splitlines_newline, List.map_append]
    rfl
  rw [lines, (rulesOf_append rulesOf_heading.2).1, rulesOf_heading.1, List.nil_append,
    rulesOf_joined]

end Bundle

/-! ## The rules that are read -/

/-- A rule without the place it is read from. -/
def bodyOf (rule : SuricataRule) : SuricataRule := { rule with source := [], lineNumber := 0 }

section Rules

variable (unicode : Unicode)

theorem readRule_body (source : Text) (line : ℕ × Text) :
    (readRule unicode source line).map bodyOf = readRule unicode [] (0, line.2) := by
  rw [readRule, readRule]
  cases number unicode "sid" (optionsOf line.2) with
  | error e => rfl
  | ok sid =>
    cases number unicode "rev" (optionsOf line.2) with
    | error e => rfl
    | ok rev => rfl

theorem map_mapM {α β γ ε : Type} (f : α → Except ε β) (g : β → γ) (items : List α) :
    (items.mapM f).map (List.map g) = items.mapM fun item => (f item).map g := by
  induction items with
  | nil => rfl
  | cons item items ih =>
    rw [List.mapM_cons, List.mapM_cons, ← ih]
    cases f item with
    | error e => rfl
    | ok b =>
      cases items.mapM f with
      | error e => rfl
      | ok rest => rfl

theorem readRules_body (source : Text) (text : List Char) :
    (readRules unicode source text).map (List.map bodyOf) =
      (rulesOf (readLines text)).mapM fun line => readRule unicode [] (0, line) := by
  rw [readRules, map_mapM, rulesOf, List.mapM_map]
  exact congrArg (fun read => List.mapM read (logicalLines text))
    (funext (readRule_body unicode source))

theorem mapM_flatMap {α β γ ε : Type} (f : β → Except ε γ) (part : α → List β) (items : List α) :
    (items.flatMap part).mapM f = (items.mapM fun item => (part item).mapM f).map List.flatten := by
  induction items with
  | nil => rfl
  | cons item items ih =>
    rw [List.flatMap_cons, List.mapM_append, ih, List.mapM_cons]
    cases (part item).mapM f with
    | error e => rfl
    | ok first =>
      cases items.mapM fun item => (part item).mapM f with
      | error e => rfl
      | ok rest => rfl

end Rules

/-- The rules that are read of the deployed file are those of the native files in their order, with
the same error if one of them has a number out of range. -/
theorem deployed_rules (unicode : Unicode) {Rule : Type} [DecidableEq Rule] {env : Environment Rule}
    {collections : Backend → Collection Rule} {bundle : AList fun _ : Text => Text}
    {manifest : Manifest} (built : buildBundle env collections = .ok (bundle, manifest))
    {files : List (NativeFile env)} (all : files.map NativeFile.path = env.nativeRules) :
    ∃ text, bundle.lookup nativePath = some (text.map Char.toNat) ∧
      (readRules unicode nativePath text).map (List.map bodyOf) =
        (files.mapM fun file => readRules unicode (asPosix file.path) file.text).map fun rules =>
          rules.flatten.map bodyOf := by
  refine ⟨nativeChars files, ?_, ?_⟩
  · obtain ⟨build, -, same⟩ := bind_eq_ok_iff.mp built
    obtain ⟨rfl, -⟩ := Prod.mk.inj (Except.ok.inj same)
    have other : nativePath ≠ codes "manifest.json" := by decide
    rw [AList.lookup_insert_ne other, AList.lookup_insert, nativeChars_eq all]
  · rw [readRules_body, rulesOf_nativeChars, mapM_flatMap]
    have each (file : NativeFile env) :
        (rulesOf (readLines file.text)).mapM (fun line => readRule unicode [] (0, line)) =
          (readRules unicode (asPosix file.path) file.text).map (List.map bodyOf) :=
      (readRules_body unicode _ _).symm
    simp only [each]
    rw [← map_mapM]
    cases files.mapM fun file => readRules unicode (asPosix file.path) file.text with
    | error e => rfl
    | ok rules => exact congrArg Except.ok List.map_flatten.symm

/-! Two native files, one of them with a rule on two lines and empty lines in the end. -/

def writeText : List Char :=
  "alert tcp any any -> any 502 (msg:\"write\"; \\\n  sid:9000001; rev:1;)\n\n".toList

def controlText : List Char :=
  "# control\nalert tcp any any -> any 20000 (msg:\"control\"; sid:9000005; rev:2;)".toList

def writePath : Path := ["rules", "native", "modbus.rules"].map codes

def controlPath : Path := ["rules", "native", "ot", "dnp3.rules"].map codes

def nativeOnly : Environment Empty where
  root := [codes "repo"]
  readText path :=
    (if path = codes "repo" :: writePath then writeText else controlText).map Char.toNat
  sha256 _ := codes "e3b0c44298fc1c149afbf4c8996fb92427ae41e4649b934ca495991b7852b855"
  supportsCorrelation backend := backend = .loki
  defaultFormat _ := codes "default"
  convertRuleObject _ _ rule := rule.elim
  correlationLokiDocument rule := rule.elim
  sub _ document := some document
  nativeRules := [writePath, controlPath]

def noSigma : Collection Empty where
  rules := []
  referencedRules rule := rule.elim
  eq rule := rule.elim
  path rule := rule.elim
  isCorrelation rule := rule.elim

def nativeFiles : List (NativeFile nativeOnly) :=
  [{ path := writePath
     name := "rules/native/modbus.rules".toList
     text := writeText
     name_eq := by decide +kernel
     text_eq := by decide +kernel
     one_line := by simp [isLineBreak]
     ends := by decide +kernel },
   { path := controlPath
     name := "rules/native/ot/dnp3.rules".toList
     text := controlText
     name_eq := by decide +kernel
     text_eq := by decide +kernel
     one_line := by simp [isLineBreak]
     ends := by decide +kernel }]

theorem deployed_rules_write_control :
    ∃ bundle manifest text, buildBundle nativeOnly (fun _ => noSigma) = .ok (bundle, manifest) ∧
      bundle.lookup nativePath = some (text.map Char.toNat) ∧
      (readRules noTables nativePath text).map (List.map fun rule => (bodyOf rule).sid) =
        .ok [some 9000001, some 9000005] := by
  obtain ⟨⟨bundle, manifest⟩, built⟩ := @buildBundle_returns _ _ nativeOnly (fun _ => noSigma)
    (fun _ => ⟨[], by decide +kernel⟩) (fun _ rule => rule.elim)
  obtain ⟨text, found, same⟩ := @deployed_rules noTables _ _ nativeOnly _ _ _ built nativeFiles rfl
  refine ⟨bundle, manifest, text, built, found, ?_⟩
  have sids := congrArg (Except.map (List.map SuricataRule.sid)) same
  have read : (((nativeFiles.mapM fun file => readRules noTables (asPosix file.path) file.text).map
      fun rules => rules.flatten.map bodyOf).map (List.map SuricataRule.sid)) =
        .ok [some 9000001, some 9000005] := by decide +kernel
  refine Eq.trans ?_ (sids.trans read)
  cases readRules noTables nativePath text with
  | error e => rfl
  | ok rules => exact congrArg Except.ok List.map_map.symm

end OtDetection.NativeBundle
