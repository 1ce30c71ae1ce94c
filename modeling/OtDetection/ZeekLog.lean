import OtDetection.NumberText
import OtDetection.PyLines
import OtDetection.SplitText

/-! The reader of a Zeek log, line by line with what the header has set so far, and the writer
of one. The reader takes the separator as it is spelled in the header, and only a tab is
spelled out. -/

namespace OtDetection.ZeekLog
open PyText PyNumber SplitText

/-- What a generator yields, and what it raises in the end. -/
structure Yielded (ε α : Type) where
  items : List α
  raised : Option ε
  deriving DecidableEq

abbrev Row := List (Text × Text)

def cell (row : Row) (name : Text) : Option Text := row.reverse.lookup name

/-- What the header has set. -/
structure Reader where
  separator : Text
  unset : Text
  fields : Option (List Text)

def lstrip (text : Text) : Text := text.dropWhile isSpace

def splitBy (separator text : Text) : Except PyError (List Text) :=
  if separator = [] then .error .valueError else .ok (split separator text)

def dict (unset : Text) (fields values : List Text) : Row :=
  (fields.zip values).map fun pair => (pair.1, if pair.2 = unset then [] else pair.2)

def readLine (reader : Reader) (line : Text) : Except PyError (Reader × Option Row) :=
  if codes "#separator" <+: line then
    let raw := strip (line.drop (codes "#separator").length)
    .ok ({ reader with separator := if raw = codes "\\x09" then [0x09] else raw }, none)
  else if codes "#unset_field" <+: line then
    .ok ({ reader with unset := strip (line.drop (codes "#unset_field").length) }, none)
  else if codes "#fields" <+: line then
    (splitBy reader.separator (lstrip (line.drop (codes "#fields").length))).map fun fields =>
      ({ reader with fields := some fields }, none)
  else if line = [] ∨ [0x23] <+: line then .ok (reader, none)
  else
    match reader.fields with
    | none => .ok (reader, none)
    | some fields =>
      (splitBy reader.separator line).map fun values =>
        (reader, some (dict reader.unset fields values))

def readRows : Reader → List Text → Yielded PyError Row
  | _, [] => ⟨[], none⟩
  | reader, line :: lines =>
    match readLine reader line with
    | .error e => ⟨[], some e⟩
    | .ok (reader, row) =>
      let rest := readRows reader lines
      ⟨row.toList ++ rest.items, rest.raised⟩

/-- The lines of a file, which `read_text` has in universal newlines. -/
def readLines (file : List Char) : List Text :=
  (PyLines.splitlines file).map fun line => line.map Char.toNat

def rows (file : List Char) : Yielded PyError Row := readRows ⟨[0x09], codes "-", none⟩ (readLines file)

/-! ## The writer -/

/-- A character at which `splitlines` breaks. -/
def isBreak (c : ℕ) : Prop :=
  c ∈ [0x0A, 0x0B, 0x0C, 0x0D, 0x1C, 0x1D, 0x1E, 0x85, 0x2028, 0x2029]

instance (c : ℕ) : Decidable (isBreak c) := inferInstanceAs (Decidable (_ ∈ _))

/-- A log with one separator byte, which stands in none of its names and cells. -/
structure Log where
  separator : ℕ
  names : List Text
  unset : Text
  rows : List (List Text)
  separator_byte : separator < 0x100
  separator_apart : ¬ isBreak separator ∧ separator ≠ 0x20 ∧ separator ≠ 0x23
  names_some : names ≠ []
  names_distinct : names.Nodup
  names_plain : ∀ name ∈ names, name ≠ [] ∧ ∀ c ∈ name, isSpace c = false ∧ c ≠ separator
  unset_plain : unset ≠ [] ∧ ∀ c ∈ unset, isSpace c = false ∧ c ≠ separator
  rows_cells : ∀ row ∈ rows, row.length = names.length
  cells_plain : ∀ row ∈ rows, ∀ cell ∈ row, ∀ c ∈ cell, ¬ isBreak c ∧ c ≠ separator
  rows_data : ∀ row ∈ rows, ∀ cell ∈ row.head?, cell ≠ [] ∧ cell.head? ≠ some 0x23

namespace Log

variable (log : Log)

def escape : Text := codes "\\x" ++ hexText 2 log.separator

def joined (texts : List Text) : Text := join [log.separator] texts

def header : List Text :=
  [codes "#separator " ++ log.escape, codes "#unset_field" ++ log.separator :: log.unset,
    codes "#fields" ++ log.separator :: log.joined log.names]

def lines : List Text := log.header ++ log.rows.map log.joined

def text : Text := log.lines.flatMap (· ++ [0x0A])

/-- A cell as the reader gives it, empty when it is not set. -/
def value (cell : Text) : Text := if cell = log.unset then [] else cell

/-- The reader gives each row with each cell under its own name. -/
def Inverted (result : Yielded PyError Row) : Prop :=
  result.raised = none ∧ List.Forall₂
    (fun dict row => ∀ name, cell dict name = ((log.names.zip row).lookup name).map log.value)
    result.items log.rows

end Log

/-! ## Lines -/

theorem isSpace_of_isBreak {c : ℕ} (stop : isBreak c) : isSpace c = true := by
  simp only [isBreak, List.mem_cons, List.not_mem_nil, or_false] at stop
  simp only [isSpace, decide_eq_true_eq]
  omega

theorem linesFrom_append {line : List Char} (clean : ∀ c ∈ line, ¬ PyLines.isLineBreak c)
    (current rest : List Char) :
    PyLines.linesFrom false current (line ++ '\n' :: rest) =
      (current ++ line) :: PyLines.splitlines rest := by
  induction line generalizing current with
  | nil =>
    rw [List.nil_append, List.append_nil, PyLines.linesFrom, if_neg (by simp), if_pos (by decide)]
    rfl
  | cons c line ih =>
    obtain ⟨ordinary, later⟩ := List.forall_mem_cons.mp clean
    rw [List.cons_append, PyLines.linesFrom, if_neg (by simp), if_neg ordinary, ih later,
      List.append_assoc, List.singleton_append]

theorem readLines_lines {lines : List Text} (inline : ∀ line ∈ lines, ∀ c ∈ line, ¬ isBreak c)
    {file : List Char} (written : file.map Char.toNat = lines.flatMap (· ++ [0x0A])) :
    readLines file = lines := by
  induction lines generalizing file with
  | nil =>
    rw [List.map_eq_nil_iff.mp written]
    rfl
  | cons line lines ih =>
    obtain ⟨here, later⟩ := List.forall_mem_cons.mp inline
    rw [List.flatMap_cons, List.append_assoc, List.map_eq_append_iff] at written
    obtain ⟨first, behind, rfl, asLine, rest⟩ := written
    rw [List.singleton_append, List.map_eq_cons_iff] at rest
    obtain ⟨stop, rest, rfl, newline, others⟩ := rest
    have newline : stop = '\n' := Char.toNat_inj.mp newline
    have clean : ∀ c ∈ first, ¬ PyLines.isLineBreak c := by
      intro c mem
      exact here c.toNat (asLine ▸ List.mem_map_of_mem mem)
    rw [readLines, PyLines.splitlines, newline, linesFrom_append clean, List.map_cons,
      List.nil_append, asLine]
    exact congrArg (line :: ·) (ih later others)

/-! ## What the header sets -/

theorem readLine_separator (reader : Reader) (rest : Text) :
    readLine reader (codes "#separator" ++ rest) = .ok ({ reader with
      separator := if strip rest = codes "\\x09" then [0x09] else strip rest }, none) := by
  rw [readLine, if_pos ⟨rest, rfl⟩, List.drop_left]

theorem readLine_unset (reader : Reader) (rest : Text) :
    readLine reader (codes "#unset_field" ++ rest) =
      .ok ({ reader with unset := strip rest }, none) := by
  rw [readLine, if_neg (by rintro ⟨more, same⟩; cases same), if_pos ⟨rest, rfl⟩, List.drop_left]

theorem readLine_fields (reader : Reader) (some_sep : reader.separator ≠ []) (rest : Text) :
    readLine reader (codes "#fields" ++ rest) =
      .ok ({ reader with fields := some (split reader.separator (lstrip rest)) }, none) := by
  rw [readLine, if_neg (by rintro ⟨more, same⟩; cases same),
    if_neg (by rintro ⟨more, same⟩; cases same), if_pos ⟨rest, rfl⟩, List.drop_left, splitBy,
    if_neg some_sep]
  rfl

/-- Other comments and empty lines change nothing. -/
def Skipped (line : Text) : Prop :=
  (line = [] ∨ [0x23] <+: line) ∧ ¬ codes "#separator" <+: line ∧
    ¬ codes "#unset_field" <+: line ∧ ¬ codes "#fields" <+: line

instance (line : Text) : Decidable (Skipped line) := inferInstanceAs (Decidable (_ ∧ _ ∧ _ ∧ _))

theorem readLine_skipped (reader : Reader) {line : Text} (skipped : Skipped line) :
    readLine reader line = .ok (reader, none) := by
  obtain ⟨comment, separator, unset, fields⟩ := skipped
  rw [readLine, if_neg separator, if_neg unset, if_neg fields, if_pos comment]

theorem readLine_data {reader : Reader} (some_sep : reader.separator ≠ []) {fields : List Text}
    (set : reader.fields = some fields) {line : Text} (some_line : line ≠ [])
    (data : line.head? ≠ some 0x23) :
    readLine reader line =
      .ok (reader, some (dict reader.unset fields (split reader.separator line))) := by
  have comment (word : Text) : ¬ (0x23 :: word) <+: line := by
    rintro ⟨rest, rfl⟩
    exact data rfl
  have separator : ¬ codes "#separator" <+: line := comment _
  have unset : ¬ codes "#unset_field" <+: line := comment _
  have names : ¬ codes "#fields" <+: line := comment _
  rw [readLine, if_neg separator, if_neg unset, if_neg names,
    if_neg (not_or.mpr ⟨some_line, comment []⟩), set]
  dsimp only
  rw [splitBy, if_neg some_sep]
  rfl

theorem readRows_filter (reader : Reader) (lines : List Text) :
    readRows reader (lines.filter fun line => ¬ Skipped line) = readRows reader lines := by
  induction lines generalizing reader with
  | nil => rfl
  | cons line lines ih =>
    by_cases skipped : Skipped line
    · rw [List.filter_cons_of_neg (by simpa using skipped), ih, readRows,
        readLine_skipped reader skipped]
      rfl
    · rw [List.filter_cons_of_pos (by simpa using skipped), readRows, readRows]
      cases readLine reader line with
      | error e => rfl
      | ok next => simp only [ih]

theorem readRows_ok {reader next : Reader} {line : Text} {row : Option Row}
    (read : readLine reader line = .ok (next, row)) (lines : List Text) :
    readRows reader (line :: lines) =
      ⟨row.toList ++ (readRows next lines).items, (readRows next lines).raised⟩ := by
  rw [readRows, read]

theorem readRows_data {reader : Reader} (some_sep : reader.separator ≠ []) {fields : List Text}
    (set : reader.fields = some fields) {lines : List Text}
    (data : ∀ line ∈ lines, line ≠ [] ∧ line.head? ≠ some 0x23) :
    readRows reader lines =
      ⟨lines.map fun line => dict reader.unset fields (split reader.separator line), none⟩ := by
  induction lines with
  | nil => rfl
  | cons line lines ih =>
    obtain ⟨here, later⟩ := List.forall_mem_cons.mp data
    rw [readRows_ok (readLine_data some_sep set here.1 here.2), ih later]
    rfl

namespace Log

variable (log : Log)

def taken : Text := if log.separator = 0x09 then [0x09] else log.escape

def lead : Text := if isSpace log.separator then [] else [log.separator]

def reader : Reader :=
  ⟨log.taken, log.lead ++ log.unset, some (split log.taken (log.lead ++ log.joined log.names))⟩

theorem taken_ne_nil : log.taken ≠ [] := by
  rw [taken]
  split
  · exact List.cons_ne_nil _ _
  · exact List.cons_ne_nil _ _

theorem strip_escape : strip (0x20 :: log.escape) = log.escape := by
  have bytes : ∀ s < 0x100, strip (0x20 :: (codes "\\x" ++ hexText 2 s)) =
      codes "\\x" ++ hexText 2 s := by decide +kernel
  exact bytes log.separator log.separator_byte

theorem escape_eq_tab_iff : log.escape = codes "\\x09" ↔ log.separator = 0x09 := by
  have bytes : ∀ s < 0x100, codes "\\x" ++ hexText 2 s = codes "\\x09" ↔ s = 0x09 := by
    decide +kernel
  exact bytes log.separator log.separator_byte

theorem strip_unset : strip (log.separator :: log.unset) = log.lead ++ log.unset := by
  have plain : ∀ c ∈ log.unset, isSpace c = false := fun c mem => (log.unset_plain.2 c mem).1
  rw [lead]
  split
  · rename_i space
    have same : strip (log.separator :: log.unset) = strip log.unset := by
      rw [strip, stripBy, List.dropWhile_cons, if_pos space]
      rfl
    rw [same]
    exact NumberText.stripBy_eq_self plain
  · rename_i other
    refine NumberText.stripBy_eq_self fun c mem => ?_
    rcases List.mem_cons.mp mem with rfl | inside
    · exact Bool.eq_false_iff.mpr other
    · exact plain c inside

theorem joined_cons (text : Text) {texts : List Text} (some_texts : texts ≠ []) :
    log.joined (text :: texts) = text ++ log.separator :: log.joined texts := by
  cases texts with
  | nil => exact absurd rfl some_texts
  | cons next texts => rfl

theorem head_joined {text : Text} (some_text : text ≠ []) (texts : List Text) :
    (log.joined (text :: texts)).head? = text.head? := by
  cases texts with
  | nil => rfl
  | cons next texts =>
    rw [joined_cons log text (List.cons_ne_nil next texts), List.head?_append_of_ne_nil _ some_text]

theorem lstrip_names : lstrip (log.separator :: log.joined log.names) =
    log.lead ++ log.joined log.names := by
  rw [lead]
  split
  · rename_i space
    obtain ⟨name, names, all⟩ := List.exists_cons_of_ne_nil log.names_some
    have plain := log.names_plain name (all ▸ List.mem_cons_self)
    obtain ⟨c, rest, first⟩ := List.exists_cons_of_ne_nil plain.1
    have head := log.head_joined plain.1 names
    rw [← all, first] at head
    obtain ⟨rest', joined⟩ := List.head?_eq_some_iff.mp head
    have letter : isSpace c = false := (plain.2 c (first ▸ List.mem_cons_self)).1
    rw [lstrip, List.dropWhile_cons, if_pos space, joined, List.dropWhile_cons, letter]
    rfl
  · rename_i other
    rw [lstrip, List.dropWhile_cons, if_neg other]
    rfl

theorem readRows_header (first : Reader) (lines : List Text) :
    readRows first (log.header ++ lines) = readRows log.reader lines := by
  have separator := readLine_separator first (0x20 :: log.escape)
  have sep : (if strip (0x20 :: log.escape) = codes "\\x09" then [0x09]
      else strip (0x20 :: log.escape)) = log.taken := by
    rw [taken, log.strip_escape]
    simp only [log.escape_eq_tab_iff]
  rw [sep] at separator
  have unset := readLine_unset { first with separator := log.taken } (log.separator :: log.unset)
  have fields := readLine_fields { first with separator := log.taken, unset := log.lead ++ log.unset }
    log.taken_ne_nil (log.separator :: log.joined log.names)
  rw [log.strip_unset] at unset
  rw [log.lstrip_names] at fields
  exact (readRows_ok separator _).trans ((readRows_ok unset _).trans (readRows_ok fields _))

theorem joined_data {row : List Text} (mem : row ∈ log.rows) :
    log.joined row ≠ [] ∧ (log.joined row).head? ≠ some 0x23 := by
  have cells := log.rows_cells row mem
  have data := log.rows_data row mem
  cases row with
  | nil => exact absurd (List.length_eq_zero_iff.mp cells.symm) log.names_some
  | cons cell row =>
    obtain ⟨some_cell, letter⟩ := data cell rfl
    have head := log.head_joined some_cell row
    refine ⟨fun empty => ?_, head ▸ letter⟩
    rw [empty, List.head?_nil, eq_comm, List.head?_eq_none_iff] at head
    exact some_cell head

theorem rows_eq {file : List Char}
    (lines : (readLines file).filter (fun line => ¬ Skipped line) = log.lines) :
    ZeekLog.rows file = ⟨log.rows.map fun row =>
      dict (log.lead ++ log.unset) (split log.taken (log.lead ++ log.joined log.names))
        (split log.taken (log.joined row)), none⟩ := by
  have data : ∀ line ∈ log.rows.map log.joined, line ≠ [] ∧ line.head? ≠ some 0x23 := by
    rw [List.forall_mem_map]
    exact fun row mem => log.joined_data mem
  rw [ZeekLog.rows, ← readRows_filter, lines, Log.lines, readRows_header,
    @readRows_data log.reader log.taken_ne_nil _ rfl _ data, List.map_map]
  rfl

end Log

/-! ## What a row maps -/

theorem mem_of_cell {unset : Text} {names values : List Text} {name value : Text}
    (found : cell (dict unset names values) name = some value) : name ∈ names := by
  have mem : (name, value) ∈ dict unset names values :=
    List.mem_reverse.mp (FieldLookup.mem_of_lookup found)
  obtain ⟨pair, inside, same⟩ := List.mem_map.mp mem
  have key : pair.1 = name := congrArg Prod.fst same
  rw [← key]
  exact (List.of_mem_zip inside).1

theorem cell_dict {unset : Text} {names : List Text} (distinct : names.Nodup)
    (values : List Text) (name : Text) :
    cell (dict unset names values) name =
      ((names.zip values).lookup name).map fun value => if value = unset then [] else value := by
  induction names generalizing values with
  | nil => rfl
  | cons first names ih =>
    cases values with
    | nil => rfl
    | cons value values =>
      obtain ⟨apart, later⟩ := List.nodup_cons.mp distinct
      have rest := ih later values
      rw [cell, dict] at rest
      rw [cell, dict, List.zip_cons_cons, List.map_cons, List.reverse_cons, List.lookup_append, rest,
        List.lookup_cons, List.lookup_cons]
      by_cases here : name = first
      · have missing : (names.zip values).lookup name = none := by
          rw [List.lookup_eq_none_iff]
          intro pair mem
          rw [bne_iff_ne]
          rintro rfl
          exact apart (here ▸ (List.of_mem_zip mem).1)
        rw [missing, here, beq_self_eq_true]
        rfl
      · have other : (name == first) = false := beq_eq_false_iff_ne.mpr here
        rw [other]
        exact Option.or_none

namespace Log

variable (log : Log)

theorem split_joined {texts : List Text} (some_text : texts ≠ [])
    (plain : ∀ text ∈ texts, log.separator ∉ text) :
    split [log.separator] (log.joined texts) = texts := by
  induction texts with
  | nil => exact absurd rfl some_text
  | cons text texts ih =>
    obtain ⟨here, later⟩ := List.forall_mem_cons.mp plain
    by_cases last : texts = []
    · rw [last]
      exact split_of_absent fun occurs => here (occurs.subset (List.mem_singleton_self _))
    · rw [log.joined_cons text last, split_append here, ih last later]

theorem rows_tab (tab : log.separator = 0x09) {file : List Char}
    (lines : (readLines file).filter (fun line => ¬ Skipped line) = log.lines) :
    ZeekLog.rows file = ⟨log.rows.map (dict log.unset log.names), none⟩ := by
  have lead : log.lead = [] := by
    rw [Log.lead, tab]
    rfl
  have taken : log.taken = [log.separator] := by rw [Log.taken, if_pos tab, tab]
  have names : split [log.separator] (log.joined log.names) = log.names :=
    log.split_joined log.names_some fun name mem inside =>
      ((log.names_plain name mem).2 _ inside).2 rfl
  rw [log.rows_eq lines, lead, taken, List.nil_append, List.nil_append, names]
  congr 1
  refine List.map_congr_left fun row mem => congrArg (dict log.unset log.names) ?_
  refine log.split_joined ?_ fun cell inside mark =>
    (log.cells_plain row mem cell inside _ mark).2 rfl
  rw [← List.length_pos_iff, log.rows_cells row mem]
  exact List.length_pos_iff.mpr log.names_some

/-- Another separator is taken as it is spelled, which is read back only where it does not
matter: without rows, or with one column behind a separator that is stripped as whitespace. -/
def ReadBack : Prop :=
  log.separator = 0x09 ∨ log.rows = [] ∨
    isSpace log.separator = true ∧ ∃ name, log.names = [name] ∧ ¬ log.escape <:+: name ∧
      ∀ row ∈ log.rows, ∀ cell ∈ row, log.escape <:+: cell →
        cell = log.unset ∧ log.escape <+: cell

theorem length_joined {texts : List Text} (some_text : texts ≠ []) :
    (log.joined texts).length + 1 = texts.flatten.length + texts.length := by
  induction texts with
  | nil => exact absurd rfl some_text
  | cons text texts ih =>
    by_cases last : texts = []
    · rw [last, List.flatten_singleton]
      rfl
    · have rest := ih last
      rw [log.joined_cons text last, List.length_append, List.length_cons, List.flatten_cons,
        List.length_append, List.length_cons]
      omega

theorem length_flatten_le {names pieces : List Text} (distinct : names.Nodup)
    (inside : names ⊆ pieces) :
    names.flatten.length ≤ pieces.flatten.length ∧ names.length ≤ pieces.length := by
  have sub := distinct.subperm inside
  refine ⟨?_, sub.length_le⟩
  obtain ⟨middle, same, sublist⟩ := sub
  have flat := sublist.flatten.length_le
  rwa [same.flatten.length_eq] at flat

theorem names_of_subset (spelled : log.taken = log.escape)
    (inside : log.names ⊆ split log.taken (log.lead ++ log.joined log.names)) :
    log.lead = [] ∧ ∃ name, log.names = [name] ∧ ¬ log.escape <:+: name := by
  have room := length_split log.taken_ne_nil (log.lead ++ log.joined log.names)
  have four : log.escape.length = 4 := rfl
  obtain ⟨flat, count⟩ := length_flatten_le log.names_distinct inside
  have joined := log.length_joined log.names_some
  have lead : log.lead.length ≤ 1 := by
    rw [Log.lead]
    split
    · exact Nat.zero_le 1
    · exact le_rfl
  have positive := List.length_pos_iff.mpr log.names_some
  rw [spelled, four, List.length_append] at room
  rw [spelled] at flat count
  obtain ⟨name, names⟩ : ∃ name, log.names = [name] := List.length_eq_one_iff.mp (by omega)
  have alone : log.joined [name] = name := rfl
  rw [names, alone] at inside flat room count
  rw [spelled] at inside
  rw [List.flatten_singleton] at flat
  have absent : ¬ log.escape <:+: log.lead ++ name := by
    intro occurs
    obtain ⟨piece, pieces, found, before⟩ := split_head occurs
    have short := before.length_le
    rw [List.length_append, List.length_append, four] at short
    rw [found] at room flat
    rw [List.length_cons] at room
    have last : pieces = [] := List.length_eq_zero_iff.mp (by omega)
    rw [last, List.flatten_singleton, List.length_nil] at room
    omega
  rw [split_of_absent absent] at inside
  have same : name = log.lead ++ name :=
    List.mem_singleton.mp (inside (List.mem_singleton_self name))
  have nothing : log.lead = [] := List.self_eq_append_left.mp same
  refine ⟨nothing, name, names, ?_⟩
  rwa [nothing, List.nil_append] at absent

theorem value_head_iff {cell : Text} (some_cell : cell ≠ []) {pieces : List Text} {piece : Text}
    (found : split log.escape cell = piece :: pieces) :
    log.value piece = log.value cell ↔
      (log.escape <:+: cell → cell = log.unset ∧ log.escape <+: cell) := by
  have some_escape : log.escape ≠ [] := List.cons_ne_nil _ _
  by_cases occurs : log.escape <:+: cell
  · obtain ⟨piece', pieces', found', before⟩ := split_head occurs
    rw [found, List.cons.injEq] at found'
    rw [← found'.1] at before
    have shorter : piece ≠ cell := by
      rintro rfl
      have length := before.length_le
      rw [List.length_append] at length
      exact some_escape (List.length_eq_zero_iff.mp (by omega))
    rw [forall_prop_of_true occurs]
    constructor
    · intro same
      rw [value, value] at same
      by_cases none : cell = log.unset
      · rw [if_pos none, if_neg (fun also => shorter (also.trans none.symm))] at same
        rw [same, List.nil_append] at before
        exact ⟨none, before⟩
      · rw [if_neg none] at same
        split at same
        · exact absurd same.symm some_cell
        · exact absurd same shorter
    · rintro ⟨none, begins⟩
      obtain ⟨rest, rfl⟩ := begins
      rw [split_leading some_escape, List.cons.injEq] at found
      rw [value, value, if_pos none, ← found.1, if_neg (Ne.symm log.unset_plain.1)]
  · rw [split_of_absent occurs, List.cons.injEq] at found
    exact iff_of_true (by rw [found.1]) fun inside => absurd inside occurs

theorem cell_singleton (name piece : Text) (pieces : List Text) (key : Text) :
    cell (dict log.unset [name] (piece :: pieces)) key =
      if key = name then some (log.value piece) else none := by
  rw [cell_dict (List.nodup_singleton name), List.zip_cons_cons, List.zip_nil_left,
    List.lookup_cons]
  by_cases here : key = name
  · rw [here, beq_self_eq_true, if_pos rfl]
    rfl
  · have other : (key == name) = false := beq_eq_false_iff_ne.mpr here
    rw [other, if_neg here]
    rfl

theorem lead_eq_nil_iff : log.lead = [] ↔ isSpace log.separator = true := by
  rw [lead]
  split
  · rename_i space
    exact iff_of_true rfl space
  · rename_i other
    exact iff_of_false (List.cons_ne_nil _ _) other

theorem column_iff (nothing : log.lead = []) {name : Text} (names : log.names = [name])
    (absent : ¬ log.escape <:+: name) {row : List Text} (mem : row ∈ log.rows) :
    (∀ key, cell (dict (log.lead ++ log.unset)
        (split log.escape (log.lead ++ log.joined log.names)) (split log.escape (log.joined row)))
        key = ((log.names.zip row).lookup key).map log.value) ↔
      ∀ cell ∈ row, log.escape <:+: cell → cell = log.unset ∧ log.escape <+: cell := by
  have one := log.rows_cells row mem
  rw [names, List.length_singleton, List.length_eq_one_iff] at one
  obtain ⟨text, rfl⟩ := one
  have some_text : text ≠ [] := (log.rows_data _ mem text rfl).1
  obtain ⟨piece, pieces, found⟩ := List.exists_cons_of_ne_nil (split_ne_nil log.escape text)
  have fields : split log.escape (log.joined [name]) = [name] := split_of_absent absent
  have own (key : Text) : (([name].zip [text]).lookup key).map log.value =
      if key = name then some (log.value text) else none :=
    (cell_dict (List.nodup_singleton name) [text] key).symm.trans
      (log.cell_singleton name text [] key)
  have alone : split log.escape (log.joined [text]) = piece :: pieces := found
  rw [nothing, names, List.nil_append, List.nil_append, fields, alone, List.forall_mem_singleton,
    ← log.value_head_iff some_text found]
  simp only [log.cell_singleton, own]
  constructor
  · intro read
    have here := read name
    rwa [if_pos rfl, if_pos rfl, Option.some.injEq] at here
  · intro same key
    rw [same]

theorem lookup_zip {row : List Text} (mem : row ∈ log.rows) {name : Text}
    (named : name ∈ log.names) : ∃ value, (log.names.zip row).lookup name = some value := by
  rw [← Option.isSome_iff_exists, List.lookup_isSome_iff]
  have all := @List.map_fst_zip _ _ log.names row (log.rows_cells row mem).ge
  rw [← all, List.mem_map] at named
  obtain ⟨pair, inside, rfl⟩ := named
  exact ⟨pair, inside, beq_self_eq_true _⟩

theorem mem_joined {texts : List Text} {c : ℕ} (mem : c ∈ log.joined texts) :
    c = log.separator ∨ ∃ text ∈ texts, c ∈ text := by
  induction texts with
  | nil => cases mem
  | cons text texts ih =>
    by_cases last : texts = []
    · rw [last] at mem
      exact .inr ⟨text, List.mem_cons_self, mem⟩
    · rw [log.joined_cons text last] at mem
      rcases List.mem_append.mp mem with here | behind
      · exact .inr ⟨text, List.mem_cons_self, here⟩
      · rcases List.mem_cons.mp behind with separator | later
        · exact .inl separator
        · rcases ih later with separator | ⟨other, inside, found⟩
          · exact .inl separator
          · exact .inr ⟨other, List.mem_cons_of_mem text inside, found⟩

theorem lines_inline : ∀ line ∈ log.lines, ∀ c ∈ line, ¬ isBreak c := by
  have bytes : ∀ s < 0x100, ∀ c ∈ codes "#separator " ++ (codes "\\x" ++ hexText 2 s),
      ¬ isBreak c := by decide +kernel
  have unsetWord : ∀ c ∈ codes "#unset_field", ¬ isBreak c := by decide
  have fieldsWord : ∀ c ∈ codes "#fields", ¬ isBreak c := by decide
  have plain {c : ℕ} (letter : isSpace c = false) : ¬ isBreak c := by
    intro stop
    rw [isSpace_of_isBreak stop] at letter
    cases letter
  intro line mem c inside
  rw [lines, header, List.mem_append] at mem
  rcases mem with header | row
  · simp only [List.mem_cons, List.not_mem_nil, or_false] at header
    rcases header with rfl | rfl | rfl
    · exact bytes log.separator log.separator_byte c inside
    · rcases List.mem_append.mp inside with word | rest
      · exact unsetWord c word
      · rcases List.mem_cons.mp rest with rfl | letter
        · exact log.separator_apart.1
        · exact plain (log.unset_plain.2 c letter).1
    · rcases List.mem_append.mp inside with word | rest
      · exact fieldsWord c word
      · rcases List.mem_cons.mp rest with rfl | names
        · exact log.separator_apart.1
        · rcases log.mem_joined names with rfl | ⟨name, named, letter⟩
          · exact log.separator_apart.1
          · exact plain ((log.names_plain name named).2 c letter).1
  · obtain ⟨row, mem, rfl⟩ := List.mem_map.mp row
    rcases log.mem_joined inside with rfl | ⟨cell, inside, letter⟩
    · exact log.separator_apart.1
    · exact (log.cells_plain _ mem cell inside c letter).1

theorem lines_kept : ∀ line ∈ log.lines, ¬ Skipped line := by
  intro line mem skipped
  rw [lines, header, List.mem_append] at mem
  obtain ⟨comment, separator, unset, fields⟩ := skipped
  rcases mem with header | row
  · simp only [List.mem_cons, List.not_mem_nil, or_false] at header
    rcases header with rfl | rfl | rfl
    · exact separator ⟨0x20 :: log.escape, rfl⟩
    · exact unset ⟨_, rfl⟩
    · exact fields ⟨_, rfl⟩
  · obtain ⟨row, mem, rfl⟩ := List.mem_map.mp row
    obtain ⟨some_line, data⟩ := log.joined_data mem
    rcases comment with none | ⟨rest, begins⟩
    · exact some_line none
    · rw [← begins] at data
      exact data rfl

theorem lines_written {file : List Char} (written : file.map Char.toNat = log.text) :
    (readLines file).filter (fun line => ¬ Skipped line) = log.lines := by
  rw [readLines_lines log.lines_inline written, List.filter_eq_self]
  intro line mem
  exact decide_eq_true (log.lines_kept line mem)

/-- The reader inverts the writer exactly when the separator does not matter. -/
theorem rows_inverts_iff {file : List Char} (written : file.map Char.toNat = log.text) :
    log.Inverted (ZeekLog.rows file) ↔ log.ReadBack := by
  have lines := log.lines_written written
  by_cases tab : log.separator = 0x09
  · refine iff_of_true ?_ (.inl tab)
    rw [log.rows_tab tab lines]
    refine ⟨rfl, List.forall₂_map_left_iff.mpr (List.forall₂_same.mpr fun row mem name => ?_)⟩
    exact cell_dict log.names_distinct row name
  have spelled : log.taken = log.escape := if_neg tab
  have some_escape : log.escape ≠ [] := List.cons_ne_nil _ _
  rw [Inverted, log.rows_eq lines, List.forall₂_map_left_iff, List.forall₂_same,
    and_iff_right rfl, ReadBack, or_iff_right tab, spelled]
  by_cases empty : log.rows = []
  · rw [empty]
    exact iff_of_true (fun row mem => nomatch mem) (.inl rfl)
  rw [or_iff_right empty]
  constructor
  · intro read
    obtain ⟨row, mem⟩ := List.exists_mem_of_ne_nil _ empty
    have inside : log.names ⊆ split log.taken (log.lead ++ log.joined log.names) := by
      intro name named
      obtain ⟨value, found⟩ := log.lookup_zip mem named
      have given := read row mem name
      rw [found, Option.map_some] at given
      rw [spelled]
      exact mem_of_cell given
    obtain ⟨nothing, name, names, absent⟩ := log.names_of_subset spelled inside
    exact ⟨log.lead_eq_nil_iff.mp nothing, name, names, absent, fun row mem =>
      (log.column_iff nothing names absent mem).mp (read row mem)⟩
  · rintro ⟨space, name, names, absent, cells⟩ row mem
    exact (log.column_iff (log.lead_eq_nil_iff.mpr space) names absent mem).mpr (cells row mem)

end Log

/-! ## Samples -/

/-- Names and cells for a log with this separator, in which a dash is unset. -/
def Fit (separator : ℕ) (names : List Text) (rows : List (List Text)) : Prop :=
  (separator < 0x100 ∧ ¬ isBreak separator ∧ separator ≠ 0x20 ∧ separator ≠ 0x23) ∧
  (names ≠ [] ∧ names.Nodup ∧
    ∀ name ∈ names, name ≠ [] ∧ ∀ c ∈ name, isSpace c = false ∧ c ≠ separator) ∧
  (codes "-" ≠ [] ∧ ∀ c ∈ codes "-", isSpace c = false ∧ c ≠ separator) ∧
  (∀ row ∈ rows, row.length = names.length) ∧
  (∀ row ∈ rows, ∀ cell ∈ row, ∀ c ∈ cell, ¬ isBreak c ∧ c ≠ separator) ∧
  ∀ row ∈ rows, ∀ cell ∈ row.head?, cell ≠ [] ∧ cell.head? ≠ some 0x23

instance (separator : ℕ) (names : List Text) (rows : List (List Text)) :
    Decidable (Fit separator names rows) := inferInstanceAs (Decidable (_ ∧ _))

def sampleLog (separator : ℕ) (names : List String) (rows : List (List String))
    (fit : Fit separator (names.map codes) (rows.map (List.map codes))) : Log where
  separator := separator
  names := names.map codes
  unset := codes "-"
  rows := rows.map (List.map codes)
  separator_byte := fit.1.1
  separator_apart := fit.1.2
  names_some := fit.2.1.1
  names_distinct := fit.2.1.2.1
  names_plain := fit.2.1.2.2
  unset_plain := fit.2.2.1
  rows_cells := fit.2.2.2.1
  cells_plain := fit.2.2.2.2.1
  rows_data := fit.2.2.2.2.2

def dnp3Log : Log :=
  sampleLog 0x09 ["ts", "fc_request"] [["1700000000.003000", "SELECT"], ["1700000001.003000", "-"]]
    (by decide +kernel)

theorem rows_inverts_iff_dnp3 : dnp3Log.Inverted (ZeekLog.rows (String.toList
    "#separator \\x09\n#unset_field\t-\n#fields\tts\tfc_request\n1700000000.003000\tSELECT\n1700000001.003000\t-\n")) :=
  (dnp3Log.rows_inverts_iff (by decide +kernel)).mpr (.inl rfl)

def commaLog : Log := sampleLog 0x2C ["ts", "uid"] [["1.5", "a"]] (by decide +kernel)

def commaFile : List Char :=
  String.toList "#separator \\x2c\n#unset_field,-\n#fields,ts,uid\n1.5,a\n"

/-- With a comma the whole line of the names is one field. -/
theorem rows_not_inverted : ¬ ∀ (log : Log) (file : List Char), file.map Char.toNat = log.text →
    log.Inverted (ZeekLog.rows file) := by
  intro all
  have written : commaFile.map Char.toNat = commaLog.text := by decide +kernel
  have read : ZeekLog.rows commaFile = ⟨[[(codes ",ts,uid", codes "1.5,a")]], none⟩ := by
    decide +kernel
  have inverted := (all commaLog commaFile written).2
  rw [read] at inverted
  cases inverted with
  | cons first rest => exact absurd (first (codes "ts")) (by decide)

end OtDetection.ZeekLog
