import OtDetection.Correlation
import OtDetection.PyNumber

/-! `datetime.fromisoformat` and what the contract makes of a timestamp. The parser follows
the C code of the interpreter, which reads a terminated text and looks past the part it
is asked for; a moment in UTC is read back from what `isoformat` writes. -/

namespace OtDetection.IsoTime
open PyText PyNumber Correlation

/-! ## The calendar -/

def isLeap (year : ℕ) : Bool := year % 4 = 0 ∧ (year % 100 ≠ 0 ∨ year % 400 = 0)

def daysInMonth (leap : Bool) (month : ℕ) : ℕ :=
  if month = 2 then (if leap then 29 else 28)
  else if month = 4 ∨ month = 6 ∨ month = 9 ∨ month = 11 then 30
  else 31

def daysBeforeMonth (leap : Bool) (month : ℕ) : ℕ :=
  (List.range (month - 1)).foldl (fun days k => days + daysInMonth leap (k + 1)) 0

def daysBeforeYear (year : ℕ) : ℕ :=
  (year - 1) * 365 + (year - 1) / 4 - (year - 1) / 100 + (year - 1) / 400

def ymdToOrd (year month day : ℕ) : ℕ :=
  daysBeforeYear year + daysBeforeMonth (isLeap year) month + day

/-- The month and the day of a year that has `n` days before it. -/
def monthOf (leap : Bool) (n : ℕ) : ℕ × ℕ :=
  let month := (n + 50) / 32
  if n < daysBeforeMonth leap month then (month - 1, n - daysBeforeMonth leap (month - 1) + 1)
  else (month, n - daysBeforeMonth leap month + 1)

def ordToYmd (ordinal : ℕ) : ℕ × ℕ × ℕ :=
  let n400 := (ordinal - 1) / 146097
  let in400 := (ordinal - 1) % 146097
  let n100 := in400 / 36524
  let in100 := in400 % 36524
  let n4 := in100 / 1461
  let in4 := in100 % 1461
  let n1 := in4 / 365
  let year := n400 * 400 + 1 + n100 * 100 + n4 * 4 + n1
  -- The last day of a leap year is one that 365 does not count.
  if n1 = 4 ∨ n100 = 4 then (year - 1, 12, 31)
  else (year, monthOf (n1 = 3 ∧ (n4 ≠ 24 ∨ n100 = 3)) (in4 % 365))

def isoWeek1Monday (year : ℕ) : ℕ :=
  let first := ymdToOrd year 1 1
  let weekday := (first + 6) % 7
  if 3 < weekday then first - weekday + 7 else first - weekday

def hasWeek53 (year : ℕ) : Bool :=
  let weekday := (ymdToOrd year 1 1 + 6) % 7
  weekday = 3 ∨ weekday = 2 ∧ isLeap year

def isoToYmd (year week day : ℕ) : Option (ℕ × ℕ × ℕ) :=
  if year < 1 ∨ 9999 < year then none
  else if week = 0 ∨ 53 < week ∨ week = 53 ∧ ¬ hasWeek53 year then none
  else if day = 0 ∨ 7 < day then none
  else some (ordToYmd (isoWeek1Monday year + (week - 1) * 7 + day - 1))

theorem monthOf_spec : ∀ leap : Bool, ∀ n < 365 + leap.toNat,
    1 ≤ (monthOf leap n).1 ∧ (monthOf leap n).1 ≤ 12 ∧ 1 ≤ (monthOf leap n).2 ∧
      (monthOf leap n).2 ≤ daysInMonth leap (monthOf leap n).1 ∧
      daysBeforeMonth leap (monthOf leap n).1 + (monthOf leap n).2 = n + 1 := by
  decide +kernel

theorem isLeap_of_cycle {a b c d : ℕ} (hb : b < 4) (hc : c < 25) (hd : d < 4) :
    isLeap (a * 400 + 1 + b * 100 + c * 4 + d) = decide (d = 3 ∧ (c ≠ 24 ∨ b = 3)) := by
  rw [isLeap, decide_eq_decide]
  have by4 : (a * 400 + 1 + b * 100 + c * 4 + d) % 4 = 0 ↔ d = 3 := by omega
  have by100 : (a * 400 + 1 + b * 100 + c * 4 + d) % 100 = 0 ↔ c = 24 ∧ d = 3 := by omega
  have by400 : (a * 400 + 1 + b * 100 + c * 4 + d) % 400 = 0 ↔ b = 3 ∧ c = 24 ∧ d = 3 := by omega
  rw [by4, ne_eq, by100, by400]
  tauto

theorem daysBeforeYear_of_cycle {a b c d : ℕ} (hb : b < 4) (hc : c < 25) (hd : d < 4) :
    daysBeforeYear (a * 400 + 1 + b * 100 + c * 4 + d) =
      a * 146097 + b * 36524 + c * 1461 + d * 365 := by
  unfold daysBeforeYear
  omega

theorem lastDay_spec {a b c : ℕ} (hb : b < 4) (hc : c < 25) (leap : c ≠ 24 ∨ b = 3) :
    daysInMonth (isLeap (a * 400 + 1 + b * 100 + c * 4 + 3)) 12 = 31 ∧
      ymdToOrd (a * 400 + 1 + b * 100 + c * 4 + 3) 12 31 =
        a * 146097 + b * 36524 + c * 1461 + 1461 := by
  have before : daysBeforeMonth true 12 = 335 := by decide
  rw [ymdToOrd, isLeap_of_cycle hb hc (by omega), daysBeforeYear_of_cycle hb hc (by omega),
    decide_eq_true (And.intro rfl leap), before]
  exact ⟨rfl, by omega⟩

theorem ordToYmd_spec {ordinal : ℕ} (first : 1 ≤ ordinal) (last : ordinal ≤ 3652059) :
    1 ≤ (ordToYmd ordinal).1 ∧ (ordToYmd ordinal).1 ≤ 9999 ∧
      1 ≤ (ordToYmd ordinal).2.1 ∧ (ordToYmd ordinal).2.1 ≤ 12 ∧
      1 ≤ (ordToYmd ordinal).2.2 ∧
      (ordToYmd ordinal).2.2 ≤ daysInMonth (isLeap (ordToYmd ordinal).1) (ordToYmd ordinal).2.1 ∧
      ymdToOrd (ordToYmd ordinal).1 (ordToYmd ordinal).2.1 (ordToYmd ordinal).2.2 = ordinal := by
  unfold ordToYmd
  obtain ⟨a, r400, whole, in400⟩ : ∃ a r400, ordinal = a * 146097 + r400 + 1 ∧ r400 < 146097 :=
    ⟨(ordinal - 1) / 146097, (ordinal - 1) % 146097, by omega, by omega⟩
  obtain ⟨b, r100, split400, in100⟩ : ∃ b r100, r400 = b * 36524 + r100 ∧ r100 < 36524 :=
    ⟨r400 / 36524, r400 % 36524, by omega, by omega⟩
  obtain ⟨c, r4, split100, in4⟩ : ∃ c r4, r100 = c * 1461 + r4 ∧ r4 < 1461 :=
    ⟨r100 / 1461, r100 % 1461, by omega, by omega⟩
  obtain ⟨d, r1, split4, in1⟩ : ∃ d r1, r4 = d * 365 + r1 ∧ r1 < 365 :=
    ⟨r4 / 365, r4 % 365, by omega, by omega⟩
  have n400 : (ordinal - 1) / 146097 = a := by omega
  have rest400 : (ordinal - 1) % 146097 = r400 := by omega
  have n100 : r400 / 36524 = b := by omega
  have rest100 : r400 % 36524 = r100 := by omega
  have n4 : r100 / 1461 = c := by omega
  have rest4 : r100 % 1461 = r4 := by omega
  have n1 : r4 / 365 = d := by omega
  have rest1 : r4 % 365 = r1 := by omega
  simp only [n400, rest400, n100, rest100, n4, rest4, n1, rest1]
  split
  · rename_i short
    rcases short with day | century
    · have leap : c ≠ 24 ∨ b = 3 := by omega
      have year : a * 400 + 1 + b * 100 + c * 4 + d - 1 = a * 400 + 1 + b * 100 + c * 4 + 3 := by
        omega
      obtain ⟨days, ord⟩ := @lastDay_spec a b c (by omega) (by omega) leap
      rw [year, days, ord]
      dsimp only
      omega
    · have year : a * 400 + 1 + b * 100 + c * 4 + d - 1 = a * 400 + 1 + 3 * 100 + 24 * 4 + 3 := by
        omega
      obtain ⟨days, ord⟩ := @lastDay_spec a 3 24 (by omega) (by omega) (.inr rfl)
      rw [year, days, ord]
      dsimp only
      omega
  · rename_i full
    have hb : b < 4 := by omega
    have hc : c < 25 := by omega
    have hd : d < 4 := by omega
    have leap := isLeap_of_cycle (a := a) hb hc hd
    have inside := monthOf_spec (decide (d = 3 ∧ (c ≠ 24 ∨ b = 3))) r1 (by omega)
    rw [ymdToOrd, leap, daysBeforeYear_of_cycle hb hc hd]
    dsimp only
    refine ⟨by omega, by omega, inside.1, inside.2.1, inside.2.2.1, inside.2.2.2.1, ?_⟩
    omega
/-! ## Parsing -/

/-- The character a pointer is at, which is the terminator behind the last one. -/
def current (text : Text) : ℕ := text.headD 0

def parseDigits (n : ℕ) (text : Text) : Option (ℕ × Text) :=
  if n ≤ text.length ∧ (text.take n).all isDigit then
    some (digitsValue (text.take n), text.drop n)
  else none

def findSeparator (text : Text) : Option ℕ :=
  if text.length = 7 then some 7
  else if text[4]? = some 0x2D then
    if text[5]? = some 0x57 then
      if text[8]? = some 0x2D then
        if text.length = 9 then none
        else if (text[10]?).any isDigit then some 8
        else some 10
      else some 8
    else some 10
  else if text[4]? = some 0x57 then
    let last := 7 + ((text.drop 7).takeWhile isDigit).length
    if last < 9 then some last else if last % 2 = 0 then some 7 else some 8
  else some 8

/-- `YYYY-MM-DD` and `YYYYMMDD`, or a day of a week, or a week for its Monday. -/
def parseDate (text : Text) (length : ℕ) : Option (ℕ × ℕ × ℕ) := do
  let (year, rest) ← parseDigits 4 text
  let separated := current rest = 0x2D
  let skip := fun rest : Text => if separated then rest.drop 1 else rest
  let rest := skip rest
  if current rest = 0x57 then
    let (week, rest) ← parseDigits 2 (rest.drop 1)
    if text.length - rest.length < length then
      if separated ∧ current rest ≠ 0x2D then none
      else
        let (day, _) ← parseDigits 1 (skip rest)
        isoToYmd year week day
    else isoToYmd year week 1
  else
    let (month, rest) ← parseDigits 2 rest
    if separated ∧ current rest ≠ 0x2D then none
    else
      let (day, rest) ← parseDigits 2 (skip rest)
      if text.length - rest.length = length then some (year, month, day) else none

structure Clock where
  hour : ℕ
  minute : ℕ
  second : ℕ
  microsecond : ℕ
  deriving DecidableEq

/-- What follows a component: the end, with whether something else stands there, the next
component or a fraction. -/
inductive After
  | done (more : Bool)
  | next (rest : Text)
  | fraction (rest : Text)

/-- The character behind a component, in a segment with `stop` behind it. -/
def afterComponent (stop : ℕ) (separated last : Bool) (rest : Text) : Option After :=
  let c := rest.headD stop
  let going := fun rest : Text => if last then After.fraction rest else After.next rest
  if rest.length ≤ 1 ∧ c < 0x80 then some (.done (c ≠ 0))
  else if separated ∧ c = 0x3A then some (going (rest.drop 1))
  else if c = 0x2E ∨ c = 0x2C then some (.fraction (rest.drop 1))
  else if ¬ separated then some (going rest)
  else none

def parseFraction (stop : ℕ) (rest : Text) : Option (ℕ × Bool) := do
  let digits := min 6 rest.length
  let (value, after) ← parseDigits digits rest
  return (value * 10 ^ (6 - digits), (after.dropWhile isDigit).headD stop ≠ 0)

/-- `HH[:MM[:SS]]` or `HH[MM[SS]]` with a fraction, and whether something is left. -/
def parseClock (segment : Text) (stop : ℕ) : Option (Clock × Bool) := do
  let (hour, rest) ← parseDigits 2 segment
  let separated := rest.headD stop = 0x3A
  let fraction := fun (clock : ℕ → Clock) (rest : Text) =>
    (parseFraction stop rest).map fun read => (clock read.1, read.2)
  match ← afterComponent stop separated false rest with
  | .done more => some (⟨hour, 0, 0, 0⟩, more)
  | .fraction rest => fraction (⟨hour, 0, 0, ·⟩) rest
  | .next rest =>
    let (minute, rest) ← parseDigits 2 rest
    match ← afterComponent stop separated false rest with
    | .done more => some (⟨hour, minute, 0, 0⟩, more)
    | .fraction rest => fraction (⟨hour, minute, 0, ·⟩) rest
    | .next rest =>
      let (second, rest) ← parseDigits 2 rest
      match ← afterComponent stop separated true rest with
      | .done more => some (⟨hour, minute, second, 0⟩, more)
      | .fraction rest | .next rest => fraction (⟨hour, minute, second, ·⟩) rest

def isZone (c : ℕ) : Bool := c = 0x2B ∨ c = 0x2D ∨ c = 0x5A

def Clock.seconds (clock : Clock) : ℕ := clock.hour * 3600 + clock.minute * 60 + clock.second

def Clock.microseconds (clock : Clock) : ℕ := clock.seconds * 1000000 + clock.microsecond

def zoneOffset (negative : Bool) (zone : Clock) : Option ℤ :=
  if zone.seconds = 0 then some 0
  else if zone.microseconds < 86400000000 then
    some (if negative then -(zone.microseconds : ℤ) else zone.microseconds)
  else none

/-- The time of the day and the offset, which is `none` for a naive time. -/
def parseTime (text : Text) : Option (Clock × Option ℤ) := do
  let segment := text.takeWhile fun c => !isZone c
  let zone := text.dropWhile fun c => !isZone c
  let (clock, more) ← parseClock segment (current zone)
  if zone = [] then if more then none else some (clock, none)
  else if current zone = 0x5A then
    if current (zone.drop 1) ≠ 0 then none else some (clock, some 0)
  else
    let (offset, more) ← parseClock (zone.drop 1) 0
    if more then none
    else (zoneOffset (current zone = 0x2D) offset).map fun offset => (clock, some offset)

def ofWall (wall : ℤ) (offset : Option ℤ) : Option DateTime :=
  if h : 0 ≤ wall ∧ wall < wallEnd then some ⟨wall, offset, h⟩ else none

def makeDatetime (year month day : ℕ) (clock : Clock) (offset : Option ℤ) : Option DateTime :=
  if year < 1 ∨ 9999 < year ∨ month < 1 ∨ 12 < month ∨ day < 1 ∨
      daysInMonth (isLeap year) month < day then none
  else if 23 < clock.hour ∨ 59 < clock.minute ∨ 59 < clock.second then none
  else ofWall ((ymdToOrd year month day - 1 : ℕ) * 86400000000 + clock.microseconds) offset

/-- `datetime.fromisoformat`, or `none` for a value error. -/
def fromisoformat (text : Text) : Option DateTime :=
  if text.length < 7 then none
  else do
    let separator ← findSeparator text
    let (year, month, day) ← parseDate text separator
    if text.length ≤ separator then makeDatetime year month day ⟨0, 0, 0, 0⟩ none
    else
      let (clock, offset) ← parseTime (text.drop (separator + 1))
      makeDatetime year month day clock offset

/-! ## The contract -/

def padded : ℕ → ℕ → Text
  | 0, _ => []
  | width + 1, n => padded width (n / 10) ++ [0x30 + n % 10]

def dateText (year month day : ℕ) : Text :=
  padded 4 year ++ 0x2D :: (padded 2 month ++ 0x2D :: padded 2 day)

/-- The time of the day by its microseconds, which are left out when there are none. -/
def clockText (microseconds : ℕ) : Text :=
  padded 2 (microseconds / 3600000000) ++ 0x3A ::
    (padded 2 (microseconds / 60000000 % 60) ++ 0x3A ::
      (padded 2 (microseconds / 1000000 % 60) ++
        if microseconds % 1000000 = 0 then [] else 0x2E :: padded 6 (microseconds % 1000000)))

def wallText (wall : ℕ) : Text :=
  let (year, month, day) := ordToYmd (wall / 86400000000 + 1)
  dateText year month day ++ 0x54 :: clockText (wall % 86400000000)

/-- `moment.isoformat()` of a moment in UTC. -/
def isoformat (moment : DateTime) : Text := wallText moment.wall.toNat ++ codes "+00:00"

/-- `text.replace(old, new)` behind the characters of an `old` that was replaced. -/
def replaceFrom (old new : Text) : ℕ → Text → Text
  | _, [] => []
  | skip + 1, _ :: rest => replaceFrom old new skip rest
  | 0, c :: rest =>
    if old.isPrefixOf (c :: rest) then new ++ replaceFrom old new (old.length - 1) rest
    else c :: replaceFrom old new 0 rest

/-- `moment.astimezone(UTC)` of an aware moment. -/
def toUtc (moment : DateTime) : Option DateTime := ofWall moment.utc (some 0)

section Contract

variable (unicode : Unicode)

def isDecimal (c : ℕ) : Bool := isDigit c ∨ 0x80 ≤ c ∧ (unicode.decimal c).isSome

def insertColon (text : Text) : Text :=
  let front := text.take (text.length - 4)
  let last := text.drop (text.length - 4)
  if last.length = 4 ∧ last.all (isDecimal unicode) ∧
      (front.getLast? = some 0x2B ∨ front.getLast? = some 0x2D) then
    front ++ (last.take 2 ++ 0x3A :: last.drop 2)
  else text

def expandZ (text : Text) : Text :=
  if text.getLast? = some 0x5A then text.dropLast ++ codes "+00:00" else text

/-- `_parse`: a moment without offset is one in UTC. -/
def parse (value : Text) : Option DateTime :=
  (fromisoformat (insertColon unicode (expandZ (strip value)))).map fun parsed =>
    if parsed.isAware then parsed else ⟨parsed.wall, some 0, parsed.in_range⟩

/-- The moment of a timestamp by the contract. -/
def contractMoment (value : Text) : Option DateTime := (parse unicode value).bind toUtc

def normalizeTimestamp (value : Text) : Option Text :=
  (contractMoment unicode value).map fun moment =>
    replaceFrom (codes "+00:00") (codes "Z") 0 (isoformat moment)

end Contract

/-! ## A moment in UTC and its text -/

theorem padded_length (width n : ℕ) : (padded width n).length = width := by
  induction width generalizing n with
  | zero => rfl
  | succ width ih => rw [padded, List.length_append, ih, List.length_singleton]

theorem isDigit_of_mem_padded {width n c : ℕ} (mem : c ∈ padded width n) : isDigit c := by
  induction width generalizing n with
  | zero => cases mem
  | succ width ih =>
    rcases List.mem_append.mp mem with front | last
    · exact ih front
    · rw [List.mem_singleton.mp last, isDigit, decide_eq_true_eq]
      omega

theorem digitsValue_padded {width n : ℕ} (fits : n < 10 ^ width) :
    digitsValue (padded width n) = n := by
  induction width generalizing n with
  | zero =>
    rw [pow_zero, Nat.lt_one_iff] at fits
    rw [fits]
    rfl
  | succ width ih =>
    have front : digitsValue (padded width (n / 10)) = n / 10 := by
      apply ih
      rw [pow_succ] at fits
      omega
    rw [digitsValue] at front
    rw [padded, digitsValue, List.foldl_append, front, List.foldl_cons, List.foldl_nil]
    omega

theorem parseDigits_padded {width n : ℕ} (fits : n < 10 ^ width) (rest : Text) :
    parseDigits width (padded width n ++ rest) = some (n, rest) := by
  have length := padded_length width n
  have digits : ((padded width n ++ rest).take width).all isDigit := by
    rw [List.take_left' length, List.all_eq_true]
    exact fun c mem => isDigit_of_mem_padded mem
  rw [parseDigits, if_pos ⟨by rw [List.length_append]; omega, digits⟩, List.take_left' length,
    List.drop_left' length, digitsValue_padded fits]

theorem dateText_append (year month day : ℕ) (rest : Text) : dateText year month day ++ rest =
    padded 4 year ++ 0x2D :: (padded 2 month ++ 0x2D :: (padded 2 day ++ rest)) := by
  simp only [dateText, List.append_assoc, List.cons_append]

theorem mem_dateText {year month day c : ℕ} (mem : c ∈ dateText year month day) :
    c = 0x2D ∨ isDigit c := by
  simp only [dateText, List.mem_append, List.mem_cons] at mem
  rcases mem with inside | dash | inside | dash | inside
  · exact .inr (isDigit_of_mem_padded inside)
  · exact .inl dash
  · exact .inr (isDigit_of_mem_padded inside)
  · exact .inl dash
  · exact .inr (isDigit_of_mem_padded inside)

theorem current_padded {c : ℕ} (letter : isDigit c = false) (n : ℕ) (rest : Text) :
    current (padded 2 n ++ rest) ≠ c := by
  have digit : isDigit (0x30 + n / 10 % 10) := by
    rw [isDigit, decide_eq_true_eq]
    omega
  intro same
  change 0x30 + n / 10 % 10 = c at same
  rw [same, letter] at digit
  cases digit

theorem parseDate_dateText {year month day : ℕ} (hy : year < 10000) (hm : month < 100)
    (hd : day < 100) (rest : Text) :
    parseDate (dateText year month day ++ rest) 10 = some (year, month, day) := by
  have length : (dateText year month day ++ rest).length - rest.length = 10 := by
    simp only [dateText_append, List.length_append, List.length_cons, padded_length]
    omega
  have noWeek := current_padded (c := 0x57) rfl month (0x2D :: (padded 2 day ++ rest))
  rw [parseDate, dateText_append, @parseDigits_padded 4 year hy]
  simp only [Option.bind_eq_bind, Option.bind_some]
  have dash (rest : Text) : current (0x2D :: rest) = 0x2D := rfl
  simp only [dash, if_true, List.drop_succ_cons, List.drop_zero, if_neg noWeek,
    @parseDigits_padded 2 month hm, @parseDigits_padded 2 day hd, Option.bind_some, ne_eq,
    not_true_eq_false, and_false, if_false]
  rw [← dateText_append, length, if_pos rfl]

theorem findSeparator_dateText (year month day : ℕ) {rest : Text} :
    findSeparator (dateText year month day ++ rest) = some 10 := by
  have noWeek := current_padded (c := 0x57) rfl month (0x2D :: (padded 2 day ++ rest))
  have length : (dateText year month day ++ rest).length ≠ 7 := by
    simp only [dateText_append, List.length_append, List.length_cons, padded_length]
    omega
  have dash : (dateText year month day ++ rest)[4]? = some 0x2D := rfl
  have digit : (dateText year month day ++ rest)[5]? ≠ some 0x57 := by
    intro same
    exact noWeek (Option.some.inj same)
  rw [findSeparator, if_neg length, if_pos dash, if_neg digit]

/-! The time of the day. -/

theorem not_isZone_of_isDigit {c : ℕ} (digit : isDigit c) : (!isZone c) = true := by
  simp only [isDigit, decide_eq_true_eq] at digit
  simp only [isZone, Bool.not_eq_true', decide_eq_false_iff_not]
  omega

def fractionText (digits n : ℕ) : Text := if digits = 0 then [] else 0x2E :: padded digits n

def timeText (hour minute second digits n : ℕ) : Text :=
  padded 2 hour ++ 0x3A ::
    (padded 2 minute ++ 0x3A :: (padded 2 second ++ fractionText digits n))

theorem clockText_eq (microseconds : ℕ) :
    clockText microseconds =
      timeText (microseconds / 3600000000) (microseconds / 60000000 % 60)
        (microseconds / 1000000 % 60) (if microseconds % 1000000 = 0 then 0 else 6)
        (microseconds % 1000000) := by
  rw [clockText, timeText, fractionText]
  by_cases whole : microseconds % 1000000 = 0
  · rw [if_pos whole, if_pos (if_pos whole)]
  · rw [if_neg whole, if_neg whole, if_neg (by decide)]

theorem mem_fractionText {digits n c : ℕ} (mem : c ∈ fractionText digits n) :
    c = 0x2E ∨ isDigit c := by
  rw [fractionText] at mem
  split at mem
  · cases mem
  · rcases List.mem_cons.mp mem with point | inside
    · exact .inl point
    · exact .inr (isDigit_of_mem_padded inside)

theorem mem_timeText {hour minute second digits n c : ℕ}
    (mem : c ∈ timeText hour minute second digits n) : c = 0x3A ∨ c = 0x2E ∨ isDigit c := by
  simp only [timeText, List.mem_append, List.mem_cons] at mem
  rcases mem with inside | colon | inside | colon | inside | inside
  · exact .inr (.inr (isDigit_of_mem_padded inside))
  · exact .inl colon
  · exact .inr (.inr (isDigit_of_mem_padded inside))
  · exact .inl colon
  · exact .inr (.inr (isDigit_of_mem_padded inside))
  · exact .inr (mem_fractionText inside)

theorem not_isZone_timeText (hour minute second digits n : ℕ) :
    ∀ c ∈ timeText hour minute second digits n, (!isZone c) = true := by
  intro c mem
  rcases mem_timeText mem with rfl | rfl | digit
  · rfl
  · rfl
  · exact not_isZone_of_isDigit digit

theorem parseFraction_padded {digits n : ℕ} (short : digits ≤ 6) (fits : n < 10 ^ digits)
    (stop : ℕ) :
    parseFraction stop (padded digits n) =
      some (n * 10 ^ (6 - digits), decide (stop ≠ 0)) := by
  have read := parseDigits_padded fits []
  rw [List.append_nil] at read
  rw [parseFraction, padded_length, min_eq_right short, read]
  rfl

theorem afterComponent_colon (stop : ℕ) (last : Bool) {rest : Text} (some_rest : rest ≠ []) :
    afterComponent stop true last (0x3A :: rest) =
      some (if last then .fraction rest else .next rest) := by
  have long : ¬ ((0x3A :: rest).length ≤ 1 ∧ (0x3A :: rest).headD stop < 0x80) := by
    have := List.length_pos_of_ne_nil some_rest
    rw [List.length_cons]
    omega
  rw [afterComponent, if_neg long]
  rfl

theorem afterComponent_nil {stop : ℕ} (ascii : stop < 0x80) (separated last : Bool) :
    afterComponent stop separated last [] = some (.done (stop ≠ 0)) :=
  if_pos ⟨Nat.zero_le 1, ascii⟩

theorem afterComponent_point (stop : ℕ) {rest : Text} (some_rest : rest ≠ []) :
    afterComponent stop true true (0x2E :: rest) = some (.fraction rest) := by
  have long : ¬ ((0x2E :: rest).length ≤ 1 ∧ (0x2E :: rest).headD stop < 0x80) := by
    have := List.length_pos_of_ne_nil some_rest
    rw [List.length_cons]
    omega
  rw [afterComponent, if_neg long]
  rfl

theorem padded_append_ne_nil (n : ℕ) (rest : Text) : padded 2 n ++ rest ≠ [] := by
  intro none
  have length := congrArg List.length none
  rw [List.length_append, padded_length, List.length_nil] at length
  omega

theorem headD_colon (rest : Text) (stop : ℕ) : decide ((0x3A :: rest).headD stop = 0x3A) = true :=
  rfl

theorem parseClock_timeText {hour minute second digits n stop : ℕ} (hh : hour < 100)
    (hm : minute < 100) (hs : second < 100) (short : digits ≤ 6) (fits : n < 10 ^ digits)
    (ascii : stop < 0x80) :
    parseClock (timeText hour minute second digits n) stop =
      some (⟨hour, minute, second, n * 10 ^ (6 - digits)⟩, decide (stop ≠ 0)) := by
  simp only [parseClock, timeText]
  rw [@parseDigits_padded 2 hour hh]
  simp only [Option.bind_eq_bind, Option.bind_some, headD_colon,
    afterComponent_colon _ _ (padded_append_ne_nil _ _), Bool.false_eq_true, if_false]
  rw [@parseDigits_padded 2 minute hm]
  simp only [Option.bind_some, afterComponent_colon _ _ (padded_append_ne_nil _ _),
    Bool.false_eq_true, if_false]
  rw [@parseDigits_padded 2 second hs]
  simp only [Option.bind_some]
  by_cases whole : digits = 0
  · have zero : n = 0 := by rwa [whole, pow_zero, Nat.lt_one_iff] at fits
    rw [fractionText, if_pos whole, afterComponent_nil ascii, zero, Nat.zero_mul]
    rfl
  · have some_digits : padded digits n ≠ [] := by
      rw [← List.length_pos_iff, padded_length]
      omega
    rw [fractionText, if_neg whole, afterComponent_point stop some_digits]
    simp only [Option.bind_some, parseFraction_padded short fits, Option.map_some]

theorem parseClock_offset {hour minute : ℕ} (hh : hour < 100) (hm : minute < 100) :
    parseClock (padded 2 hour ++ 0x3A :: padded 2 minute) 0 =
      some (⟨hour, minute, 0, 0⟩, false) := by
  have some_minute : padded 2 minute ≠ [] := by
    have some_text := padded_append_ne_nil minute []
    rwa [List.append_nil] at some_text
  have read := @parseDigits_padded 2 minute hm []
  rw [List.append_nil] at read
  simp only [parseClock]
  rw [@parseDigits_padded 2 hour hh]
  simp only [Option.bind_eq_bind, Option.bind_some, headD_colon,
    afterComponent_colon _ _ some_minute, Bool.false_eq_true, if_false, read,
    @afterComponent_nil 0 (by decide)]
  rfl

def offsetText (negative : Bool) (minutes : ℕ) : Text :=
  (if negative then 0x2D else 0x2B) :: (padded 2 (minutes / 60) ++ 0x3A :: padded 2 (minutes % 60))

def offsetOf (negative : Bool) (minutes : ℕ) : ℤ :=
  (if negative then -(minutes : ℤ) else minutes) * 60000000

theorem zoneOffset_minutes {minutes : ℕ} (day : minutes < 1440) (negative : Bool) :
    zoneOffset negative ⟨minutes / 60, minutes % 60, 0, 0⟩ = some (offsetOf negative minutes) := by
  have seconds : Clock.seconds ⟨minutes / 60, minutes % 60, 0, 0⟩ = minutes * 60 := by
    simp only [Clock.seconds]
    omega
  have microseconds : Clock.microseconds ⟨minutes / 60, minutes % 60, 0, 0⟩ =
      minutes * 60000000 := by
    rw [Clock.microseconds, seconds, Nat.add_zero, Nat.mul_assoc]
  rw [zoneOffset, seconds, microseconds, offsetOf]
  by_cases utc : minutes = 0
  · rw [if_pos (by omega), utc, Nat.cast_zero, neg_zero, ite_self, zero_mul]
  · rw [if_neg (by omega), if_pos (by omega), Option.some.injEq]
    cases negative
    · simp only [Bool.false_eq_true, if_false, Nat.cast_mul, Nat.cast_ofNat]
    · simp only [if_true, Nat.cast_mul, Nat.cast_ofNat, neg_mul]

theorem span_zone {segment : Text} (time : ∀ c ∈ segment, (!isZone c) = true) {zone : Text}
    (head : ∀ c ∈ zone.head?, isZone c = true) :
    (segment ++ zone).takeWhile (fun c => !isZone c) = segment ∧
      (segment ++ zone).dropWhile (fun c => !isZone c) = zone := by
  rw [List.takeWhile_append_of_pos time, List.dropWhile_append_of_pos time]
  cases zone with
  | nil => exact ⟨List.append_nil segment, rfl⟩
  | cons c zone =>
    have sign : (!isZone c) = false := by
      rw [head c rfl]
      rfl
    rw [List.takeWhile_cons, List.dropWhile_cons, sign]
    exact ⟨List.append_nil segment, rfl⟩

theorem parseTime_offset {hour minute second digits n minutes : ℕ} (hh : hour < 100)
    (hm : minute < 100) (hs : second < 100) (short : digits ≤ 6) (fits : n < 10 ^ digits)
    (day : minutes < 1440) (negative : Bool) :
    parseTime (timeText hour minute second digits n ++ offsetText negative minutes) =
      some (⟨hour, minute, second, n * 10 ^ (6 - digits)⟩,
        some (offsetOf negative minutes)) := by
  have head : ∀ c ∈ (offsetText negative minutes).head?, isZone c = true := by
    intro c mem
    cases negative
    all_goals cases mem
    all_goals rfl
  obtain ⟨segment, zone⟩ := span_zone (not_isZone_timeText hour minute second digits n) head
  have ascii : current (offsetText negative minutes) < 0x80 := by
    cases negative
    · exact (by decide : 0x2B < 0x80)
    · exact (by decide : 0x2D < 0x80)
  have noZ : ¬ current (offsetText negative minutes) = 0x5A := by
    cases negative
    · exact (by decide : 0x2B ≠ 0x5A)
    · exact (by decide : 0x2D ≠ 0x5A)
  have minus : decide (current (offsetText negative minutes) = 0x2D) = negative := by
    cases negative
    all_goals rfl
  have offset : parseClock ((offsetText negative minutes).drop 1) 0 =
      some (⟨minutes / 60, minutes % 60, 0, 0⟩, false) :=
    parseClock_offset (by omega) (by omega)
  have some_zone : offsetText negative minutes ≠ [] := by
    rw [offsetText]
    exact List.cons_ne_nil _ _
  simp only [parseTime, segment, zone, parseClock_timeText hh hm hs short fits ascii,
    Option.bind_eq_bind, Option.bind_some, if_neg some_zone, if_neg noZ, offset, minus,
    zoneOffset_minutes day, Bool.false_eq_true, if_false, Option.map_some]

theorem parseTime_naive {hour minute second digits n : ℕ} (hh : hour < 100) (hm : minute < 100)
    (hs : second < 100) (short : digits ≤ 6) (fits : n < 10 ^ digits) :
    parseTime (timeText hour minute second digits n) =
      some (⟨hour, minute, second, n * 10 ^ (6 - digits)⟩, none) := by
  have spans := @span_zone _ (not_isZone_timeText hour minute second digits n) []
    (fun c mem => nomatch mem)
  rw [List.append_nil] at spans
  have ascii : current [] < 0x80 := by decide
  simp only [parseTime, spans.1, spans.2, parseClock_timeText hh hm hs short fits ascii,
    Option.bind_eq_bind, Option.bind_some]
  rfl

theorem daysInMonth_le (leap : Bool) (month : ℕ) : daysInMonth leap month ≤ 31 := by
  unfold daysInMonth
  split_ifs <;> omega

structure IsDate (year month day : ℕ) : Prop where
  firstYear : 1 ≤ year
  lastYear : year ≤ 9999
  firstMonth : 1 ≤ month
  lastMonth : month ≤ 12
  firstDay : 1 ≤ day
  lastDay : day ≤ daysInMonth (isLeap year) month

theorem fromisoformat_dateText {year month day : ℕ} (date : IsDate year month day) {rest : Text}
    {clock : Clock} {offset : Option ℤ} (parsed : parseTime rest = some (clock, offset))
    (hour : clock.hour ≤ 23) (minute : clock.minute ≤ 59) (second : clock.second ≤ 59) :
    fromisoformat (dateText year month day ++ 0x54 :: rest) =
      ofWall ((ymdToOrd year month day - 1 : ℕ) * 86400000000 + clock.microseconds) offset := by
  obtain ⟨firstYear, lastYear, firstMonth, lastMonth, firstDay, lastDay⟩ := date
  have dated : (dateText year month day).length = 10 := by
    simp only [dateText, List.length_append, List.length_cons, padded_length]
  have short := daysInMonth_le (isLeap year) month
  have time : (dateText year month day ++ 0x54 :: rest).drop (10 + 1) = rest := by
    rw [← List.drop_drop, List.drop_left' dated]
    rfl
  have long : ¬ (dateText year month day ++ 0x54 :: rest).length < 7 ∧
      ¬ (dateText year month day ++ 0x54 :: rest).length ≤ 10 := by
    rw [List.length_append, dated, List.length_cons]
    omega
  rw [fromisoformat, if_neg long.1, findSeparator_dateText year month day]
  simp only [Option.bind_eq_bind, Option.bind_some, if_neg long.2, time, parsed,
    @parseDate_dateText year month day (by omega) (by omega) (by omega) (0x54 :: rest)]
  rw [makeDatetime, if_neg (by omega), if_neg (by omega)]

theorem wallText_eq {wall : ℕ} (range : wall < 3652059 * 86400000000) :
    ∃ year month day, IsDate year month day ∧
      ymdToOrd year month day = wall / 86400000000 + 1 ∧
      wallText wall = dateText year month day ++ 0x54 :: clockText (wall % 86400000000) := by
  obtain ⟨firstYear, lastYear, firstMonth, lastMonth, firstDay, lastDay, ord⟩ :=
    @ordToYmd_spec (wall / 86400000000 + 1) (by omega) (by omega)
  exact ⟨_, _, _, ⟨firstYear, lastYear, firstMonth, lastMonth, firstDay, lastDay⟩, ord, rfl⟩

theorem fromisoformat_isoformat {moment : DateTime} (utc : moment.offset = some 0) :
    fromisoformat (isoformat moment) = some moment := by
  have range := moment.in_range
  unfold wallEnd at range
  obtain ⟨year, month, day, date, ord, text⟩ := @wallText_eq moment.wall.toNat (by omega)
  have zone : codes "+00:00" = offsetText false 0 := by decide
  have fits : moment.wall.toNat % 86400000000 % 1000000 < 10 ^
      if moment.wall.toNat % 86400000000 % 1000000 = 0 then 0 else 6 := by
    split_ifs
    all_goals omega
  have parsed := @parseTime_offset (moment.wall.toNat % 86400000000 / 3600000000)
    (moment.wall.toNat % 86400000000 / 60000000 % 60)
    (moment.wall.toNat % 86400000000 / 1000000 % 60) _ _ 0 (by omega) (by omega) (by omega)
    (by split_ifs <;> decide) fits (by decide) false
  rw [isoformat, text, zone, List.append_assoc, List.cons_append, clockText_eq]
  rw [fromisoformat_dateText date parsed]
  · have wall : ((ymdToOrd year month day - 1 : ℕ) : ℤ) * 86400000000 + Clock.microseconds
        ⟨moment.wall.toNat % 86400000000 / 3600000000,
          moment.wall.toNat % 86400000000 / 60000000 % 60,
          moment.wall.toNat % 86400000000 / 1000000 % 60,
          moment.wall.toNat % 86400000000 % 1000000 * 10 ^ (6 -
            if moment.wall.toNat % 86400000000 % 1000000 = 0 then 0 else 6)⟩ = moment.wall := by
      rw [ord, Clock.microseconds, Clock.seconds]
      split_ifs
      all_goals dsimp only
      all_goals omega
    have offset : offsetOf false 0 = 0 := rfl
    rw [wall, offset, ofWall, dif_pos moment.in_range, ← utc]
  all_goals dsimp only
  all_goals omega

/-! Nothing but the offset of the text has a sign or a `Z`. -/

theorem plain_wallText (wall : ℕ) : ∀ c ∈ wallText wall, c ≠ 0x2B ∧ c ≠ 0x5A := by
  intro c mem
  have digits (digit : isDigit c) : c ≠ 0x2B ∧ c ≠ 0x5A := by
    simp only [isDigit, decide_eq_true_eq] at digit
    omega
  simp only [wallText, clockText_eq, List.mem_append, List.mem_cons] at mem
  rcases mem with date | rfl | time
  · rcases mem_dateText date with rfl | digit
    · decide
    · exact digits digit
  · decide
  · rcases mem_timeText time with rfl | rfl | digit
    · decide
    · decide
    · exact digits digit

theorem replaceZ_plain {front : Text} (plain : ∀ c ∈ front, c ≠ 0x5A) (rest : Text) :
    replaceZ (front ++ rest) = front ++ replaceZ rest := by
  induction front with
  | nil => rfl
  | cons c front ih =>
    obtain ⟨here, later⟩ := List.forall_mem_cons.mp plain
    have kept := ih later
    rw [replaceZ] at kept ⊢
    rw [List.cons_append, List.flatMap_cons, kept, if_neg here]
    rfl

theorem replaceFrom_plain {front : Text} (plain : ∀ c ∈ front, c ≠ 0x2B) (new rest : Text) :
    replaceFrom (codes "+00:00") new 0 (front ++ rest) =
      front ++ replaceFrom (codes "+00:00") new 0 rest := by
  induction front with
  | nil => rfl
  | cons c front ih =>
    obtain ⟨here, later⟩ := List.forall_mem_cons.mp plain
    have no_offset : (codes "+00:00").isPrefixOf (c :: (front ++ rest)) = false := by
      have other : (0x2B == c) = false := by
        rw [beq_eq_false_iff_ne]
        exact Ne.symm here
      change (0x2B == c && _) = false
      rw [other, Bool.false_and]
    rw [List.cons_append, replaceFrom, no_offset, ih later]
    rfl

theorem fromisoformat_normalized {moment : DateTime} (utc : moment.offset = some 0) :
    fromisoformat (replaceZ (replaceFrom (codes "+00:00") (codes "Z") 0 (isoformat moment))) =
      some moment := by
  have plain := plain_wallText moment.wall.toNat
  have ends : replaceFrom (codes "+00:00") (codes "Z") 0 (codes "+00:00") = codes "Z" := by decide
  have back : replaceZ (codes "Z") = codes "+00:00" := by decide
  rw [isoformat, replaceFrom_plain (fun c mem => (plain c mem).1), ends,
    replaceZ_plain (fun c mem => (plain c mem).2), back]
  exact fromisoformat_isoformat utc
end OtDetection.IsoTime
