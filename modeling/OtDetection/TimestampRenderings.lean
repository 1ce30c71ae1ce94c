import OtDetection.NumberText
import OtDetection.TelemetrySchema

/-! Renderings of an instant in ISO 8601 and what the contract makes of them. The parser sees
each of them with its offset spelled out or without one, and the text that comes back is a
rendering itself. -/

namespace OtDetection.IsoTime
open PyText PyNumber Correlation TelemetrySchema

/-- How a rendering ends, with the minutes of an offset. -/
inductive Zone
  | colon (negative : Bool) (minutes : ℕ)
  | plain (negative : Bool) (minutes : ℕ)
  | zulu
  | naive

def Zone.text : Zone → Text
  | .colon negative minutes => offsetText negative minutes
  | .plain negative minutes =>
    (if negative then 0x2D else 0x2B) :: (padded 2 (minutes / 60) ++ padded 2 (minutes % 60))
  | .zulu => [0x5A]
  | .naive => []

/-- The offset in microseconds. -/
def Zone.offset : Zone → ℤ
  | .colon negative minutes | .plain negative minutes => offsetOf negative minutes
  | .zulu | .naive => 0

def Zone.IsShort : Zone → Prop
  | .colon _ minutes | .plain _ minutes => minutes < 1440
  | .zulu | .naive => True

/-- The microseconds from the first of January of the year 1. -/
def wallOf (year month day hour minute second microsecond : ℕ) : ℕ :=
  (ymdToOrd year month day - 1) * 86400000000 +
    ((hour * 3600 + minute * 60 + second) * 1000000 + microsecond)

/-- A date and a time of the day with some digits of the second's fraction, which are all that
it has, and an offset. The instant is in the years 1 to 9999. -/
structure Rendering where
  year : ℕ
  month : ℕ
  day : ℕ
  hour : ℕ
  minute : ℕ
  second : ℕ
  digits : ℕ
  fraction : ℕ
  zone : Zone
  isDate : IsDate year month day
  isHour : hour ≤ 23
  isMinute : minute ≤ 59
  isSecond : second ≤ 59
  isShort : digits ≤ 6
  isFraction : fraction < 10 ^ digits
  isZone : zone.IsShort
  begins : zone.offset ≤
    wallOf year month day hour minute second (fraction * 10 ^ (6 - digits))
  ends : wallOf year month day hour minute second (fraction * 10 ^ (6 - digits)) <
    wallEnd + zone.offset

namespace Rendering

def text (r : Rendering) : Text :=
  dateText r.year r.month r.day ++
    0x54 :: (timeText r.hour r.minute r.second r.digits r.fraction ++ r.zone.text)

def wall (r : Rendering) : ℕ :=
  wallOf r.year r.month r.day r.hour r.minute r.second (r.fraction * 10 ^ (6 - r.digits))

/-- The microseconds of the instant in UTC. -/
def instant (r : Rendering) : ℤ := r.wall - r.zone.offset

end Rendering

/-! ## The tail of the text -/

section Tail

variable {unicode : Unicode}

theorem insertColon_of_no_sign {front tail : Text} (long : 5 ≤ tail.length)
    (plain : ∀ c ∈ tail, c ≠ 0x2B ∧ c ≠ 0x2D) :
    insertColon unicode (front ++ tail) = front ++ tail := by
  have before : (front ++ tail).take ((front ++ tail).length - 4) =
      front ++ tail.take (tail.length - 4) := by
    rw [List.length_append, Nat.add_sub_assoc (by omega), List.take_length_add_append]
  obtain ⟨c, last⟩ : ∃ c, (tail.take (tail.length - 4)).getLast? = some c := by
    refine ⟨_, List.getLast?_eq_some_getLast ?_⟩
    rw [← List.length_pos_iff, List.length_take]
    omega
  have inside := plain c (List.mem_of_mem_take (List.mem_of_getLast? last))
  rw [insertColon, before, List.getLast?_append, last, Option.some_or]
  refine if_neg fun sign => ?_
  rcases sign.2.2 with plus | minus
  · exact inside.1 (Option.some.inj plus)
  · exact inside.2 (Option.some.inj minus)

theorem drop_last {front last : Text} {n : ℕ} (length : last.length = n) :
    (front ++ last).take ((front ++ last).length - n) = front ∧
      (front ++ last).drop ((front ++ last).length - n) = last := by
  have before : (front ++ last).length - n = front.length := by
    rw [List.length_append]
    omega
  rw [before]
  exact ⟨List.take_left, List.drop_left⟩

theorem isDecimal_of_isDigit {c : ℕ} (digit : isDigit c) : isDecimal unicode c = true := by
  rw [isDecimal, decide_eq_true_eq]
  exact .inl digit

theorem isDecimal_ascii {c : ℕ} (ascii : c < 0x80) (other : isDigit c = false) :
    isDecimal unicode c = false := by
  rw [isDecimal, decide_eq_false_iff_not, other]
  rintro (digit | beyond)
  · cases digit
  · omega

theorem insertColon_offset (front : Text) (negative : Bool) (minutes : ℕ) :
    insertColon unicode (front ++ offsetText negative minutes) =
      front ++ offsetText negative minutes := by
  obtain ⟨a, b, c, split⟩ : ∃ a b c, front ++ offsetText negative minutes =
      (front ++ [if negative then 0x2D else 0x2B, a]) ++ [b, 0x3A, c, 0x30 + minutes % 60 % 10] := by
    refine ⟨0x30 + minutes / 60 / 10 % 10, 0x30 + minutes / 60 % 10,
      0x30 + minutes % 60 / 10 % 10, ?_⟩
    rw [List.append_assoc]
    rfl
  obtain ⟨before, last⟩ := @drop_last (front ++ [if negative then 0x2D else 0x2B, a])
    [b, 0x3A, c, 0x30 + minutes % 60 % 10] 4 rfl
  rw [split, insertColon, last]
  refine if_neg fun sign => ?_
  have colon : isDecimal unicode 0x3A = false := isDecimal_ascii (by decide) rfl
  have all := List.all_eq_true.mp sign.2.1 0x3A (by simp)
  rw [colon] at all
  cases all

theorem insertColon_plain (front : Text) (negative : Bool) (minutes : ℕ) :
    insertColon unicode (front ++ (Zone.plain negative minutes).text) =
      front ++ offsetText negative minutes := by
  have split : front ++ (Zone.plain negative minutes).text =
      (front ++ [if negative then 0x2D else 0x2B]) ++
        (padded 2 (minutes / 60) ++ padded 2 (minutes % 60)) := by
    rw [List.append_assoc]
    rfl
  have length : (padded 2 (minutes / 60) ++ padded 2 (minutes % 60)).length = 4 := by
    rw [List.length_append, padded_length, padded_length]
  obtain ⟨before, last⟩ := @drop_last (front ++ [if negative then 0x2D else 0x2B]) _ 4 length
  have digits : (padded 2 (minutes / 60) ++ padded 2 (minutes % 60)).all (isDecimal unicode) := by
    rw [List.all_eq_true]
    intro c mem
    rcases List.mem_append.mp mem with inside | inside
    · exact isDecimal_of_isDigit (isDigit_of_mem_padded inside)
    · exact isDecimal_of_isDigit (isDigit_of_mem_padded inside)
  have sign : (front ++ [if negative then 0x2D else 0x2B]).getLast? = some 0x2B ∨
      (front ++ [if negative then 0x2D else 0x2B]).getLast? = some 0x2D := by
    rw [List.getLast?_concat]
    cases negative
    · exact .inl rfl
    · exact .inr rfl
  rw [split, insertColon, before, last, if_pos ⟨length, digits, sign⟩,
    List.take_left' (padded_length 2 _), List.drop_left' (padded_length 2 _), List.append_assoc]
  rfl

theorem expandZ_of_no_zulu {text : Text} (plain : ∀ c ∈ text, c ≠ 0x5A) :
    expandZ text = text := if_neg fun last => plain 0x5A (List.mem_of_getLast? last) rfl

theorem expandZ_zulu (front : Text) :
    expandZ (front ++ Zone.zulu.text) = front ++ offsetText false 0 := by
  rw [Zone.text, expandZ, List.getLast?_concat, if_pos rfl, List.dropLast_concat]
  rfl

end Tail

/-! ## What the parser reads -/

namespace Rendering

variable (r : Rendering)

/-- All but the offset. -/
def front : Text :=
  dateText r.year r.month r.day ++ 0x54 :: timeText r.hour r.minute r.second r.digits r.fraction

theorem text_eq : r.text = r.front ++ r.zone.text := by
  rw [text, front, List.append_assoc, List.cons_append]

theorem mem_front {c : ℕ} (mem : c ∈ r.front) :
    c = 0x2D ∨ c = 0x54 ∨ c = 0x3A ∨ c = 0x2E ∨ isDigit c := by
  rcases List.mem_append.mp mem with date | time
  · rcases mem_dateText date with dash | digit
    · exact .inl dash
    · exact .inr (.inr (.inr (.inr digit)))
  · rcases List.mem_cons.mp time with separator | clock
    · exact .inr (.inl separator)
    · exact .inr (.inr (mem_timeText clock))

end Rendering

theorem mem_offsetText {negative : Bool} {minutes c : ℕ} (mem : c ∈ offsetText negative minutes) :
    c = 0x2B ∨ c = 0x2D ∨ c = 0x3A ∨ isDigit c := by
  simp only [offsetText, List.mem_append, List.mem_cons] at mem
  rcases mem with sign | inside | colon | inside
  · cases negative
    · exact .inl sign
    · exact .inr (.inl sign)
  · exact .inr (.inr (.inr (isDigit_of_mem_padded inside)))
  · exact .inr (.inr (.inl colon))
  · exact .inr (.inr (.inr (isDigit_of_mem_padded inside)))

theorem mem_plain {negative : Bool} {minutes c : ℕ}
    (mem : c ∈ (Zone.plain negative minutes).text) :
    c = 0x2B ∨ c = 0x2D ∨ c = 0x3A ∨ isDigit c := by
  refine @mem_offsetText negative minutes c ?_
  simp only [Zone.text, offsetText, List.mem_append, List.mem_cons] at mem ⊢
  tauto

theorem ne_of_isDigit {c d : ℕ} (digit : isDigit c) (other : isDigit d = false) : c ≠ d := by
  rintro rfl
  rw [other] at digit
  cases digit

theorem isSpace_of_isDigit {c : ℕ} (digit : isDigit c) : isSpace c = false := by
  simp only [isDigit, decide_eq_true_eq] at digit
  simp only [isSpace, decide_eq_false_iff_not]
  omega

section Parse

variable {unicode : Unicode} (r : Rendering)

theorem strip_text : strip r.text = r.text := by
  refine NumberText.stripBy_eq_self fun c mem => ?_
  rw [r.text_eq] at mem
  have offset (inside : c = 0x2B ∨ c = 0x2D ∨ c = 0x3A ∨ isDigit c) : isSpace c = false := by
    rcases inside with rfl | rfl | rfl | digit
    · rfl
    · rfl
    · rfl
    · exact isSpace_of_isDigit digit
  rcases List.mem_append.mp mem with front | zone
  · rcases r.mem_front front with rfl | rfl | rfl | rfl | digit
    · rfl
    · rfl
    · rfl
    · rfl
    · exact isSpace_of_isDigit digit
  · cases ends : r.zone with
    | colon negative minutes =>
      rw [ends] at zone
      exact offset (mem_offsetText zone)
    | plain negative minutes =>
      rw [ends] at zone
      exact offset (mem_plain zone)
    | zulu =>
      rw [ends] at zone
      rw [List.mem_singleton.mp zone]
      rfl
    | naive =>
      rw [ends] at zone
      cases zone

theorem expandZ_front {zone : Text} (plain : ∀ c ∈ zone, c ≠ 0x5A) :
    expandZ (r.front ++ zone) = r.front ++ zone := by
  apply expandZ_of_no_zulu
  intro c mem
  rcases List.mem_append.mp mem with front | inside
  · rcases r.mem_front front with rfl | rfl | rfl | rfl | digit
    · decide
    · decide
    · decide
    · decide
    · exact ne_of_isDigit digit rfl
  · exact plain c inside

theorem insertColon_front : insertColon unicode r.front = r.front := by
  refine insertColon_of_no_sign ?_ fun c mem => ?_
  · simp only [timeText, List.length_cons, List.length_append, padded_length]
    omega
  · rcases List.mem_cons.mp mem with rfl | clock
    · decide
    · rcases mem_timeText clock with rfl | rfl | digit
      · decide
      · decide
      · exact ⟨ne_of_isDigit digit rfl, ne_of_isDigit digit rfl⟩

/-- The text that is parsed has the offset with a colon, unless it has none. -/
theorem spelled_text : insertColon unicode (expandZ (strip r.text)) =
    match r.zone with
    | .colon negative minutes | .plain negative minutes => r.front ++ offsetText negative minutes
    | .zulu => r.front ++ offsetText false 0
    | .naive => r.front := by
  have plain {c : ℕ} (inside : c = 0x2B ∨ c = 0x2D ∨ c = 0x3A ∨ isDigit c) : c ≠ 0x5A := by
    rcases inside with rfl | rfl | rfl | digit
    · decide
    · decide
    · decide
    · exact ne_of_isDigit digit rfl
  rw [strip_text, r.text_eq]
  cases r.zone with
  | colon negative minutes =>
    have zone : ∀ c ∈ (Zone.colon negative minutes).text, c ≠ 0x5A :=
      fun c mem => plain (mem_offsetText mem)
    rw [expandZ_front r zone]
    exact insertColon_offset r.front negative minutes
  | plain negative minutes =>
    have zone : ∀ c ∈ (Zone.plain negative minutes).text, c ≠ 0x5A :=
      fun c mem => plain (mem_plain mem)
    rw [expandZ_front r zone]
    exact insertColon_plain r.front negative minutes
  | zulu =>
    rw [expandZ_zulu]
    exact insertColon_offset r.front false 0
  | naive =>
    have zone : ∀ c ∈ Zone.naive.text, c ≠ 0x5A := fun c mem => absurd mem List.not_mem_nil
    rw [expandZ_front r zone, Zone.text, List.append_nil]
    exact insertColon_front r

end Parse

/-! ## The moment -/

theorem daysBeforeMonth_le : ∀ leap : Bool, ∀ month < 13,
    daysBeforeMonth leap month + daysInMonth leap month ≤ 365 + leap.toNat := by
  decide +kernel

theorem IsDate.ordinal {year month day : ℕ} (date : IsDate year month day) :
    1 ≤ ymdToOrd year month day ∧ ymdToOrd year month day ≤ 3652059 := by
  obtain ⟨firstYear, lastYear, firstMonth, lastMonth, firstDay, lastDay⟩ := date
  have days := daysBeforeMonth_le (isLeap year) month (by omega)
  have leap : (isLeap year).toNat ≤ 1 := Bool.toNat_le _
  rw [ymdToOrd, daysBeforeYear]
  refine ⟨by omega, ?_⟩
  rcases lastYear.lt_or_eq with before | last
  · omega
  · have short : isLeap year = false := by
      rw [last]
      decide
    rw [short] at days lastDay ⊢
    rw [Bool.toNat_false] at days
    omega

theorem wallOf_lt {year month day hour minute second microsecond : ℕ}
    (date : IsDate year month day) (hh : hour ≤ 23) (hm : minute ≤ 59) (hs : second ≤ 59)
    (hu : microsecond < 1000000) :
    (wallOf year month day hour minute second microsecond : ℤ) < wallEnd := by
  have ordinal := date.ordinal
  rw [wallOf, wallEnd]
  omega

theorem microsecond_lt {digits fraction : ℕ} (short : digits ≤ 6) (fits : fraction < 10 ^ digits) :
    fraction * 10 ^ (6 - digits) < 1000000 := by
  have scaled := Nat.mul_lt_mul_of_pos_right fits (Nat.pow_pos (n := 6 - digits) (a := 10)
    (by decide))
  rwa [← pow_add, Nat.add_sub_cancel' short] at scaled

namespace Rendering

variable (r : Rendering)

theorem wall_lt : (r.wall : ℤ) < wallEnd :=
  wallOf_lt r.isDate r.isHour r.isMinute r.isSecond (microsecond_lt r.isShort r.isFraction)

def moment : DateTime where
  wall := r.instant
  offset := some 0
  in_range := ⟨sub_nonneg.mpr r.begins, sub_lt_iff_lt_add.mpr r.ends⟩

theorem fromisoformat_front {rest : Text} {offset : Option ℤ}
    (parsed : parseTime (timeText r.hour r.minute r.second r.digits r.fraction ++ rest) =
      some (⟨r.hour, r.minute, r.second, r.fraction * 10 ^ (6 - r.digits)⟩, offset)) :
    fromisoformat (r.front ++ rest) =
      some ⟨r.wall, offset, Int.natCast_nonneg _, r.wall_lt⟩ := by
  have wall : ((ymdToOrd r.year r.month r.day - 1 : ℕ) : ℤ) * 86400000000 + Clock.microseconds
      ⟨r.hour, r.minute, r.second, r.fraction * 10 ^ (6 - r.digits)⟩ = r.wall := by
    rw [Rendering.wall, wallOf, Clock.microseconds, Clock.seconds]
    push_cast
    rfl
  rw [front, List.append_assoc, List.cons_append,
    fromisoformat_dateText r.isDate parsed r.isHour r.isMinute r.isSecond, wall, ofWall,
    dif_pos ⟨Int.natCast_nonneg _, r.wall_lt⟩]

theorem fromisoformat_offset {minutes : ℕ} (day : minutes < 1440) (negative : Bool) :
    fromisoformat (r.front ++ offsetText negative minutes) =
      some ⟨r.wall, some (offsetOf negative minutes), Int.natCast_nonneg _, r.wall_lt⟩ := by
  have hour := r.isHour
  have minute := r.isMinute
  have second := r.isSecond
  exact r.fromisoformat_front (parseTime_offset (by omega) (by omega) (by omega) r.isShort
    r.isFraction day negative)

theorem fromisoformat_naive :
    fromisoformat r.front = some ⟨r.wall, none, Int.natCast_nonneg _, r.wall_lt⟩ := by
  have hour := r.isHour
  have minute := r.isMinute
  have second := r.isSecond
  have read := @fromisoformat_front r [] none
  rw [List.append_nil, List.append_nil] at read
  exact read (parseTime_naive (by omega) (by omega) (by omega) r.isShort r.isFraction)

theorem parse_text (unicode : Unicode) : parse unicode r.text =
    some ⟨r.wall, some r.zone.offset, Int.natCast_nonneg _, r.wall_lt⟩ := by
  have zone := r.isZone
  rw [parse, spelled_text]
  cases ends : r.zone with
  | colon negative minutes | plain negative minutes =>
    rw [ends] at zone
    rw [r.fromisoformat_offset zone]
    rfl
  | zulu =>
    rw [r.fromisoformat_offset (by decide)]
    rfl
  | naive =>
    rw [r.fromisoformat_naive]
    rfl

theorem contractMoment_text (unicode : Unicode) : contractMoment unicode r.text = some r.moment := by
  rw [contractMoment, r.parse_text, Option.bind_some]
  exact dif_pos r.moment.in_range

end Rendering

/-! ## The canonical rendering -/

theorem replace_offset (wall : ℕ) :
    replaceFrom (codes "+00:00") (codes "Z") 0 (wallText wall ++ codes "+00:00") =
      wallText wall ++ Zone.zulu.text := by
  have ends : replaceFrom (codes "+00:00") (codes "Z") 0 (codes "+00:00") = Zone.zulu.text := by
    decide
  rw [replaceFrom_plain (fun c mem => (plain_wallText wall c mem).1), ends]

theorem wallText_zulu {wall : ℕ} (range : (wall : ℤ) < wallEnd) :
    ∃ c : Rendering, c.zone = .zulu ∧ c.instant = wall ∧ c.text = wallText wall ++ Zone.zulu.text := by
  unfold wallEnd at range
  obtain ⟨year, month, day, date, ord, text⟩ := @wallText_eq wall (by omega)
  have whole : wallOf year month day (wall % 86400000000 / 3600000000)
      (wall % 86400000000 / 60000000 % 60) (wall % 86400000000 / 1000000 % 60)
      (wall % 86400000000 % 1000000 * 10 ^ (6 -
        if wall % 86400000000 % 1000000 = 0 then 0 else 6)) = wall := by
    rw [wallOf, ord]
    split_ifs
    all_goals omega
  have fits : wall % 86400000000 % 1000000 < 10 ^
      if wall % 86400000000 % 1000000 = 0 then 0 else 6 := by
    split_ifs
    all_goals omega
  refine ⟨⟨year, month, day, wall % 86400000000 / 3600000000,
    wall % 86400000000 / 60000000 % 60, wall % 86400000000 / 1000000 % 60, _, _, .zulu, date,
    by omega, by omega, by omega, by split_ifs <;> decide, fits, trivial, ?_, ?_⟩, rfl, ?_, ?_⟩
  · exact Int.natCast_nonneg _
  · rw [whole]
    exact range
  · refine (sub_zero _).trans ?_
    exact congrArg Nat.cast whole
  · rw [text, clockText_eq, List.append_assoc]
    rfl

namespace Rendering

variable (r : Rendering) (unicode : Unicode)

theorem normalizeTimestamp_text : ∃ c : Rendering, c.zone = .zulu ∧ c.instant = r.instant ∧
    normalizeTimestamp unicode r.text = some c.text := by
  have natural : ((r.instant.toNat : ℕ) : ℤ) = r.instant :=
    Int.toNat_of_nonneg r.moment.in_range.1
  obtain ⟨c, zulu, instant, text⟩ := @wallText_zulu r.instant.toNat
    (natural.trans_lt r.moment.in_range.2)
  refine ⟨c, zulu, instant.trans natural, ?_⟩
  rw [normalizeTimestamp, r.contractMoment_text, text, Option.map_some]
  exact congrArg some (replace_offset r.instant.toNat)

theorem normalizeTimestamp_fixed {c : Rendering}
    (result : normalizeTimestamp unicode r.text = some c.text) (same : c.instant = r.instant) :
    normalizeTimestamp unicode c.text = some c.text := by
  have moments : c.moment = r.moment := by simp only [moment, same]
  rw [← result, normalizeTimestamp, normalizeTimestamp, c.contractMoment_text,
    r.contractMoment_text, moments]

theorem normalizeTimestamp_inj (s : Rendering) :
    normalizeTimestamp unicode r.text = normalizeTimestamp unicode s.text ↔
      r.instant = s.instant := by
  constructor
  · intro same
    obtain ⟨c, -, instant, text⟩ := r.normalizeTimestamp_text unicode
    obtain ⟨d, -, instant', text'⟩ := s.normalizeTimestamp_text unicode
    rw [text, text', Option.some.injEq] at same
    have moments := c.contractMoment_text unicode
    rw [same, d.contractMoment_text unicode, Option.some.injEq] at moments
    rw [← instant, ← instant']
    exact (congrArg DateTime.wall moments).symm
  · intro same
    have moments : r.moment = s.moment := by simp only [moment, same]
    rw [normalizeTimestamp, normalizeTimestamp, r.contractMoment_text, s.contractMoment_text,
      moments]

end Rendering

/-! ## The pattern of the schema -/

section Pattern

variable {unicode : Unicode}

theorem skipDigits_padded (n value : ℕ) (rest : Text) :
    skipDigits unicode n (padded n value ++ rest) = some rest := by
  have length := padded_length n value
  have digits : ((padded n value ++ rest).take n).all (isDecimal unicode) := by
    rw [List.take_left' length, List.all_eq_true]
    exact fun c mem => isDecimal_of_isDigit (isDigit_of_mem_padded mem)
  have long : n ≤ (padded n value ++ rest).length := by
    rw [List.length_append]
    omega
  rw [skipDigits, if_pos ⟨long, digits⟩, List.drop_left' length]

theorem skipChar_cons (c : ℕ) (rest : Text) : skipChar c (c :: rest) = some rest := if_pos rfl

theorem skipFraction_text (digits n : ℕ) :
    skipFraction unicode (fractionText digits n ++ [0x5A]) = [0x5A] := by
  by_cases whole : digits = 0
  · rw [fractionText, if_pos whole]
    rfl
  · have all : ∀ c ∈ padded digits n, isDecimal unicode c = true :=
      fun c mem => isDecimal_of_isDigit (isDigit_of_mem_padded mem)
    have letter : isDecimal unicode 0x5A = false := isDecimal_ascii (by decide) rfl
    have rest : ([0x5A] : Text).takeWhile (isDecimal unicode) = [] ∧
        ([0x5A] : Text).dropWhile (isDecimal unicode) = [0x5A] := by
      rw [List.takeWhile_cons, List.dropWhile_cons, letter]
      exact ⟨rfl, rfl⟩
    have some_digits : padded digits n ++ [] ≠ [] := by
      rw [List.append_nil, ← List.length_pos_iff, padded_length]
      omega
    rw [fractionText, if_neg whole, List.cons_append, skipFraction,
      List.takeWhile_append_of_pos all, rest.1, if_neg some_digits,
      List.dropWhile_append_of_pos all, rest.2]

theorem matchesTimestamp_zulu {c : Rendering} (zulu : c.zone = .zulu) :
    matchesTimestamp unicode c.text = true := by
  rw [matchesTimestamp, Rendering.text, zulu, dateText_append, timeText]
  simp only [List.append_assoc, List.cons_append, skipDigits_padded, skipChar_cons,
    Option.bind_eq_bind, Option.bind_some, Zone.text, skipFraction_text]
  rfl

theorem matchesTimestamp_moment (moment : DateTime) :
    matchesTimestamp unicode (replaceFrom (codes "+00:00") (codes "Z") 0 (isoformat moment)) =
      true := by
  obtain ⟨first, last⟩ := moment.in_range
  obtain ⟨c, zulu, -, text⟩ := @wallText_zulu moment.wall.toNat (by omega)
  rw [isoformat, replace_offset, ← text]
  exact matchesTimestamp_zulu zulu

end Pattern

/-- Every rendering of an instant is normalized to the one rendering of it in UTC, which the
schema accepts and which stays as it is, and renderings of other instants to other texts. -/
theorem normalizeTimestamp_canonical (unicode : Unicode) :
    (∀ r : Rendering, ∃ c : Rendering, normalizeTimestamp unicode r.text = some c.text ∧
      matchesTimestamp unicode c.text = true ∧ c.zone = .zulu ∧ c.instant = r.instant ∧
      (contractMoment unicode c.text).map DateTime.utc = some r.instant ∧
      normalizeTimestamp unicode c.text = some c.text) ∧
    ∀ r s : Rendering, normalizeTimestamp unicode r.text = normalizeTimestamp unicode s.text ↔
      r.instant = s.instant := by
  refine ⟨fun r => ?_, fun r s => r.normalizeTimestamp_inj unicode s⟩
  obtain ⟨c, zulu, same, result⟩ := r.normalizeTimestamp_text unicode
  refine ⟨c, result, matchesTimestamp_zulu zulu, zulu, same, ?_,
    r.normalizeTimestamp_fixed unicode result same⟩
  rw [c.contractMoment_text, Option.map_some, Option.some.injEq, ← same]
  exact sub_zero _

end OtDetection.IsoTime
