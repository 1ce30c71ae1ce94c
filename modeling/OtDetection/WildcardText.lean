import OtDetection.ConsecutivePieces
import OtDetection.Matcher

/-! Wildcard strings on ASCII text. The matcher renders a Sigma string, reads the rendered
text as wildcards and literal characters, and leaves the rest to `re.fullmatch`: no
wildcard takes a newline, and a wildcard character of the rendering is a wildcard, be it
escaped or not. -/

namespace OtDetection.WildcardText
open PyText FieldLookup PyNumber Matcher ConsecutivePieces

/-! ## Sigma strings -/

def newline : ℕ := 0x0A

def IsAscii (text : Text) : Prop := ∀ c ∈ text, c < 0x80

def sameChar (cased : Bool) (c x : ℕ) : Bool :=
  if cased then c = x else lowerAscii c = lowerAscii x

def SameText (cased : Bool) (literal piece : Text) : Prop :=
  if cased then literal = piece else literal.map lowerAscii = piece.map lowerAscii

/-- What a part of a Sigma string takes. -/
def Takes (cased : Bool) (part : StringPart) (piece : Text) : Prop :=
  match part with
  | .plain literal => SameText cased literal piece
  | .single => piece.length = 1
  | .multi => True

/-- The text is an instance of the Sigma string. -/
def Instance (value : SigmaString) (text : Text) : Prop :=
  Splits (Takes value.cased) value.parts text

/-! ## Regular expressions -/

/-- What `_wildcard_to_regex` writes: a quoted character, a dot, a dot with a star. -/
inductive Item
  | literal (c : ℕ)
  | dot
  | dotStar

def itemOf (c : ℕ) : Item :=
  if c = 0x2A then .dotStar else if c = 0x3F then .dot else .literal c

def Item.regex : Item → Text
  | literal c => reEscape c
  | dot => codes "."
  | dotStar => codes ".*"

def likeAscii (c : ℕ) : ℕ :=
  if c = 0x130 ∨ c = 0x131 then 0x69
  else if c = 0x17F then 0x73
  else if c = 0x212A then 0x6B
  else c

def compared (cased : Bool) (c : ℕ) : ℕ := if cased then c else likeAscii c

/-- A character that an item takes in ASCII text. The dot is any but a newline. -/
def Item.takesChar (ignoreCase : Bool) : Item → ℕ → Bool
  | literal c, x => sameChar (!ignoreCase) (compared (!ignoreCase) c) x
  | dot, x => x ≠ newline
  | dotStar, x => x ≠ newline

def Item.isStar : Item → Bool
  | dotStar => true
  | _ => false

def Item.takes (ignoreCase : Bool) (item : Item) (piece : Text) : Bool :=
  (item.isStar || piece.length = 1) && piece.all (item.takesChar ignoreCase)

/-- `re.fullmatch` on these expressions and on ASCII text, as documented. -/
def Documented (py : Interpreter) : Prop :=
  ∀ (items : List Item) (ignoreCase : Bool) (text : Text), IsAscii text →
    (py.fullmatch (items.flatMap Item.regex) ignoreCase text = true ↔
      Splits (fun item piece => item.takes ignoreCase piece = true) items text)

theorem wildcardToRegex_eq (pattern : Text) :
    wildcardToRegex pattern = (pattern.map itemOf).flatMap Item.regex := by
  rw [wildcardToRegex, List.flatMap_map]
  refine List.flatMap_congr fun c _ => ?_
  unfold itemOf
  split
  · rfl
  · split <;> rfl

/-! ## What the matcher reads -/

def partOf (cased : Bool) (c : ℕ) : StringPart :=
  if c = 0x2A then .multi
  else if c = 0x3F then .single
  else .plain [compared cased c]

/-- The rendered string with its wildcard characters as wildcards and, where case is
ignored, with the ASCII letters in the place of the four letters like them. -/
def reread (py : Interpreter) (value : SigmaString) : SigmaString where
  parts := (value.str py).map (partOf value.cased)
  cased := value.cased

theorem count_append (front back : Text) :
    (front ++ back).count newline = front.count newline + back.count newline :=
  List.count_append

theorem sum_newlines (text : Text) :
    (text.map fun c => [c].count newline).sum = text.count newline := by
  induction text with
  | nil => rfl
  | cons c text ih =>
    rw [List.map_cons, List.sum_cons, ih, ← count_append]
    rfl

theorem lowerAscii_eq_newline {c : ℕ} : lowerAscii c = newline ↔ c = newline := by
  unfold lowerAscii newline
  split <;> omega

theorem likeAscii_eq_newline {c : ℕ} : likeAscii c = newline ↔ c = newline := by
  unfold likeAscii newline
  split_ifs <;> omega

theorem sameChar_newline {cased : Bool} {c x : ℕ} (same : sameChar cased c x = true) :
    x = newline ↔ c = newline := by
  unfold sameChar at same
  cases cased with
  | true =>
    obtain rfl := of_decide_eq_true same
    exact Iff.rfl
  | false =>
    have folded : lowerAscii c = lowerAscii x := of_decide_eq_true same
    rw [← lowerAscii_eq_newline, ← folded, lowerAscii_eq_newline]

theorem sameText_iff {cased : Bool} {literal piece : Text} :
    SameText cased literal piece ↔
      List.Forall₂ (fun c x => sameChar cased c x = true) literal piece := by
  unfold SameText
  cases cased with
  | true =>
    simp only [if_true, sameChar, decide_eq_true_eq]
    rw [List.forall₂_eq_eq_eq]
  | false =>
    have related : List.Forall₂ (fun c x => sameChar false c x = true) literal piece ↔
        List.Forall₂ (· = ·) (literal.map lowerAscii) (piece.map lowerAscii) := by
      rw [List.forall₂_map_left_iff, List.forall₂_map_right_iff]
      simp [sameChar]
    rw [related, List.forall₂_eq_eq_eq]
    rfl

theorem takes_literal {cased : Bool} {c : ℕ} {piece : Text} :
    Takes cased (.plain [c]) piece ↔ ∃ x, piece = [x] ∧ sameChar cased c x = true := by
  rw [Takes, sameText_iff, List.forall₂_cons_left_iff]
  simp only [List.forall₂_nil_left_iff]
  constructor
  · rintro ⟨x, _, same, rfl, rfl⟩
    exact ⟨x, rfl, same⟩
  · rintro ⟨x, rfl, same⟩
    exact ⟨x, [], same, rfl, rfl⟩

theorem count_eq_zero {piece : Text} :
    piece.count newline = 0 ↔ (piece.all fun x => x ≠ newline) = true := by
  rw [List.count_eq_zero, List.all_eq_true]
  constructor
  · intro none x mem
    exact decide_eq_true fun same => none (same ▸ mem)
  · intro all mem
    exact absurd rfl (of_decide_eq_true (all newline mem))

theorem compared_eq_newline {cased : Bool} {c : ℕ} : compared cased c = newline ↔ c = newline := by
  cases cased with
  | true => exact Iff.rfl
  | false => exact likeAscii_eq_newline

theorem count_same {cased : Bool} {c x : ℕ} (same : sameChar cased (compared cased c) x = true) :
    [x].count newline = [c].count newline := by
  have newlines : x = newline ↔ c = newline := by
    rw [sameChar_newline same, compared_eq_newline]
  simp [List.count_singleton, newlines]

theorem takes_iff (cased : Bool) (c : ℕ) (piece : Text) :
    ((itemOf c).takes (!cased) piece = true ↔
      Takes cased (partOf cased c) piece ∧ piece.count newline = [c].count newline) ∧
    (Takes cased (partOf cased c) piece → [c].count newline ≤ piece.count newline) := by
  unfold itemOf partOf
  split
  · subst c
    have none : [0x2A].count newline = 0 := by decide
    simp [Item.takes, Item.isStar, Takes, none, count_eq_zero, Item.takesChar]
  · split
    · subst c
      have none : [0x3F].count newline = 0 := by decide
      simp [Item.takes, Item.isStar, Takes, none, count_eq_zero, Item.takesChar]
    · have compares : ∀ x, (Item.literal c).takesChar (!cased) x =
          sameChar cased (compared cased c) x := by
        intro x
        rw [Item.takesChar, Bool.not_not]
      constructor
      · constructor
        · intro takes
          simp only [Item.takes, Item.isStar, Bool.false_or, Bool.and_eq_true, decide_eq_true_eq,
            List.length_eq_one_iff] at takes
          obtain ⟨⟨x, rfl⟩, all⟩ := takes
          rw [List.all_cons, compares, Bool.and_eq_true] at all
          exact ⟨takes_literal.mpr ⟨x, rfl, all.1⟩, count_same all.1⟩
        · rintro ⟨takes, -⟩
          obtain ⟨x, rfl, same⟩ := takes_literal.mp takes
          simp [Item.takes, Item.isStar, compares, same]
      · intro takes
        obtain ⟨x, rfl, same⟩ := takes_literal.mp takes
        rw [count_same same]

theorem matchString_eq_true_iff {py : Interpreter} (documented : Documented py)
    {value : SigmaString} (special : value.containsSpecial = true) {text : Text}
    (ascii : IsAscii text) :
    matchString py value (.str text) = true ↔
      Instance (reread py value) text ∧ text.count newline ≤ (value.str py).count newline := by
  have search : matchString py value (.str text) =
      py.fullmatch (wildcardToRegex (value.str py)) (!value.cased) text := by
    simp only [matchString, special, if_true]
    rfl
  rw [search, wildcardToRegex_eq, documented _ _ _ ascii, splits_map, Instance, reread, splits_map,
    ← sum_newlines (value.str py)]
  exact splits_tight_iff (List.count newline) rfl count_append
    (fun c piece => (takes_iff value.cased c piece).2)
    (fun c piece => (takes_iff value.cased c piece).1)

/-! ## Literal parts without wildcard characters -/

/-- No literal part holds a wildcard character, a backslash or, where case is ignored, one
of the four letters. -/
def Unescaped (value : SigmaString) : Prop :=
  ∀ literal, .plain literal ∈ value.parts →
    isVerbatim literal = true ∧ ∀ c ∈ literal, compared value.cased c = c

theorem map_partOf {py : Interpreter} {cased : Bool} {literal : Text}
    (verbatim : isVerbatim literal = true) (same : ∀ c ∈ literal, compared cased c = c) :
    (StringPart.str py (.plain literal)).map (partOf cased) =
      literal.map fun c => .plain [c] := by
  rw [StringPart.str, py.plain_eq literal verbatim]
  refine List.map_congr_left fun c mem => ?_
  obtain ⟨star, mark, -⟩ := of_decide_eq_true (List.all_eq_true.mp verbatim c mem)
  rw [partOf, if_neg star, if_neg mark, same c mem]

theorem reread_iff (py : Interpreter) {value : SigmaString} (unescaped : Unescaped value)
    {text : Text} : Instance (reread py value) text ↔ Instance value text := by
  have each : ∀ part ∈ value.parts, ∀ piece,
      Splits (Takes value.cased) ((StringPart.str py part).map (partOf value.cased)) piece ↔
        Takes value.cased part piece := by
    intro part mem piece
    cases part with
    | multi =>
      refine iff_of_true (splits_cons.mpr ⟨piece, [], trivial, splits_nil.mpr rfl, ?_⟩) trivial
      rw [List.append_nil]
    | single =>
      constructor
      · intro splits
        obtain ⟨front, rest, one, none, rfl⟩ := splits_cons.mp splits
        rw [splits_nil.mp none, List.append_nil]
        exact one
      · exact fun one => splits_cons.mpr ⟨piece, [], one, splits_nil.mpr rfl, by simp⟩
    | plain literal =>
      obtain ⟨verbatim, same⟩ := unescaped literal mem
      rw [map_partOf verbatim same, splits_map, Takes, sameText_iff]
      exact splits_singletons_iff fun c _ piece => takes_literal
  have any : ∀ x ∈ text, True := fun _ _ => trivial
  rw [Instance, Instance, reread, SigmaString.str, List.map_flatMap, splits_flatMap]
  constructor
  · exact Splits.imp (fun part mem piece _ => (each part mem piece).mp) any
  · exact Splits.imp (fun part mem piece _ => (each part mem piece).mpr) any

/-- Exactly when the matcher agrees with the Sigma string on ASCII text: an instance has
no more newlines than the rendering, and where a literal part is escaped the string that is
read back has the text as an instance whenever the Sigma string has. -/
theorem matchString_agrees_iff {py : Interpreter} (documented : Documented py)
    {value : SigmaString} (special : value.containsSpecial = true) {text : Text}
    (ascii : IsAscii text) :
    (matchString py value (.str text) = true ↔ Instance value text) ↔
      (Instance value text → text.count newline ≤ (value.str py).count newline) ∧
      (¬ Unescaped value →
        (Instance value text → Instance (reread py value) text) ∧
        (Instance (reread py value) text →
          text.count newline ≤ (value.str py).count newline → Instance value text)) := by
  rw [matchString_eq_true_iff documented special ascii]
  constructor
  · intro agrees
    exact ⟨fun holds => (agrees.mpr holds).2, fun _ =>
      ⟨fun holds => (agrees.mpr holds).1, fun loose few => agrees.mp ⟨loose, few⟩⟩⟩
  · rintro ⟨few, escaped⟩
    by_cases unescaped : Unescaped value
    · rw [reread_iff py unescaped]
      exact ⟨And.left, fun holds => ⟨holds, few holds⟩⟩
    · obtain ⟨strict, loose⟩ := escaped unescaped
      exact ⟨fun found => loose found.1 found.2, fun holds => ⟨strict holds, few holds⟩⟩

/-! ## Wildcard characters of a text -/

def isWildcard (c : ℕ) : Prop := c = 0x2A ∨ c = 0x3F

theorem lowerAscii_eq_wildcard {c x : ℕ} (wildcard : isWildcard x) :
    lowerAscii c = lowerAscii x ↔ c = x := by
  unfold lowerAscii
  rcases wildcard with rfl | rfl <;> split_ifs <;> omega

theorem likeAscii_eq_wildcard {c x : ℕ} (wildcard : isWildcard x) :
    likeAscii c = x ↔ c = x := by
  unfold likeAscii
  rcases wildcard with rfl | rfl <;> split_ifs <;> omega

theorem takes_wildcard {cased : Bool} {c : ℕ} {piece piece' : Text}
    (related : List.Forall₂ (fun x y => x = y ∨ isWildcard x) piece piece')
    (takes : Takes cased (partOf cased c) piece) : Takes cased (partOf cased c) piece' := by
  unfold partOf at takes ⊢
  split_ifs with star mark
  · trivial
  · rw [if_neg star, if_pos mark] at takes
    exact related.length_eq.symm.trans takes
  · rw [if_neg star, if_neg mark] at takes
    obtain ⟨x, rfl, same⟩ := takes_literal.mp takes
    obtain ⟨y, _, kept | wildcard, none, rfl⟩ := List.forall₂_cons_left_iff.mp related
    · rw [List.forall₂_nil_left_iff.mp none, ← kept]
      exact takes
    · have literal : c = x := by
        cases cased with
        | true => exact of_decide_eq_true same
        | false =>
          have folded : lowerAscii (likeAscii c) = lowerAscii x := of_decide_eq_true same
          rwa [lowerAscii_eq_wildcard wildcard, likeAscii_eq_wildcard wildcard] at folded
      rcases wildcard with rfl | rfl
      · exact absurd literal star
      · exact absurd literal mark

/-- The matcher does not tell a wildcard character of the text from another character,
whatever the string escapes and however it is rendered. -/
theorem matchString_blind {py : Interpreter} (documented : Documented py) {value : SigmaString}
    (special : value.containsSpecial = true) {front back : Text} {c x : ℕ}
    (ascii : IsAscii (front ++ c :: back)) (ascii' : IsAscii (front ++ x :: back))
    (wildcard : isWildcard c) (other : x ≠ newline)
    (found : matchString py value (.str (front ++ c :: back)) = true) :
    matchString py value (.str (front ++ x :: back)) = true := by
  rw [matchString_eq_true_iff documented special ascii] at found
  rw [matchString_eq_true_iff documented special ascii']
  have kept (text : Text) : List.Forall₂ (fun x y => x = y ∨ isWildcard x) text text :=
    List.forall₂_same.mpr fun x _ => .inl rfl
  have related : List.Forall₂ (fun x y => x = y ∨ isWildcard x) (front ++ c :: back)
      (front ++ x :: back) :=
    List.rel_append (kept front) (.cons (.inr wildcard) (kept back))
  have visible : c ≠ newline := by
    rcases wildcard with rfl | rfl <;> decide
  constructor
  · have splits := found.1
    rw [Instance, reread, splits_map] at splits ⊢
    exact splits.related (fun c piece piece' => takes_wildcard) related
  · rw [List.count_append, List.count_cons_of_ne other] at *
    rw [List.count_cons_of_ne visible] at found
    exact found.2

/-! `re` on the expressions that the matcher writes, and three strings on short texts. -/

def readItems : Text → List Item
  | 0x5C :: c :: rest => .literal c :: readItems rest
  | 0x2E :: 0x2A :: rest => .dotStar :: readItems rest
  | 0x2E :: rest => .dot :: readItems rest
  | c :: rest => .literal c :: readItems rest
  | [] => []

theorem readItems_literal (c : ℕ) (rest : Text) :
    readItems (reEscape c ++ rest) = .literal c :: readItems rest := by
  unfold reEscape
  split
  · rw [List.cons_append, List.cons_append, List.nil_append, readItems]
  · rename_i ordinary
    have backslash : c ≠ 0x5C := by
      rintro rfl
      exact ordinary (by decide)
    have dot : c ≠ 0x2E := by
      rintro rfl
      exact ordinary (by decide)
    rw [List.cons_append, List.nil_append, readItems]
    · exact fun _ _ same => absurd same backslash
    · exact fun _ same => absurd same dot
    · exact dot

theorem regex_ne_star (items : List Item) (rest : Text) :
    items.flatMap Item.regex ≠ 0x2A :: rest := by
  intro begins
  cases items with
  | nil => cases begins
  | cons item items =>
    rw [List.flatMap_cons] at begins
    cases item with
    | dot => cases begins
    | dotStar => cases begins
    | literal c =>
      rw [Item.regex, reEscape] at begins
      split at begins
      · cases begins
      · rename_i ordinary
        obtain rfl := (List.cons.inj begins).1
        exact ordinary (by decide)

theorem readItems_regex (items : List Item) : readItems (items.flatMap Item.regex) = items := by
  induction items with
  | nil => rfl
  | cons item items ih =>
    rw [List.flatMap_cons]
    cases item with
    | literal c => rw [Item.regex, readItems_literal, ih]
    | dotStar =>
      change readItems (0x2E :: 0x2A :: items.flatMap Item.regex) = _
      rw [readItems, ih]
    | dot =>
      change readItems (0x2E :: items.flatMap Item.regex) = _
      rw [readItems, ih]
      exact fun rest => regex_ne_star items rest

def globPatterns : Interpreter where
  toUnicode := noTables
  search _ _ _ := false
  fullmatch pattern ignoreCase text := splits (Item.takes ignoreCase) (readItems pattern) text
  plain := escapeWildcards
  plain_eq := escapeWildcards_eq

theorem documented_globPatterns : Documented globPatterns := by
  intro items ignoreCase text _
  rw [← splits_eq_true_iff]
  change splits (Item.takes ignoreCase) (readItems (items.flatMap Item.regex)) text = true ↔ _
  rw [readItems_regex]

def containsVerify : SigmaString := ⟨[.multi, .plain (codes "verify"), .multi], false⟩

def questionMark : SigmaString := ⟨[.plain (codes "?"), .multi], false⟩

instance (text : Text) : Decidable (IsAscii text) := inferInstanceAs (Decidable (∀ c ∈ text, _))

theorem contains_instance (front back : Text) :
    Instance containsVerify (front ++ (codes "Verify" ++ back)) := by
  refine ⟨[front, codes "Verify", back], .cons trivial (.cons ?_ (.cons trivial .nil)), by simp⟩
  change SameText false (codes "verify") (codes "Verify")
  rw [SameText, if_neg (by decide)]
  rfl

theorem unescaped_verify : Unescaped containsVerify := by
  intro literal mem
  simp only [containsVerify, List.mem_cons, reduceCtorEq, StringPart.plain.injEq, List.not_mem_nil,
    or_false, false_or] at mem
  subst mem
  decide

theorem matchString_agrees_verify :
    matchString globPatterns containsVerify (.str (codes "please Verify now")) = true ↔
      Instance containsVerify (codes "please Verify now") :=
  (matchString_agrees_iff documented_globPatterns rfl (by decide)).mpr
    ⟨fun _ => by decide, fun escaped => absurd unescaped_verify escaped⟩

/-- A second line hides what it contains, and an escaped question mark hides itself. -/
theorem matchString_disagrees :
    Documented globPatterns ∧
    (matchString globPatterns containsVerify (.str (codes "please\nVerify")) = false ∧
      Instance containsVerify (codes "please\nVerify")) ∧
    matchString globPatterns questionMark (.str (codes "?x")) = false ∧
      Instance questionMark (codes "?x") := by
  refine ⟨documented_globPatterns,
    ⟨by decide +kernel, contains_instance (codes "please\n") []⟩, by decide +kernel,
    [codes "?", codes "x"], .cons ?_ (.cons trivial .nil), rfl⟩
  exact takes_literal.mpr ⟨0x3F, rfl, by decide⟩

end OtDetection.WildcardText
