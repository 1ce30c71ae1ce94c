import OtDetection.JsonText
import OtDetection.PyLines

/-! The text of a decoded event. A Rust string is the list of its characters, and
`to_json` of each decoder is `joinFields` over fields of two kinds. No field
text is escaped, so that what a reader of JSON makes of a field depends on its characters. -/

namespace OtDetection.EventText
open JsonText PyLines

def decimal (value : ℕ) : List Char := Nat.toDigits 10 value

def numberField (name : String) (value : ℕ) : List Char :=
  '"' :: (name.toList ++ '"' :: ':' :: decimal value)

def textField (name : String) (value : List Char) : List Char :=
  '"' :: (name.toList ++ '"' :: ':' :: '"' :: (value ++ ['"']))

def joinFields (fields : List (List Char)) : List Char :=
  '{' :: (List.intercalate [','] fields ++ ['}'])

def optionalField {α : Type*} (field : α → List Char) (value : Option α) : List (List Char) :=
  (value.map field).toList

/-- Whether a message went to the controller or came from it. -/
inductive Direction
  | request
  | response
  deriving DecidableEq, Repr

def Direction.asStr : Direction → String
  | .request => "request"
  | .response => "response"

/-! ## Characters -/

/-- Printable ASCII that a string literal carries as it is. -/
def isWord (c : Char) : Prop := 0x20 ≤ c.toNat ∧ c.toNat < 0x7F ∧ c ≠ '"' ∧ c ≠ '\\'

instance (c : Char) : Decidable (isWord c) := inferInstanceAs (Decidable (_ ∧ _))

theorem isWord.plain {c : Char} (h : isWord c) : isPlain c := ⟨h.2.2.1, h.2.2.2, h.1⟩

def isVisible (c : Char) : Prop := 0x20 ≤ c.toNat ∧ c.toNat < 0x7F

instance (c : Char) : Decidable (isVisible c) := inferInstanceAs (Decidable (_ ∧ _))

theorem isVisible.unbroken {c : Char} (h : isVisible c) : ¬ isLineBreak c := by
  obtain ⟨low, high⟩ := h
  simp only [isLineBreak, List.mem_cons, List.not_mem_nil, or_false]
  omega

theorem isWord.visible {c : Char} (h : isWord c) : isVisible c := ⟨h.1, h.2.1⟩

theorem textField_char {name : String} (hn : ∀ c ∈ name.toList, isVisible c) {value : List Char}
    {c : Char} (h : c ∈ textField name value) : isVisible c ∨ c ∈ value := by
  simp only [textField, List.mem_cons, List.mem_append, List.not_mem_nil, or_false] at h
  rcases h with rfl | h | rfl | rfl | rfl | h | rfl
  · exact .inl (by decide)
  · exact .inl (hn c h)
  · exact .inl (by decide)
  · exact .inl (by decide)
  · exact .inl (by decide)
  · exact .inr h
  · exact .inl (by decide)

theorem isVisible_of_digit {c : Char} (h : JsonText.isDigit c = true) : isVisible c := by
  simp only [JsonText.isDigit, Char.isDigit, Bool.and_eq_true, decide_eq_true_eq] at h
  have low : 48 ≤ c.toNat := h.1
  have high : c.toNat ≤ 57 := h.2
  exact ⟨by omega, by omega⟩

theorem numberField_char {name : String} (hn : ∀ c ∈ name.toList, isVisible c) {value : ℕ}
    {c : Char} (h : c ∈ numberField name value) : isVisible c := by
  simp only [numberField, List.mem_cons, List.mem_append] at h
  rcases h with rfl | h | rfl | rfl | h
  · decide
  · exact hn c h
  · decide
  · decide
  · exact isVisible_of_digit (isDigit_of_mem_toDigits h)

/-! ## What a field reads as -/

/-- A field reads as its member, whatever the depth of the reader. -/
def FieldReads (text : List Char) (member : List ℕ × Json) : Prop :=
  ∀ depth, ReadsAs (readMember (readValue (depth + 1))) text member

theorem forall₂_optional {α : Type} {field : α → List Char} {member : α → List ℕ × Json}
    {value : Option α} (h : ∀ a ∈ value, FieldReads (field a) (member a)) :
    List.Forall₂ FieldReads (optionalField field value) (value.map member).toList := by
  cases value with
  | none => exact .nil
  | some a => exact .cons (h a rfl) .nil

end OtDetection.EventText
