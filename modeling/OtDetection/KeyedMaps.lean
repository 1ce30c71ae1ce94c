import OtDetection.Steps
import Mathlib.Data.Finset.Card
import Mathlib.Data.List.AList
import Mathlib.Data.List.Basic
import Mathlib.Data.List.Nodup
import Mathlib.Tactic.Common

/-! Grouping in a dict that keeps the order of insertion. An element is appended to the
group of its key, and a key that is new comes last; so the groups are the elements of
each key in their order. An element that cannot be read ends the run. -/

namespace OtDetection.InsertionGroups
open ExceptSteps

variable {α κ β ε : Type*} [DecidableEq κ]

def push (groups : List (κ × List β)) (key : κ) (item : β) : List (κ × List β) :=
  match groups with
  | [] => [(key, [item])]
  | (k, items) :: rest =>
    if k = key then (k, items ++ [item]) :: rest else (k, items) :: push rest key item

theorem keys_push (groups : List (κ × List β)) (key : κ) (item : β) :
    (push groups key item).map Prod.fst =
      if key ∈ groups.map Prod.fst then groups.map Prod.fst
      else groups.map Prod.fst ++ [key] := by
  induction groups with
  | nil => rfl
  | cons group rest ih =>
    rw [push]
    by_cases same : group.1 = key
    · simp [same]
    · rw [if_neg same, List.map_cons, ih, List.map_cons]
      split_ifs with known old old
      · rfl
      · exact absurd (List.mem_cons_of_mem _ known) old
      · exact absurd ((List.mem_cons.mp old).resolve_left (Ne.symm same)) known
      · rfl

theorem mem_push {groups : List (κ × List β)} (nodup : (groups.map Prod.fst).Nodup) {key : κ}
    {item : β} {group : κ × List β} (mem : group ∈ push groups key item) :
    (group.1 ≠ key ∧ group ∈ groups) ∨
      (group.1 = key ∧ ∃ items, group.2 = items ++ [item] ∧
        ((key, items) ∈ groups ∨ key ∉ groups.map Prod.fst ∧ items = [])) := by
  induction groups with
  | nil =>
    rw [push, List.mem_singleton] at mem
    subst mem
    exact .inr ⟨rfl, [], rfl, .inr ⟨List.not_mem_nil, rfl⟩⟩
  | cons first rest ih =>
    rw [List.map_cons, List.nodup_cons] at nodup
    rw [push] at mem
    split_ifs at mem with same
    · rcases List.mem_cons.mp mem with rfl | later
      · subst same
        exact .inr ⟨rfl, first.2, rfl, .inl List.mem_cons_self⟩
      · refine .inl ⟨?_, List.mem_cons_of_mem _ later⟩
        intro again
        apply nodup.1
        rw [same, ← again]
        exact List.mem_map_of_mem later
    · rcases List.mem_cons.mp mem with rfl | later
      · exact .inl ⟨same, List.mem_cons_self⟩
      · rcases ih nodup.2 later with ⟨other, old⟩ | ⟨here, items, value, old | ⟨fresh, empty⟩⟩
        · exact .inl ⟨other, List.mem_cons_of_mem _ old⟩
        · exact .inr ⟨here, items, value, .inl (List.mem_cons_of_mem _ old)⟩
        · refine .inr ⟨here, items, value, .inr ⟨?_, empty⟩⟩
          rw [List.map_cons, List.mem_cons, not_or]
          exact ⟨Ne.symm same, fresh⟩

/-- The groups of a list, unless an element cannot be read. -/
def groupM (key : α → κ) (item : α → Except ε β) (elements : List α) :
    Except ε (List (κ × List β)) :=
  elements.foldlM (fun groups a => (item a).map (push groups (key a))) []

/-- One group for each key, with the elements of the key in their order. -/
structure Groups (key : α → κ) (item : α → Except ε β) (elements : List α)
    (groups : List (κ × List β)) : Prop where
  nodup : (groups.map Prod.fst).Nodup
  keys : ∀ k, k ∈ groups.map Prod.fst ↔ ∃ a ∈ elements, key a = k
  items : ∀ group ∈ groups,
    group.2.map .ok = (elements.filter fun a => key a = group.1).map item

variable {key : α → κ} {item : α → Except ε β}

theorem Groups.push {elements : List α} {groups : List (κ × List β)}
    (h : Groups key item elements groups) {a : α} {b : β} (reads : item a = .ok b) :
    Groups key item (elements ++ [a]) (push groups (key a) b) where
  nodup := by
    rw [keys_push]
    split_ifs with old
    · exact h.nodup
    · rw [← List.concat_eq_append]
      exact List.Nodup.concat old h.nodup
  keys k := by
    have known := h.keys k
    simp only [List.mem_append, List.mem_singleton, or_and_right, exists_or, exists_eq_left,
      ← known, keys_push]
    split_ifs with old
    · refine ⟨Or.inl, ?_⟩
      intro cases
      rcases cases with mem | rfl
      · exact mem
      · exact old
    · rw [List.mem_append, List.mem_singleton]
      exact or_congr_right eq_comm
  items group mem := by
    rw [List.filter_append, List.map_append]
    rcases mem_push h.nodup mem with ⟨other, old⟩ | ⟨here, items, value, old⟩
    · rw [h.items group old]
      simp [Ne.symm other]
    · have before : items.map Except.ok = (elements.filter fun a => key a = group.1).map item := by
        rw [here]
        rcases old with old | ⟨fresh, rfl⟩
        · exact h.items _ old
        · have none : elements.filter (fun c => key c = key a) = [] := by
            rw [List.filter_eq_nil_iff]
            intro c mem same
            exact fresh ((h.keys _).mpr ⟨c, mem, of_decide_eq_true same⟩)
          rw [none]
          rfl
      rw [value, List.map_append, before]
      simp [here, reads]

theorem groups_foldlM {elements done : List α} {groups next : List (κ × List β)}
    (start : Groups key item done groups)
    (run : elements.foldlM (fun groups a => (item a).map (InsertionGroups.push groups (key a)))
      groups = .ok next) : Groups key item (done ++ elements) next := by
  induction elements generalizing done groups with
  | nil =>
    rw [List.append_nil, ← Except.ok.inj run]
    exact start
  | cons a elements ih =>
    obtain ⟨middle, first, rest⟩ := foldlM_cons_eq_ok_iff.mp run
    obtain ⟨b, reads, rfl⟩ := map_eq_ok_iff.mp first
    rw [List.append_cons]
    exact ih (start.push reads) rest

theorem groups_groupM {elements : List α} {groups : List (κ × List β)}
    (run : groupM key item elements = .ok groups) : Groups key item elements groups := by
  have start : Groups key item [] ([] : List (κ × List β)) :=
    ⟨List.nodup_nil, by simp, by simp⟩
  exact groups_foldlM start run

theorem groupM_returns {elements : List α} (reads : ∀ a ∈ elements, ∃ b, item a = .ok b) :
    ∃ groups, groupM key item elements = .ok groups := by
  apply foldlM_returns
  intro groups a mem
  obtain ⟨b, read⟩ := reads a mem
  exact ⟨_, map_eq_ok_iff.mpr ⟨b, read, rfl⟩⟩

theorem map_eq_map_of_mem {γ : Type*} {elements : List α} {items : List β} {f : β → γ} {g : α → γ}
    (h : items.map .ok = elements.map item) (same : ∀ a ∈ elements, ∀ b, item a = .ok b → f b = g a) :
    items.map f = elements.map g := by
  induction elements generalizing items with
  | nil =>
    rw [List.map_nil, List.map_eq_nil_iff] at h
    rw [h, List.map_nil, List.map_nil]
  | cons a elements ih =>
    obtain ⟨first, others⟩ := List.forall_mem_cons.mp same
    cases items with
    | nil => cases h
    | cons b items =>
      rw [List.map_cons, List.map_cons, List.cons.injEq] at h
      rw [List.map_cons, List.map_cons, first b h.1.symm, ih h.2 others]

theorem map_eq_map_of_ok {γ : Type*} {elements : List α} {items : List β} {f : β → γ} {g : α → γ}
    (h : items.map .ok = elements.map item) (same : ∀ a b, item a = .ok b → f b = g a) :
    items.map f = elements.map g :=
  map_eq_map_of_mem h fun a _ => same a

end OtDetection.InsertionGroups

/-! Writes into a map by key. A later write to a key replaces an earlier one, so a list of
writes is kept as it is exactly when its keys are pairwise distinct, and the number of
keys tells. -/

namespace OtDetection.KeyedWrites

variable {κ β : Type*} [DecidableEq κ]

/-- The map after a list of writes. -/
def store (files : AList fun _ : κ => β) (writes : List (κ × β)) : AList fun _ : κ => β :=
  writes.foldl (fun files write => files.insert write.1 write.2) files

theorem store_cons (files : AList fun _ : κ => β) (write : κ × β) (writes : List (κ × β)) :
    store files (write :: writes) = store (files.insert write.1 write.2) writes := rfl

theorem lookup_store_of_not_mem {files : AList fun _ : κ => β} {writes : List (κ × β)} {key : κ}
    (absent : key ∉ writes.map Prod.fst) : (store files writes).lookup key = files.lookup key := by
  induction writes generalizing files with
  | nil => rfl
  | cons write writes ih =>
    rw [List.map_cons, List.mem_cons, not_or] at absent
    rw [store_cons, ih absent.2, AList.lookup_insert_ne absent.1]

theorem lookup_store_of_nodup {files : AList fun _ : κ => β} {writes : List (κ × β)}
    (nodup : (writes.map Prod.fst).Nodup) {write : κ × β} (mem : write ∈ writes) :
    (store files writes).lookup write.1 = some write.2 := by
  induction writes generalizing files with
  | nil => cases mem
  | cons first writes ih =>
    rw [List.map_cons, List.nodup_cons] at nodup
    rw [store_cons]
    rcases List.mem_cons.mp mem with rfl | later
    · rw [lookup_store_of_not_mem nodup.1, AList.lookup_insert]
    · exact ih nodup.2 later

theorem mem_store {files : AList fun _ : κ => β} {writes : List (κ × β)} {key : κ} :
    key ∈ store files writes ↔ key ∈ files ∨ key ∈ writes.map Prod.fst := by
  induction writes generalizing files with
  | nil => simp [store]
  | cons write writes ih =>
    rw [store_cons, ih, AList.mem_insert, List.map_cons, List.mem_cons]
    tauto

theorem card_toFinset_eq_length_iff (keys : List κ) :
    keys.toFinset.card = keys.length ↔ keys.Nodup := Multiset.toFinset_card_eq_card_iff_nodup

theorem length_keys_store (writes : List (κ × β)) :
    (store ∅ writes).keys.length = (writes.map Prod.fst).toFinset.card := by
  rw [← List.toFinset_card_of_nodup (store ∅ writes).keys_nodup]
  congr 1
  ext key
  rw [List.mem_toFinset, List.mem_toFinset, ← AList.mem_keys, mem_store]
  simp

end OtDetection.KeyedWrites
