/-
This file proves which pairs remain when pairs are put under their keys one after the other.
-/

import DecoderForge.Entries
import Mathlib.Data.List.Dedup
import Mathlib.Data.List.Forall2
import Mathlib.Data.List.Induction

namespace DecoderForge.Entries

variable {κ α β : Type} [DecidableEq κ]

/-- The entries behind pairs that are put to them one after the other. -/
def putAll (entries pairs : List (κ × α)) : List (κ × α) :=
  pairs.foldl (fun entries pair => put pair.1 pair.2 entries) entries

@[simp] theorem putAll_nil (entries : List (κ × α)) : putAll entries [] = entries := rfl

theorem putAll_cons (entries : List (κ × α)) (pair : κ × α) (rest : List (κ × α)) :
    putAll entries (pair :: rest) = putAll (put pair.1 pair.2 entries) rest := rfl

theorem putAll_append (entries first second : List (κ × α)) :
    putAll entries (first ++ second) = putAll (putAll entries first) second := by
  simp [putAll, List.foldl_append]

theorem putAll_empty (pairs : List (κ × α)) : putAll [] pairs = ofList pairs := rfl

/-- The entries after one more pair. -/
theorem ofList_concat (pairs : List (κ × α)) (pair : κ × α) :
    ofList (pairs ++ [pair]) = put pair.1 pair.2 (ofList pairs) := by
  simp [ofList, List.foldl_append]

/-- A key that is not there comes last. -/
theorem put_of_not_mem (key : κ) (value : α) (entries : List (κ × α))
    (fresh : key ∉ entries.map Prod.fst) : put key value entries = entries ++ [(key, value)] := by
  induction entries with
  | nil => rfl
  | cons entry rest ih =>
    have different : entry.1 ≠ key := by
      intro same
      exact fresh (by simp [same])
    rw [put, if_neg different, ih (by simp_all), List.cons_append]

/-- Putting a pair keeps the keys distinct. -/
theorem nodup_keys_put (key : κ) (value : α) (entries : List (κ × α))
    (distinct : (entries.map Prod.fst).Nodup) :
    ((put key value entries).map Prod.fst).Nodup := by
  rw [keys_put]
  split
  · exact distinct
  · next fresh =>
    refine List.nodup_append.mpr ⟨distinct, List.pairwise_singleton _ key, ?_⟩
    rintro other inside last ⟨⟩ rfl
    · exact fresh inside
    · contradiction

/-- A key remains once. -/
theorem nodup_keys_ofList (pairs : List (κ × α)) : ((ofList pairs).map Prod.fst).Nodup := by
  induction pairs using List.reverseRecOn with
  | nil => exact List.nodup_nil
  | append_singleton pairs pair ih =>
    rw [ofList_concat]
    exact nodup_keys_put _ _ _ ih

/-- No key is lost. -/
theorem mem_keys_ofList (pairs : List (κ × α)) (key : κ) :
    key ∈ (ofList pairs).map Prod.fst ↔ key ∈ pairs.map Prod.fst := by
  induction pairs using List.reverseRecOn with
  | nil => rfl
  | append_singleton pairs pair ih =>
    rw [ofList_concat, keys_put, List.map_append, List.mem_append]
    split
    · next known =>
      rw [ih, or_iff_left_of_imp]
      intro last
      obtain rfl := List.mem_singleton.mp last
      exact (ih.mp known)
    · rw [List.mem_append, ih]
      rfl

/-- Each key stands where it first came. -/
theorem keys_ofList (pairs : List (κ × α)) :
    (ofList pairs).map Prod.fst = (pairs.map Prod.fst).eraseDups := by
  induction pairs using List.reverseRecOn with
  | nil => rfl
  | append_singleton pairs pair ih =>
    rw [ofList_concat, keys_put, ih, List.map_append, List.eraseDups_append]
    by_cases known : pair.1 ∈ pairs.map Prod.fst
    · simp [known, List.removeAll]
    · simp only [List.mem_eraseDups, known, List.map_cons, List.map_nil, List.removeAll,
        List.filter_cons, List.filter_nil, List.elem_eq_mem, decide_false, Bool.not_false, if_true,
        if_false]
      rfl

/-- As many pairs remain as there are different keys. -/
theorem length_ofList (pairs : List (κ × α)) :
    (ofList pairs).length = (pairs.map Prod.fst).dedup.length := by
  have same : ((ofList pairs).map Prod.fst).Perm (pairs.map Prod.fst).dedup := by
    rw [List.perm_ext_iff_of_nodup (nodup_keys_ofList pairs) (List.nodup_dedup _)]
    intro key
    rw [mem_keys_ofList, List.mem_dedup]
  rw [← same.length_eq, List.length_map]

theorem length_ofList_le (pairs : List (κ × α)) : (ofList pairs).length ≤ pairs.length := by
  have fewer := (List.dedup_sublist (pairs.map Prod.fst)).length_le
  rwa [← length_ofList, List.length_map] at fewer

/-- Pairs with a common key do not all remain. -/
theorem length_ofList_eq_iff (pairs : List (κ × α)) :
    (ofList pairs).length = pairs.length ↔ (pairs.map Prod.fst).Nodup := by
  rw [length_ofList, ← List.length_map Prod.fst]
  constructor
  · intro all
    exact List.dedup_eq_self.mp ((List.dedup_sublist _).eq_of_length all)
  · intro distinct
    rw [distinct.dedup]

/-- Pairs with distinct keys all remain. -/
theorem ofList_eq_self (pairs : List (κ × α)) (distinct : (pairs.map Prod.fst).Nodup) :
    ofList pairs = pairs := by
  induction pairs using List.reverseRecOn with
  | nil => rfl
  | append_singleton pairs pair ih =>
    rw [List.map_append, List.nodup_append] at distinct
    have fresh : pair.1 ∉ pairs.map Prod.fst := by
      intro inside
      exact distinct.2.2 _ inside _ (by simp) rfl
    rw [ofList_concat, ih distinct.1, put_of_not_mem _ _ _ fresh]

theorem get?_append (key : κ) (left right : List (κ × α)) :
    get? key (left ++ right) = (get? key left).or (get? key right) := by
  induction left with
  | nil => rfl
  | cons entry rest ih =>
    by_cases same : entry.1 = key
    · rw [List.cons_append, get?, get?, if_pos same, if_pos same, Option.some_or]
    · rw [List.cons_append, get?, get?, if_neg same, if_neg same, ih]

/-- The value under a key that occurs once is that of each of its entries. -/
theorem get?_eq_some_iff (entries : List (κ × α)) (distinct : (entries.map Prod.fst).Nodup)
    (key : κ) (value : α) : get? key entries = some value ↔ (key, value) ∈ entries := by
  induction entries with
  | nil => simp [get?]
  | cons entry rest ih =>
    rw [List.map_cons, List.nodup_cons] at distinct
    by_cases same : entry.1 = key
    · have absent : (key, value) ∉ rest := by
        intro inside
        exact distinct.1 (List.mem_map.mpr ⟨(key, value), inside, same.symm⟩)
      rw [get?, if_pos same, List.mem_cons, or_iff_left absent, Option.some_inj, Prod.ext_iff]
      exact ⟨fun found => ⟨same.symm, found.symm⟩, fun found => found.2.symm⟩
    · have different : (key, value) ≠ entry := by
        rintro rfl
        exact same rfl
      rw [get?, if_neg same, ih distinct.2, List.mem_cons, or_iff_right different]

/-- The value under a key is that of one of its entries. -/
theorem mem_of_get?_eq_some (entries : List (κ × α)) (key : κ) (value : α)
    (found : get? key entries = some value) : (key, value) ∈ entries := by
  induction entries with
  | nil => simp [get?] at found
  | cons entry rest ih =>
    rw [get?] at found
    split at found
    · next same =>
      have value_same := Option.some_inj.mp found
      exact List.mem_cons.mpr (.inl (Prod.ext same.symm value_same.symm))
    · exact List.mem_cons_of_mem _ (ih found)

/-- A put pair stands beside the entries under other keys. -/
theorem mem_put (key : κ) (value : α) (entries : List (κ × α))
    (distinct : (entries.map Prod.fst).Nodup) (entry : κ × α) :
    entry ∈ put key value entries ↔ entry = (key, value) ∨ (entry ∈ entries ∧ entry.1 ≠ key) := by
  obtain ⟨other, found⟩ := entry
  have kept := nodup_keys_put key value entries distinct
  rw [← get?_eq_some_iff _ kept, ← get?_eq_some_iff _ distinct, get?_put]
  by_cases same : key = other
  · simp [same, eq_comm]
  · simp [same, Ne.symm same]

/-- The pairs that remain are those behind which their key does not come again. -/
theorem mem_ofList (pairs : List (κ × α)) (entry : κ × α) :
    entry ∈ ofList pairs ↔
      ∃ before after, pairs = before ++ entry :: after ∧ entry.1 ∉ after.map Prod.fst := by
  induction pairs using List.reverseRecOn with
  | nil => simp [ofList]
  | append_singleton pairs pair ih =>
    rw [ofList_concat, mem_put _ _ _ (nodup_keys_ofList pairs), ih]
    constructor
    · rintro (rfl | ⟨⟨before, after, rfl, last⟩, different⟩)
      · exact ⟨pairs, [], rfl, by simp⟩
      · refine ⟨before, after ++ [pair], by simp, ?_⟩
        simpa [not_or] using And.intro (by simpa using last) different
    · rintro ⟨before, after, split, last⟩
      rcases List.eq_nil_or_concat after with rfl | ⟨rest, final, rfl⟩
      · obtain ⟨rfl, same⟩ := List.append_inj' split rfl
        exact .inl (by simpa using same.symm)
      · rw [List.concat_eq_append, ← List.cons_append, ← List.append_assoc] at split
        obtain ⟨rfl, same⟩ := List.append_inj' split rfl
        obtain rfl : pair = final := by simpa using same
        rw [List.concat_eq_append, List.map_append, List.mem_append, not_or] at last
        exact .inr ⟨⟨before, rest, rfl, last.1⟩, by simpa using last.2⟩

omit [DecidableEq κ] in
/-- Entries that are made from elements have their keys in the order of the elements. -/
theorem keys_filterMap_sublist {ι : Type} (make : ι → Option (κ × α)) (key : ι → κ)
    (keyed : ∀ element entry, make element = some entry → entry.1 = key element)
    (elements : List ι) :
    ((elements.filterMap make).map Prod.fst).Sublist (elements.map key) := by
  induction elements with
  | nil => exact .slnil
  | cons element rest ih =>
    rw [List.filterMap_cons]
    split
    · exact ih.cons _
    · next entry made =>
      rw [List.map_cons, List.map_cons, keyed element entry made]
      exact ih.cons_cons _

/-- Entries under the same keys in the same order, with related values. -/
def Related (related : α → β → Prop) : List (κ × α) → List (κ × β) → Prop :=
  List.Forall₂ fun left right => left.1 = right.1 ∧ related left.2 right.2

theorem Related.put {related : α → β → Prop} {left : List (κ × α)} {right : List (κ × β)}
    (entries : Related related left right) (key : κ) {a : α} {b : β} (values : related a b) :
    Related related (put key a left) (put key b right) := by
  induction entries with
  | nil => exact .cons ⟨rfl, values⟩ .nil
  | @cons first second _ _ heads tails ih =>
    by_cases same : second.1 = key
    · rw [Entries.put, Entries.put, if_pos (heads.1.trans same), if_pos same]
      exact .cons ⟨rfl, values⟩ tails
    · rw [Entries.put, Entries.put, if_neg (heads.1.symm ▸ same), if_neg same]
      exact .cons heads ih

/-- The pairs that remain of related ones are related. -/
theorem Related.ofList {related : α → β → Prop} {left : List (κ × α)} {right : List (κ × β)}
    (pairs : Related related left right) :
    Related related (ofList left) (ofList right) := by
  suffices fold : ∀ (first : List (κ × α)) (second : List (κ × β)), Related related first second →
      Related related (left.foldl (fun entries pair => Entries.put pair.1 pair.2 entries) first)
        (right.foldl (fun entries pair => Entries.put pair.1 pair.2 entries) second) from
    fold [] [] .nil
  induction pairs with
  | nil => exact fun _ _ entries => entries
  | @cons l r _ _ heads _ ih =>
    intro first second entries
    apply ih
    change Related related (Entries.put l.1 l.2 first) (Entries.put r.1 r.2 second)
    rw [← heads.1]
    exact entries.put l.1 heads.2

omit [DecidableEq κ] in
/-- Each entry on the right has a related one on the left. -/
theorem Related.exists_left {related : α → β → Prop} {left : List (κ × α)} {right : List (κ × β)}
    (entries : Related related left right) {key : κ} {b : β} (inside : (key, b) ∈ right) :
    ∃ a, (key, a) ∈ left ∧ related a b := by
  induction entries with
  | nil => simp at inside
  | @cons first second _ _ heads _ ih =>
    rcases List.mem_cons.mp inside with same | inside
    · subst same
      have head : (key, first.2) = first := Prod.ext heads.1.symm rfl
      exact ⟨first.2, head ▸ List.mem_cons_self, heads.2⟩
    · obtain ⟨a, found, values⟩ := ih inside
      exact ⟨a, List.mem_cons_of_mem _ found, values⟩

end DecoderForge.Entries
