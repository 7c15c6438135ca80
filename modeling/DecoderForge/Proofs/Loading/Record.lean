/-
This file proves from which values records are loaded: from objects in which each of their keys
stands at most once, in any order and among other keys, and from lists that are not too long.
-/

import DecoderForge.Loading.Descriptor
import DecoderForge.Proofs.Entries
import DecoderForge.Proofs.Loading.Yields

namespace DecoderForge.Loading

open Json (Document Item Entry Ending)

variable {ν ε α β σ ρ τ : Type}

/-- How often a key stands among entries. -/
def keyCount (key : String) (entries : List (String × ν)) : Nat :=
  (entries.map Prod.fst).count key

theorem keyCount_cons (key name : String) (value : ν) (rest : List (String × ν)) :
    keyCount key ((name, value) :: rest) = keyCount key rest + if name = key then 1 else 0 := by
  simp [keyCount, List.count_cons]

theorem keyCount_eq_zero_iff {key : String} {entries : List (String × ν)} :
    keyCount key entries = 0 ↔ Entries.get? key entries = none := by
  induction entries with
  | nil => simp [keyCount, Entries.get?]
  | cons entry rest ih =>
    obtain ⟨name, value⟩ := entry
    rw [keyCount_cons, Entries.get?]
    by_cases same : name = key
    · simp [same]
    · simp [same, ih]

theorem keyCount_append (key : String) (first second : List (String × ν)) :
    keyCount key (first ++ second) = keyCount key first + keyCount key second := by
  simp [keyCount]

/-- Where a key stands at most once, it does not matter that the last of its values counts. -/
theorem get?_ofList {key : String} {entries : List (String × ν)} (once : keyCount key entries ≤ 1) :
    Entries.get? key (Entries.ofList entries) = Entries.get? key entries := by
  induction entries using List.reverseRecOn with
  | nil => rfl
  | append_singleton entries entry ih =>
    obtain ⟨name, value⟩ := entry
    rw [keyCount_append, keyCount_cons] at once
    rw [Entries.ofList_concat, Entries.get?_put, Entries.get?_append, ih (by omega), Entries.get?]
    by_cases same : name = key
    · have absent : keyCount key entries = 0 := by
        rw [if_pos same] at once
        omega
      simp [same, keyCount_eq_zero_iff.mp absent]
    · simp [same, Entries.get?]

/-- The entries under other keys. -/
def others (key : String) (entries : List (String × ν)) : List (String × ν) :=
  entries.filter fun entry => entry.1 ≠ key

theorem others_cons (key name : String) (value : ν) (rest : List (String × ν)) :
    others key ((name, value) :: rest) =
      if name = key then others key rest else (name, value) :: others key rest := by
  by_cases same : name = key <;> simp [others, same]

theorem keyCount_others {key other : String} (different : other ≠ key)
    (entries : List (String × ν)) :
    keyCount other (others key entries) = keyCount other entries := by
  induction entries with
  | nil => rfl
  | cons entry rest ih =>
    obtain ⟨name, value⟩ := entry
    rw [others_cons, keyCount_cons]
    by_cases same : name = key
    · simp [same, Ne.symm different, ih]
    · simp [same, keyCount_cons, ih]

theorem get?_others {key other : String} (different : other ≠ key) (entries : List (String × ν)) :
    Entries.get? other (others key entries) = Entries.get? other entries := by
  induction entries with
  | nil => rfl
  | cons entry rest ih =>
    obtain ⟨name, value⟩ := entry
    rw [others_cons, Entries.get?]
    by_cases same : name = key
    · simp [same, Ne.symm different, ih]
    · simp [same, Entries.get?, ih]

namespace Columns

/-- Entries lead from one state to another: each key of the record is read once, and other keys are
passed over. -/
inductive Reads (columns : Columns ν ε σ) : List (String × ν) → σ → σ → Prop
  | nil (state : σ) : Reads columns [] state state
  | pass {key : String} {value : ν} {rest : List (String × ν)} {state last : σ}
      (other : columns.taken? key state = .none) (later : Reads columns rest state last) :
      Reads columns ((key, value) :: rest) state last
  | read {key : String} {value : ν} {rest : List (String × ν)} {state next last : σ}
      (fresh : columns.taken? key state = some false)
      (here : columns.read key value state = .ok next) (later : Reads columns rest next last) :
      Reads columns ((key, value) :: rest) state last

theorem reads_nil_iff {columns : Columns ν ε σ} {state last : σ} :
    columns.Reads [] state last ↔ last = state := by
  constructor
  · intro reads
    cases reads
    rfl
  · rintro rfl
    exact .nil _

theorem reads_cons_iff {columns : Columns ν ε σ} {key : String} {value : ν}
    {rest : List (String × ν)} {state last : σ} :
    columns.Reads ((key, value) :: rest) state last ↔
      (columns.taken? key state = .none ∧ columns.Reads rest state last) ∨
        (columns.taken? key state = some false ∧
          ∃ next, columns.read key value state = .ok next ∧ columns.Reads rest next last) := by
  constructor
  · intro reads
    cases reads with
    | pass other later => exact .inl ⟨other, later⟩
    | read fresh here later => exact .inr ⟨fresh, _, here, later⟩
  · rintro (⟨other, later⟩ | ⟨fresh, next, here, later⟩)
    · exact .pass other later
    · exact .read fresh here later

/-- A record with one key is read entry by entry. -/
theorem reads_one_cons_iff {key name : String} {load : ν → Except ε α} {value : ν}
    {rest : List (String × ν)} {state last : Option α} :
    (one key load).Reads ((name, value) :: rest) state last ↔
      if name = key then
        state = .none ∧ ∃ a, load value = .ok a ∧ (one key load).Reads rest (some a) last
      else (one key load).Reads rest state last := by
  rw [reads_cons_iff]
  by_cases same : name = key
  · have taken : (one key load).taken? name state = some state.isSome := if_pos same
    have read (next : Option α) : (one key load).read name value state = .ok next ↔
        ∃ a, load value = .ok a ∧ some a = next := Except.map_eq_ok_iff
    rw [taken, if_pos same]
    simp only [read]
    cases state with
    | none => simp
    | some a => simp
  · have taken : (one key load).taken? name state = .none := if_neg same
    simp [taken, same]

/-- Behind its value a key does not come again. -/
theorem reads_one_some_iff {key : String} {load : ν → Except ε α} {es : List (String × ν)} {a : α}
    {last : Option α} :
    (one key load).Reads es (some a) last ↔ keyCount key es = 0 ∧ last = some a := by
  induction es with
  | nil => simp [reads_nil_iff, keyCount]
  | cons entry rest ih =>
    obtain ⟨name, value⟩ := entry
    rw [reads_one_cons_iff, keyCount_cons, ih]
    by_cases same : name = key <;> simp [same]

/-- A record with one key is read where the key stands at most once, from the value under it. -/
theorem reads_one_iff {key : String} {load : ν → Except ε α} {es : List (String × ν)}
    {last : Option α} :
    (one key load).Reads es .none last ↔
      keyCount key es ≤ 1 ∧
        Option.Rel (fun value a => load value = .ok a) (Entries.get? key es) last := by
  induction es with
  | nil => cases last <;> simp [reads_nil_iff, keyCount, Entries.get?]
  | cons entry rest ih =>
    obtain ⟨name, value⟩ := entry
    rw [reads_one_cons_iff, keyCount_cons, Entries.get?]
    by_cases same : name = key
    · rw [if_pos same, if_pos same, if_pos same]
      constructor
      · rintro ⟨_, a, loaded, later⟩
        obtain ⟨absent, rfl⟩ := reads_one_some_iff.mp later
        exact ⟨by omega, .some loaded⟩
      · rintro ⟨once, related⟩
        cases related with
        | @some _ a loaded =>
          exact ⟨rfl, a, loaded, reads_one_some_iff.mpr ⟨by omega, rfl⟩⟩
    · simp [same, ih]

/-- Each key belongs to one of two records at most. -/
def Disjoint (a : Columns ν ε σ) (b : Columns ν ε ρ) : Prop :=
  ∀ key, (∀ state, a.taken? key state = .none) ∨ ∀ state, b.taken? key state = .none

theorem taken?_and {a : Columns ν ε σ} {b : Columns ν ε ρ} (key : String) (state : σ × ρ) :
    (a.and b).taken? key state = (a.taken? key state.1).or (b.taken? key state.2) := rfl

/-- Two records without a common key are read apart from each other. -/
theorem reads_and_iff {a : Columns ν ε σ} {b : Columns ν ε ρ} (disjoint : a.Disjoint b)
    {es : List (String × ν)} {state last : σ × ρ} :
    (a.and b).Reads es state last ↔ a.Reads es state.1 last.1 ∧ b.Reads es state.2 last.2 := by
  induction es generalizing state with
  | nil => simp [reads_nil_iff, Prod.ext_iff]
  | cons entry rest ih =>
    obtain ⟨key, value⟩ := entry
    simp only [reads_cons_iff, ih, taken?_and]
    rcases disjoint key with other | other
    · have read (next : σ × ρ) : (a.and b).read key value state = .ok next ↔
          ∃ t, b.read key value state.2 = .ok t ∧ (state.1, t) = next := by
        simp [and, other]
      simp only [other, Option.none_or, read]
      constructor
      · rintro (⟨passed, first, second⟩ | ⟨fresh, _, ⟨t, here, rfl⟩, first, second⟩)
        · exact ⟨.inl ⟨trivial, first⟩, .inl ⟨passed, second⟩⟩
        · exact ⟨.inl ⟨trivial, first⟩, .inr ⟨fresh, t, here, second⟩⟩
      · rintro ⟨⟨_, first⟩ | ⟨taken, _⟩, ⟨passed, second⟩ | ⟨fresh, t, here, second⟩⟩
        · exact .inl ⟨passed, first, second⟩
        · exact .inr ⟨fresh, _, ⟨t, here, rfl⟩, first, second⟩
        · contradiction
        · contradiction
    · cases taken : a.taken? key state.1 with
      | none => simp [other]
      | some known =>
        have read (next : σ × ρ) : (a.and b).read key value state = .ok next ↔
            ∃ s, a.read key value state.1 = .ok s ∧ (s, state.2) = next := by
          simp [and, taken]
        simp only [other, Option.or_none, read]
        constructor
        · rintro (⟨passed, _⟩ | ⟨fresh, _, ⟨s, here, rfl⟩, first, second⟩)
          · contradiction
          · exact ⟨.inr ⟨fresh, s, here, first⟩, .inl ⟨trivial, second⟩⟩
        · rintro ⟨⟨passed, _⟩ | ⟨fresh, s, here, first⟩, ⟨_, second⟩ | ⟨taken, _⟩⟩
          · contradiction
          · contradiction
          · exact .inr ⟨fresh, _, ⟨s, here, rfl⟩, first, second⟩
          · contradiction

theorem Disjoint.symm {a : Columns ν ε σ} {b : Columns ν ε ρ} (disjoint : a.Disjoint b) :
    b.Disjoint a := fun key => (disjoint key).symm

theorem disjoint_one {key : String} {load : ν → Except ε α} {b : Columns ν ε ρ}
    (fresh : ∀ state, b.taken? key state = .none) : (one key load).Disjoint b := by
  intro name
  by_cases same : name = key
  · exact .inr (same ▸ fresh)
  · exact .inl fun _ => if_neg same

end Columns

theorem Buffer.entries_eq_ok_iff {columns : Columns Json Cause σ} {es : List (String × Json)}
    {state last : σ} :
    Buffer.entries columns es state = .ok last ↔ columns.Reads es state last := by
  induction es generalizing state with
  | nil => simp [Buffer.entries, Columns.reads_nil_iff, eq_comm]
  | cons entry rest ih =>
    obtain ⟨key, value⟩ := entry
    rw [Columns.reads_cons_iff, Buffer.entries]
    rcases columns.taken? key state with _ | _ | _ <;> simp [ih]

theorem Reader.entries_eq_ok_iff {columns : Columns Document Failure σ} {ending : Ending}
    {es : List Entry} {state last : σ} :
    Reader.entries columns none ending es state = .ok last ↔
      Reader.endingFailure ending = none ∧
        columns.Reads (es.map fun entry => (entry.key, entry.value)) state last := by
  induction es generalizing state with
  | nil =>
    rw [Reader.entries, List.map_nil, Columns.reads_nil_iff]
    cases Reader.endingFailure ending <;> simp [eq_comm]
  | cons entry rest ih =>
    rw [List.map_cons, Columns.reads_cons_iff]
    unfold Reader.entries
    cases taken : columns.taken? entry.key state with
    | none => simp [ih]
    | some known =>
      cases known with
      | true => simp
      | false =>
        cases read : columns.read entry.key entry.value state with
        | error failure => simp [Except.mapError]
        | ok next => simp [Except.mapError, ih]

end DecoderForge.Loading
