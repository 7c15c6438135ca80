/-
This file proves that what is loaded has a property when its parts are loaded with it, whatever they
are loaded from.
-/

import DecoderForge.Loading.Reader
import DecoderForge.Proofs.Loading.Whole

namespace DecoderForge.Loading

open Json (Document Item Entry Ending)

variable {ν ε α β σ ρ τ : Type}

/-- Everything that is loaded has a property. -/
def Yields (load : ν → Except ε α) (property : α → Prop) : Prop :=
  ∀ value a, load value = .ok a → property a

theorem yields_true (load : ν → Except ε α) : Yields load fun _ => True := fun _ _ _ => trivial

theorem Yields.map {load : ν → Except ε α} {property : α → Prop} (yields : Yields load property)
    {f : α → β} {result : β → Prop} (imp : ∀ a, property a → result (f a)) :
    Yields (fun value => (load value).map f) result := by
  intro value b loaded
  obtain ⟨a, here, rfl⟩ := Except.map_eq_ok_iff.mp loaded
  exact imp a (yields value a here)

theorem forall_of_forall₂ {load : ν → Except ε α} {property : α → Prop}
    (yields : Yields load property) {values : List ν} {as : List α}
    (loaded : List.Forall₂ (fun value a => load value = .ok a) values as) :
    ∀ a ∈ as, property a := by
  induction loaded with
  | nil => exact List.forall_mem_nil _
  | cons here _ ih => exact List.forall_mem_cons.mpr ⟨yields _ _ here, ih⟩

/-- What is read under the keys of a record keeps the state in an invariant. -/
structure Columns.Keeps (columns : Columns ν ε σ) (invariant : σ → Prop) : Prop where
  none : invariant columns.none
  read : ∀ key value state next, invariant state → columns.read key value state = .ok next →
    invariant next

theorem Columns.keeps_one (key : String) {load : ν → Except ε α} {property : α → Prop}
    (yields : Yields load property) :
    (Columns.one key load).Keeps fun state => ∀ a ∈ state, property a where
  none := nofun
  read _ value _ next _ read := by
    obtain ⟨a, here, rfl⟩ := Except.map_eq_ok_iff.mp read
    rintro _ ⟨⟩
    exact yields value a here

theorem Columns.Keeps.and {a : Columns ν ε σ} {b : Columns ν ε ρ} {invariant : σ → Prop}
    {other : ρ → Prop} (first : a.Keeps invariant) (second : b.Keeps other) :
    (a.and b).Keeps fun state => invariant state.1 ∧ other state.2 where
  none := ⟨first.none, second.none⟩
  read key value state next kept read := by
    unfold Columns.and at read
    dsimp only at read
    split at read
    · obtain ⟨left, here, rfl⟩ := Except.map_eq_ok_iff.mp read
      exact ⟨first.read key value state.1 left kept.1 here, kept.2⟩
    · obtain ⟨right, here, rfl⟩ := Except.map_eq_ok_iff.mp read
      exact ⟨kept.1, second.read key value state.2 right kept.2 here⟩

/-- A value has a property if it is known. -/
def Progress.Satisfies (property : α → Prop) : Progress τ α → Prop
  | .both a => property a
  | _ => True

namespace Buffer

theorem list_yields {load : Json → Except Cause α} {property : α → Prop}
    (yields : Yields load property) : Yields (list load) fun as => ∀ a ∈ as, property a := by
  intro value as loaded
  unfold list at loaded
  split at loaded
  · exact forall_of_forall₂ yields (mapM_eq_ok_iff.mp loaded)
  · contradiction

theorem entries_keeps {columns : Columns Json Cause σ} {invariant : σ → Prop}
    (keeps : columns.Keeps invariant) {es : List (String × Json)} {state next : σ}
    (kept : invariant state) (loaded : entries columns es state = .ok next) : invariant next := by
  induction es generalizing state with
  | nil =>
    obtain rfl := Except.ok.inj loaded
    exact kept
  | cons entry rest ih =>
    obtain ⟨key, value⟩ := entry
    rw [entries] at loaded
    split at loaded
    · exact ih kept loaded
    · contradiction
    · obtain ⟨middle, here, later⟩ := Except.bind_eq_ok_iff.mp loaded
      exact ih (keeps.read key value state middle kept here) later

theorem required_eq_ok_iff {name : String} {found : Option α} {a : α} :
    required name found = .ok a ↔ found = some a := by
  cases found <;> simp [required]

theorem element_yields {items : List Json} {i : Nat} {expected : Expected}
    {load : Json → Except Cause α} {property : α → Prop} (yields : Yields load property) {a : α}
    (loaded : element items i expected load = .ok a) : property a := by
  unfold element at loaded
  split at loaded
  · exact yields _ a loaded
  · contradiction

theorem single_yields (key : String) (record listed : Expected) {load : Json → Except Cause α}
    {property : α → Prop} (yields : Yields load property) :
    Yields (single key record listed load) property := by
  intro value a loaded
  unfold single at loaded
  split at loaded
  · have keeps := Columns.keeps_one key yields
    simp only [Except.step_eq_ok_iff, required_eq_ok_iff] at loaded
    obtain ⟨state, here, found⟩ := loaded
    exact entries_keeps keeps keeps.none here a found
  · simp only [Except.step_eq_ok_iff, Except.pure_eq_ok_iff] at loaded
    obtain ⟨first, here, _, _, rfl⟩ := loaded
    exact element_yields yields here
  · contradiction

theorem double_yields (key key' : String) (record listed : Expected)
    {load : Json → Except Cause α} {load' : Json → Except Cause β} {property : α → Prop}
    {other : β → Prop} (first : Yields load property) (second : Yields load' other) :
    Yields (double key key' record listed load load') fun pair =>
      property pair.1 ∧ other pair.2 := by
  intro value pair loaded
  unfold double at loaded
  split at loaded
  · have keeps := (Columns.keeps_one key first).and (Columns.keeps_one key' second)
    simp only [Except.step_eq_ok_iff, Except.pure_eq_ok_iff, required_eq_ok_iff] at loaded
    obtain ⟨state, here, a, found, b, present, rfl⟩ := loaded
    have kept := entries_keeps keeps keeps.none here
    exact ⟨kept.1 a found, kept.2 b present⟩
  · simp only [Except.step_eq_ok_iff, Except.pure_eq_ok_iff] at loaded
    obtain ⟨a, found, b, present, _, _, rfl⟩ := loaded
    exact ⟨element_yields first found, element_yields second present⟩
  · contradiction

theorem optional_yields {load : Json → Except Cause α} {property : α → Prop}
    (yields : Yields load property) :
    Yields (optional load) fun found => ∀ a ∈ found, property a := by
  intro value found loaded
  unfold optional at loaded
  split at loaded
  · obtain rfl := Except.ok.inj loaded
    exact nofun
  · obtain ⟨a, here, rfl⟩ := Except.map_eq_ok_iff.mp loaded
    rintro _ ⟨⟩
    exact yields _ a here

section

variable {shape : TagAndContent} {names : List (String × τ)} {loader : ContentLoader Json Cause τ α}
  {property : α → Prop}

theorem tagAndContentEntries_yields (content : ∀ t, Yields (loader.content t) property)
    {tag : Json → Except Cause τ} {es : List (String × Json)} {progress last : Progress τ α}
    (kept : progress.Satisfies property)
    (loaded : tagAndContentEntries shape tag loader es progress = .ok last) :
    last.Satisfies property := by
  induction es generalizing progress with
  | nil =>
    obtain rfl := Except.ok.inj loaded
    exact kept
  | cons entry rest ih =>
    obtain ⟨key, value⟩ := entry
    unfold tagAndContentEntries at loaded
    dsimp only at loaded
    split at loaded
    · split at loaded
      · obtain ⟨t, _, later⟩ := Except.bind_eq_ok_iff.mp loaded
        refine ih ?_ later
        exact trivial
      · obtain ⟨t, _, later⟩ := Except.bind_eq_ok_iff.mp loaded
        obtain ⟨a, here, later⟩ := Except.bind_eq_ok_iff.mp later
        refine ih ?_ later
        exact content t _ a here
      · contradiction
    split at loaded
    · split at loaded
      · refine ih ?_ loaded
        exact trivial
      · next t =>
        obtain ⟨a, here, later⟩ := Except.bind_eq_ok_iff.mp loaded
        refine ih ?_ later
        exact content t _ a here
      · contradiction
    · exact ih kept loaded

theorem tagAndContent_yields (content : ∀ t, Yields (loader.content t) property)
    (bare : Yields loader.bare property) :
    Yields (tagAndContent shape names loader) property := by
  intro value a loaded
  unfold tagAndContent at loaded
  split at loaded
  · obtain ⟨last, here, later⟩ := Except.step_eq_ok_iff.mp loaded
    have start : (Progress.nothing : Progress τ α).Satisfies property := trivial
    have kept := tagAndContentEntries_yields content start here
    split at later
    · obtain rfl := Except.pure_eq_ok_iff.mp later
      exact kept
    · exact bare _ a later
    · contradiction
  · contradiction
  · obtain ⟨_, _, later⟩ := Except.step_eq_ok_iff.mp loaded
    contradiction
  · simp only [Except.step_eq_ok_iff, Except.pure_eq_ok_iff] at loaded
    obtain ⟨t, _, b, read, _, _, rfl⟩ := loaded
    exact content t _ b read
  · contradiction

end

end Buffer

namespace Reader

theorem list_yields {load : Loader α} {property : α → Prop} (yields : Yields load property) :
    Yields (list load) fun as => ∀ a ∈ as, property a := by
  intro document as loaded
  unfold list at loaded
  split at loaded
  · have each := ((items_eq_ok_iff _ _ _ _ _).mp loaded).2
    exact forall_of_forall₂ (fun item : Item => yields item.value) each
  · contradiction

theorem entries_keeps {columns : Columns Document Failure σ} {known : Option (List String)}
    {invariant : σ → Prop} (keeps : columns.Keeps invariant) {ending : Ending} {es : List Entry}
    {state next : σ} (kept : invariant state)
    (loaded : entries columns known ending es state = .ok next) : invariant next := by
  induction es generalizing state with
  | nil =>
    unfold entries at loaded
    split at loaded
    · contradiction
    · obtain rfl := Except.ok.inj loaded
      exact kept
  | cons entry rest ih =>
    unfold entries at loaded
    split at loaded
    · exact ih kept loaded
    · contradiction
    · contradiction
    · split at loaded
      · contradiction
      · next middle here =>
        exact ih (keeps.read _ _ state middle kept (Except.mapError_eq_ok_iff.mp here)) loaded

theorem required_eq_ok_iff {name : String} {ending : Ending} {found : Option α} {a : α} :
    required name ending found = .ok a ↔ found = some a := by
  cases found <;> simp [required]

theorem element_yields {items : List Item} {ending : Ending} {i : Nat} {expected : Expected}
    {load : Loader α} {property : α → Prop} (yields : Yields load property) {a : α}
    (loaded : element items ending i expected load = .ok a) : property a := by
  obtain ⟨found, here, later⟩ := Except.step_eq_ok_iff.mp loaded
  unfold element? at here
  split at here
  · obtain ⟨b, read, rfl⟩ := Except.map_eq_ok_iff.mp here
    obtain rfl := Except.pure_eq_ok_iff.mp later
    exact yields _ b (Except.mapError_eq_ok_iff.mp read)
  · split at here
    · contradiction
    · obtain rfl := Except.ok.inj here
      contradiction

end Reader

end DecoderForge.Loading
