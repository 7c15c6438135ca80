/-
This file proves from which results a result without failure is put together, and which failure a
list of results comes to.
-/

import Mathlib.Data.List.Forall2

namespace DecoderForge

variable {α β ε δ : Type}

@[simp] theorem Except.mapError_eq_ok_iff {result : Except ε α} {f : ε → δ} {a : α} :
    result.mapError f = .ok a ↔ result = .ok a := by
  cases result <;> simp [Except.mapError]

@[simp] theorem Except.map_eq_ok_iff {result : Except ε α} {f : α → β} {b : β} :
    result.map f = .ok b ↔ ∃ a, result = .ok a ∧ f a = b := by
  cases result <;> simp [Except.map]

@[simp] theorem Except.bind_eq_ok_iff {result : Except ε α} {next : α → Except ε β} {b : β} :
    result.bind next = .ok b ↔ ∃ a, result = .ok a ∧ next a = .ok b := by
  cases result <;> simp [Except.bind]

/-- The same of the steps of a `do` block. -/
@[simp] theorem Except.step_eq_ok_iff {result : Except ε α} {next : α → Except ε β} {b : β} :
    result >>= next = .ok b ↔ ∃ a, result = .ok a ∧ next a = .ok b :=
  Except.bind_eq_ok_iff

@[simp] theorem Except.pure_eq_ok_iff {a b : α} : (pure a : Except ε α) = .ok b ↔ a = b :=
  Except.ok.injEq a b ▸ Iff.rfl

@[simp] theorem Except.functor_map_eq_ok_iff {result : Except ε α} {f : α → β} {b : β} :
    f <$> result = .ok b ↔ ∃ a, result = .ok a ∧ f a = b :=
  Except.map_eq_ok_iff

theorem Except.mapError_eq_error_iff {result : Except ε α} {f : ε → δ} {d : δ} :
    result.mapError f = .error d ↔ ∃ e, result = .error e ∧ f e = d := by
  cases result <;> simp [Except.mapError]

/-- What comes out one by one, unless something is wrong at the end, comes out where each element
does. -/
theorem collect_eq_ok_iff {ι : Type} (run : Nat → List ι → Except ε (List α)) {ends : Prop}
    {relation : ι → α → Prop} (nil : ∀ i as, run i [] = .ok as ↔ ends ∧ as = [])
    (cons : ∀ i element rest as, run i (element :: rest) = .ok as ↔
      ∃ a later, relation element a ∧ run (i + 1) rest = .ok later ∧ a :: later = as)
    (i : Nat) (elements : List ι) (as : List α) :
    run i elements = .ok as ↔ ends ∧ List.Forall₂ relation elements as := by
  induction elements generalizing i as with
  | nil => rw [nil, List.forall₂_nil_left_iff]
  | cons element rest ih =>
    rw [cons, List.forall₂_cons_left_iff]
    constructor
    · rintro ⟨a, later, here, others, rfl⟩
      obtain ⟨last, related⟩ := (ih (i + 1) later).mp others
      exact ⟨last, a, later, here, related, rfl⟩
    · rintro ⟨last, a, later, here, related, rfl⟩
      exact ⟨a, later, here, (ih (i + 1) later).mpr ⟨last, related⟩, rfl⟩

/-- A list comes out where each of its elements does. -/
theorem mapM_eq_ok_iff {f : α → Except ε β} {as : List α} {bs : List β} :
    as.mapM f = .ok bs ↔ List.Forall₂ (fun a b => f a = .ok b) as bs := by
  induction as generalizing bs with
  | nil => rw [List.mapM_nil, Except.pure_eq_ok_iff, List.forall₂_nil_left_iff, eq_comm]
  | cons a rest ih => simp [List.mapM_cons, List.forall₂_cons_left_iff, ih, @eq_comm _ bs]

/-- Things are taken one after the other up to one that fails. -/
def FirstFailure (succeeds : α → Prop) (fails : α → ε → Prop) (things : List α)
    (e : ε) : Prop :=
  ∃ before thing after, things = before ++ thing :: after ∧
    (∀ earlier ∈ before, succeeds earlier) ∧ fails thing e

section

variable {succeeds succeeds' : α → Prop} {fails fails' : α → ε → Prop}

end

/-- Where another way to make elements gives the same ones or fails for a reason, a list comes out
the same, or it fails for the reason of one of its elements. -/
theorem mapM_eq_ok_or_error {f g : α → Except ε β} {reason : α → ε → Prop}
    (each : ∀ a b, f a = .ok b → g a = .ok b ∨ ∃ e, reason a e ∧ g a = .error e) {as : List α}
    {bs : List β} (made : as.mapM f = .ok bs) :
    as.mapM g = .ok bs ∨ ∃ a ∈ as, ∃ e, reason a e ∧ as.mapM g = .error e := by
  induction as generalizing bs with
  | nil => exact .inl made
  | cons a rest ih =>
    simp only [List.mapM_cons, Except.step_eq_ok_iff, Except.pure_eq_ok_iff] at made
    obtain ⟨b, here, later, others, rfl⟩ := made
    rcases each a b here with same | ⟨e, why, fails⟩
    · rcases ih others with same' | ⟨x, inside, e, why, fails⟩
      · refine .inl ?_
        rw [List.mapM_cons, same, same']
        rfl
      · refine .inr ⟨x, List.mem_cons_of_mem a inside, e, why, ?_⟩
        rw [List.mapM_cons, same, fails]
        rfl
    · refine .inr ⟨a, List.mem_cons_self, e, why, ?_⟩
      rw [List.mapM_cons, fails]
      rfl

end DecoderForge
