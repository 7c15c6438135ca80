/-
This file holds lists of keys and values in which a key occurs once and keeps the place where it
first came.
-/

namespace DecoderForge

namespace Entries

variable {κ α : Type} [DecidableEq κ]

/-- A value under a key: it takes the place of the key's earlier value, or comes last. -/
def put (key : κ) (value : α) : List (κ × α) → List (κ × α)
  | [] => [(key, value)]
  | entry :: rest =>
    if entry.1 = key then (key, value) :: rest else entry :: put key value rest

/-- The entries that remain when pairs are put one after the other. -/
def ofList (pairs : List (κ × α)) : List (κ × α) :=
  pairs.foldl (fun entries pair => put pair.1 pair.2 entries) []

/-- The first value under a key. -/
def get? (key : κ) : List (κ × α) → Option α
  | [] => none
  | entry :: rest => if entry.1 = key then some entry.2 else get? key rest

@[simp] theorem put_nil (key : κ) (value : α) : put key value [] = [(key, value)] := rfl

theorem get?_put (key other : κ) (value : α) (entries : List (κ × α)) :
    get? other (put key value entries) =
      if key = other then some value else get? other entries := by
  induction entries with
  | nil => simp [put, get?]
  | cons entry rest ih =>
    by_cases same : entry.1 = key
    · by_cases wanted : key = other <;> simp [put, get?, same, wanted]
    · by_cases first : entry.1 = other
      · subst first
        simp [put, get?, same, Ne.symm same]
      · simp [put, get?, same, first, ih]

theorem keys_put (key : κ) (value : α) (entries : List (κ × α)) :
    (put key value entries).map Prod.fst =
      if key ∈ entries.map Prod.fst then entries.map Prod.fst
      else entries.map Prod.fst ++ [key] := by
  induction entries with
  | nil => simp [put]
  | cons entry rest ih =>
    by_cases same : entry.1 = key
    · simp [put, same]
    · have : ¬ key = entry.1 := fun h => same h.symm
      by_cases inside : key ∈ rest.map Prod.fst <;> simp_all [put]

end Entries

end DecoderForge
