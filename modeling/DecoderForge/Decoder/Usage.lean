/-
This file holds sets of builtins, listed without repetition in the order of the names.
-/

import DecoderForge.Decoder.Builtin

namespace DecoderForge

/-- A set of builtins. -/
structure Usage where
  builtins : List Builtin
  sorted : builtins.Pairwise (fun a b => a.rank < b.rank)
deriving DecidableEq

namespace Usage

/-- The builtins that satisfy a test. -/
def filter (test : Builtin → Bool) : Usage where
  builtins := Builtin.all.filter test
  sorted := List.Pairwise.filter test (by decide)

def empty : Usage := ⟨[], .nil⟩

instance : Inhabited Usage := ⟨empty⟩

instance : Membership Builtin Usage := ⟨fun usage builtin => builtin ∈ usage.builtins⟩

instance (builtin : Builtin) (usage : Usage) : Decidable (builtin ∈ usage) :=
  inferInstanceAs (Decidable (builtin ∈ usage.builtins))

/-- The set with one more builtin. -/
def record (usage : Usage) (builtin : Builtin) : Usage :=
  filter fun b => b == builtin || decide (b ∈ usage)

def union (a b : Usage) : Usage :=
  filter fun builtin => decide (builtin ∈ a) || decide (builtin ∈ b)

def names (usage : Usage) : List String := usage.builtins.map Builtin.name

def size (usage : Usage) : Nat := usage.builtins.length

def isEmpty (usage : Usage) : Bool := usage.builtins.isEmpty

@[simp] theorem mem_filter {test : Builtin → Bool} {builtin : Builtin} :
    builtin ∈ filter test ↔ test builtin = true :=
  List.mem_filter.trans (and_iff_right builtin.mem_all)

@[simp] theorem not_mem_empty (builtin : Builtin) : ¬ builtin ∈ empty := List.not_mem_nil

@[simp] theorem mem_record {usage : Usage} {recorded builtin : Builtin} :
    builtin ∈ usage.record recorded ↔ builtin = recorded ∨ builtin ∈ usage := by
  simp [record]

@[simp] theorem mem_union {a b : Usage} {builtin : Builtin} :
    builtin ∈ a.union b ↔ builtin ∈ a ∨ builtin ∈ b := by
  simp [union]

end Usage

end DecoderForge
