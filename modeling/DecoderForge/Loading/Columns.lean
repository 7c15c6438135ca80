/-
This file reads the entries of records: each known key once, in any order.
-/

import DecoderForge.Loading.Problem

namespace DecoderForge

namespace Loading

/-- The keys of a record, with what is read under them so far in a state of type `σ`. -/
structure Columns (ν ε σ : Type) where
  none : σ
  /-- Whether a key has been read, if it is one of the record's. -/
  taken? : String → σ → Option Bool
  /-- The state behind a key of the record that has not been read. -/
  read : String → ν → σ → Except ε σ

namespace Columns

variable {ν ε σ τ α : Type}

/-- One key. -/
def one (key : String) (value : ν → Except ε α) : Columns ν ε (Option α) where
  none := .none
  taken? name state := if name = key then some state.isSome else .none
  read _ v _ := (value v).map some

/-- The keys of two records, which have none in common. -/
def and (a : Columns ν ε σ) (b : Columns ν ε τ) : Columns ν ε (σ × τ) where
  none := (a.none, b.none)
  taken? name state := (a.taken? name state.1).or (b.taken? name state.2)
  read name v state :=
    if (a.taken? name state.1).isSome then (a.read name v state.1).map (·, state.2)
    else (b.read name v state.2).map (state.1, ·)

end Columns

end Loading

end DecoderForge
