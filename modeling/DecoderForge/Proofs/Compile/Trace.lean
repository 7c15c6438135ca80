/-
This file proves what is left behind by steps that are taken one after the other.
-/

import DecoderForge.Compile.Trace
import Mathlib.Data.List.Forall2

namespace DecoderForge

/-- A set of builtins is determined by its members. -/
theorem Usage.ext {a b : Usage} (same : ∀ builtin, builtin ∈ a ↔ builtin ∈ b) : a = b := by
  have distinct (usage : Usage) : usage.builtins.Nodup :=
    usage.sorted.imp fun {first second} before => by
      rintro rfl
      exact Nat.lt_irrefl _ before
  have perm : a.builtins.Perm b.builtins :=
    (List.perm_ext_iff_of_nodup (distinct a) (distinct b)).mpr same
  have lists : a.builtins = b.builtins := by
    refine perm.eq_of_pairwise ?_ a.sorted b.sorted
    intro first second _ _ before behind
    omega
  cases a
  cases b
  simpa using lists

namespace Trace

/-- Recording a builtin is a step of its own. -/
theorem append_ofBuiltin (trace : Trace) (builtin : Builtin) :
    trace ++ ofBuiltin builtin = { trace with usage := trace.usage.record builtin } := by
  have usage : trace.usage.union (Usage.empty.record builtin) = trace.usage.record builtin := by
    apply Usage.ext
    simp [or_comm]
  change append trace (ofBuiltin builtin) = _
  simp [append, ofBuiltin, usage]

theorem append_ofReference (trace : Trace) (site : ReferenceSite) :
    trace ++ ofReference site = { trace with references := trace.references ++ [site] } := by
  have usage : trace.usage.union .empty = trace.usage := by
    apply Usage.ext
    simp
  change append trace (ofReference site) = _
  simp [append, ofReference, usage]

@[simp] theorem append_empty (trace : Trace) : trace ++ empty = trace := by
  have usage : trace.usage.union .empty = trace.usage := by
    apply Usage.ext
    simp
  change append trace empty = _
  simp [append, empty, usage]

@[simp] theorem empty_append (trace : Trace) : empty ++ trace = trace := by
  have usage : Usage.empty.union trace.usage = trace.usage := by
    apply Usage.ext
    simp
  change append empty trace = _
  simp [append, empty, usage]

theorem append_assoc (first second third : Trace) :
    first ++ second ++ third = first ++ (second ++ third) := by
  have usage : (first.usage.union second.usage).union third.usage =
      first.usage.union (second.usage.union third.usage) := by
    apply Usage.ext
    simp [or_assoc]
  change append (append first second) third = append first (append second third)
  simp [append, usage]

theorem join_diagnostics (traces : List Trace) :
    (join traces).diagnostics = traces.flatMap Trace.diagnostics := by
  induction traces with
  | nil => rfl
  | cons trace rest ih => rw [join, append_diagnostics, ih, List.flatMap_cons]

theorem mem_join_usage (traces : List Trace) (builtin : Builtin) :
    builtin ∈ (join traces).usage ↔ ∃ trace ∈ traces, builtin ∈ trace.usage := by
  induction traces with
  | nil => simp [join, empty]
  | cons trace rest ih => simp [join, ih]

/-- Steps that are taken for elements record a builtin when one of their results calls it, or when
one of the elements adds it. -/
theorem mem_join_usage_of_forall₂ {α β : Type} {builtin : Builtin} (calls : β → Prop)
    {extra : α → Prop} {elements : List α} {steps : List (β × Trace)}
    (each : List.Forall₂ (fun element step => builtin ∈ step.2.usage ↔ calls step.1 ∨ extra element)
      elements steps) :
    builtin ∈ (join (steps.map Prod.snd)).usage ↔
      (∃ result ∈ steps.map Prod.fst, calls result) ∨ ∃ element ∈ elements, extra element := by
  induction each with
  | nil => simp [join, empty]
  | cons head _ ih =>
    simp only [List.map_cons, join, append_usage, Usage.mem_union, head, ih,
      List.exists_mem_cons_iff]
    exact or_or_or_comm

@[simp] theorem mem_ofBuiltin_usage (called builtin : Builtin) :
    builtin ∈ (ofBuiltin called).usage ↔ builtin = called := by
  simp [ofBuiltin]

@[simp] theorem not_mem_report_usage (path : NodePath) (kind : DiagnosticKind) (builtin : Builtin) :
    ¬ builtin ∈ (report path kind).usage := Usage.not_mem_empty builtin

end Trace

end DecoderForge
