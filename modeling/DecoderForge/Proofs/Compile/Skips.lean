/-
This file proves which types are reported as left out where a type is compiled: each that has no
decoder, once, at the step to it, or to the arrays around it.
-/

import DecoderForge.Proofs.Compile.Walk

namespace DecoderForge

/-- Members whose tags come again further on do not stand for them. -/
theorem Compile.mem_winners_iff (tags : List String) (tag : String) (index : Nat) :
    (tag, index) ∈ winners tags ↔ tags[index]? = some tag ∧ tag ∉ tags.drop (index + 1) := by
  rw [winners, Entries.mem_ofList]
  constructor
  · rintro ⟨before, after, split, last⟩
    have place : tags.zipIdx[before.length]? = some (tag, index) := by
      rw [split, List.getElem?_append_right (Nat.le_refl _), Nat.sub_self]
      rfl
    rw [List.getElem?_zipIdx] at place
    obtain ⟨found, present, same⟩ := Option.map_eq_some_iff.mp place
    obtain ⟨rfl, here⟩ := Prod.mk.inj same
    obtain rfl : before.length = index := by omega
    refine ⟨present, ?_⟩
    have rest : tags.zipIdx.drop (before.length + 1) = after := by
      rw [split, ← List.drop_drop, List.drop_left]
      rfl
    rw [← rest, List.map_drop, List.zipIdx_map_fst] at last
    exact last
  · rintro ⟨present, last⟩
    have place : tags.zipIdx[index]? = some (tag, index) := by
      rw [List.getElem?_zipIdx, present, Option.map_some, Nat.zero_add]
    obtain ⟨inside, value⟩ := List.getElem?_eq_some_iff.mp place
    refine ⟨tags.zipIdx.take index, tags.zipIdx.drop (index + 1), ?_, ?_⟩
    · rw [← value, List.getElem_cons_drop, List.take_append_drop]
    · rwa [List.map_drop, List.zipIdx_map_fst]

/-- A type that has no decoder for its own sake. -/
def Descriptor.isLostLeaf : Descriptor → Bool
  | .array _ => false
  | other => other.lost?.isSome

theorem Descriptor.isLostLeaf_of_not_array {descriptor : Descriptor}
    (other : ∀ element, descriptor ≠ .array element) :
    descriptor.isLostLeaf = descriptor.lost?.isSome := by
  cases descriptor with
  | array element => exact absurd rfl (other element)
  | _ => rfl

namespace Node

/-- A lost type of which the array around it does not report that it is lost. -/
def handsOn (node : Node) : Bool := node.type.lost?.isSome && node.skip?.isNone

theorem handsOn_of_array {node : Node} (step : node.step = .arrayElement) :
    node.handsOn = node.type.lost?.isSome := by
  unfold handsOn skip?
  rw [step]
  cases node.type.lost? <;> rfl

theorem handsOn_of_not_array {node : Node} (step : node.step ≠ .arrayElement) :
    node.handsOn = false := by
  unfold handsOn skip?
  cases node.type.lost? with
  | none => rfl
  | some reason =>
    cases swallowed : node.step with
    | arrayElement => exact absurd swallowed step
    | _ => rfl

/-- A lost type is reported at the step to it or handed on. -/
theorem skip?_isSome_or_handsOn (node : Node) :
    (if node.type.lost?.isSome then 1 else 0) =
      (if node.skip?.isSome then 1 else 0) + if node.handsOn then 1 else 0 := by
  unfold handsOn skip?
  cases node.type.lost? with
  | none => rfl
  | some reason => cases node.step <;> rfl

variable (tagField : Option String)

/-- Of the types that are lost for their own sake each is reported once on the way out of the arrays
around it, or else all of these hand it on. -/
theorem countP_isLostLeaf (node : Node) :
    (node.walk tagField).countP (fun met => met.type.isLostLeaf) =
      (node.walk tagField).countP (fun met => met.skip?.isSome) +
        if node.handsOn then 1 else 0 := by
  induction node using induction_inner tagField with
  | step node ih =>
    have here := node.skip?_isSome_or_handsOn
    rw [walk_eq, List.countP_cons, List.countP_cons]
    by_cases array : ∃ element, node.type = .array element
    · obtain ⟨element, type⟩ := array
      have inside : node.inner tagField = [⟨node.path, .arrayElement, element⟩] := by
        rw [inner, type]
      have below := ih ⟨node.path, .arrayElement, element⟩ (by simp [inside])
      rw [handsOn_of_array rfl] at below
      have leaf : node.type.isLostLeaf = false := by rw [type]; rfl
      have same : element.lost? = node.type.lost? := by rw [type]; rfl
      simp only [inside, List.flatMap_singleton, leaf, below, same, here, Bool.false_eq_true,
        if_false]
      omega
    · have other : ∀ element, node.type ≠ .array element := not_exists.mp array
      have each : ∀ part ∈ node.inner tagField,
          (part.walk tagField).countP (fun met => met.type.isLostLeaf) =
            (part.walk tagField).countP fun met => met.skip?.isSome := by
        intro part inside
        have step : part.step ≠ .arrayElement := fun same =>
          other _ ((of_mem_inner tagField inside).2 same)
        rw [ih part inside, handsOn_of_not_array step]
        rfl
      rw [← Descriptor.isLostLeaf_of_not_array other] at here
      have inside := congrArg List.sum (List.map_congr_left each)
      rw [List.countP_flatMap, List.countP_flatMap, here]
      exact (congrArg (· + _) inside).trans (Nat.add_assoc _ _ _).symm

theorem isSkip_of_skip? {node : Node} {report : Diagnostic} (skip : node.skip? = some report) :
    report.isSkip = true := by
  obtain ⟨reason, _, swallowed⟩ := Option.bind_eq_some_iff.mp skip
  obtain ⟨kind, reported, rfl⟩ := Option.map_eq_some_iff.mp swallowed
  cases step : node.step with
  | arrayElement => simp [step, Segment.skip?] at reported
  | _ =>
    rw [step] at reported
    obtain rfl := Option.some_inj.mp reported
    rfl

theorem read_skips_referenceTrace (scope : Scope) (path : NodePath) (name : String) :
    Trace.Reading.skips.read (Compile.referenceTrace scope path name) = [] := by
  unfold Compile.referenceTrace
  split
  · rfl
  · split <;> rfl

/-- A walk reads the reports of the types that are left out where they are met. -/
theorem read_skips_own (scope : Scope) (node : Node) :
    Trace.Reading.skips.read (node.own scope) = node.skip?.toList := by
  by_cases reference : ∃ name, node.type = .reference name
  · obtain ⟨name, type⟩ := reference
    have kept : node.skip? = none := by rw [skip?, type]; rfl
    rw [node.own_of_reference type, kept, read_skips_referenceTrace]
    rfl
  · rw [node.own_of_not_reference (not_exists.mp reference)]
    apply List.filter_eq_self.mpr
    intro report inside
    exact isSkip_of_skip? (Option.mem_toList.mp inside)

/-- A walk meets the member of a tagged union whose tag does not come again behind it. -/
theorem exists_mem_inner_iff {node : Node} {members : List Descriptor} {field : String}
    {tags : List String} (type : node.type = .union members)
    (shape : UnionShape.classify members tagField = .tagged field tags) (index : Nat) :
    (∃ part ∈ node.inner tagField, part.step = .unionMember index) ↔
      ∃ tag, tags[index]? = some tag ∧ tag ∉ tags.drop (index + 1) := by
  simp only [inner, type, shape]
  constructor
  · rintro ⟨part, inside, step⟩
    obtain ⟨⟨tag, place⟩, chosen, found⟩ := List.mem_filterMap.mp inside
    obtain ⟨member, _, rfl⟩ := Option.map_eq_some_iff.mp found
    obtain rfl : place = index := Segment.unionMember.inj step
    exact ⟨tag, (Compile.mem_winners_iff tags tag place).mp chosen⟩
  · rintro ⟨tag, present, last⟩
    have chosen := (Compile.mem_winners_iff tags tag index).mpr ⟨present, last⟩
    have tagged := ((UnionShape.classify_eq_tagged_iff _ _ _ _).mp shape).2
    have length : members.length = tags.length := by
      simpa using congrArg List.length tagged
    obtain ⟨inside, _⟩ := List.getElem?_eq_some_iff.mp present
    have found : members[index]? = some members[index] := List.getElem?_eq_getElem (length ▸ inside)
    refine ⟨⟨node.path, .unionMember index, members[index]⟩, ?_, rfl⟩
    exact List.mem_filterMap.mpr ⟨(tag, index), chosen, by rw [found]; rfl⟩

end Node

end DecoderForge
