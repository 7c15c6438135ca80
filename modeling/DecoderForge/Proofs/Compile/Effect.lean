/-
This file proves what compiling a type does to a run: nothing where the type has no decoder, and
otherwise nothing but to put something behind what was there.
-/

import DecoderForge.Proofs.Compile.InPlace
import DecoderForge.Proofs.Compile.Walk

namespace DecoderForge

namespace Descriptor

/-- A type that has no decoder for its own sake, and the reason. -/
inductive LostLeaf : Descriptor → SkipReason → Prop
  | boolean (value : Bool) : LostLeaf (.literal (.boolean value)) (.unsupportedLiteral "boolean")
  | null : LostLeaf (.literal .null) (.unsupportedLiteral "null")
  | bigInt (digits : String) : LostLeaf (.literal (.bigInt digits)) (.unsupportedLiteral "bigint")
  | unsupported (construct : String) :
      LostLeaf (.unsupported construct) (.unsupportedConstruct construct)
  | unrecognized : LostLeaf .unrecognized .unrecognizedDescriptor

/-- Arrays of arrays of a type, of so many levels. -/
def arrays : Nat → Descriptor → Descriptor
  | 0, descriptor => descriptor
  | levels + 1, descriptor => .array (arrays levels descriptor)

theorem LostLeaf.lost? {leaf : Descriptor} {reason : SkipReason} (lost : LostLeaf leaf reason) :
    leaf.lost? = some reason := by
  cases lost <;> rfl

theorem lost?_arrays (levels : Nat) (leaf : Descriptor) :
    (arrays levels leaf).lost? = leaf.lost? := by
  induction levels with
  | zero => rfl
  | succ levels ih => rw [arrays, Descriptor.lost?, ih]

/-- A type is lost when it is an array, on any number of levels, of one that is lost for its own
sake. -/
theorem lost?_eq_some_iff (descriptor : Descriptor) (reason : SkipReason) :
    descriptor.lost? = some reason ↔
      ∃ levels leaf, LostLeaf leaf reason ∧ descriptor = arrays levels leaf := by
  constructor
  · intro lost
    induction descriptor using induction_parts with
    | step descriptor ih =>
      cases descriptor with
      | array element =>
        obtain ⟨levels, leaf, same, rfl⟩ := ih element List.mem_cons_self lost
        exact ⟨levels + 1, leaf, same, rfl⟩
      | literal value =>
        refine ⟨0, .literal value, ?_, rfl⟩
        cases value with
        | boolean value =>
          obtain rfl := Option.some_inj.mp lost
          exact .boolean value
        | null =>
          obtain rfl := Option.some_inj.mp lost
          exact .null
        | bigInt digits =>
          obtain rfl := Option.some_inj.mp lost
          exact .bigInt digits
        | _ => contradiction
      | unsupported construct =>
        obtain rfl := Option.some_inj.mp lost
        exact ⟨0, .unsupported construct, .unsupported construct, rfl⟩
      | unrecognized =>
        obtain rfl := Option.some_inj.mp lost
        exact ⟨0, .unrecognized, .unrecognized, rfl⟩
      | _ => contradiction
  · rintro ⟨levels, leaf, lost, rfl⟩
    rw [lost?_arrays, lost.lost?]

end Descriptor

namespace Compiler

/-- A run that stands where another one stands and has left behind more than that. -/
structure Extends (compiler before : Compiler) : Prop where
  config : compiler.config = before.config
  symbols : compiler.symbols = before.symbols
  path : compiler.path = before.path
  declared : compiler.declared = before.declared
  diagnostics : before.trace.diagnostics <+: compiler.trace.diagnostics
  references : before.trace.references <+: compiler.trace.references
  usage : ∀ builtin ∈ before.trace.usage, builtin ∈ compiler.trace.usage

theorem add_extends (compiler : Compiler) (trace : Trace) :
    (compiler.add trace).Extends compiler where
  config := rfl
  symbols := rfl
  path := rfl
  declared := rfl
  diagnostics := List.prefix_append _ _
  references := List.prefix_append _ _
  usage _ recorded := Usage.mem_union.mpr (.inl recorded)

variable (compiler : Compiler) (descriptor : Descriptor)

theorem compile_eq_error_iff (reason : SkipReason) :
    (compiler.compile descriptor).2 = .error reason ↔ descriptor.lost? = some reason := by
  rw [compile_eq, ← Compile.type_eq_error_iff compiler.scope compiler.path]
  rcases Compile.type compiler.scope compiler.path descriptor with other | ⟨decoder, trace⟩ <;>
    simp [Compiled.result]

theorem compile_isOk_eq : (compiler.compile descriptor).2.isOk = descriptor.lost?.isNone := by
  rw [compile_isOk, Descriptor.decoder?_isSome]

/-- In place or not, a type without a decoder leaves a run as it was, and no type changes where the
run stands. -/
theorem compileInPlace_keeps :
    -- Compiling in place has the result of compiling all at once.
    compiler.compileInPlace descriptor = compiler.compile descriptor ∧
    -- There is no decoder just for arrays of what has none, and the reason is that of the latter.
    (∀ reason, (compiler.compileInPlace descriptor).2 = .error reason ↔
      ∃ levels leaf, Descriptor.LostLeaf leaf reason ∧ descriptor = .arrays levels leaf) ∧
    (∀ reason, (compiler.compileInPlace descriptor).2 = .error reason →
      (compiler.compileInPlace descriptor).1 = compiler) ∧
    (∀ decoder, (compiler.compileInPlace descriptor).2 = .ok decoder →
      (compiler.compileInPlace descriptor).1.Extends compiler) ∧
    -- Settings, declared types and what came before have no say in it.
    ∀ other : Compiler, (other.compileInPlace descriptor).2.isOk =
      (compiler.compileInPlace descriptor).2.isOk := by
  simp only [compileInPlace_eq]
  refine ⟨trivial, ?_, ?_, ?_, ?_⟩
  · intro reason
    rw [compile_eq_error_iff, Descriptor.lost?_eq_some_iff]
  · intro reason skipped
    rw [compile_eq_error_iff, ← Compile.type_eq_error_iff compiler.scope compiler.path] at skipped
    rw [compile_eq, skipped]
    exact compiler.add_empty
  · intro decoder _
    rw [compile_eq]
    exact compiler.add_extends _
  · intro other
    rw [compile_isOk_eq, compile_isOk_eq]

/-- In the middle of a run, arrays of `null` leave nothing behind, and a field that is left out does
not lead away from the record. -/
theorem compileInPlace_keeps_middle :
    ∃ compiler : Compiler, compiler.trace.usage.size = 2 ∧ compiler.declared = 1 ∧
      (compiler.compileInPlace (.array (.array (.literal .null)))).2 =
        .error (.unsupportedLiteral "null") ∧
      (compiler.compileInPlace (.array (.array (.literal .null)))).1 = compiler ∧
      (compiler.compileInPlace (.record [⟨"a", .unrecognized, true⟩])).2 =
        .ok (.call .object [.object []]) ∧
      (compiler.compileInPlace (.record [⟨"a", .unrecognized, true⟩])).1.Extends compiler ∧
      (compiler.compileInPlace (.record [⟨"a", .unrecognized, true⟩])).1.trace.diagnostics =
        [⟨"A.b.a", .fieldDropped "a" .unrecognizedDescriptor⟩] := by
  let compiler : Compiler :=
    ⟨⟨some "kind", true⟩, some (.ofNames ["A"]), .ofBuiltin .string ++ .ofBuiltin .array,
      (NodePath.root.push (.declaration "A")).push (.field "b"), 1⟩
  obtain ⟨_, lost, untouched, _⟩ :=
    compiler.compileInPlace_keeps (.array (.array (.literal .null)))
  obtain ⟨_, _, _, extended, _⟩ :=
    compiler.compileInPlace_keeps (.record [⟨"a", .unrecognized, true⟩])
  have skipped : (compiler.compileInPlace (.array (.array (.literal .null)))).2 =
      .error (.unsupportedLiteral "null") := (lost _).mpr ⟨2, .literal .null, .null, rfl⟩
  exact ⟨compiler, rfl, rfl, skipped, untouched _ skipped, rfl, extended _ rfl, rfl⟩

end Compiler

end DecoderForge
