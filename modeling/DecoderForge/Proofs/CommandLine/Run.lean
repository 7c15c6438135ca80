/-
This file proves what a run that fails leaves behind, and that what is done about types without
decoders changes nothing but whether a run fails.
-/

import DecoderForge.CommandLine.Run
import DecoderForge.Proofs.FileTree.Write

namespace DecoderForge

namespace CommandLine

/-- Two runs come to the same, whatever is told of them on the way. -/
structure Outcome.Alike (a b : Outcome) : Prop where
  failure : a.failure = b.failure
  exitCode : a.exitCode = b.exitCode
  output : a.output = b.output
  tree : a.tree = b.tree

/-- A run that fails gives nothing out and leaves the files as they are. -/
def Outcome.SilentOnFailure (outcome : Outcome) (tree : FileTree) : Prop :=
  outcome.exitCode ≠ 0 → outcome.output = "" ∧ outcome.tree.SameFiles tree

namespace Command

/-- The command with another policy. -/
def under (command : Command) (policy : SkipPolicy) : Command := { command with onSkip := policy }

/-- The module that a command generates, if its configuration and its inputs load. -/
def module? (command : Command) (evaluate : Evaluator) (tree : FileTree)
    (standardInput : ByteArray) : Option GeneratedModule := do
  let config ← (command.settings tree.read).toOption
  let declarations ← (command.load evaluate tree standardInput).2.toOption
  return Generate.module config ⟨declarations⟩

variable {evaluate : Evaluator} {tree : FileTree}

theorem failed_silent {events : List Event} {notes : List String} {failure : CommandError}
    {left : FileTree} (same : left.SameFiles tree) :
    (Outcome.failed left events notes failure).SilentOnFailure tree :=
  fun _ => ⟨rfl, same⟩

/-- Where a file cannot be written there may be new directories around it, but no new files. -/
theorem save_sameFiles {path text : String} {failure : CommandError} {left : FileTree}
    (fails : save tree path text = (left, some failure)) : left.SameFiles tree := by
  have around := tree.makeLineage_sameFiles (Path.lineage path).tail
  unfold save at fails
  dsimp only at fails
  split at fails
  · next made e lineage =>
    obtain ⟨rfl, _⟩ := Prod.mk.inj fails
    simpa [lineage] using around
  · next made lineage =>
    split at fails
    · exact nomatch (Prod.mk.inj fails).2
    · obtain ⟨rfl, _⟩ := Prod.mk.inj fails
      simpa [lineage] using around

theorem deliver_silent (command : Command) (events : List Event) (notes : List String)
    (text : String) : (command.deliver tree events notes text).SilentOnFailure tree := by
  unfold deliver
  split
  · exact fun fails => absurd rfl fails
  · split
    · next fails => exact failed_silent (save_sameFiles fails)
    · exact fun fails => absurd rfl fails

theorem produce_silent (command : Command) (config : CompileConfig) (loading : List Event)
    (source : SourceModule) :
    (command.produce tree config loading source).SilentOnFailure tree := by
  unfold produce
  dsimp only
  split
  · exact command.deliver_silent _ _ _
  · exact failed_silent (.refl tree)

theorem run_silent (command : Command) (standardInput : ByteArray) :
    (command.run evaluate tree standardInput).SilentOnFailure tree := by
  unfold run
  split
  · exact failed_silent (.refl tree)
  · split
    · exact failed_silent (.refl tree)
    · exact command.produce_silent _ _ _

/-- What is told on the way has no say in what a text comes to. -/
theorem deliver_alike {a b : Command} (out : a.out = b.out) (first second : List Event)
    (notes others : List String) (text : String) :
    (a.deliver tree first notes text).Alike (b.deliver tree second others text) := by
  unfold deliver
  rw [out]
  split
  · exact ⟨rfl, rfl, rfl, rfl⟩
  · split <;> exact ⟨rfl, rfl, rfl, rfl⟩

/-- Without a module the policy is not asked. -/
theorem run_of_unloaded {command : Command} {standardInput : ByteArray}
    (unloaded : command.module? evaluate tree standardInput = none) :
    ∃ events failure, (∀ count, failure ≠ .skipped count) ∧
      ∀ policy, (command.under policy).run evaluate tree standardInput =
        .failed tree events [] failure := by
  unfold module? at unloaded
  cases settled : command.settings tree.read with
  | error e =>
    refine ⟨[], .configuration e, nofun, fun policy => ?_⟩
    have same : (command.under policy).settings tree.read = .error e := settled
    rw [run, same]
  | ok config =>
    rcases loaded : command.load evaluate tree standardInput with ⟨events, e | declarations⟩
    · refine ⟨events, .declarations e, nofun, fun policy => ?_⟩
      have sameSettings : (command.under policy).settings tree.read = .ok config := settled
      have sameLoad : (command.under policy).load evaluate tree standardInput =
        (events, .error e) := loaded
      rw [run, sameSettings]
      dsimp only
      rw [sameLoad]
    · rw [settled, loaded] at unloaded
      contradiction

/-- With a module a run goes on to do with it what the policy says. -/
theorem run_of_module {command : Command} {standardInput : ByteArray} {m : GeneratedModule}
    (loaded : command.module? evaluate tree standardInput = some m) :
    ∃ config source events, Generate.module config source = m ∧
      ∀ policy, (command.under policy).run evaluate tree standardInput =
        (command.under policy).produce tree config events source := by
  unfold module? at loaded
  cases settled : command.settings tree.read with
  | error e =>
    rw [settled] at loaded
    contradiction
  | ok config =>
    rcases given : command.load evaluate tree standardInput with ⟨events, e | declarations⟩
    · rw [settled, given] at loaded
      contradiction
    · rw [settled, given] at loaded
      refine ⟨config, ⟨declarations⟩, events, Option.some_inj.mp loaded, fun policy => ?_⟩
      have sameSettings : (command.under policy).settings tree.read = .ok config := settled
      have sameLoad : (command.under policy).load evaluate tree standardInput =
        (events, .ok declarations) := given
      rw [run, sameSettings]
      dsimp only
      rw [sameLoad]

section

variable (command : Command) {policy : SkipPolicy} {config : CompileConfig} {source : SourceModule}
  (loading : List Event)

theorem produce_of_allows (allows : policy.allows (Generate.module config source) = true) :
    ∃ events notes, (command.under policy).produce tree config loading source =
      command.deliver tree events notes (command.render (Generate.module config source)) :=
  ⟨_, _, if_pos allows⟩

theorem produce_of_denies (denies : ¬ policy.allows (Generate.module config source) = true) :
    ∃ events notes, (command.under policy).produce tree config loading source =
      .failed tree events notes (.skipped (Generate.module config source).skipCount) :=
  ⟨_, _, if_neg denies⟩

end

/-- Two policies that put up with what is skipped come to the same. -/
theorem run_alike {command : Command} {standardInput : ByteArray} {first second : SkipPolicy}
    (allows : ∀ m, command.module? evaluate tree standardInput = some m →
      first.allows m = true ∧ second.allows m = true) :
    ((command.under first).run evaluate tree standardInput).Alike
      ((command.under second).run evaluate tree standardInput) := by
  cases loaded : command.module? evaluate tree standardInput with
  | none =>
    obtain ⟨events, failure, _, each⟩ := run_of_unloaded loaded
    rw [each, each]
    exact ⟨rfl, rfl, rfl, rfl⟩
  | some m =>
    obtain ⟨config, source, events, rfl, each⟩ := run_of_module loaded
    obtain ⟨here, there⟩ := allows _ loaded
    obtain ⟨_, _, first⟩ := produce_of_allows command events here
    obtain ⟨_, _, second⟩ := produce_of_allows command events there
    rw [each, each, first, second]
    exact deliver_alike rfl _ _ _ _ _

/-- Nothing is skipped any more where a text is written. -/
theorem deliver_failure_ne_skipped (command : Command) (events : List Event)
    (notes : List String) (text : String) (count : Nat) :
    (command.deliver tree events notes text).failure ≠ some (.skipped count) := by
  unfold deliver save
  cases command.out with
  | none => exact nofun
  | some path =>
    dsimp only
    rcases tree.makeLineage (Path.lineage path).tail with ⟨made, _ | e⟩
    · dsimp only
      cases made.write path text.toUTF8 <;> exact nofun
    · exact nofun

/-- A run fails for what it skipped only where that is not allowed, and only if it is something. -/
theorem skipped_of_failure {command : Command} {standardInput : ByteArray} {count : Nat}
    (fails : (command.run evaluate tree standardInput).failure = some (.skipped count)) :
    command.onSkip = .deny ∧ 0 < count := by
  change ((command.under command.onSkip).run evaluate tree standardInput).failure = _ at fails
  cases loaded : command.module? evaluate tree standardInput with
  | none =>
    obtain ⟨events, failure, other, each⟩ := run_of_unloaded loaded
    rw [each] at fails
    exact absurd (Option.some_inj.mp fails) (other count)
  | some m =>
    obtain ⟨config, source, events, rfl, each⟩ := run_of_module loaded
    rw [each] at fails
    by_cases allows : command.onSkip.allows (Generate.module config source) = true
    · obtain ⟨_, _, delivered⟩ := produce_of_allows command events allows
      rw [delivered] at fails
      exact absurd fails (deliver_failure_ne_skipped _ _ _ _ count)
    · obtain ⟨_, _, denied⟩ := produce_of_denies command events allows
      rw [denied] at fails
      have same := CommandError.skipped.inj (Option.some_inj.mp fails)
      have policy : command.onSkip = .deny ∧ (Generate.module config source).skipCount ≠ 0 := by
        simpa [SkipPolicy.allows, not_or] using allows
      exact ⟨policy.1, by omega⟩

end Command

/-- A program that fails gives nothing out and leaves the files as they are. What is done about
types without decoders makes a difference only where it makes a run fail. -/
theorem failure_and_policy (evaluate : Evaluator) :
    (∀ arguments tree standardInput,
      (ending evaluate arguments tree standardInput).exitCode ≠ 0 →
        (ending evaluate arguments tree standardInput).output = "" ∧
          (ending evaluate arguments tree standardInput).tree.SameFiles tree) ∧
    ∀ (command : Command) (tree : FileTree) (standardInput : ByteArray),
      ((command.under .warn).run evaluate tree standardInput).Alike
        ((command.under .ignore).run evaluate tree standardInput) ∧
      ((∀ m, command.module? evaluate tree standardInput = some m → m.skipCount = 0) →
        ((command.under .deny).run evaluate tree standardInput).Alike
          ((command.under .ignore).run evaluate tree standardInput)) ∧
      (∀ m, command.module? evaluate tree standardInput = some m → 0 < m.skipCount →
        ((command.under .deny).run evaluate tree standardInput).exitCode = 1 ∧
          ((command.under .deny).run evaluate tree standardInput).failure =
            some (.skipped m.skipCount)) ∧
      ∀ count, (command.run evaluate tree standardInput).failure = some (.skipped count) →
        command.onSkip = .deny ∧ 0 < count := by
  constructor
  · intro arguments tree standardInput fails
    unfold ending runArguments at fails ⊢
    cases made : Command.ofArguments arguments with
    | error e =>
      rw [made] at fails
      change e.exitCode ≠ 0 at fails
      have silent : e.output = "" := by
        unfold UsageError.exitCode at fails
        unfold UsageError.output
        cases help : e.isHelp
        · rfl
        · rw [help] at fails
          contradiction
      exact ⟨silent, .refl tree⟩
    | ok command =>
      rw [made] at fails
      exact command.run_silent standardInput fails
  · intro command tree standardInput
    refine ⟨?_, ?_, ?_, ?_⟩
    · exact Command.run_alike fun _ _ => ⟨rfl, rfl⟩
    · intro none
      apply Command.run_alike
      intro m loaded
      exact ⟨by simp [SkipPolicy.allows, none m loaded], rfl⟩
    · intro m loaded some
      obtain ⟨config, source, events, rfl, each⟩ := Command.run_of_module loaded
      have denied : ¬ SkipPolicy.deny.allows (Generate.module config source) = true := by
        simp [SkipPolicy.allows]
        omega
      obtain ⟨_, _, failed⟩ := Command.produce_of_denies command events denied
      rw [each, failed]
      exact ⟨rfl, rfl⟩
    · exact fun count => Command.skipped_of_failure

/-- Behind a filter that takes the items of a list, a file that cannot be written leaves a directory
behind and no file. One declaration without a decoder is denied, and no declaration is not. -/
theorem failure_and_policy_denied :
    let evaluate : Evaluator := fun filter value =>
      match value with
      | .arr items => .ok items
      | _ => .error (filter ++ " of no list")
    let tree : FileTree := ⟨.directory [], []⟩
    let selection : Selection := { filter := some ".[]" }
    let command : Command := ⟨.inspect, ["-"], selection, none, none, false, .deny, none⟩
    let sound := "[\x7b\"declarations\":[]\x7d]".toUTF8
    let broken :=
      "[\x7b\"declarations\":[\x7b\"name\":\"A\",\"type\":\x7b\"kind\":\"x\"\x7d\x7d]\x7d]".toUTF8
    let left :=
      ending evaluate ["generate", "-i", "-", "--jq-expr", ".[]", "-o", "new/dir/"] tree sound
    (left.exitCode = 1 ∧ left.tree.hasDirectory "new" = true ∧ left.output = "" ∧
      left.tree.SameFiles tree) ∧
    (∃ m, command.module? evaluate tree broken = some m ∧ m.skipCount = 1 ∧
      ((command.under .deny).run evaluate tree broken).exitCode = 1 ∧
      ((command.under .deny).run evaluate tree broken).failure = some (.skipped m.skipCount) ∧
      (command.under .deny).onSkip = .deny ∧ 0 < m.skipCount) ∧
    (command.module? evaluate tree sound).map GeneratedModule.skipCount = some 0 ∧
      ((command.under .deny).run evaluate tree sound).Alike
        ((command.under .ignore).run evaluate tree sound) := by
  intro evaluate tree selection command sound broken left
  obtain ⟨silent, policies⟩ := failure_and_policy evaluate
  refine ⟨?_, ?_, ?_⟩
  · have status : left.exitCode = 1 := by decide +kernel
    have made : left.tree.hasDirectory "new" = true := by decide +kernel
    have fails : left.exitCode ≠ 0 := by omega
    exact ⟨status, made, silent _ tree sound fails⟩
  · obtain ⟨_, _, denied, _⟩ := policies command tree broken
    have counted :
        (command.module? evaluate tree broken).map GeneratedModule.skipCount = some 1 := by
      decide +kernel
    obtain ⟨m, loaded, count⟩ := Option.map_eq_some_iff.mp counted
    obtain ⟨status, failure⟩ := denied m loaded (by omega)
    obtain ⟨_, _, _, only⟩ := policies (command.under .deny) tree broken
    exact ⟨m, loaded, count, status, failure, only m.skipCount failure⟩
  · obtain ⟨_, alike, _⟩ := policies command tree sound
    have counted :
        (command.module? evaluate tree sound).map GeneratedModule.skipCount = some 0 := by
      decide +kernel
    refine ⟨counted, alike fun m loaded => ?_⟩
    rw [loaded] at counted
    exact Option.some_inj.mp counted

end CommandLine

end DecoderForge
