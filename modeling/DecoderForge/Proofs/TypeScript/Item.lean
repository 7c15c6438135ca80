/-
This file proves that the items of generated TypeScript are told from each other line by line.
-/

import DecoderForge.Proofs.TypeScript.Expr

namespace DecoderForge

open Text

/-- The imports that generated modules have. -/
inductive Import.Proper : Import → Prop
  | types : Proper (.types [decoderType] libraryName)
  | everything : Proper (.everything libraryName libraryName)
  | named (usage : Usage) (some : usage.isEmpty = false) :
      Proper (.named usage.names libraryName)

/-- The binding has a name, and a type and a decoder if it has either. -/
inductive Binding.Proper : Binding → Prop
  | uninitialized (name : String) (named : TypeScript.isName name.toList = true) :
      Proper ⟨name, none, none⟩
  | initialized (name type : String) (expr : DecoderExpr)
      (named : TypeScript.isName name.toList = true) (typed : ∀ c ∈ type.toList, c ≠ ' ')
      (proper : expr.Proper) : Proper ⟨name, some type, some expr⟩

namespace TypeScript

theorem namesChars_cons (name : String) (rest : List String) :
    namesChars (name :: rest) =
      name.toList ++ rest.flatMap fun next => ',' :: [' '] ++ next.toList := by
  unfold namesChars
  rw [String.toList_intercalate, List.map_cons]
  induction rest generalizing name with
  | nil => simp
  | cons next rest ih =>
    rw [List.map_cons, List.intercalate_cons_cons, ih]
    simp

theorem toList_legible {name : String} (named : ∀ c ∈ name.toList, isNamePart c = true) :
    Legible String.toList (fun name => ∀ c ∈ name.toList, isNamePart c = true)
      (Stops isNamePart) name := by
  intro other known rest behind stops ends same
  obtain ⟨names, last⟩ := word_append_inj named known stops ends same
  exact ⟨String.toList_inj.mp names, last⟩

theorem Builtin.isNamePart_of_mem_name (builtin : Builtin) :
    ∀ c ∈ builtin.name.toList, isNamePart c = true := by
  rw [← List.all_eq_true]
  cases builtin <;> decide

/-- The names of builtins are told from each other up to the blank behind the last one. -/
theorem namesChars_append_inj {usage calls : Usage} (some : usage.isEmpty = false)
    (any : calls.isEmpty = false) {rest other : List Char}
    (same : namesChars usage.names ++ ' ' :: rest = namesChars calls.names ++ ' ' :: other) :
    usage.names = calls.names ∧ rest = other := by
  have parts (usage : Usage) : ∀ name ∈ usage.names, ∀ c ∈ name.toList, isNamePart c = true := by
    intro name inside
    obtain ⟨builtin, _, rfl⟩ := List.mem_map.mp inside
    exact Builtin.isNamePart_of_mem_name builtin
  have legible : ∀ name ∈ usage.names, Legible String.toList
      (fun name => ∀ c ∈ name.toList, isNamePart c = true) (Stops isNamePart) name :=
    fun name inside => toList_legible (parts usage name inside)
  have filled {usage : Usage} (some : usage.isEmpty = false) : usage.names ≠ [] := by
    intro none
    rw [Usage.isEmpty, List.map_eq_nil_iff.mp none] at some
    contradiction
  obtain ⟨first, names, split⟩ := List.exists_cons_of_ne_nil (filled some)
  obtain ⟨head, others, cut⟩ := List.exists_cons_of_ne_nil (filled any)
  have sound := parts usage
  have proper := parts calls
  rw [split] at legible sound same ⊢
  rw [cut] at proper same ⊢
  rw [namesChars_cons, namesChars_cons, List.append_assoc, List.append_assoc] at same
  exact joined_append_inj (by decide) (.of_head (by decide)) (.of_head (by decide)) legible
    sound proper same

/-- The line of an import. -/
def importLine (what : Import) : List Char := importChars what ++ ['\n']

/-- The character behind the first word of an import and the blank behind it. -/
def mark : Import → Char
  | .types .. => 't'
  | .everything .. => '*'
  | .named .. => '\x7b'

theorem importLine_mark (what : Import) (rest : List Char) :
    (importLine what ++ rest)[7]? = some (mark what) := by
  cases what <;> rfl

theorem importLine_legible {what : Import} (proper : what.Proper) :
    Legible importLine Import.Proper (fun _ => True) what := by
  intro other known rest behind _ _ same
  have marks : mark what = mark other := by
    have seventh := congrArg (fun text : List Char => text[7]?) same
    simp only [importLine_mark] at seventh
    exact Option.some_inj.mp seventh
  cases proper with
  | types =>
    cases known with
    | types => exact ⟨rfl, List.append_cancel_left same⟩
    | _ => simp [mark] at marks
  | everything =>
    cases known with
    | everything => exact ⟨rfl, List.append_cancel_left same⟩
    | _ => simp [mark] at marks
  | named usage some =>
    cases known with
    | named calls any =>
      unfold importLine importChars at same
      simp only [List.append_assoc] at same
      obtain ⟨names, last⟩ := namesChars_append_inj some any (List.append_cancel_left same)
      refine ⟨by rw [names], ?_⟩
      simpa using last
    | _ => simp [mark] at marks

theorem head?_bindingChars (owner : Option String) (binding : Binding) (rest : List Char) :
    (bindingChars owner binding ++ rest).head? =
      some (if binding.isInitialized then 'c' else 'l') := by
  unfold bindingChars Binding.isInitialized
  cases binding.expr <;> rfl

/-- A binding is told from what follows its line. -/
theorem bindingChars_append_inj {owner : Option String}
    (style : ∀ name ∈ owner, name = libraryName) {binding declared : Binding}
    (proper : binding.Proper) (known : declared.Proper) {rest other : List Char}
    (same : bindingChars owner binding ++ rest = bindingChars owner declared ++ other) :
    binding = declared ∧ rest = other := by
  have keyword := congrArg List.head? same
  rw [head?_bindingChars, head?_bindingChars] at keyword
  cases proper with
  | uninitialized name named =>
    cases known with
    | uninitialized another known =>
      have line : "let ".toList ++ (name.toList ++ ';' :: rest) =
          "let ".toList ++ (another.toList ++ ';' :: other) := by
        simpa [bindingChars] using same
      obtain ⟨rfl, last⟩ := name_append_inj named known (by decide)
        (List.append_cancel_left line)
      exact ⟨rfl, last⟩
    | initialized => simp [Binding.isInitialized] at keyword
  | initialized name type expr named typed proper =>
    cases known with
    | uninitialized => simp [Binding.isInitialized] at keyword
    | initialized another declaredType value known spaced sound =>
      have line : "const ".toList ++ (name.toList ++ ':' :: ' ' :: (type.toList ++
            ' ' :: '=' :: ' ' :: (exprChars owner 0 expr ++ ';' :: rest))) =
          "const ".toList ++ (another.toList ++ ':' :: ' ' :: (declaredType.toList ++
            ' ' :: '=' :: ' ' :: (exprChars owner 0 value ++ ';' :: other))) := by
        simpa [bindingChars] using same
      obtain ⟨rfl, annotation⟩ := name_append_inj named known (by decide)
        (List.append_cancel_left line)
      have blank (behind : List Char) : Stops (fun c => c != ' ') (' ' :: behind) :=
        .of_head (by decide) behind
      obtain ⟨types, initializer⟩ := word_append_inj
        (fun c inside => bne_iff_ne.mpr (typed c inside))
        (fun c inside => bne_iff_ne.mpr (spaced c inside)) (blank _) (blank _)
        (List.cons.inj annotation).2
      have exprs : exprChars owner 0 expr ++ ';' :: rest =
          exprChars owner 0 value ++ ';' :: other := by
        simpa using initializer
      obtain ⟨rfl, last⟩ := exprChars_legible 0 style proper value sound _ _
        (.of_head (by decide) rest) (.of_head (by decide) other) exprs
      obtain rfl := String.toList_inj.mp types
      exact ⟨rfl, (List.cons.inj last).2⟩

/-- The lines of bindings. -/
def bindingLine (owner : Option String) (binding : Binding) : List Char :=
  bindingChars owner binding ++ ['\n']

theorem bindingLine_legible {owner : Option String}
    (style : ∀ name ∈ owner, name = libraryName) {binding : Binding} (proper : binding.Proper) :
    Legible (fun binding => '\n' :: bindingLine owner binding) Binding.Proper (fun _ => True)
      binding := by
  intro declared known rest other _ _ same
  have line : bindingChars owner binding ++ '\n' :: rest =
      bindingChars owner declared ++ '\n' :: other := by
    simpa [bindingLine] using same
  obtain ⟨equal, last⟩ := bindingChars_append_inj style proper known line
  exact ⟨equal, (List.cons.inj last).2⟩

end TypeScript

end DecoderForge
