/-
This file proves that the text of a decoder expression is the text of no other one, whatever
expressions stand in it.
-/

import DecoderForge.Proofs.TypeScript.Word

namespace DecoderForge

open Text

/-- The identifiers in an expression are names of decoders, and the numbers in it are numeric
literals. -/
inductive DecoderExpr.Proper : DecoderExpr → Prop
  | call (builtin : Builtin) (args : List DecoderExpr) (each : ∀ arg ∈ args, Proper arg) :
      Proper (.call builtin args)
  | identifier (typeName : String) (named : TypeScript.isName typeName.toList = true) :
      Proper (.identifier (decoderName typeName))
  | object (entries : List (String × DecoderExpr)) (each : ∀ entry ∈ entries, Proper entry.2) :
      Proper (.object entries)
  | string (s : String) : Proper (.constant (.string s))
  | number (n : NumericLiteral) (numeric : NumericLiteral.isNumeric n.text.toList = true) :
      Proper (.constant (.number n))

namespace TypeScript

/-- The characters that cannot follow an expression: those of words, and that of arguments. -/
def isContinuation (c : Char) : Bool := isWordPart c || c == '('

theorem stops_isWordPart {rest : List Char} (stops : Stops isContinuation rest) :
    Stops isWordPart rest := by
  intro c first
  exact (Bool.or_eq_false_iff.mp (stops c first)).1

/-- The forms of expressions that their texts begin with. -/
inductive Form where
  | call
  | identifier
  | object
  | string
  | number

def formOf : DecoderExpr → Form
  | .call .. => .call
  | .identifier _ => .identifier
  | .object _ => .object
  | .constant (.string _) => .string
  | .constant (.number _) => .number

/-- The form of the expression that a text begins with. -/
def formAhead : List Char → Form
  | '"' :: _ => .string
  | '\x7b' :: _ => .object
  | text =>
    let word := text.takeWhile isWordPart
    if word.all NumericLiteral.isPart then .number
    else if word.contains 'D' then .identifier
    else .call

theorem formAhead_word {word rest : List Char} (inside : ∀ c ∈ word, isWordPart c = true)
    (some : word ≠ []) (stops : Stops isWordPart rest) :
    formAhead (word ++ rest) =
      if word.all NumericLiteral.isPart then .number
      else if word.contains 'D' then .identifier
      else .call := by
  unfold formAhead
  split
  · next same => exact absurd same (word_append_ne inside some (by decide) _ _)
  · next same => exact absurd same (word_append_ne inside some (by decide) _ _)
  · rw [takeWhile_word inside stops]

/-- The arguments of a call in parentheses. A decoder by itself has none. -/
def parenthesized (owner : Option String) (level : Nat) (builtin : Builtin)
    (args : List DecoderExpr) : List Char :=
  if builtin.isValue && args.isEmpty then []
  else '(' :: (argsChars owner level args ++ [')'])

variable (owner : Option String) (level : Nat)

theorem exprChars_call (builtin : Builtin) (args : List DecoderExpr) :
    exprChars owner level (.call builtin args) =
      calleeChars owner builtin ++ parenthesized owner level builtin args := by
  rw [exprChars, parenthesized]
  split
  · exact (List.append_nil _).symm
  · rfl

theorem argsChars_cons (expr : DecoderExpr) (rest : List DecoderExpr) :
    argsChars owner level (expr :: rest) =
      exprChars owner level expr ++ rest.flatMap fun next =>
        ',' :: [' '] ++ exprChars owner level next := by
  induction rest generalizing expr with
  | nil => rw [argsChars, List.flatMap_nil, List.append_nil]
  | cons next rest ih =>
    rw [argsChars, ih]
    simp

/-- The line of an entry. -/
def entryChars (entry : String × DecoderExpr) : List Char :=
  indentation level ++ (keyChars entry.1 ++ ':' :: ' ' :: exprChars owner level entry.2)

theorem entriesChars_cons (entry : String × DecoderExpr) (rest : List (String × DecoderExpr)) :
    entriesChars owner level (entry :: rest) =
      entryChars owner level entry ++ rest.flatMap fun next =>
        ',' :: ['\n'] ++ entryChars owner level next := by
  induction rest generalizing entry with
  | nil => simp [entriesChars, entryChars]
  | cons next rest ih =>
    rw [entriesChars, ih]
    simp [entryChars]

theorem stops_parenthesized {rest : List Char} (stops : Stops isContinuation rest)
    (builtin : Builtin) (args : List DecoderExpr) :
    Stops isWordPart (parenthesized owner level builtin args ++ rest) := by
  unfold parenthesized
  split
  · exact stops_isWordPart stops
  · rw [List.cons_append, stops_cons]
    decide

theorem isWordPart_of_mem_decoderName {typeName : String}
    (named : isName typeName.toList = true) :
    ∀ c ∈ (decoderName typeName).toList, isWordPart c = true := fun c inside =>
  isWordPart_of_isNamePart (isNamePart_of_isName (isName_decoderName named) c inside)

theorem isWordPart_of_mem_numeric {n : NumericLiteral}
    (numeric : NumericLiteral.isNumeric n.text.toList = true) :
    ∀ c ∈ n.text.toList, isWordPart c = true := fun c inside =>
  isWordPart_of_isPart (NumericLiteral.isPart_of_isNumeric numeric c inside)

section

variable {owner} (style : ∀ name ∈ owner, name = libraryName)

include style

/-- The text of an expression says of which form it is. -/
theorem formAhead_exprChars {expr : DecoderExpr} (proper : expr.Proper) {rest : List Char}
    (stops : Stops isContinuation rest) :
    formAhead (exprChars owner level expr ++ rest) = formOf expr := by
  cases proper with
  | call builtin args each =>
    obtain ⟨⟨c, inside, other⟩, apart⟩ := calleeChars_apart style builtin
    have numeric : ¬ (calleeChars owner builtin).all NumericLiteral.isPart = true := by
      intro all
      rw [List.all_eq_true.mp all c inside] at other
      contradiction
    rw [exprChars_call, List.append_assoc,
      formAhead_word (isWordPart_of_mem_calleeChars style builtin) (List.ne_nil_of_mem inside)
        (stops_parenthesized owner level stops builtin args),
      if_neg numeric, if_neg (by simpa using apart)]
    rfl
  | identifier typeName named =>
    have capital : 'D' ∈ (decoderName typeName).toList := mem_decoderName typeName (by decide)
    have last : 'r' ∈ (decoderName typeName).toList := mem_decoderName typeName (by decide)
    have numeric : ¬ (decoderName typeName).toList.all NumericLiteral.isPart = true := by
      intro all
      exact absurd (List.all_eq_true.mp all 'r' last) (by decide)
    rw [exprChars, formAhead_word (isWordPart_of_mem_decoderName named)
      (List.ne_nil_of_mem capital) (stops_isWordPart stops), if_neg numeric,
      if_pos (List.contains_iff_mem.mpr capital)]
    rfl
  | object entries each => cases entries <;> rfl
  | string s => rfl
  | number n numeric =>
    have inside := NumericLiteral.isPart_of_isNumeric numeric
    rw [exprChars, constantChars,
      formAhead_word (isWordPart_of_mem_numeric numeric)
        (NumericLiteral.ne_nil_of_isNumeric numeric) (stops_isWordPart stops),
      if_pos (List.all_eq_true.mpr inside)]
    rfl

/-- An expression is there, so that a parenthesis does not close a list before it. -/
theorem exprChars_append_ne {expr : DecoderExpr} (proper : expr.Proper) (rest behind : List Char) :
    exprChars owner level expr ++ rest ≠ ')' :: behind := by
  cases proper with
  | call builtin args each =>
    obtain ⟨⟨c, inside, _⟩, _⟩ := calleeChars_apart style builtin
    rw [exprChars_call, List.append_assoc]
    exact word_append_ne (isWordPart_of_mem_calleeChars style builtin) (List.ne_nil_of_mem inside)
      (by decide) _ _
  | identifier typeName named =>
    have name := isName_decoderName named
    exact word_append_ne (isNamePart_of_isName name) (ne_nil_of_isName name) (by decide) _ _
  | object entries each => cases entries <;> nofun
  | string s => nofun
  | number n numeric =>
    exact word_append_ne (NumericLiteral.isPart_of_isNumeric numeric)
      (NumericLiteral.ne_nil_of_isNumeric numeric) (by decide) _ _

/-- Arguments are told from each other up to their closing parenthesis. -/
theorem argsChars_append_inj {args others : List DecoderExpr} {rest other : List Char}
    (legible : ∀ arg ∈ args,
      Legible (exprChars owner level) DecoderExpr.Proper (Stops isContinuation) arg)
    (sound : ∀ arg ∈ args, arg.Proper) (proper : ∀ arg ∈ others, arg.Proper)
    (same : argsChars owner level args ++ ')' :: rest =
      argsChars owner level others ++ ')' :: other) : args = others ∧ rest = other := by
  cases args with
  | nil =>
    cases others with
    | nil => exact ⟨rfl, (List.cons.inj same).2⟩
    | cons b others =>
      rw [argsChars_cons, List.append_assoc] at same
      exact absurd same.symm (exprChars_append_ne level style (proper b List.mem_cons_self) _ _)
  | cons a args =>
    cases others with
    | nil =>
      rw [argsChars_cons, List.append_assoc] at same
      exact absurd same (exprChars_append_ne level style (sound a List.mem_cons_self) _ _)
    | cons b others =>
      rw [argsChars_cons, argsChars_cons, List.append_assoc, List.append_assoc] at same
      exact joined_append_inj (by decide) (.of_head (by decide)) (.of_head (by decide)) legible
        sound proper same

theorem parenthesized_append_inj {builtin : Builtin} {args others : List DecoderExpr}
    {rest other : List Char} (stops : Stops isContinuation rest)
    (ends : Stops isContinuation other)
    (legible : ∀ arg ∈ args,
      Legible (exprChars owner level) DecoderExpr.Proper (Stops isContinuation) arg)
    (sound : ∀ arg ∈ args, arg.Proper) (proper : ∀ arg ∈ others, arg.Proper)
    (same : parenthesized owner level builtin args ++ rest =
      parenthesized owner level builtin others ++ other) : args = others ∧ rest = other := by
  have opens {behind text : List Char} (stops : Stops isContinuation behind) :
      behind ≠ '(' :: text := by
    rintro rfl
    exact absurd ((stops_cons _ _ _).mp stops) (by decide)
  unfold parenthesized at same
  split at same
  · next bare =>
    split at same
    · next plain =>
      obtain ⟨_, none⟩ := (Bool.and_eq_true _ _).mp bare
      obtain ⟨_, without⟩ := (Bool.and_eq_true _ _).mp plain
      exact ⟨(List.isEmpty_iff.mp none).trans (List.isEmpty_iff.mp without).symm, same⟩
    · exact absurd same (opens stops)
  · split at same
    · exact absurd same.symm (opens ends)
    · have inside : argsChars owner level args ++ ')' :: rest =
          argsChars owner level others ++ ')' :: other := by
        simpa using same
      exact argsChars_append_inj level style legible sound proper inside

omit style in
/-- The line of an entry is told from what follows it when its expression is. -/
theorem entryChars_legible {entry : String × DecoderExpr}
    (legible : Legible (exprChars owner level) DecoderExpr.Proper (Stops isContinuation) entry.2) :
    Legible (entryChars owner level) (fun entry => entry.2.Proper) (Stops isContinuation)
      entry := by
  intro line proper rest other stops ends same
  unfold entryChars at same
  rw [List.append_assoc, List.append_assoc, List.append_assoc, List.append_assoc] at same
  obtain ⟨key, value⟩ := keyChars_append_inj (List.append_cancel_left same)
  obtain ⟨expr, last⟩ := legible line.2 proper rest other stops ends (List.cons.inj value).2
  exact ⟨Prod.ext key expr, last⟩

omit style in
/-- The entries of an object are told from each other up to its closing brace. -/
theorem object_append_inj {entries others : List (String × DecoderExpr)} {rest other : List Char}
    (legible : ∀ entry ∈ entries, Legible (exprChars owner (level + 1)) DecoderExpr.Proper
      (Stops isContinuation) entry.2)
    (sound : ∀ entry ∈ entries, entry.2.Proper) (proper : ∀ entry ∈ others, entry.2.Proper)
    (same : exprChars owner level (.object entries) ++ rest =
      exprChars owner level (.object others) ++ other) : entries = others ∧ rest = other := by
  match entries, others with
  | [], [] => exact ⟨rfl, (List.cons.inj (List.cons.inj same).2).2⟩
  | [], _ :: _ => exact absurd (List.cons.inj (List.cons.inj same).2).1 (by decide)
  | _ :: _, [] => exact absurd (List.cons.inj (List.cons.inj same).2).1 (by decide)
  | entry :: entries, line :: others =>
    have lines : entriesChars owner (level + 1) (entry :: entries) ++
          '\n' :: (indentation level ++ '\x7d' :: rest) =
        entriesChars owner (level + 1) (line :: others) ++
          '\n' :: (indentation level ++ '\x7d' :: other) := by
      simpa [exprChars] using same
    rw [entriesChars_cons, entriesChars_cons, List.append_assoc, List.append_assoc] at lines
    obtain ⟨equal, last⟩ := joined_append_inj (by decide) (.of_head (by decide))
      (.of_head (by decide)) (fun part inside => entryChars_legible _ (legible part inside))
      sound proper lines
    exact ⟨equal, (List.cons.inj (List.append_cancel_left last)).2⟩

theorem formOf_eq {a b : DecoderExpr} (proper : a.Proper) (sound : b.Proper)
    {rest other : List Char} (stops : Stops isContinuation rest)
    (ends : Stops isContinuation other)
    (same : exprChars owner level a ++ rest = exprChars owner level b ++ other) :
    formOf a = formOf b := by
  rw [← formAhead_exprChars level style proper stops, same,
    formAhead_exprChars level style sound ends]

/-- No two expressions have the same text, whatever follows it. -/
theorem exprChars_legible {expr : DecoderExpr} (proper : expr.Proper) :
    Legible (exprChars owner level) DecoderExpr.Proper (Stops isContinuation) expr := by
  induction proper generalizing level with
  | call builtin args each ih =>
    intro b sound rest other stops ends same
    have form := formOf_eq level style (.call builtin args each) sound stops ends same
    cases sound with
    | call called others proper =>
      rw [exprChars_call, exprChars_call, List.append_assoc, List.append_assoc] at same
      obtain ⟨callee, behind⟩ := word_append_inj (isWordPart_of_mem_calleeChars style builtin)
        (isWordPart_of_mem_calleeChars style called)
        (stops_parenthesized owner level stops builtin args)
        (stops_parenthesized owner level ends called others) same
      obtain rfl := calleeChars_injective callee
      obtain ⟨rfl, last⟩ := parenthesized_append_inj level style stops ends
        (fun arg inside => ih arg inside level) each proper behind
      exact ⟨rfl, last⟩
    | _ => contradiction
  | identifier typeName named =>
    intro b sound rest other stops ends same
    have form := formOf_eq level style (.identifier typeName named) sound stops ends same
    cases sound with
    | identifier another known =>
      obtain ⟨names, last⟩ := word_append_inj (isWordPart_of_mem_decoderName named)
        (isWordPart_of_mem_decoderName known) (stops_isWordPart stops) (stops_isWordPart ends) same
      exact ⟨congrArg DecoderExpr.identifier (String.toList_inj.mp names), last⟩
    | _ => contradiction
  | object entries each ih =>
    intro b sound rest other stops ends same
    have form := formOf_eq level style (.object entries each) sound stops ends same
    cases sound with
    | object others proper =>
      obtain ⟨rfl, last⟩ := object_append_inj level
        (fun entry inside => ih entry inside (level + 1)) each proper same
      exact ⟨rfl, last⟩
    | _ => contradiction
  | string s =>
    intro b sound rest other stops ends same
    have form := formOf_eq level style (.string s) sound stops ends same
    cases sound with
    | string t =>
      obtain ⟨rfl, last⟩ := Json.quoteChars_append_inj same
      exact ⟨rfl, last⟩
    | _ => contradiction
  | number n numeric =>
    intro b sound rest other stops ends same
    have form := formOf_eq level style (.number n numeric) sound stops ends same
    cases sound with
    | number m known =>
      obtain ⟨texts, last⟩ := word_append_inj (isWordPart_of_mem_numeric numeric)
        (isWordPart_of_mem_numeric known) (stops_isWordPart stops) (stops_isWordPart ends) same
      have equal : n = m := congrArg NumericLiteral.mk (String.toList_inj.mp texts)
      exact ⟨congrArg (fun n => DecoderExpr.constant (.number n)) equal, last⟩
    | _ => contradiction

end

end TypeScript

end DecoderForge
