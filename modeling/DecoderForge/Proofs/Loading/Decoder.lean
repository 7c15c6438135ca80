/-
This file proves that the items of generated modules come back from the JSON that they are written
as.
-/

import DecoderForge.Loading.Decoder
import DecoderForge.Proofs.Entries
import DecoderForge.Proofs.Loading.Descriptor
import DecoderForge.Proofs.Loading.Written

namespace DecoderForge

namespace DecoderExpr

/-- In every object of an expression the keys are distinct, and its numbers are numeric literals. -/
inductive WellFormed : DecoderExpr → Prop
  | call (builtin : Builtin) (args : List DecoderExpr) (each : ∀ arg ∈ args, WellFormed arg) :
    WellFormed (.call builtin args)
  | identifier (name : String) : WellFormed (.identifier name)
  | object (entries : List (String × DecoderExpr)) (distinct : (entries.map Prod.fst).Nodup)
      (each : ∀ entry ∈ entries, WellFormed entry.2) : WellFormed (.object entries)
  | string (s : String) : WellFormed (.constant (.string s))
  | number (n : NumericLiteral) (written : n.IsWritten) : WellFormed (.constant (.number n))

theorem listToJson_eq_map (exprs : List DecoderExpr) : listToJson exprs = exprs.map toJson := by
  induction exprs with
  | nil => rfl
  | cons expr rest ih => rw [listToJson, ih, List.map_cons]

theorem entriesToJson_eq_map (entries : List (String × DecoderExpr)) :
    entriesToJson entries = entries.map fun entry => (entry.1, entry.2.toJson) := by
  induction entries with
  | nil => rfl
  | cons entry rest ih => rw [entriesToJson, ih, List.map_cons]

end DecoderExpr

namespace Loading.Buffer

theorem builtin_name (b : Builtin) : builtin (.str b.name) = .ok b :=
  choice_of_lookup (by cases b <;> rfl)

theorem constant_number {n : NumericLiteral} (written : n.IsWritten) :
    constant (Constant.number n).toJson = .ok (.number n) := by
  apply tagAndContent_of_entries (by decide) rfl
  exact Except.map_eq_ok_iff.mpr ⟨n, numericLiteral_toJson written, rfl⟩

/-- The entries of an object come back if their keys are distinct. -/
theorem dictionary_of_each {α : Type} {load : Json → Except Cause α} {write : α → Json}
    {entries : List (String × α)} (distinct : (entries.map Prod.fst).Nodup)
    (each : ∀ entry ∈ entries, load (write entry.2) = .ok entry.2) :
    dictionary load (.obj (entries.map fun entry => (entry.1, write entry.2))) = .ok entries := by
  rw [dictionary, Except.map_eq_ok_iff]
  refine ⟨entries, ?_, Entries.ofList_eq_self entries distinct⟩
  rw [mapM_eq_ok_iff, List.forall₂_map_left_iff, List.forall₂_same]
  intro entry inside
  rw [each entry inside]
  rfl

/-- The kind of an expression says how the other entries are loaded. -/
theorem exprWithin_tagged {name : String} {kind : ExprKind} {others : List (String × Json)}
    (found : ExprKind.names.lookup name = some kind) (fresh : "kind" ∉ others.map Prod.fst)
    (levels : Nat) :
    exprWithin (levels + 1) (.obj (("kind", .str name) :: others)) =
      exprContent (exprWithin levels) kind (.obj others) := by
  rw [exprWithin, tagged_of_lookup _ found fresh]
  rfl

/-- An expression comes back from the value that it is written as. -/
theorem exprWithin_toJson {expr : DecoderExpr} (wellFormed : expr.WellFormed) {levels : Nat}
    (deep : expr.toJson.depth < levels) : exprWithin levels expr.toJson = .ok expr := by
  induction levels generalizing expr with
  | zero => exact absurd deep (Nat.not_lt_zero _)
  | succ levels ih =>
    cases wellFormed with
    | call b args each =>
      rw [DecoderExpr.toJson, DecoderExpr.listToJson_eq_map] at deep ⊢
      have inner : ∀ arg ∈ args, exprWithin levels arg.toJson = .ok arg := by
        intro arg inside
        have bound := Json.depth_le_depthItems
          (List.mem_map_of_mem (f := DecoderExpr.toJson) inside)
        simp only [Json.depth, Json.depthEntries] at deep
        exact ih (each arg inside) (by omega)
      have different : "builtin" ≠ "args" := by decide
      rw [exprWithin_tagged rfl (by simp), exprContent]
      simp only [double_of_entries different _ _ (builtin_name b) (list_of_each inner)]
      rfl
    | identifier name => rfl
    | object entries distinct each =>
      rw [DecoderExpr.toJson, DecoderExpr.entriesToJson_eq_map] at deep ⊢
      have inner : ∀ entry ∈ entries, exprWithin levels entry.2.toJson = .ok entry.2 := by
        intro entry inside
        have bound := Json.depth_le_depthEntries (List.mem_map_of_mem
          (f := fun entry : String × DecoderExpr => (entry.1, entry.2.toJson)) inside)
        simp only [Json.depth, Json.depthEntries] at deep bound
        exact ih (each entry inside) (by omega)
      rw [exprWithin_tagged rfl (by simp), exprContent]
      simp only [single_of_entry, dictionary_of_each distinct inner]
      rfl
    | string s => rfl
    | number n written =>
      rw [DecoderExpr.toJson, exprWithin_tagged rfl (by simp)]
      simp only [exprContent, single_of_entry, constant_number written]
      rfl

theorem expr_toJson {expr : DecoderExpr} (wellFormed : expr.WellFormed) :
    Buffer.expr expr.toJson = .ok expr :=
  exprWithin_toJson wellFormed (Nat.lt_succ_self _)

/-- A text that may be absent comes back. -/
theorem optional_strOrNull (s : Option String) : optional text (.strOrNull s) = .ok s := by
  cases s <;> rfl

/-- A decoder that may be absent comes back: no decoder is written as null. -/
theorem optional_toJson {expr : Option DecoderExpr} (wellFormed : ∀ e ∈ expr, e.WellFormed) :
    optional Buffer.expr ((expr.map DecoderExpr.toJson).getD .null) = .ok expr := by
  cases expr with
  | none => rfl
  | some expr =>
    have read := expr_toJson (wellFormed expr rfl)
    change optional Buffer.expr expr.toJson = .ok (some expr)
    cases expr <;> exact Except.map_eq_ok_iff.mpr ⟨_, read, rfl⟩

theorem binding_toEntries {declared : Binding} (wellFormed : ∀ e ∈ declared.expr, e.WellFormed) :
    binding (.obj declared.toEntries) = .ok declared := by
  have expr := optional_toJson wellFormed
  have type := optional_strOrNull declared.resultType
  simp [binding, Binding.toEntries, entries, Columns.and, Columns.one, text, type, expr,
    Except.bind, Except.map, required]

theorem list_text (names : List String) : list text (.arr (names.map .str)) = .ok names :=
  list_of_each fun _ _ => rfl

theorem importing_toEntries (what : Import) : importing (.obj what.toEntries) = .ok what := by
  have named (names : List String) (source : String) (expected : Expected) :
      double "names" "from" expected expected (list text) text
        (.obj [("names", .arr (names.map .str)), ("from", .str source)]) = .ok (names, source) :=
    double_of_entries (by decide) _ _ (list_text names) rfl
  cases what with
  | types names source =>
    rw [importing, Import.toEntries, tagged_of_lookup _ rfl (by simp)]
    exact Except.map_eq_ok_iff.mpr ⟨_, named names source _, rfl⟩
  | everything binding source => rfl
  | named names source =>
    rw [importing, Import.toEntries, tagged_of_lookup _ rfl (by simp)]
    exact Except.map_eq_ok_iff.mpr ⟨_, named names source _, rfl⟩

end Loading.Buffer

mutual

theorem DecoderExpr.numberless_toJson : (expr : DecoderExpr) → expr.toJson.Numberless
  | .call builtin args => by
    simpa [DecoderExpr.toJson] using numberless_listToJson args
  | .identifier name => by simp [DecoderExpr.toJson]
  | .object entries => by
    simpa [DecoderExpr.toJson] using numberless_entriesToJson entries
  | .constant value => by
    cases value <;> simp [DecoderExpr.toJson, Constant.toJson, NumericLiteral.toJson]

theorem DecoderExpr.numberless_listToJson :
    (exprs : List DecoderExpr) → ∀ item ∈ DecoderExpr.listToJson exprs, item.Numberless
  | [] => List.forall_mem_nil _
  | expr :: rest => List.forall_mem_cons.mpr
    ⟨DecoderExpr.numberless_toJson expr, DecoderExpr.numberless_listToJson rest⟩

theorem DecoderExpr.numberless_entriesToJson :
    (entries : List (String × DecoderExpr)) → ∀ entry ∈ DecoderExpr.entriesToJson entries,
      entry.2.Numberless
  | [] => List.forall_mem_nil _
  | (_, expr) :: rest => List.forall_mem_cons.mpr
    ⟨DecoderExpr.numberless_toJson expr, DecoderExpr.numberless_entriesToJson rest⟩

end

namespace ModuleItem

theorem numberless_toJson (item : ModuleItem) : item.toJson.Numberless := by
  cases item with
  | importing what => cases what <;> simp [toJson, Import.toEntries]
  | blank => simp [toJson]
  | declaration binding =>
    obtain ⟨name, resultType, expr⟩ := binding
    cases resultType <;> cases expr <;>
      simp [toJson, Binding.toEntries, Json.strOrNull, DecoderExpr.numberless_toJson]

/-- The decoder in an item is well formed. -/
def WellFormed (item : ModuleItem) : Prop :=
  ∀ binding ∈ item.binding?, ∀ expr ∈ binding.expr, expr.WellFormed

end ModuleItem

namespace Loading

/-- An item comes back from every whole document of the value that it is written as. -/
theorem Reader.item_of_holds {item : ModuleItem} (wellFormed : item.WellFormed)
    {document : Json.Document} (holds : Holds document item.toJson) :
    Reader.item document = .ok item := by
  cases item with
  | importing what =>
    have fresh : "item" ∉ what.toEntries.map Prod.fst := by
      cases what <;> simp [Import.toEntries]
    have content : Buffer.itemContent .importing (.obj what.toEntries) = .ok (.importing what) :=
      Except.map_eq_ok_iff.mpr ⟨what, Buffer.importing_toEntries what, rfl⟩
    rw [Reader.item, tagged_of_holds _ rfl fresh holds]
    exact Except.mapError_eq_ok_iff.mpr content
  | blank =>
    rw [Reader.item, tagged_of_holds _ rfl (by simp) holds]
    rfl
  | declaration binding =>
    have fresh : "item" ∉ binding.toEntries.map Prod.fst := by simp [Binding.toEntries]
    have content : Buffer.itemContent .declaration (.obj binding.toEntries) =
        .ok (.declaration binding) :=
      Except.map_eq_ok_iff.mpr ⟨binding, Buffer.binding_toEntries (wellFormed binding rfl), rfl⟩
    rw [Reader.item, tagged_of_holds _ rfl fresh holds]
    exact Except.mapError_eq_ok_iff.mpr content

theorem Reader.items_of_holds {items : List ModuleItem}
    (wellFormed : ∀ item ∈ items, item.WellFormed) {document : Json.Document}
    (holds : Holds document (.arr (items.map ModuleItem.toJson))) :
    list Reader.item document = .ok items :=
  list_of_holds (fun item inside _ written => item_of_holds (wellFormed item inside) written) holds

namespace Buffer

theorem constant_yields : Yields constant fun value => (DecoderExpr.constant value).WellFormed := by
  refine tagAndContent_yields ?_ nofun
  intro kind
  cases kind with
  | string => exact (yields_true text).map fun s _ => .string s
  | number => exact numericLiteral_yields.map fun n written => .number n written

/-- In an object with keys of any kind, each key remains once. -/
theorem dictionary_yields {α : Type} {load : Json → Except Cause α} {property : α → Prop}
    (yields : Yields load property) : Yields (dictionary load) fun entries =>
      (entries.map Prod.fst).Nodup ∧ ∀ entry ∈ entries, property entry.2 := by
  intro value entries loaded
  unfold dictionary at loaded
  split at loaded
  · next es =>
    obtain ⟨pairs, read, rfl⟩ := Except.map_eq_ok_iff.mp loaded
    have each : Yields (fun entry : String × Json => (load entry.2).map (entry.1, ·))
        fun pair => property pair.2 := by
      intro entry pair made
      obtain ⟨a, here, rfl⟩ := Except.map_eq_ok_iff.mp made
      exact yields entry.2 a here
    have kept := forall_of_forall₂ each (mapM_eq_ok_iff.mp read)
    refine ⟨Entries.nodup_keys_ofList pairs, fun entry inside => kept entry ?_⟩
    obtain ⟨before, after, rfl, _⟩ := (Entries.mem_ofList pairs entry).mp inside
    exact List.mem_append_right _ List.mem_cons_self
  · contradiction

theorem exprContent_yields {load : Json → Except Cause DecoderExpr}
    (yields : Yields load DecoderExpr.WellFormed) (kind : ExprKind) :
    Yields (exprContent load kind) DecoderExpr.WellFormed := by
  cases kind with
  | call =>
    refine (double_yields _ _ _ _ (yields_true builtin) (list_yields yields)).map ?_
    exact fun pair both => .call pair.1 pair.2 both.2
  | identifier => exact (yields_true _).map fun name _ => .identifier name
  | object =>
    refine (single_yields _ _ _ (dictionary_yields yields)).map ?_
    exact fun entries both => .object entries both.1 both.2
  | constant => exact (single_yields _ _ _ constant_yields).map fun _ wellFormed => wellFormed

theorem exprWithin_yields (levels : Nat) : Yields (exprWithin levels) DecoderExpr.WellFormed := by
  induction levels with
  | zero => exact fun _ _ loaded => nomatch loaded
  | succ levels ih =>
    intro value expr read
    obtain ⟨⟨kind, content⟩, _, inner⟩ := Except.step_eq_ok_iff.mp read
    exact exprContent_yields ih kind content expr inner

theorem binding_yields : Yields binding fun declared => ∀ e ∈ declared.expr, e.WellFormed := by
  have decoder : Yields (optional Buffer.expr) fun found => ∀ e ∈ found, e.WellFormed :=
    optional_yields fun value => exprWithin_yields (value.depth + 1) value
  intro value declared loaded
  unfold binding at loaded
  split at loaded
  · have keeps := ((Columns.keeps_one "bindingName" (yields_true text)).and
      (Columns.keeps_one "resultType" (yields_true (optional text)))).and
      (Columns.keeps_one "expr" decoder)
    simp only [Except.step_eq_ok_iff, Except.pure_eq_ok_iff, required_eq_ok_iff] at loaded
    obtain ⟨state, here, name, _, rfl⟩ := loaded
    intro e found
    have kept := (entries_keeps keeps keeps.none here).2
    exact kept (some e) (Option.join_eq_some_iff.mp found) e rfl
  · simp only [Except.step_eq_ok_iff, Except.pure_eq_ok_iff] at loaded
    obtain ⟨name, _, resultType, _, expr, found, _, _, rfl⟩ := loaded
    exact element_yields decoder found
  · contradiction

end Buffer

/-- The decoders in an item that is loaded are well formed. -/
theorem Reader.item_yields : Yields Reader.item ModuleItem.WellFormed := by
  intro document item read
  obtain ⟨⟨kind, content⟩, _, inner⟩ := Except.step_eq_ok_iff.mp read
  have loaded := Except.mapError_eq_ok_iff.mp inner
  cases kind with
  | importing =>
    obtain ⟨what, _, rfl⟩ := Except.map_eq_ok_iff.mp loaded
    exact nofun
  | blank =>
    obtain ⟨_, _, rfl⟩ := Except.map_eq_ok_iff.mp loaded
    exact nofun
  | declaration =>
    obtain ⟨binding, here, rfl⟩ := Except.map_eq_ok_iff.mp loaded
    rintro _ ⟨⟩
    exact Buffer.binding_yields content binding here

/-- Whatever items are loaded, they are loaded again from the value that they are written as. -/
theorem items_of_loaded {document : Json.Document} {items : List ModuleItem}
    (loaded : Reader.list Reader.item document = .ok items) :
    Loader.fromValue (Reader.list Reader.item) (.arr (items.map ModuleItem.toJson)) =
      .ok items := by
  have wellFormed := Reader.list_yields Reader.item_yields document items loaded
  exact Except.mapError_eq_ok_iff.mpr (Reader.items_of_holds wellFormed (holds_ofJson _))

/-- The items of a module come back from the value that they are written as, and from the text of
this value unless more lists and objects stand within each other than a reader of texts admits. -/
theorem items_round_trip {items : List ModuleItem} (wellFormed : ∀ item ∈ items, item.WellFormed) :
    Loader.fromValue (Reader.list Reader.item) (.arr (items.map ModuleItem.toJson)) = .ok items ∧
    ((Json.arr (items.map ModuleItem.toJson)).depth ≤ Json.greatestDepth →
      Loader.fromText (Reader.list Reader.item)
        (Json.arr (items.map ModuleItem.toJson)).compact = .ok items) := by
  constructor
  · exact Except.mapError_eq_ok_iff.mpr (Reader.items_of_holds wellFormed (holds_ofJson _))
  · intro shallow
    have numberless : (Json.arr (items.map ModuleItem.toJson)).Numberless := by
      simpa using fun item _ => item.numberless_toJson
    exact Except.mapError_eq_ok_iff.mpr
      (Reader.items_of_holds wellFormed (holds_ofText numberless shallow))

/-- The keys of an object may be those that the items themselves are written with. -/
theorem items_round_trip_keys :
    Loader.fromText (Reader.list Reader.item)
        (Json.arr ([.importing (.named ["object"] "decoders"), .blank,
          .declaration ⟨"aDecoder", none, none⟩,
          .declaration ⟨"bDecoder", some "Decoder<B>", some (.call .object [.object
            [("kind", .call .constant [.constant (.number ⟨"0x1F"⟩)]),
              ("item", .identifier "aDecoder")]])⟩].map ModuleItem.toJson)).compact =
      .ok [.importing (.named ["object"] "decoders"), .blank,
        .declaration ⟨"aDecoder", none, none⟩,
        .declaration ⟨"bDecoder", some "Decoder<B>", some (.call .object [.object
          [("kind", .call .constant [.constant (.number ⟨"0x1F"⟩)]),
            ("item", .identifier "aDecoder")]])⟩] := by
  refine (items_round_trip ?_).2 (by decide)
  have number : DecoderExpr.WellFormed (.call .constant [.constant (.number ⟨"0x1F"⟩)]) :=
    .call _ _ (List.forall_mem_singleton.mpr (.number _ (.inl ⟨"0x1F", rfl⟩)))
  have object : DecoderExpr.WellFormed (.object
      [("kind", .call .constant [.constant (.number ⟨"0x1F"⟩)]),
        ("item", .identifier "aDecoder")]) := by
    refine .object _ (by decide) (List.forall_mem_cons.mpr ⟨number, ?_⟩)
    exact List.forall_mem_singleton.mpr (.identifier _)
  simp only [List.forall_mem_cons, ModuleItem.WellFormed, ModuleItem.binding?]
  refine ⟨nofun, nofun, ?_, ?_, nofun⟩
  · rintro _ ⟨⟩
    exact nofun
  · rintro _ ⟨⟩ _ ⟨⟩
    exact .call _ _ (List.forall_mem_singleton.mpr object)

end Loading

end DecoderForge
