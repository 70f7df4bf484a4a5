import Mathlib.Data.List.Perm.Subperm
import Mathlib.Logic.Relation
import Stencil.Document.Load
import Stencil.Prepare.Validate
import Stencil.Proofs.Fallible

/-!
# When the value for tests comes to an end

The value for tests of a struct is made of the values of its fields, one after the
other until one of them fails.  An evaluation has an end exactly if no struct that
it comes to asks for itself again.  The depth that the evaluation is given, one
more than there are structs, is then enough; otherwise no depth is.
-/

namespace Stencil.Spelling

open Model (DataType Field Module Struct Symbol SymbolRef System)

/-- An evaluation that was cut off before its end. -/
def CutOff {α : Type} (r : Except Error α) : Prop :=
  ∃ filter name, failure? r = some (.endless filter name)

theorem not_cutOff_ok {α : Type} (a : α) : ¬ CutOff (.ok a : Except Error α) := by
  rintro ⟨filter, name, h⟩
  cases h

theorem cutOff_bind_pure {α β : Type} {r : Except Error α} {f : α → β} :
    CutOff (r >>= fun a => .ok (f a)) ↔ CutOff r := by
  cases r <;> rfl

/-- Steps over a list are cut off in the first of them, or after it has given a value. -/
theorem cutOff_mapM_cons {α β : Type} {f : α → Except Error β} {a : α} {rest : List α} :
    CutOff ((a :: rest).mapM f) ↔
      CutOff (f a) ∨ (∃ b, f a = .ok b) ∧ CutOff (rest.mapM f) := by
  unfold CutOff
  rw [failure?_mapM, failure?_mapM, List.findSome?_cons]
  cases f a <;> simp [failure?]

/-- The step in which a list of steps is cut off comes after steps with values. -/
theorem exists_of_cutOff_mapM {α β : Type} {f : α → Except Error β} {xs : List α}
    (h : CutOff (xs.mapM f)) :
    ∃ before a after, xs = before ++ a :: after ∧ (∀ y ∈ before, ∃ b, f y = .ok b) ∧
      CutOff (f a) := by
  induction xs with
  | nil => exact absurd h (not_cutOff_ok [])
  | cons a rest ih =>
      rcases cutOff_mapM_cons.mp h with ha | ⟨ha, hrest⟩
      · exact ⟨[], a, rest, rfl, by simp, ha⟩
      · obtain ⟨before, c, after, rfl, hbefore, hc⟩ := ih hrest
        exact ⟨a :: before, c, after, rfl, List.forall_mem_cons.mpr ⟨ha, hbefore⟩, hc⟩

/-- A step that is cut off cuts off the list, unless one before it fails for another reason. -/
theorem cutOff_mapM_append {α β : Type} {f : α → Except Error β} {before after : List α} {a : α}
    (hbefore : ∀ y ∈ before, (∃ b, f y = .ok b) ∨ CutOff (f y)) (ha : CutOff (f a)) :
    CutOff ((before ++ a :: after).mapM f) := by
  induction before with
  | nil => exact cutOff_mapM_cons.mpr (Or.inl ha)
  | cons y rest ih =>
      obtain ⟨hy, hrest⟩ := List.forall_mem_cons.mp hbefore
      rcases hy with hvalue | hcut
      · exact cutOff_mapM_cons.mpr (Or.inr ⟨hvalue, ih hrest⟩)
      · exact cutOff_mapM_cons.mpr (Or.inl hcut)

/-- Steps that are not cut off do not change when each of them stays as long as it is not cut
off. -/
theorem mapM_of_not_cutOff {α β : Type} {f g : α → Except Error β}
    (hfg : ∀ a, ¬ CutOff (f a) → g a = f a) {xs : List α} (h : ¬ CutOff (xs.mapM f)) :
    xs.mapM g = xs.mapM f := by
  induction xs with
  | nil => rfl
  | cons a rest ih =>
      rw [cutOff_mapM_cons, not_or] at h
      obtain ⟨ha, hrest⟩ := h
      rw [List.mapM_cons, List.mapM_cons, hfg a ha]
      cases hvalue : f a with
      | error e => rfl
      | ok b => rw [ih fun hcut => hrest ⟨⟨b, hvalue⟩, hcut⟩]

/-! ## One struct -/

/-- The struct that the value of a type is made of, through any number of lists. -/
def structOf? : DataType → Option SymbolRef
  | .struct r => some r
  | .list item => structOf? item
  | _ => none

namespace Mapper

variable {x : Mapper} {s u : Symbol}

/-- The declared struct that the value of a symbol is made of. -/
def struct? (x : Mapper) (s : Symbol) : Option (Module × Struct) :=
  (structOf? s.type).bind x.system.struct?

/-- The symbols of the fields of a struct. -/
def fieldsOf (p : Module × Struct) : List Symbol := p.2.fields.map (.ofField p.1 p.2)

/-- The value of a list, given that of its items. -/
def ofItems (item : DataType) (value : String) : String :=
  match item with
  | .primitive _ => "QVariantList(" ++ value ++ ")"
  | _ => "QVariantList(\x7bQVariant::fromValue(" ++ value ++ ")\x7d)"

theorem testValueWith_list (field : Symbol → Except Error String) (s : Symbol)
    (item : DataType) :
    x.testValueWith field s (.list item) =
      x.testValueWith field (s.withType item) item >>= fun value => .ok (ofItems item value) := by
  rw [Mapper.testValueWith]
  cases item <;> rfl

theorem testValueWith_struct (field : Symbol → Except Error String) (s : Symbol)
    (r : SymbolRef) :
    x.testValueWith field s (.struct r) =
      match x.system.struct? r with
      | some p => (fieldsOf p).mapM field >>= fun values =>
          .ok (namespacePrefix p.1 ++ p.2.name ++ "(" ++ String.intercalate ", " values ++ ")")
      | none => .error (.unknown "test_type_value" s) := by
  rw [Mapper.testValueWith, Mapper.struct]
  cases x.system.struct? r with
  | none => rfl
  | some p =>
      have hfields : (fieldsOf p).mapM field =
          p.2.fields.mapM fun f => field (.ofField p.1 p.2 f) := List.mapM_map ..
      dsimp only
      rw [hfields]
      rfl

/-- A type that is neither a struct nor a list has a value of its own. -/
theorem testValueWith_flat {field other : Symbol → Except Error String} {t : DataType}
    (hstruct : ∀ r, t ≠ .struct r) (hlist : ∀ item, t ≠ .list item) :
    x.testValueWith other s t = x.testValueWith field s t := by
  cases t with
  | struct r => exact absurd rfl (hstruct r)
  | list item => exact absurd rfl (hlist item)
  | primitive p => cases p <;> rw [Mapper.testValueWith, Mapper.testValueWith]
  | _ => rw [Mapper.testValueWith, Mapper.testValueWith]

theorem not_cutOff_enum {e : Except Error (Module × Model.Enum)} (he : ¬ CutOff e)
    {f : Module × Model.Enum → Model.Member → String} :
    ¬ CutOff (e >>= fun p => match p.2.members.getLast? with
      | some last => .ok (f p last)
      | none => .error (.emptyEnum "test_type_value" p.2.name)) := by
  rintro ⟨filter, name, h⟩
  cases e with
  | error e => exact he ⟨filter, name, h⟩
  | ok p =>
      dsimp only [bind, Except.bind] at h
      cases hlast : p.2.members.getLast? with
      | none =>
          rw [hlast] at h
          cases h
      | some last =>
          rw [hlast] at h
          cases h

theorem not_cutOff_flat {field : Symbol → Except Error String} {t : DataType}
    (hstruct : ∀ r, t ≠ .struct r) (hlist : ∀ item, t ≠ .list item) :
    ¬ CutOff (x.testValueWith field s t) := by
  have hunknown : ∀ {α : Type}, ¬ CutOff (.error (.unknown "test_type_value" s) : Except Error α) := by
    rintro α ⟨filter, name, h⟩
    cases h
  rw [Mapper.testValueWith.eq_def]
  cases t with
  | struct r => exact absurd rfl (hstruct r)
  | list item => exact absurd rfl (hlist item)
  | void | model item => exact not_cutOff_ok _
  | primitive p => cases p <;> exact not_cutOff_ok _
  | interface r | map item => exact hunknown
  | enum r | flag r =>
      have henum : ¬ CutOff (x.enum "test_type_value" s r) := by
        unfold Mapper.enum
        cases x.system.enum? r with
        | none => exact hunknown
        | some p => exact not_cutOff_ok p
      exact not_cutOff_enum henum

/-- The value of a type is cut off in a field of the struct that it is made of. -/
theorem cutOff_testValueWith {field : Symbol → Except Error String} {t : DataType} :
    ∀ {s : Symbol}, CutOff (x.testValueWith field s t) ↔
      ∃ p, (structOf? t).bind x.system.struct? = some p ∧ CutOff ((fieldsOf p).mapM field) := by
  induction t with
  | struct r =>
      intro s
      rw [testValueWith_struct, structOf?, Option.bind_some]
      cases x.system.struct? r with
      | none =>
          refine iff_of_false ?_ (by simp)
          rintro ⟨filter, name, h⟩
          cases h
      | some p =>
          rw [cutOff_bind_pure]
          simp
  | list item ih =>
      intro s
      rw [testValueWith_list, cutOff_bind_pure, structOf?]
      exact ih
  | _ =>
      intro s
      exact iff_of_false (not_cutOff_flat (by simp) (by simp)) (by simp [structOf?])

/-- A value that is not cut off does not change when those of the fields stay. -/
theorem testValueWith_of_not_cutOff {field other : Symbol → Except Error String}
    (hfield : ∀ u, ¬ CutOff (field u) → other u = field u) {t : DataType} :
    ∀ {s : Symbol}, ¬ CutOff (x.testValueWith field s t) →
      x.testValueWith other s t = x.testValueWith field s t := by
  induction t with
  | struct r =>
      intro s h
      rw [testValueWith_struct] at h ⊢
      rw [testValueWith_struct]
      cases hr : x.system.struct? r with
      | none => rfl
      | some p =>
          simp only [hr, cutOff_bind_pure] at h
          exact congrArg (· >>= _) (mapM_of_not_cutOff hfield h)
  | list item ih =>
      intro s h
      rw [testValueWith_list, cutOff_bind_pure] at h
      rw [testValueWith_list, testValueWith_list, ih h]
  | _ =>
      intro s _
      exact testValueWith_flat (by simp) (by simp)

/-! ## Any depth -/

/-- Some depth is enough for the value of a symbol, or for another error in its place. -/
def Ends (x : Mapper) (s : Symbol) : Prop := ∃ depth, ¬ CutOff (x.testValueWithin depth s)

/-- A symbol has a value, at some depth. -/
def HasValue (x : Mapper) (s : Symbol) : Prop :=
  ∃ depth value, x.testValueWithin depth s = .ok value

theorem cutOff_zero : CutOff (x.testValueWithin 0 s) := ⟨"test_type_value", s.owner, rfl⟩

theorem cutOff_succ {depth : Nat} : CutOff (x.testValueWithin (depth + 1) s) ↔
    ∃ p, x.struct? s = some p ∧ CutOff ((fieldsOf p).mapM (x.testValueWithin depth)) :=
  cutOff_testValueWith

theorem testValueWithin_succ {depth : Nat} :
    ∀ {s : Symbol}, ¬ CutOff (x.testValueWithin depth s) →
      x.testValueWithin (depth + 1) s = x.testValueWithin depth s := by
  induction depth with
  | zero =>
      intro s h
      exact absurd cutOff_zero h
  | succ depth ih =>
      intro s h
      -- the fields are evaluated one struct further in, where more depth changes nothing
      exact testValueWith_of_not_cutOff (fun u hu => ih hu) h

/-- Once a depth is enough, what a greater one gives is the same. -/
theorem testValueWithin_of_le {depth deeper : Nat} (hle : depth ≤ deeper)
    (h : ¬ CutOff (x.testValueWithin depth s)) :
    x.testValueWithin deeper s = x.testValueWithin depth s := by
  induction hle with
  | refl => rfl
  | @step deeper _ ih =>
      rw [← ih] at h ⊢
      exact testValueWithin_succ h

/-- At a depth that is not enough, a symbol with a value is cut off. -/
theorem HasValue.ok_or_cutOff (h : x.HasValue s) (depth : Nat) :
    (∃ value, x.testValueWithin depth s = .ok value) ∨ CutOff (x.testValueWithin depth s) := by
  obtain ⟨enough, value, hvalue⟩ := h
  by_cases hcut : CutOff (x.testValueWithin depth s)
  · exact Or.inr hcut
  · refine Or.inl ⟨value, ?_⟩
    have henough : ¬ CutOff (x.testValueWithin enough s) := by
      rw [hvalue]
      exact not_cutOff_ok value
    rcases Nat.le_total depth enough with hle | hle
    · rw [← testValueWithin_of_le hle hcut, hvalue]
    · rw [testValueWithin_of_le hle henough, hvalue]

/-! ## From field to field -/

/-- The value of `s`, made of the struct `p`, asks for that of the field `u`: all fields before it
have values. -/
def AsksIn (x : Mapper) (p : Module × Struct) (s u : Symbol) : Prop :=
  x.struct? s = some p ∧
    ∃ before after, fieldsOf p = before ++ u :: after ∧ ∀ field ∈ before, x.HasValue field

/-- The value of one symbol asks for that of another. -/
def Asks (x : Mapper) (s u : Symbol) : Prop := ∃ p, x.AsksIn p s u

/-- The value of a symbol comes to a field that asks for itself again. -/
def Returns (x : Mapper) (s : Symbol) : Prop :=
  ∃ u, Relation.ReflTransGen x.Asks s u ∧ Relation.TransGen x.Asks u u

theorem not_cutOff_of_asks {depth : Nat} (hu : x.Asks s u)
    (h : ¬ CutOff (x.testValueWithin (depth + 1) s)) : ¬ CutOff (x.testValueWithin depth u) := by
  obtain ⟨p, hp, before, after, hfields, hbefore⟩ := hu
  intro hcut
  refine h (cutOff_succ.mpr ⟨p, hp, ?_⟩)
  rw [hfields]
  exact cutOff_mapM_append (fun field hfield => (hbefore field hfield).ok_or_cutOff depth) hcut

theorem exists_asks_of_returns (h : x.Returns s) : ∃ u, x.Asks s u ∧ x.Returns u := by
  obtain ⟨u, hsu, huu⟩ := h
  rcases hsu.cases_head with rfl | ⟨v, hsv, hvu⟩
  · obtain ⟨v, hsv, hvs⟩ := Relation.TransGen.head'_iff.mp huu
    exact ⟨v, hsv, s, hvs, huu⟩
  · exact ⟨v, hsv, u, hvu, huu⟩

/-- No depth is enough for a value that returns to itself. -/
theorem cutOff_of_returns {depth : Nat} :
    ∀ {s : Symbol}, x.Returns s → CutOff (x.testValueWithin depth s) := by
  induction depth with
  | zero =>
      intro s _
      exact cutOff_zero
  | succ depth ih =>
      intro s h
      obtain ⟨u, hsu, hu⟩ := exists_asks_of_returns h
      -- a value that ended would leave an end to the field that it asks for
      by_contra hcut
      exact not_cutOff_of_asks hsu hcut (ih hu)

/-! ## Why a chain of fields returns -/

/-- The structs on a chain of fields that ask for one another. -/
inductive Chain (x : Mapper) : Symbol → List (Module × Struct) → Prop
  | stop (s : Symbol) : Chain x s []
  | step {s u : Symbol} {p : Module × Struct} {ps : List (Module × Struct)} :
      x.AsksIn p s u → Chain x u ps → Chain x s (p :: ps)

/-- An evaluation that is cut off has gone through as many structs as its depth. -/
theorem exists_chain {depth : Nat} :
    ∀ {s : Symbol}, CutOff (x.testValueWithin depth s) → ∃ ps, x.Chain s ps ∧ ps.length = depth := by
  induction depth with
  | zero =>
      intro s _
      exact ⟨[], .stop s, rfl⟩
  | succ depth ih =>
      intro s h
      obtain ⟨p, hp, hcut⟩ := cutOff_succ.mp h
      obtain ⟨before, u, after, hfields, hbefore, hu⟩ := exists_of_cutOff_mapM hcut
      have hasks : x.AsksIn p s u :=
        ⟨hp, before, after, hfields, fun field hfield => ⟨depth, hbefore field hfield⟩⟩
      obtain ⟨ps, hps, hlength⟩ := ih hu
      exact ⟨p :: ps, .step hasks hps, by simp [hlength]⟩

/-- Every struct on a chain asks for one of its fields. -/
theorem Chain.exists_asksIn {ps : List (Module × Struct)} (h : x.Chain s ps)
    {p : Module × Struct} (hp : p ∈ ps) :
    ∃ v w, Relation.ReflTransGen x.Asks s v ∧ x.AsksIn p v w := by
  induction h with
  | stop s => cases hp
  | @step s u q ps hsu _ ih =>
      rcases List.mem_cons.mp hp with rfl | hrest
      · exact ⟨s, u, .refl, hsu⟩
      · obtain ⟨v, w, huv, hvw⟩ := ih hrest
        exact ⟨v, w, .head ⟨q, hsu⟩ huv, hvw⟩

/-- A chain on which a struct is repeated returns to a field of that struct. -/
theorem Chain.returns {ps : List (Module × Struct)} (h : x.Chain s ps) (hps : ¬ ps.Nodup) :
    x.Returns s := by
  induction h with
  | stop s => exact absurd List.nodup_nil hps
  | @step s u p ps hsu hrest ih =>
      by_cases hp : p ∈ ps
      · obtain ⟨v, w, huv, hvw⟩ := hrest.exists_asksIn hp
        -- the struct that is met again asks for the same field as before
        have hvu : x.AsksIn p v u := ⟨hvw.1, hsu.2⟩
        exact ⟨u, .single ⟨p, hsu⟩, .tail' huv ⟨p, hvu⟩⟩
      · have hnodup : ¬ ps.Nodup := fun hn => hps (List.nodup_cons.mpr ⟨hp, hn⟩)
        obtain ⟨v, huv, hvv⟩ := ih hnodup
        exact ⟨v, .head ⟨p, hsu⟩ huv, hvv⟩

/-- The structs of a system with their modules. -/
def structs (system : System) : List (Module × Struct) :=
  system.modules.flatMap fun m => m.structs.map (m, ·)

theorem length_structs (system : System) : (structs system).length = structCount system := by
  simp [structs, structCount, List.length_flatMap]

theorem mem_structs_of_struct? {system : System} {r : SymbolRef} {p : Module × Struct}
    (h : system.struct? r = some p) : p ∈ structs system := by
  obtain ⟨m, hm, hp⟩ := Option.bind_eq_some_iff.mp h
  obtain ⟨struct, hstruct, rfl⟩ := Option.map_eq_some_iff.mp hp
  refine List.mem_flatMap.mpr ⟨m, List.mem_of_find?_eq_some hm, ?_⟩
  exact List.mem_map.mpr ⟨struct, List.mem_of_find?_eq_some hstruct, rfl⟩

theorem Chain.subset_structs {ps : List (Module × Struct)} (h : x.Chain s ps) :
    ps ⊆ structs x.system := by
  intro p hp
  obtain ⟨v, w, -, hvp, -⟩ := h.exists_asksIn hp
  obtain ⟨r, -, hr⟩ := Option.bind_eq_some_iff.mp hvp
  exact mem_structs_of_struct? hr

/-- A depth greater than the number of structs cuts off only what returns. -/
theorem returns_of_cutOff {depth : Nat} (hdepth : structCount x.system < depth)
    (h : CutOff (x.testValueWithin depth s)) : x.Returns s := by
  obtain ⟨ps, hps, hlength⟩ := exists_chain h
  -- the chain is longer than the list of all structs, so that one of them is repeated
  refine hps.returns fun hnodup => ?_
  have hle : ps.length ≤ (structs x.system).length :=
    (hnodup.subperm hps.subset_structs).length_le
  rw [length_structs] at hle
  omega

/-- An evaluation comes to an end exactly if it does not return to a field that it has asked for.
The depth that it is given then suffices, and every greater one gives the same. -/
theorem ends_iff_not_returns (x : Mapper) (s : Symbol) :
    (x.Ends s ↔ ¬ x.Returns s) ∧
    (¬ CutOff (x.testTypeValue s) ↔ ¬ x.Returns s) ∧
    (x.Ends s → ∀ depth, structCount x.system < depth →
      x.testValueWithin depth s = x.testTypeValue s) := by
  have hends : x.Ends s → ¬ x.Returns s := by
    rintro ⟨depth, hdepth⟩ hreturns
    exact hdepth (cutOff_of_returns hreturns)
  have henough : ¬ x.Returns s → ¬ CutOff (x.testTypeValue s) := by
    intro hreturns hcut
    exact hreturns (returns_of_cutOff (Nat.lt_succ_self _) hcut)
  refine ⟨⟨hends, fun h => ⟨_, henough h⟩⟩, ⟨fun h => hends ⟨_, h⟩, henough⟩, ?_⟩
  intro h depth hdepth
  exact testValueWithin_of_le hdepth (henough (hends h))

end Mapper

/-! ## A struct with a list of itself -/

/-- A tree with one document. -/
def Sample.chain : Files.Tree :=
  ⟨[(["w", "a.yaml"], .file (.text
      "module: m
structs:
  - name: Node
    fields:
      - { name: value, type: int }
      - { name: rest, type: list<Node> }
")), (["w"], .directory)], ["w"]⟩

/-- The field whose items are of the struct that it belongs to. -/
def Sample.rest : Field where
  name := "rest"
  type := .list (.struct ⟨"m", "Node"⟩)

/-- The struct of the document. -/
def Sample.node : Struct where
  name := "Node"
  fields := [{ name := "value", type := .primitive .int }, Sample.rest]

/-- The module that the document describes. -/
def Sample.linked : Module where
  name := "m"
  version := ⟨1, 0⟩
  structs := [Sample.node]
  source := some "a.yaml"

/-- The field asks for itself, after the field before it. -/
theorem Sample.asks_rest (classPrefix : String) :
    (⟨⟨[Sample.linked]⟩, classPrefix⟩ : Mapper).Asks
      (.ofField Sample.linked Sample.node Sample.rest)
      (.ofField Sample.linked Sample.node Sample.rest) := by
  let before : List Symbol :=
    [.ofField Sample.linked Sample.node { name := "value", type := .primitive .int }]
  refine ⟨(Sample.linked, Sample.node), rfl, before, [], rfl, ?_⟩
  intro field hfield
  rw [List.mem_singleton.mp hfield]
  exact ⟨1, "111", rfl⟩

/-- A checked model can have a struct whose value has no end. -/
theorem not_ends_of_checked :
    ¬ ∀ (t : Files.Tree) (paths : List String) (source : String) (system : System),
      Document.load t paths = .ok system →
      Prepare.checkSupportedTypes source system = .ok () →
      ∀ name n s, (name, n) ∈ system.walk → n.symbol? = some s →
        ∀ classPrefix, (⟨system, classPrefix⟩ : Mapper).Ends s := by
  intro hall
  have hload : Document.load Sample.chain ["a.yaml"] = .ok ⟨[Sample.linked]⟩ := by decide +kernel
  have hmem : ("m.Node#rest", Model.Node.field Sample.linked Sample.node Sample.rest) ∈
      (⟨[Sample.linked]⟩ : System).walk := by decide +kernel
  obtain ⟨depth, hdepth⟩ :=
    hall Sample.chain ["a.yaml"] "a.yaml" ⟨[Sample.linked]⟩ hload rfl _ _ _ hmem rfl ""
  have hasks := Sample.asks_rest ""
  exact hdepth (Mapper.cutOff_of_returns ⟨_, .refl, .single hasks⟩)

end Stencil.Spelling
