import Stencil.Proofs.Fallible
import Stencil.Spelling.Annotation

/-!
# The entries of annotation values

An array and an object have entries: the items of the one, and the values of the
other.  An annotation value is converted entry by entry, those for a struct with the
symbols of its fields and those for a list with that of its rows; the first failure
of an entry is that of the whole.
-/

namespace Stencil

/-- The entries of an array or an object, in order. -/
def Json.entries? : Json → Option (List Json)
  | .array items => some items
  | .object members => some (members.map Prod.snd)
  | _ => none

theorem Json.sizeOf_entry_lt {v w : Json} {entries : List Json} (h : v.entries? = some entries)
    (hw : w ∈ entries) : sizeOf w < sizeOf v := by
  cases v with
  | array items =>
      cases h
      have hitem := List.sizeOf_lt_of_mem hw
      rw [Json.array.sizeOf_spec]
      omega
  | object members =>
      cases h
      obtain ⟨⟨key, value⟩, hmember, rfl⟩ := List.mem_map.mp hw
      have hlt := List.sizeOf_lt_of_mem hmember
      rw [Prod.mk.sizeOf_spec] at hlt
      rw [Json.object.sizeOf_spec]
      dsimp only
      omega
  | _ => cases h

/-- What holds of a value as soon as it holds of its entries holds of all values. -/
@[elab_as_elim]
theorem Json.entries_induction {motive : Json → Prop}
    (h : ∀ v, (∀ entries, v.entries? = some entries → ∀ w ∈ entries, motive w) → motive v)
    (v : Json) : motive v := by
  induction hn : sizeOf v using Nat.strongRecOn generalizing v with
  | ind n ih =>
      refine h v fun entries hentries w hw => ?_
      exact ih (sizeOf w) (hn ▸ Json.sizeOf_entry_lt hentries hw) w rfl

namespace Spelling

open Model (DataType Field Module Struct Symbol SymbolRef System)

variable {x : Mapper} {s : Symbol} {r : SymbolRef} {m : Module} {struct : Struct}

/-- The symbols of the fields of a struct, each with the entry at its place. -/
def fieldParts (m : Module) (struct : Struct) (entries : List Json) : List (Symbol × Json) :=
  (struct.fields.map (Symbol.ofField m struct)).zip entries

/-- The rows of a list or model, with the symbol of all of them. -/
def rowParts (s : Symbol) (item : DataType) (items : List Json) : List (Symbol × Json) :=
  items.map (s.withType item, ·)

theorem forall_mem_rowParts {item : DataType} {items : List Json} {P : Symbol × Json → Prop} :
    (∀ p ∈ rowParts s item items, P p) ↔ ∀ w ∈ items, P (s.withType item, w) :=
  List.forall_mem_map

theorem zip_replicate_length {α β : Type} (a : α) (ys : List β) :
    (List.replicate ys.length a).zip ys = ys.map (a, ·) := by
  induction ys with
  | nil => rfl
  | cons y rest ih => exact congrArg ((a, y) :: ·) ih

theorem mem_fieldParts {entries : List Json} {p : Symbol × Json} :
    p ∈ fieldParts m struct entries ↔ ∃ (i : Nat) (f : Field), struct.fields[i]? = some f ∧
      entries[i]? = some p.2 ∧ p.1 = Symbol.ofField m struct f := by
  unfold fieldParts
  rw [List.mem_iff_getElem?]
  simp only [List.getElem?_zip_eq_some, List.getElem?_map, Option.map_eq_some_iff]
  constructor
  · rintro ⟨i, ⟨f, hf, hsymbol⟩, hentry⟩
    exact ⟨i, f, hf, hentry, hsymbol.symm⟩
  · rintro ⟨i, f, hf, hentry, hsymbol⟩
    exact ⟨i, ⟨f, hf, hsymbol.symm⟩, hentry⟩

/-- The value of a struct, converted entry by entry and put together again. -/
def convertStruct {α β : Type} (filter : String) (s : Symbol) (m : Module) (struct : Struct)
    (convert : Symbol → Json → Except Error α) (wrap : List α → β) (v : Json) : Except Error β :=
  match v.entries? with
  | none => .error (.shape filter s.qualifiedName "dict or list")
  | some entries =>
      match Mapper.checkCount filter s struct.fields.length entries.length with
      | .error e => .error e
      | .ok () => ((fieldParts m struct entries).mapM fun p => convert p.1 p.2).map wrap

namespace Mapper

theorem struct_eq_ok (hr : x.system.struct? r = some (m, struct)) (filter : String) (s : Symbol) :
    x.struct filter s r = .ok (m, struct) := by
  unfold Mapper.struct
  rw [hr]

/-! ## Initializers -/

theorem defaultItems_eq (symbols : List Symbol) (items : List Json) :
    x.defaultItems symbols items = (symbols.zip items).mapM fun p => x.defaultValue p.1 p.2 := by
  refine mapM_zip_of_steps x.defaultItems x.defaultValue ?_ ?_ ?_ symbols items
  · exact fun items => by cases items <;> rfl
  · exact fun symbols => by cases symbols <;> rfl
  · intro s symbols v items
    rw [defaultItems]
    cases x.defaultValue s v <;> rfl

/-- The keys of an object are not looked at. -/
theorem defaultMembers_eq (symbols : List Symbol) (members : Members) :
    x.defaultMembers symbols members =
      (symbols.zip (members.map Prod.snd)).mapM fun p => x.defaultValue p.1 p.2 := by
  rw [List.zip_map_right, List.mapM_map]
  refine mapM_zip_of_steps x.defaultMembers (fun s p => x.defaultValue s p.2) ?_ ?_ ?_ symbols
    members
  · exact fun members => by cases members <;> rfl
  · exact fun symbols => by cases symbols <;> rfl
  · intro s symbols p members
    rw [defaultMembers, defaultMember]
    cases x.defaultValue s p.2 <;> rfl

/-- The initializer of a struct, if its fields have these. -/
def structLiteral (struct : Struct) (values : List String) : String :=
  struct.name ++ "(\x7b" ++ String.intercalate ", " values ++ "\x7d)"

/-- The initializer of a list or model, if its rows have these. -/
def listLiteral (s : Symbol) (rows : List String) : String :=
  "\x7b" ++ String.intercalate ", " (rows.map (rowLiteral s)) ++ "\x7d"

theorem defaultValue_struct (ht : s.type = .struct r) (hr : x.system.struct? r = some (m, struct))
    (v : Json) :
    x.defaultValue s v =
      convertStruct "default_value" s m struct x.defaultValue (structLiteral struct) v := by
  conv_lhs => unfold defaultValue
  rw [ht]
  dsimp only
  rw [struct_eq_ok hr]
  dsimp only
  rw [List.length_map]
  cases v with
  | array items =>
      dsimp only
      rw [defaultItems_eq]
      rfl
  | object members =>
      dsimp only
      rw [defaultMembers_eq]
      unfold convertStruct Json.entries?
      dsimp only
      rw [List.length_map]
      rfl
  | _ => rfl

theorem defaultValue_list {item : DataType} (ht : s.type = .list item ∨ s.type = .model item)
    (v : Json) :
    x.defaultValue s v =
      match v.items? with
      | none => .error (.shape "default_value" s.qualifiedName "list")
      | some items =>
          ((rowParts s item items).mapM fun p => x.defaultValue p.1 p.2).map (listLiteral s) := by
  rcases ht with ht | ht
  all_goals
    conv_lhs => unfold defaultValue
    rw [ht]
    cases v with
    | array items =>
        dsimp only
        rw [defaultItems_eq, zip_replicate_length]
        rfl
    | _ => rfl

/-! ## Simulation data -/

theorem simulationItems_eq (symbols : List Symbol) (items : List Json) :
    x.simulationItems symbols items =
      (symbols.zip items).mapM fun p => x.simulationValue p.1 p.2 := by
  refine mapM_zip_of_steps x.simulationItems x.simulationValue ?_ ?_ ?_ symbols items
  · exact fun items => by cases items <;> rfl
  · exact fun symbols => by cases symbols <;> rfl
  · intro s symbols v items
    rw [simulationItems]
    cases x.simulationValue s v <;> rfl

theorem simulationMembers_eq (symbols : List Symbol) (members : Members) :
    x.simulationMembers symbols members =
      (symbols.zip (members.map Prod.snd)).mapM fun p => x.simulationValue p.1 p.2 := by
  rw [List.zip_map_right, List.mapM_map]
  refine mapM_zip_of_steps x.simulationMembers (fun s p => x.simulationValue s p.2) ?_ ?_ ?_ symbols
    members
  · exact fun members => by cases members <;> rfl
  · exact fun symbols => by cases symbols <;> rfl
  · intro s symbols p members
    rw [simulationMembers, simulationMember]
    cases x.simulationValue s p.2 <;> rfl

theorem simulationValue_struct (ht : s.type = .struct r)
    (hr : x.system.struct? r = some (m, struct)) (v : Json) :
    x.simulationValue s v =
      convertStruct "simulationData" s m struct x.simulationValue
        (fun values => typed struct.name (.array values)) v := by
  conv_lhs => unfold simulationValue
  rw [ht]
  dsimp only
  rw [struct_eq_ok hr]
  dsimp only
  rw [List.length_map]
  cases v with
  | array items =>
      dsimp only
      rw [simulationItems_eq]
      rfl
  | object members =>
      dsimp only
      rw [simulationMembers_eq]
      unfold convertStruct Json.entries?
      dsimp only
      rw [List.length_map]
      rfl
  | _ => rfl

/-- Only rows that have parts of their own are converted; what is no array stays as it is. -/
theorem simulationValue_list {item : DataType} (ht : s.type = .list item ∨ s.type = .model item)
    (v : Json) :
    x.simulationValue s v =
      match v.items? with
      | none => .ok v
      | some items =>
          if hasConvertedRows item then
            ((rowParts s item items).mapM fun p => x.simulationValue p.1 p.2).map .array
          else .ok v := by
  rcases ht with ht | ht
  all_goals
    conv_lhs => unfold simulationValue
    rw [ht]
    cases v with
    | array items =>
        dsimp only
        rw [simulationItems_eq, zip_replicate_length]
        rfl
    | _ => rfl

end Mapper

end Spelling

end Stencil
