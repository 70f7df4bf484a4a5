import Stencil.Proofs.Spelling.Conforming

/-!
# The values that the simulation reads

A converted annotation value has the normal form of the type of its symbol: structs and enums
carry a name, rows that have parts are converted one by one, and all else stays as it is.  Every
value that gives an initializer is converted.
-/

namespace Stencil.Spelling

open Model (DataType Field Module Struct Symbol SymbolRef System)

/-- Whether a value for a type gets another form, its parts included. -/
def isReshaped : DataType → Json → Bool
  | .struct _, _ | .enum _, _ | .flag _, _ => true
  | .list item, .array _ | .model item, .array _ => Mapper.hasConvertedRows item
  | _, _ => false

/-- A value for a type and its normal form. -/
inductive NormalForm (x : Mapper) : DataType → Json → Json → Prop
  | struct {r : SymbolRef} {m : Module} {struct : Struct} {v : Json} {entries values : List Json}
      (hr : x.system.struct? r = some (m, struct)) (hv : v.entries? = some entries)
      (hcount : entries.length = struct.fields.length)
      (hvalues : values.length = struct.fields.length)
      (hall : ∀ (i : Nat) (f : Field) (e w : Json), struct.fields[i]? = some f →
        entries[i]? = some e → values[i]? = some w → NormalForm x f.type e w) :
      NormalForm x (.struct r) v
        (.object [("type", .string struct.name), ("value", .array values)])
  | enum {t : DataType} {r : SymbolRef} {m : Module} (ht : t = .enum r ∨ t = .flag r)
      (hm : x.system.module? r.module = some m) (v : Json) :
      NormalForm x t v
        (.object [("type", .string "enum"), ("value", .string (x.enumValue v.plain m.shortName))])
  | rows {t item : DataType} {items values : List Json} (ht : t = .list item ∨ t = .model item)
      (hitem : Mapper.hasConvertedRows item = true) (hcount : values.length = items.length)
      (hall : ∀ (i : Nat) (e w : Json), items[i]? = some e → values[i]? = some w →
        NormalForm x item e w) : NormalForm x t (.array items) (.array values)
  | same {t : DataType} {v : Json} (h : isReshaped t v = false) : NormalForm x t v v

variable {x : Mapper} {s : Symbol} {r : SymbolRef} {m : Module} {struct : Struct}

/-! ## Structs -/

theorem getElem?_fieldParts_eq_some {entries : List Json} {i : Nat} {p : Symbol × Json} :
    (fieldParts m struct entries)[i]? = some p ↔
      ∃ f, struct.fields[i]? = some f ∧ entries[i]? = some p.2 ∧ p.1 = .ofField m struct f := by
  unfold fieldParts
  rw [List.getElem?_zip_eq_some, List.getElem?_map, Option.map_eq_some_iff]
  constructor
  · rintro ⟨⟨f, hf, hsymbol⟩, hentry⟩
    exact ⟨f, hf, hentry, hsymbol.symm⟩
  · rintro ⟨f, hf, hentry, hsymbol⟩
    exact ⟨⟨f, hf, hsymbol.symm⟩, hentry⟩

theorem length_fieldParts {entries : List Json} (h : entries.length = struct.fields.length) :
    (fieldParts m struct entries).length = struct.fields.length := by
  simp [fieldParts, h]

/-- A struct is converted if there is one entry for each field and each is converted. -/
theorem convertStruct_eq_ok_iff {α β : Type} {filter : String}
    {convert : Symbol → Json → Except Error α} {wrap : List α → β} {v : Json} {out : β} :
    convertStruct filter s m struct convert wrap v = .ok out ↔
      ∃ entries values, v.entries? = some entries ∧ entries.length = struct.fields.length ∧
        values.length = struct.fields.length ∧
        (∀ (i : Nat) (f : Field) (e : Json) (w : α), struct.fields[i]? = some f →
          entries[i]? = some e → values[i]? = some w → convert (.ofField m struct f) e = .ok w) ∧
        wrap values = out := by
  unfold convertStruct Mapper.checkCount
  cases hv : v.entries? with
  | none => simp
  | some entries =>
      by_cases hcount : entries.length = struct.fields.length
      · simp only [hcount, if_true, map_eq_ok, mapM_eq_ok_iff_getElem?, length_fieldParts hcount,
          getElem?_fieldParts_eq_some]
        constructor
        · rintro ⟨values, ⟨hlength, hall⟩, hwrap⟩
          refine ⟨entries, values, rfl, hcount, hlength, ?_, hwrap⟩
          intro i f e w hf he hw
          exact hall i (.ofField m struct f, e) w ⟨f, hf, he, rfl⟩ hw
        · rintro ⟨_, values, hentries, -, hlength, hall, hwrap⟩
          cases hentries
          refine ⟨values, ⟨hlength, ?_⟩, hwrap⟩
          rintro i ⟨t, e⟩ w ⟨f, hf, he, rfl⟩ hw
          exact hall i f e w hf he hw
      · simp only [hcount, if_false]
        constructor
        · intro h
          cases h
        · rintro ⟨_, values, hentries, hlength, -⟩
          cases hentries
          exact absurd hlength hcount

theorem failure?_convertStruct_eq_none {α β : Type} {filter : String}
    {convert : Symbol → Json → Except Error α} {wrap : List α → β} {v : Json} :
    failure? (convertStruct filter s m struct convert wrap v) = none ↔
      ∃ entries, v.entries? = some entries ∧ entries.length = struct.fields.length ∧
        ∀ p ∈ fieldParts m struct entries, failure? (convert p.1 p.2) = none := by
  unfold convertStruct Mapper.checkCount
  cases v.entries? with
  | none => simp [failure?]
  | some entries =>
      by_cases hcount : entries.length = struct.fields.length
      · simp [hcount, failure?_map, failure?_mapM_eq_none]
      · simp [hcount, failure?]

theorem simulationValue_unresolved (ht : s.type = .struct r) (hr : x.system.struct? r = none)
    (v : Json) : x.simulationValue s v = .error (.unknown "simulationData" s) := by
  unfold Mapper.simulationValue Mapper.struct
  rw [ht]
  dsimp only
  rw [hr]

theorem defaultValue_unresolved (ht : s.type = .struct r) (hr : x.system.struct? r = none)
    (v : Json) : x.defaultValue s v = .error (.unknown "default_value" s) := by
  unfold Mapper.defaultValue Mapper.struct
  rw [ht]
  dsimp only
  rw [hr]

/-! ## Enums, rows and all else -/

theorem enumModuleName_eq_ok_iff (ht : s.type = .enum r ∨ s.type = .flag r) (filter : String)
    {name : String} :
    x.enumModuleName filter s = .ok name ↔
      ∃ m, x.system.module? r.module = some m ∧ m.shortName = name := by
  have hname : x.enumModuleName filter s = (x.module filter s r).map (·.shortName) := by
    unfold Mapper.enumModuleName
    rcases ht with ht | ht <;> rw [ht]
  rw [hname, map_eq_ok]
  unfold Mapper.module
  cases x.system.module? r.module <;> simp

theorem simulationValue_enum (ht : s.type = .enum r ∨ s.type = .flag r) (v : Json) :
    x.simulationValue s v = (x.enumModuleName "simulationData" s).map fun name =>
      Mapper.typed "enum" (.string (x.enumValue v.plain name)) := by
  unfold Mapper.simulationValue
  rcases ht with ht | ht <;> rw [ht]

/-- The names of enum members need the module of the enum, for an initializer and for the
simulation. -/
theorem simulationValue_of_enumLiteral (ht : s.type = .enum r ∨ s.type = .flag r) {v : Json}
    (h : failure? (x.defaultValue s v) = none) : failure? (x.simulationValue s v) = none := by
  have hliteral : x.defaultValue s v = (x.enumModuleName "default_value" s).map fun name =>
      x.enumValue v.plain name := by
    unfold Mapper.defaultValue Mapper.scalarLiteral
    rcases ht with ht | ht <;> rw [ht] <;> rfl
  rw [hliteral, failure?_map] at h
  obtain ⟨name, hname⟩ := failure?_eq_none.mp h
  obtain ⟨m, hm, hshort⟩ := (enumModuleName_eq_ok_iff ht _).mp hname
  have hsame := (enumModuleName_eq_ok_iff ht "simulationData").mpr ⟨m, hm, hshort⟩
  rw [simulationValue_enum ht, hsame]
  rfl

theorem normalForm_of_enumValue (ht : s.type = .enum r ∨ s.type = .flag r) {v w : Json}
    (h : x.simulationValue s v = .ok w) : NormalForm x s.type v w := by
  rw [simulationValue_enum ht, map_eq_ok] at h
  obtain ⟨name, hname, rfl⟩ := h
  obtain ⟨m, hm, rfl⟩ := (enumModuleName_eq_ok_iff ht _).mp hname
  exact .enum ht hm v

theorem simulationValue_same {v : Json} (h : isReshaped s.type v = false) :
    x.simulationValue s v = .ok v := by
  cases ht : s.type with
  | struct r | enum r | flag r =>
      rw [ht] at h
      cases h
  | void | primitive p | interface r | map item =>
      unfold Mapper.simulationValue
      rw [ht]
  | list item | model item =>
      have hrows : s.type = .list item ∨ s.type = .model item := by simp [ht]
      rw [Mapper.simulationValue_list hrows]
      rw [ht] at h
      cases v with
      | array items => exact if_neg (Bool.eq_false_iff.mp h)
      | _ => rfl

theorem simulationValue_rows {item : DataType} (ht : s.type = .list item ∨ s.type = .model item)
    (hitem : Mapper.hasConvertedRows item = true) {items : List Json} {w : Json} :
    x.simulationValue s (.array items) = .ok w ↔
      ∃ values, values.length = items.length ∧
        (∀ (i : Nat) (e u : Json), items[i]? = some e → values[i]? = some u →
          x.simulationValue (s.withType item) e = .ok u) ∧ w = .array values := by
  rw [Mapper.simulationValue_list ht]
  dsimp only [Json.items?]
  rw [if_pos hitem, map_eq_ok]
  simp only [mapM_eq_ok_iff_getElem?, rowParts, List.length_map, List.getElem?_map,
    Option.map_eq_some_iff]
  constructor
  · rintro ⟨values, ⟨hlength, hall⟩, rfl⟩
    refine ⟨values, hlength, ?_, rfl⟩
    intro i e u he hu
    exact hall i (s.withType item, e) u ⟨e, he, rfl⟩ hu
  · rintro ⟨values, hlength, hall, rfl⟩
    refine ⟨values, ⟨hlength, ?_⟩, rfl⟩
    rintro i _ u ⟨e, he, rfl⟩ hu
    exact hall i e u he hu

theorem rows_or_not_reshaped {item : DataType} (ht : s.type = .list item ∨ s.type = .model item)
    (v : Json) : isReshaped s.type v = false ∨
      Mapper.hasConvertedRows item = true ∧ ∃ items, v = .array items := by
  cases v with
  | array items =>
      cases hitem : Mapper.hasConvertedRows item with
      | false =>
          left
          rcases ht with ht | ht <;> rw [ht] <;> exact hitem
      | true => exact Or.inr ⟨rfl, items, rfl⟩
  | _ => rcases ht with ht | ht <;> exact Or.inl (by rw [ht]; rfl)

/-! ## All levels -/

/-- The induction is on the value, as the types of structs may refer to each other. -/
theorem normalForm_of_simulationValue (v : Json) :
    ∀ (s : Symbol) (w : Json), x.simulationValue s v = .ok w → NormalForm x s.type v w := by
  induction v using Json.entries_induction with
  | h v ih =>
      intro s w h
      cases ht : s.type with
      | struct r =>
          cases hr : x.system.struct? r with
          | none =>
              rw [simulationValue_unresolved ht hr] at h
              cases h
          | some p =>
              obtain ⟨m, struct⟩ := p
              rw [Mapper.simulationValue_struct ht hr, convertStruct_eq_ok_iff] at h
              obtain ⟨entries, values, hv, hcount, hvalues, hall, rfl⟩ := h
              refine .struct hr hv hcount hvalues fun i f e u hf he hu => ?_
              have hentry := hall i f e u hf he hu
              exact ih entries hv e (List.mem_of_getElem? he) (.ofField m struct f) u hentry
      | enum r | flag r =>
          have hnames : s.type = .enum r ∨ s.type = .flag r := by simp [ht]
          exact ht ▸ normalForm_of_enumValue hnames h
      | list item | model item =>
          have hrows : s.type = .list item ∨ s.type = .model item := by simp [ht]
          rw [← ht]
          rcases rows_or_not_reshaped hrows v with hsame | ⟨hitem, items, rfl⟩
          · rw [simulationValue_same hsame] at h
            cases h
            exact .same hsame
          · obtain ⟨values, hlength, hall, rfl⟩ := (simulationValue_rows hrows hitem).mp h
            refine .rows hrows hitem hlength fun i e u he hu => ?_
            exact ih items rfl e (List.mem_of_getElem? he) (s.withType item) u (hall i e u he hu)
      | void | primitive p | interface r | map item =>
          have hsame : isReshaped s.type v = false := by
            rw [ht]
            rfl
          rw [simulationValue_same hsame] at h
          cases h
          exact .same (ht ▸ hsame)

theorem simulationValue_of_normalForm {t : DataType} {v w : Json} (h : NormalForm x t v w) :
    ∀ s : Symbol, s.type = t → x.simulationValue s v = .ok w := by
  induction h with
  | @struct r m struct v entries values hr hv hcount hvalues _ ih =>
      intro s ht
      rw [Mapper.simulationValue_struct ht hr, convertStruct_eq_ok_iff]
      refine ⟨entries, values, hv, hcount, hvalues, fun i f e u hf he hu => ?_, rfl⟩
      exact ih i f e u hf he hu (.ofField m struct f) rfl
  | @enum t r m hr hm v =>
      intro s ht
      have hs : s.type = .enum r ∨ s.type = .flag r := ht ▸ hr
      have hname := (enumModuleName_eq_ok_iff hs "simulationData").mpr ⟨m, hm, rfl⟩
      rw [simulationValue_enum hs, hname]
      rfl
  | @rows t item items values hrows hitem hcount _ ih =>
      intro s ht
      have hs : s.type = .list item ∨ s.type = .model item := ht ▸ hrows
      refine (simulationValue_rows hs hitem).mpr ⟨values, hcount, fun i e u he hu => ?_, rfl⟩
      exact ih i e u he hu (s.withType item) rfl
  | @same t v h =>
      intro s ht
      exact simulationValue_same (ht ▸ h)

/-- A value that gives an initializer is converted.  For a struct both ways ask for the same
entries, a list has to be an array only for an initializer, and enums need their module in both. -/
theorem simulationValue_of_defaultValue (v : Json) :
    ∀ s : Symbol, failure? (x.defaultValue s v) = none →
      failure? (x.simulationValue s v) = none := by
  induction v using Json.entries_induction with
  | h v ih =>
      intro s h
      cases ht : s.type with
      | struct r =>
          cases hr : x.system.struct? r with
          | none =>
              rw [defaultValue_unresolved ht hr] at h
              cases h
          | some p =>
              obtain ⟨m, struct⟩ := p
              rw [Mapper.defaultValue_struct ht hr] at h
              rw [Mapper.simulationValue_struct ht hr]
              obtain ⟨entries, hv, hcount, hall⟩ := failure?_convertStruct_eq_none.mp h
              refine failure?_convertStruct_eq_none.mpr ⟨entries, hv, hcount, fun p hp => ?_⟩
              obtain ⟨_, _, _, hentry, _⟩ := mem_fieldParts.mp hp
              exact ih entries hv p.2 (List.mem_of_getElem? hentry) p.1 (hall p hp)
      | enum r | flag r =>
          have hnames : s.type = .enum r ∨ s.type = .flag r := by simp [ht]
          exact simulationValue_of_enumLiteral hnames h
      | list item | model item =>
          have hrows : s.type = .list item ∨ s.type = .model item := by simp [ht]
          rcases rows_or_not_reshaped hrows v with hsame | ⟨hitem, items, rfl⟩
          · rw [simulationValue_same hsame]
            rfl
          · rw [Mapper.simulationValue_list hrows]
            rw [Mapper.defaultValue_list hrows] at h
            dsimp only [Json.items?] at h ⊢
            rw [failure?_map, failure?_mapM_eq_none, forall_mem_rowParts] at h
            rw [if_pos hitem, failure?_map, failure?_mapM_eq_none, forall_mem_rowParts]
            exact fun e he => ih items rfl e he (s.withType item) (h e he)
      | void | primitive p | interface r | map item =>
          rw [simulationValue_same (by rw [ht]; rfl)]
          rfl

/-- Whatever gives an initializer is converted for the simulation, and the converted value of any
value is its normal form. -/
theorem normal_form_of_accepted (x : Mapper) (s : Symbol) (v : Json) :
    ((∃ text, x.defaultValue s v = .ok text) → ∃ w, x.simulationValue s v = .ok w) ∧
    ∀ w, x.simulationValue s v = .ok w ↔ NormalForm x s.type v w := by
  refine ⟨fun h => ?_, fun w => ⟨normalForm_of_simulationValue v s w, fun h => ?_⟩⟩
  · exact failure?_eq_none.mp (simulationValue_of_defaultValue v s (failure?_eq_none.mpr h))
  · exact simulationValue_of_normalForm h s rfl

theorem normal_form_of_accepted_line :
    let x : Mapper := ⟨Sample.boardSystem, ""⟩
    let s : Symbol := .ofProperty Sample.boardModule Sample.board Sample.line
    ∃ w, x.simulationValue s Sample.points = .ok w ∧ NormalForm x s.type Sample.points w := by
  intro x s
  have hline := normal_form_of_accepted x s Sample.points
  obtain ⟨w, hw⟩ := hline.1 ⟨_, rfl⟩
  exact ⟨w, hw, (hline.2 w).mp hw⟩

end Stencil.Spelling
