import Mathlib.Data.List.Nodup
import Stencil.Proofs.Json.Members
import Stencil.Proofs.Spelling.Conforming

/-!
# Objects as the values of structs

The entries of an object are used for the fields of a struct in their order, and its
keys are not looked at.  So an object is read by the names of the fields if its keys
stand in the order of the fields, but not in general.
-/

namespace Stencil.Spelling

open Model (DataType Field Module Struct Symbol SymbolRef System)

variable {x : Mapper} {s : Symbol} {r : SymbolRef} {m : Module} {struct : Struct}

/-! ## Values that differ in keys -/

/-- Two values for a type that have the same entries, but may have other keys for the entries of
structs or none. -/
inductive SamePlaces (system : System) : DataType → Json → Json → Prop
  | same (t : DataType) (v : Json) : SamePlaces system t v v
  | struct {r : SymbolRef} {m : Module} {struct : Struct} {v w : Json} {as bs : List Json}
      (hr : system.struct? r = some (m, struct)) (hv : v.entries? = some as)
      (hw : w.entries? = some bs) (hcount : as.length = bs.length)
      (hall : ∀ (i : Nat) (f : Field) (a b : Json), struct.fields[i]? = some f →
        as[i]? = some a → bs[i]? = some b → SamePlaces system f.type a b) :
      SamePlaces system (.struct r) v w
  | rows {t item : DataType} {as bs : List Json} (ht : t = .list item ∨ t = .model item)
      (hcount : as.length = bs.length)
      (hall : ∀ (i : Nat) (a b : Json), as[i]? = some a → bs[i]? = some b →
        SamePlaces system item a b) : SamePlaces system t (.array as) (.array bs)

theorem mapM_fieldParts_congr {α : Type} {convert : Symbol → Json → Except Error α}
    {as bs : List Json} (hcount : as.length = bs.length)
    (h : ∀ (i : Nat) (f : Field) (a b : Json), struct.fields[i]? = some f → as[i]? = some a →
      bs[i]? = some b → convert (.ofField m struct f) a = convert (.ofField m struct f) b) :
    ((fieldParts m struct as).mapM fun p => convert p.1 p.2) =
      (fieldParts m struct bs).mapM fun p => convert p.1 p.2 := by
  refine mapM_congr_getElem? ?_ ?_
  · simp [fieldParts, hcount]
  · intro i p q hp hq
    simp only [fieldParts, List.getElem?_zip_eq_some, List.getElem?_map,
      Option.map_eq_some_iff] at hp hq
    obtain ⟨⟨f, hf, hp⟩, ha⟩ := hp
    obtain ⟨⟨g, hg, hq⟩, hb⟩ := hq
    cases hf.symm.trans hg
    rw [← hp, ← hq]
    exact h i f p.2 q.2 hf ha hb

theorem mapM_rowParts_congr {α : Type} {convert : Symbol → Json → Except Error α}
    {item : DataType} {as bs : List Json} (hcount : as.length = bs.length)
    (h : ∀ (i : Nat) (a b : Json), as[i]? = some a → bs[i]? = some b →
      convert (s.withType item) a = convert (s.withType item) b) :
    ((rowParts s item as).mapM fun p => convert p.1 p.2) =
      (rowParts s item bs).mapM fun p => convert p.1 p.2 := by
  refine mapM_congr_getElem? ?_ ?_
  · simp [rowParts, hcount]
  · intro i p q hp hq
    simp only [rowParts, List.getElem?_map, Option.map_eq_some_iff] at hp hq
    obtain ⟨a, ha, rfl⟩ := hp
    obtain ⟨b, hb, rfl⟩ := hq
    exact h i a b ha hb

theorem convertStruct_congr {α β : Type} {filter : String}
    {convert : Symbol → Json → Except Error α} {wrap : List α → β} {v w : Json}
    {as bs : List Json} (hv : v.entries? = some as) (hw : w.entries? = some bs)
    (hcount : as.length = bs.length)
    (h : ∀ (i : Nat) (f : Field) (a b : Json), struct.fields[i]? = some f → as[i]? = some a →
      bs[i]? = some b → convert (.ofField m struct f) a = convert (.ofField m struct f) b) :
    convertStruct filter s m struct convert wrap v =
      convertStruct filter s m struct convert wrap w := by
  unfold convertStruct
  rw [hv, hw]
  dsimp only
  rw [hcount, mapM_fieldParts_congr hcount h]

/-- The initializer does not depend on the keys of entries of structs. -/
theorem defaultValue_congr {t : DataType} {v w : Json} (h : SamePlaces x.system t v w) :
    ∀ s : Symbol, s.type = t → x.defaultValue s v = x.defaultValue s w := by
  induction h with
  | same t v => exact fun _ _ => rfl
  | struct hr hv hw hcount _ ih =>
      intro s ht
      rw [Mapper.defaultValue_struct ht hr, Mapper.defaultValue_struct ht hr]
      exact convertStruct_congr hv hw hcount fun i f a b hf ha hb => ih i f a b hf ha hb _ rfl
  | rows hrows hcount _ ih =>
      intro s ht
      rw [Mapper.defaultValue_list (ht ▸ hrows), Mapper.defaultValue_list (ht ▸ hrows)]
      dsimp only [Json.items?]
      rw [mapM_rowParts_congr hcount fun i a b ha hb => ih i a b ha hb _ rfl]

/-- A value for a type without parts has no keys that could be others. -/
theorem SamePlaces.eq_of_hasConvertedRows {system : System} {t : DataType} {v w : Json}
    (h : SamePlaces system t v w) (ht : Mapper.hasConvertedRows t = false) : v = w := by
  cases h with
  | same => rfl
  | struct => cases ht
  | rows hrows => rcases hrows with rfl | rfl <;> cases ht

theorem simulationValue_congr {t : DataType} {v w : Json} (h : SamePlaces x.system t v w) :
    ∀ s : Symbol, s.type = t → x.simulationValue s v = x.simulationValue s w := by
  induction h with
  | same t v => exact fun _ _ => rfl
  | struct hr hv hw hcount _ ih =>
      intro s ht
      rw [Mapper.simulationValue_struct ht hr, Mapper.simulationValue_struct ht hr]
      exact convertStruct_congr hv hw hcount fun i f a b hf ha hb => ih i f a b hf ha hb _ rfl
  | @rows t item as bs hrows hcount hall ih =>
      intro s ht
      rw [Mapper.simulationValue_list (ht ▸ hrows), Mapper.simulationValue_list (ht ▸ hrows)]
      dsimp only [Json.items?]
      cases hitem : Mapper.hasConvertedRows item with
      | true =>
          rw [mapM_rowParts_congr hcount fun i a b ha hb => ih i a b ha hb _ rfl]
          rfl
      | false =>
          have hrow : as = bs := List.ext_getElem hcount fun i ha hb =>
            (hall i _ _ (List.getElem?_eq_getElem ha)
              (List.getElem?_eq_getElem hb)).eq_of_hasConvertedRows hitem
          rw [hrow]

/-! ## Reading by name -/

/-- The keys of an object are the names of the fields of a struct. -/
structure NamesFields (struct : Struct) (ms : Members) : Prop where
  distinct : ms.keys.Nodup
  same : ms.keys.Perm (struct.fields.map (·.name))

/-- They stand in the order of the fields. -/
structure NamesFieldsInOrder (struct : Struct) (ms : Members) : Prop where
  distinct : ms.keys.Nodup
  inOrder : ms.keys = struct.fields.map (·.name)

/-- A value for a type, and the same value with arrays instead of those objects that have keys of some
kind: for each field of a struct, the entry that stood under its name. -/
inductive ByName (system : System) (Keyed : Struct → Members → Prop) :
    DataType → Json → Json → Prop
  | same (t : DataType) (v : Json) : ByName system Keyed t v v
  | object {r : SymbolRef} {m : Module} {struct : Struct} {ms : Members} {bs : List Json}
      (hr : system.struct? r = some (m, struct)) (hkeys : Keyed struct ms)
      (hcount : bs.length = struct.fields.length)
      (hall : ∀ (i : Nat) (f : Field) (a b : Json), struct.fields[i]? = some f →
        ms.get? f.name = some a → bs[i]? = some b → ByName system Keyed f.type a b) :
      ByName system Keyed (.struct r) (.object ms) (.array bs)
  | array {r : SymbolRef} {m : Module} {struct : Struct} {as bs : List Json}
      (hr : system.struct? r = some (m, struct)) (hcount : as.length = bs.length)
      (hall : ∀ (i : Nat) (f : Field) (a b : Json), struct.fields[i]? = some f →
        as[i]? = some a → bs[i]? = some b → ByName system Keyed f.type a b) :
      ByName system Keyed (.struct r) (.array as) (.array bs)
  | rows {t item : DataType} {as bs : List Json} (ht : t = .list item ∨ t = .model item)
      (hcount : as.length = bs.length)
      (hall : ∀ (i : Nat) (a b : Json), as[i]? = some a → bs[i]? = some b →
        ByName system Keyed item a b) : ByName system Keyed t (.array as) (.array bs)

/-- If the keys are in order, the entry at the place of a field stands under the name of the field. -/
theorem NamesFieldsInOrder.get? {ms : Members} (h : NamesFieldsInOrder struct ms) {i : Nat}
    {f : Field} {a : Json} (hf : struct.fields[i]? = some f)
    (ha : (ms.map Prod.snd)[i]? = some a) : ms.get? f.name = some a := by
  rw [List.getElem?_map, Option.map_eq_some_iff] at ha
  obtain ⟨⟨key, v⟩, hmember, rfl⟩ := ha
  have hkey : ms.keys[i]? = some key := by
    rw [Members.keys, List.getElem?_map, hmember]
    rfl
  rw [h.inOrder, List.getElem?_map, hf] at hkey
  cases hkey
  exact Members.get?_of_mem h.distinct (List.mem_of_getElem? hmember)

theorem NamesFieldsInOrder.length {ms : Members} (h : NamesFieldsInOrder struct ms) :
    (ms.map Prod.snd).length = struct.fields.length := by
  have hlength := congrArg List.length h.inOrder
  rw [Members.keys, List.length_map, List.length_map] at hlength
  rw [List.length_map, hlength]

/-- Keys in order may as well be left out. -/
theorem ByName.samePlaces {system : System} {t : DataType} {v w : Json}
    (h : ByName system NamesFieldsInOrder t v w) : SamePlaces system t v w := by
  induction h with
  | same t v => exact .same t v
  | object hr hkeys hcount _ ih =>
      refine .struct hr rfl rfl (hkeys.length.trans hcount.symm) fun i f a b hf ha hb => ?_
      exact ih i f a b hf (hkeys.get? hf ha) hb
  | array hr hcount _ ih => exact .struct hr rfl rfl hcount ih
  | rows hrows hcount _ ih => exact .rows hrows hcount ih

/-- The array with the entry under the name of each field. -/
def namedEntries (struct : Struct) (ms : Members) : Json :=
  .array (struct.fields.map fun f => (ms.get? f.name).getD .null)

/-- The entries at the places of the fields are converted as those under their names are. -/
def Agree {α : Type} (convert : Symbol → Json → Except Error α) (m : Module) (struct : Struct)
    (ms : Members) : Prop :=
  ∀ (i : Nat) (f : Field) (a b : Json), struct.fields[i]? = some f →
    (ms.map Prod.snd)[i]? = some a → ms.get? f.name = some b →
      convert (.ofField m struct f) a = convert (.ofField m struct f) b

theorem NamesFields.length {ms : Members} (h : NamesFields struct ms) :
    (ms.map Prod.snd).length = struct.fields.length := by
  have hlength := h.same.length_eq
  rw [Members.keys, List.length_map, List.length_map] at hlength
  rw [List.length_map, hlength]

/-- There is an entry under the name of every field. -/
theorem NamesFields.exists_get? {ms : Members} (h : NamesFields struct ms) {f : Field}
    (hf : f ∈ struct.fields) : ∃ b, ms.get? f.name = some b :=
  Members.mem_keys_iff.mp (h.same.mem_iff.mpr (List.mem_map_of_mem hf))

theorem mem_namedEntries {ms : Members} (h : NamesFields struct ms) {i : Nat} {f : Field} {b : Json}
    (hf : struct.fields[i]? = some f)
    (hb : (struct.fields.map fun f => (ms.get? f.name).getD .null)[i]? = some b) :
    ms.get? f.name = some b := by
  obtain ⟨c, hc⟩ := h.exists_get? (List.mem_of_getElem? hf)
  rw [List.getElem?_map, hf, Option.map_some, hc, Option.getD_some] at hb
  rw [hc, hb]

theorem convertStruct_of_agree {α β : Type} {filter : String}
    {convert : Symbol → Json → Except Error α} {wrap : List α → β} {ms : Members}
    (h : NamesFields struct ms) (hagree : Agree convert m struct ms) :
    convertStruct filter s m struct convert wrap (.object ms) =
      convertStruct filter s m struct convert wrap (namedEntries struct ms) := by
  refine convertStruct_congr rfl rfl ?_ fun i f a b hf ha hb => ?_
  · rw [h.length, List.length_map]
  · exact hagree i f a b hf ha (mem_namedEntries h hf hb)

theorem getElem?_fieldParts {entries : List Json} {i : Nat} {f : Field} {a : Json}
    (hf : struct.fields[i]? = some f) (ha : entries[i]? = some a) :
    (fieldParts m struct entries)[i]? = some (.ofField m struct f, a) := by
  have hsymbol : (struct.fields.map (Symbol.ofField m struct))[i]? =
      some (.ofField m struct f) := by
    rw [List.getElem?_map, hf]
    rfl
  exact List.getElem?_zip_eq_some.mpr ⟨hsymbol, ha⟩

/-- A struct is converted if its entries are, one for each field. -/
theorem values_of_convertStruct {α β : Type} {filter : String}
    {convert : Symbol → Json → Except Error α} {wrap : List α → β} {v : Json}
    {entries : List Json} {out : β} (hv : v.entries? = some entries)
    (h : convertStruct filter s m struct convert wrap v = .ok out) :
    ∃ values, ((fieldParts m struct entries).mapM fun p => convert p.1 p.2) = .ok values ∧
      wrap values = out := by
  unfold convertStruct at h
  rw [hv] at h
  dsimp only at h
  split at h
  · cases h
  · exact map_eq_ok.mp h

/-- If entries at places and under names give the same values, each of them does. -/
theorem agree_of_values {α : Type} {convert : Symbol → Json → Except Error α} {ms : Members}
    {values : List α}
    (hplaces : ((fieldParts m struct (ms.map Prod.snd)).mapM fun p => convert p.1 p.2) = .ok values)
    (hnames : ((fieldParts m struct (struct.fields.map fun f => (ms.get? f.name).getD .null)).mapM
      fun p => convert p.1 p.2) = .ok values) : Agree convert m struct ms := by
  intro i f a b hf ha hb
  have hnamed : (struct.fields.map fun f => (ms.get? f.name).getD .null)[i]? = some b := by
    rw [List.getElem?_map, hf, Option.map_some, hb]
    rfl
  obtain ⟨y, hy, hplace⟩ := exists_value_of_getElem? hplaces (getElem?_fieldParts hf ha)
  obtain ⟨z, hz, hname⟩ := exists_value_of_getElem? hnames (getElem?_fieldParts hf hnamed)
  cases hy.symm.trans hz
  exact hplace.trans hname.symm

/-- How the entries of objects are used for the fields of structs: by their places, at any depth.
Reading by name comes to the same if the keys stand in the order of the fields; otherwise the
simulation data are the same exactly if what stands at the place of each field is converted as what
stands under its name. -/
structure ReadByPlace (x : Mapper) : Prop where
  places : ∀ (s : Symbol) (v w : Json), SamePlaces x.system s.type v w →
    x.defaultValue s v = x.defaultValue s w ∧ x.simulationValue s v = x.simulationValue s w
  inOrder : ∀ (s : Symbol) (v w : Json), ByName x.system NamesFieldsInOrder s.type v w →
    x.defaultValue s v = x.defaultValue s w ∧ x.simulationValue s v = x.simulationValue s w
  initializer : ∀ (s : Symbol) r m struct ms, s.type = .struct r →
    x.system.struct? r = some (m, struct) → NamesFields struct ms →
      Agree x.defaultValue m struct ms →
        x.defaultValue s (.object ms) = x.defaultValue s (namedEntries struct ms)
  simulation : ∀ (s : Symbol) r m struct ms, s.type = .struct r →
    x.system.struct? r = some (m, struct) → NamesFields struct ms →
      ∀ placed named, x.simulationValue s (.object ms) = .ok placed →
        x.simulationValue s (namedEntries struct ms) = .ok named →
          (placed = named ↔ Agree x.simulationValue m struct ms)

/-- The keys of objects are not looked at, in initializers and in simulation data alike. -/
theorem readByPlace (x : Mapper) : ReadByPlace x where
  places s v w h := ⟨defaultValue_congr h s rfl, simulationValue_congr h s rfl⟩
  inOrder s v w h :=
    ⟨defaultValue_congr h.samePlaces s rfl, simulationValue_congr h.samePlaces s rfl⟩
  initializer s r m struct ms ht hr hnames hagree := by
    rw [Mapper.defaultValue_struct ht hr, Mapper.defaultValue_struct ht hr]
    exact convertStruct_of_agree hnames hagree
  simulation s r m struct ms ht hr hnames placed named hplaced hnamed := by
    rw [Mapper.simulationValue_struct ht hr] at hplaced hnamed
    constructor
    · rintro rfl
      obtain ⟨values, hvalues, hwrap⟩ := values_of_convertStruct rfl hplaced
      obtain ⟨others, hothers, hwrap'⟩ := values_of_convertStruct rfl hnamed
      have hsame : values = others := by
        simpa [Mapper.typed] using hwrap.trans hwrap'.symm
      exact agree_of_values hvalues (hsame ▸ hothers)
    · intro hagree
      rw [convertStruct_of_agree hnames hagree, hnamed] at hplaced
      exact (Except.ok.inj hplaced).symm

/-- An object with the fields of a point, the second one first. -/
def Sample.swapped : Members := [("y", .int 2), ("x", .int 1)]

/-- Objects are not read by name: two keys that change places change the initializer and the
simulation data. -/
theorem not_read_by_name :
    let x : Mapper := ⟨Sample.boardSystem, ""⟩
    let s : Symbol := .ofProperty Sample.boardModule Sample.board Sample.origin
    NamesFields Sample.point Sample.swapped ∧
    ByName x.system NamesFields s.type (.object Sample.swapped) (.array [.int 1, .int 2]) ∧
    x.defaultValue s (.object Sample.swapped) ≠ x.defaultValue s (.array [.int 1, .int 2]) ∧
    x.simulationValue s (.object Sample.swapped) ≠
      x.simulationValue s (.array [.int 1, .int 2]) ∧
    x.defaultValue s (.object Sample.swapped) ≠
      x.defaultValue s (.object Sample.swapped.reverse) ∧
    x.simulationValue s (.object Sample.swapped) ≠
      x.simulationValue s (.object Sample.swapped.reverse) := by
  intro x s
  have hnames : NamesFields Sample.point Sample.swapped :=
    ⟨by decide, List.Perm.swap "x" "y" []⟩
  have hname : ByName x.system NamesFields s.type (.object Sample.swapped)
      (.array [.int 1, .int 2]) := by
    have hpoint : Sample.boardSystem.struct? ⟨"m", "Point"⟩ =
        some (Sample.boardModule, Sample.point) := rfl
    refine .object hpoint hnames rfl fun i f a b hf ha hb => ?_
    rcases i with _ | _ | i
    · cases hf
      cases ha
      cases hb
      exact .same _ _
    · cases hf
      cases ha
      cases hb
      exact .same _ _
    · cases hf
  refine ⟨hnames, hname, ?_, ?_, ?_, ?_⟩
  all_goals decide +kernel

end Stencil.Spelling
