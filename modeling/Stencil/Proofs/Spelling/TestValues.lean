import Stencil.Proofs.Spelling.Endless

/-!
# Values for tests beside zero values

A value for tests is there to be told from the zero value of its type.  Both are texts,
and the text of a struct is made of those of its fields, so that it is not enough to
compare the values.  Two texts that are written are the same for the degenerate types
alone: `void`, an enum whose first and last members have one name, and a struct between
whose parentheses nothing is written.

The zero value of flags ends in parentheses.  A member of the flags could be called like
that, as far as texts go; members without parentheses in their names are never mistaken
for it.
-/

namespace Stencil.Spelling

open Model (DataType Member Module Struct Symbol SymbolRef System)

/-- The types whose zero value and value for tests are the same text. -/
inductive Degenerate (system : System) : DataType → Prop
  | void : Degenerate system .void
  | enum {r : SymbolRef} {p : Module × Model.Enum} {first last : Member}
      (declared : system.enum? r = some p) (head : p.2.members.head? = some first)
      (end_ : p.2.members.getLast? = some last) (same : first.name = last.name) :
      Degenerate system (.enum r)
  | noFields {r : SymbolRef} {p : Module × Struct} (declared : system.struct? r = some p)
      (fields : p.2.fields = []) : Degenerate system (.struct r)
  | voidField {r : SymbolRef} {p : Module × Struct} {f : Model.Field}
      (declared : system.struct? r = some p) (fields : p.2.fields = [f]) (type : f.type = .void) :
      Degenerate system (.struct r)

/-- Flags whose last member is called like their zero value. -/
def CalledLikeZero (system : System) (t : DataType) : Prop :=
  ∃ r p last, t = .flag r ∧ system.enum? r = some p ∧ p.2.members.getLast? = some last ∧
    last.name = flagTypeOf p.2 ++ "()"

/-! ## Texts -/

/-- Joined texts are empty only if there is nothing to join, or nothing but one empty text. -/
theorem intercalate_eq_empty {separator : String} (h : separator ≠ "") {values : List String} :
    separator.intercalate values = "" ↔ values = [] ∨ values = [""] := by
  match values with
  | [] => simp
  | [value] => simp
  | first :: second :: rest => simp [h]

theorem append_parentheses (text : String) : text ++ "()" = text ++ "(" ++ "" ++ ")" := by
  rw [String.append_empty, String.append_assoc]
  rfl

theorem not_calledLikeZero {system : System} {t : DataType} (h : ∀ r, t ≠ .flag r) :
    ¬ CalledLikeZero system t :=
  fun ⟨r, _, _, hr, _⟩ => h r hr

namespace Mapper

variable {x : Mapper} {s : Symbol} {r : SymbolRef} {t : DataType} {d v : String}
  {field : Symbol → Except Error String}

/-! ## What the values are -/

theorem enum_eq_ok_iff {filter : String} {p : Module × Model.Enum} :
    x.enum filter s r = .ok p ↔ x.system.enum? r = some p := by
  unfold Mapper.enum
  cases x.system.enum? r <;> simp

/-- The value for tests of an enum or of flags is the last member. -/
theorem exists_last (ht : t = .enum r ∨ t = .flag r) (h : x.testValueWith field s t = .ok v) :
    ∃ p last, x.system.enum? r = some p ∧ p.2.members.getLast? = some last ∧
      v = enumScope p.1 ++ "::" ++ last.name := by
  rcases ht with rfl | rfl
  all_goals
    rw [Mapper.testValueWith] at h
    obtain ⟨p, hp, hlast⟩ := bind_eq_ok.mp h
    dsimp only at hlast
    split at hlast
    · rename_i last hmember
      exact ⟨p, last, enum_eq_ok_iff.mp hp, hmember, (Except.ok.inj hlast).symm⟩
    · cases hlast

/-- The value for tests of a struct holds those of its fields. -/
theorem exists_values (h : x.testValueWith field s (.struct r) = .ok v) :
    ∃ p values, x.system.struct? r = some p ∧ (fieldsOf p).mapM field = .ok values ∧
      v = namespacePrefix p.1 ++ p.2.name ++ "(" ++ String.intercalate ", " values ++ ")" := by
  rw [testValueWith_struct] at h
  cases hr : x.system.struct? r with
  | none => simp [hr] at h
  | some p =>
      rw [hr] at h
      obtain ⟨values, hvalues, heq⟩ := bind_eq_ok.mp h
      exact ⟨p, values, rfl, hvalues, (Except.ok.inj heq).symm⟩

/-- The zero value of an enum is the first member. -/
theorem exists_first (ht : s.type = .enum r) (h : x.defaultTypeValue s = .ok d) :
    ∃ p first, x.system.enum? r = some p ∧ p.2.members.head? = some first ∧
      d = enumScope p.1 ++ "::" ++ first.name := by
  unfold Mapper.defaultTypeValue at h
  rw [ht] at h
  obtain ⟨p, hp, hfirst⟩ := bind_eq_ok.mp h
  dsimp only at hfirst
  split at hfirst
  · rename_i first hmember
    exact ⟨p, first, enum_eq_ok_iff.mp hp, hmember, (Except.ok.inj hfirst).symm⟩
  · cases hfirst

/-- The zero value of flags holds no member. -/
theorem exists_flags (ht : s.type = .flag r) (h : x.defaultTypeValue s = .ok d) :
    ∃ p, x.system.enum? r = some p ∧
      d = enumScope p.1 ++ "::" ++ flagTypeOf p.2 ++ "()" := by
  unfold Mapper.defaultTypeValue at h
  rw [ht] at h
  obtain ⟨p, hp, heq⟩ := bind_eq_ok.mp h
  exact ⟨p, enum_eq_ok_iff.mp hp, (Except.ok.inj heq).symm⟩

/-- The zero value of a struct that is declared is its name with nothing in parentheses. -/
theorem defaultTypeValue_struct {p : Module × Struct} (ht : s.type = .struct r)
    (hp : x.system.struct? r = some p) (h : x.defaultTypeValue s = .ok d) :
    d = namespacePrefix p.1 ++ p.2.name ++ "()" := by
  obtain ⟨m, hm, hstruct⟩ := Option.bind_eq_some_iff.mp hp
  obtain ⟨struct, hfound, rfl⟩ := Option.map_eq_some_iff.mp hstruct
  have hname : struct.name = r.name := by simpa using List.find?_some hfound
  unfold Mapper.defaultTypeValue Mapper.classType Mapper.module at h
  simp only [ht, hm] at h
  rw [hname]
  exact (Except.ok.inj h).symm

/-! ## Empty values -/

theorem ofItems_ne_empty (item : DataType) (value : String) : ofItems item value ≠ "" := by
  unfold ofItems
  split <;> simp

/-- Nothing but `void` has an empty value for tests. -/
theorem testValueWith_eq_empty (h : x.testValueWith field s t = .ok v) :
    v = "" ↔ t = .void := by
  cases t with
  | void =>
      rw [Mapper.testValueWith] at h
      exact iff_of_true (Except.ok.inj h).symm rfl
  | primitive p =>
      refine iff_of_false ?_ (by simp)
      rintro rfl
      cases p <;> rw [Mapper.testValueWith] at h <;> simp at h
  | enum r =>
      obtain ⟨p, last, -, -, rfl⟩ := exists_last (Or.inl rfl) h
      simp
  | flag r =>
      obtain ⟨p, last, -, -, rfl⟩ := exists_last (Or.inr rfl) h
      simp
  | struct r =>
      obtain ⟨p, values, -, -, rfl⟩ := exists_values h
      simp
  | list item =>
      rw [testValueWith_list] at h
      obtain ⟨value, -, heq⟩ := bind_eq_ok.mp h
      obtain rfl := Except.ok.inj heq
      exact iff_of_false (ofItems_ne_empty item value) (by simp)
  | model item =>
      rw [Mapper.testValueWith] at h
      obtain rfl := Except.ok.inj h
      simp
  | interface r | map item =>
      rw [Mapper.testValueWith] at h
      cases h

theorem testValueWithin_eq_empty {depth : Nat} (h : x.testValueWithin depth s = .ok v) :
    v = "" ↔ s.type = .void := by
  cases depth with
  | zero => cases h
  | succ depth => exact testValueWith_eq_empty h

/-- What stands between the parentheses of a struct is empty if it has no fields, or a single one
of type `void`. -/
theorem intercalate_fields_eq_empty {depth : Nat} {p : Module × Struct} {values : List String}
    (h : (fieldsOf p).mapM (x.testValueWithin depth) = .ok values) :
    String.intercalate ", " values = "" ↔
      p.2.fields = [] ∨ ∃ f, p.2.fields = [f] ∧ f.type = .void := by
  rw [intercalate_eq_empty (by decide)]
  have hfields := mapM_eq_ok_iff.mp h
  unfold fieldsOf at hfields
  match hp : p.2.fields, values with
  | [], [] => simp
  | [], _ :: _ => simp [hp] at hfields
  | f :: rest, [] => simp [hp] at hfields
  | [f], [value] =>
      have hvalue : x.testValueWithin depth (.ofField p.1 p.2 f) = .ok value := by
        simpa [hp] using hfields
      have hempty : value = "" ↔ f.type = .void := testValueWithin_eq_empty hvalue
      simpa using hempty
  | [f], _ :: _ :: _ => simp [hp] at hfields
  | f :: g :: rest, [value] => simp [hp] at hfields
  | f :: g :: rest, _ :: _ :: _ => simp

/-! ## Both values -/

/-- The value of a list with an item is not that of a list without one. -/
theorem ofItems_ne_zero {item : DataType} {value : String} (h : value = "" ↔ item = .void) :
    ofItems item value ≠ "QVariantList()" := by
  intro heq
  unfold ofItems at heq
  split at heq
  · rename_i p
    -- both texts have the same ends, so that the item would have to be empty
    have hends : "QVariantList(" ++ value ++ ")" = "QVariantList(" ++ "" ++ ")" := heq
    rw [String.append_left_inj, String.append_right_inj] at hends
    cases h.mp hends
  · have hchars := congrArg String.toList heq
    simp at hchars

/-- Of the values of an enum both are the same if its first and last members have one name. -/
theorem eq_iff_of_enum (ht : s.type = .enum r) (hd : x.defaultTypeValue s = .ok d)
    (hv : x.testValueWith field s (.enum r) = .ok v) :
    d = v ↔ Degenerate x.system (.enum r) := by
  obtain ⟨p, first, hp, hfirst, rfl⟩ := exists_first ht hd
  obtain ⟨p', last, hp', hlast, rfl⟩ := exists_last (Or.inl rfl) hv
  obtain rfl := Option.some.inj (hp.symm.trans hp')
  rw [String.append_right_inj]
  constructor
  · exact .enum hp hfirst hlast
  · intro h
    cases h with
    | enum declared head end_ same =>
        obtain rfl := Option.some.inj (hp.symm.trans declared)
        obtain rfl := Option.some.inj (hfirst.symm.trans head)
        obtain rfl := Option.some.inj (hlast.symm.trans end_)
        exact same

/-- The zero value of flags ends in parentheses, and the value for tests in a member. -/
theorem eq_iff_of_flag (ht : s.type = .flag r) (hd : x.defaultTypeValue s = .ok d)
    (hv : x.testValueWith field s (.flag r) = .ok v) :
    d = v ↔ CalledLikeZero x.system (.flag r) := by
  obtain ⟨p, hp, rfl⟩ := exists_flags ht hd
  obtain ⟨p', last, hp', hlast, rfl⟩ := exists_last (Or.inr rfl) hv
  obtain rfl := Option.some.inj (hp.symm.trans hp')
  rw [String.append_assoc, String.append_right_inj, eq_comm]
  constructor
  · exact fun hname => ⟨r, p, last, rfl, hp, hlast, hname⟩
  · rintro ⟨r', p', last', hr, hp', hlast', hname⟩
    obtain rfl := DataType.flag.inj hr
    obtain rfl := Option.some.inj (hp.symm.trans hp')
    obtain rfl := Option.some.inj (hlast.symm.trans hlast')
    exact hname

/-- The values of a struct differ in what stands between the parentheses. -/
theorem eq_iff_of_struct {depth : Nat} (ht : s.type = .struct r)
    (hd : x.defaultTypeValue s = .ok d)
    (hv : x.testValueWith (x.testValueWithin depth) s (.struct r) = .ok v) :
    d = v ↔ Degenerate x.system (.struct r) := by
  obtain ⟨p, values, hp, hvalues, rfl⟩ := exists_values hv
  obtain rfl := defaultTypeValue_struct ht hp hd
  rw [append_parentheses, String.append_left_inj, String.append_right_inj, eq_comm,
    intercalate_fields_eq_empty hvalues]
  constructor
  · rintro (hfields | ⟨f, hfields, htype⟩)
    · exact .noFields hp hfields
    · exact .voidField hp hfields htype
  · intro h
    cases h with
    | noFields declared fields =>
        obtain rfl := Option.some.inj (hp.symm.trans declared)
        exact Or.inl fields
    | voidField declared fields type =>
        obtain rfl := Option.some.inj (hp.symm.trans declared)
        exact Or.inr ⟨_, fields, type⟩

theorem ne_of_list {item : DataType} (ht : s.type = .list item)
    (hd : x.defaultTypeValue s = .ok d) (hv : x.testValueWith field s (.list item) = .ok v) :
    d ≠ v := by
  rw [testValueWith_list] at hv
  obtain ⟨value, hvalue, heq⟩ := bind_eq_ok.mp hv
  obtain rfl := Except.ok.inj heq
  unfold Mapper.defaultTypeValue at hd
  rw [ht] at hd
  obtain rfl := Except.ok.inj hd
  exact (ofItems_ne_zero (testValueWith_eq_empty hvalue)).symm

/-- The values of types whose texts are fixed are different texts. -/
theorem ne_of_fixed (ht : (∃ p, s.type = .primitive p) ∨ ∃ item, s.type = .model item)
    (hd : x.defaultTypeValue s = .ok d) (hv : x.testValueWith field s s.type = .ok v) :
    d ≠ v := by
  unfold Mapper.defaultTypeValue at hd
  rcases ht with ⟨p, hp⟩ | ⟨item, hitem⟩
  · rw [hp] at hd hv
    cases p <;> rw [Mapper.testValueWith] at hv <;> cases hd <;> cases hv <;> decide
  · rw [hitem] at hd hv
    rw [Mapper.testValueWith] at hv
    cases hd
    cases hv
    decide

/-- A zero value and a value for tests are the same text for the degenerate types, and for flags
whose last member is called like the zero value. -/
theorem defaultTypeValue_eq_iff {depth : Nat} (hd : x.defaultTypeValue s = .ok d)
    (hv : x.testValueWithin depth s = .ok v) :
    d = v ↔ Degenerate x.system s.type ∨ CalledLikeZero x.system s.type := by
  cases depth with
  | zero => cases hv
  | succ depth =>
      change x.testValueWith (x.testValueWithin depth) s s.type = .ok v at hv
      cases ht : s.type with
      | void =>
          have hempty := (testValueWith_eq_empty hv).mpr ht
          unfold Mapper.defaultTypeValue at hd
          rw [ht] at hd
          exact iff_of_true ((Except.ok.inj hd).symm.trans hempty.symm) (Or.inl .void)
      | primitive p =>
          exact iff_of_false (ne_of_fixed (Or.inl ⟨p, ht⟩) hd hv)
            (not_or.mpr ⟨nofun, not_calledLikeZero nofun⟩)
      | model item =>
          exact iff_of_false (ne_of_fixed (Or.inr ⟨item, ht⟩) hd hv)
            (not_or.mpr ⟨nofun, not_calledLikeZero nofun⟩)
      | list item =>
          exact iff_of_false (ne_of_list ht hd (ht ▸ hv))
            (not_or.mpr ⟨nofun, not_calledLikeZero nofun⟩)
      | enum r => rw [eq_iff_of_enum ht hd (ht ▸ hv), or_iff_left (not_calledLikeZero (by simp))]
      | struct r => rw [eq_iff_of_struct ht hd (ht ▸ hv), or_iff_left (not_calledLikeZero (by simp))]
      | flag r => rw [eq_iff_of_flag ht hd (ht ▸ hv), or_iff_right nofun]
      | interface r | map item =>
          unfold Mapper.defaultTypeValue at hd
          rw [ht] at hd
          cases hd

/-- As long as no member of an enum has a parenthesis in its name, the zero value and the value for
tests of a symbol are the same text exactly if its type is degenerate, however its type is made of
lists, models and structs and whatever namespaces are called. -/
theorem zero_eq_test_iff (x : Mapper) (s : Symbol)
    (hmembers : ∀ m ∈ x.system.modules, ∀ e ∈ m.enums, ∀ member ∈ e.members,
      '(' ∉ member.name.toList)
    (hd : x.defaultTypeValue s = .ok d) (hv : x.testTypeValue s = .ok v) :
    d = v ↔ Degenerate x.system s.type := by
  rw [defaultTypeValue_eq_iff hd hv, or_iff_left]
  rintro ⟨r, p, last, -, hp, hlast, hname⟩
  obtain ⟨m, hm, henum⟩ := Option.bind_eq_some_iff.mp hp
  obtain ⟨e, he, rfl⟩ := Option.map_eq_some_iff.mp henum
  refine hmembers m (List.mem_of_find?_eq_some hm) e (List.mem_of_find?_eq_some he) last
    (List.mem_of_getLast? hlast) ?_
  simp [hname]

end Mapper

/-! ## A struct around a degenerate one -/

namespace Sample

/-- The field of a struct whose only field is of a degenerate type. -/
def stamp : Model.Field where
  name := "stamp"
  type := .struct ⟨"m", "Stamp"⟩

/-- The struct of that field. -/
def letter : Struct where
  name := "Letter"
  fields := [stamp]

/-- A module with these structs, and with flags. -/
def post : Module where
  name := "m"
  version := ⟨1, 0⟩
  structs :=
    [{ name := "Mark", fields := [{ name := "nothing", type := .void }] },
      { name := "Stamp", fields := [{ name := "mark", type := .struct ⟨"m", "Mark"⟩ }] }, letter]
  enums :=
    [{ name := "Side", isFlag := true, members := [{ name := "Left" }, { name := "Right" }] }]

end Sample

/-- A struct around a degenerate one is not degenerate itself. -/
theorem zero_eq_test_iff_stamp :
    let x : Mapper := ⟨⟨[Sample.post]⟩, ""⟩
    let s := Symbol.ofField Sample.post Sample.letter Sample.stamp
    (∀ m ∈ x.system.modules, ∀ e ∈ m.enums, ∀ member ∈ e.members,
      '(' ∉ member.name.toList) ∧
    x.defaultTypeValue s = .ok "Stamp()" ∧ x.testTypeValue s = .ok "Stamp(Mark())" ∧
    ¬ Degenerate x.system (.struct ⟨"m", "Stamp"⟩) := by
  intro x s
  have hmembers : ∀ m ∈ x.system.modules, ∀ e ∈ m.enums, ∀ member ∈ e.members,
      '(' ∉ member.name.toList := by decide +kernel
  have hd : x.defaultTypeValue s = .ok "Stamp()" := by decide +kernel
  have hv : x.testTypeValue s = .ok "Stamp(Mark())" := by decide +kernel
  exact ⟨hmembers, hd, hv,
    (Mapper.zero_eq_test_iff x s hmembers hd hv).not.mp (by decide)⟩

end Stencil.Spelling
