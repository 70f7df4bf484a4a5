import Stencil.Document.Load
import Stencil.Proofs.Document.References
import Stencil.Proofs.Prepare.Supported

/-!
# Spellings of a checked model

In a system that is built from documents and has passed the check of types, two
shapes of types alone lack a spelling.  A model of void has no type, neither as a
result nor as a parameter; an enum without members has no default value.
-/

namespace Stencil.Spelling

open Model (DataType Node Symbol SymbolRef System)

/-- A type whose reference leads to a declaration, and which the check of types lets through. -/
structure Mappable (system : System) (t : DataType) : Prop where
  resolves : system.Resolves t
  supported : Prepare.Supported t

/-- The error of a filter for a model of void. -/
def voidModelFault? (filter : String) (s : Symbol) : Option Error :=
  match s.type with
  | .model .void => some (.unknown filter s)
  | _ => none

/-- The error for the default value of an enum whose declaration has no members. -/
def emptyEnumFault? (system : System) : DataType → Option Error
  | .enum r =>
      (system.enum? r).bind fun (_, e) =>
        if e.members = [] then some (.emptyEnum "default_type_value" e.name) else none
  | _ => none

variable {x : Mapper} {s : Symbol} {r : SymbolRef}

/-! ## References -/

theorem exists_module_of_struct? (h : (x.system.struct? r).isSome) :
    ∃ m, x.system.module? r.module = some m := by
  obtain ⟨p, hp⟩ := Option.isSome_iff_exists.mp h
  obtain ⟨m, hm, -⟩ := Option.bind_eq_some_iff.mp hp
  exact ⟨m, hm⟩

theorem enum_eq_ok {p : Model.Module × Model.Enum} (h : x.system.enum? r = some p)
    (filter : String) (s : Symbol) : x.enum filter s r = .ok p := by
  rw [Mapper.enum, h]

theorem failure?_enumType (h : (x.system.enum? r).isSome) (filter : String) (s : Symbol) :
    failure? (x.enumType filter s r) = none := by
  obtain ⟨p, hp⟩ := Option.isSome_iff_exists.mp h
  unfold Mapper.enumType
  rw [enum_eq_ok hp]
  rfl

theorem failure?_classType (h : (x.system.struct? r).isSome) (filter : String) (s : Symbol) :
    failure? (x.classType filter s r) = none := by
  obtain ⟨m, hm⟩ := exists_module_of_struct? h
  unfold Mapper.classType Mapper.module
  rw [hm]
  rfl

/-- An interface or a map is no type that the check lets through. -/
theorem Mappable.not_interface (h : Mappable x.system (.interface r)) : False := by
  cases h.supported

theorem Mappable.not_map {item : DataType} (h : Mappable x.system (.map item)) : False := by
  cases h.supported

/-! ## The filters -/

theorem failure?_returnType (h : Mappable x.system s.type) :
    failure? (x.returnType s) = voidModelFault? "return_type" s := by
  unfold Mapper.returnType voidModelFault?
  cases ht : s.type with
  | void | list item => rfl
  | primitive p => cases p <;> rfl
  | model item => cases item <;> rfl
  | enum r | flag r => exact failure?_enumType (ht ▸ h).resolves "return_type" s
  | struct r => exact failure?_classType (ht ▸ h).resolves "return_type" s
  | interface r => exact (ht ▸ h).not_interface.elim
  | map item => exact (ht ▸ h).not_map.elim

theorem failure?_parameterType (h : Mappable x.system s.type) :
    failure? (x.parameterType s) = voidModelFault? "parameter_type" s := by
  unfold Mapper.parameterType voidModelFault?
  cases ht : s.type with
  | void | list item => rfl
  | primitive p => cases p <;> rfl
  | model item => cases item <;> rfl
  | enum r | flag r =>
      exact (failure?_map _ _).trans (failure?_enumType (ht ▸ h).resolves "parameter_type" s)
  | struct r =>
      exact (failure?_map _ _).trans (failure?_classType (ht ▸ h).resolves "parameter_type" s)
  | interface r => exact (ht ▸ h).not_interface.elim
  | map item => exact (ht ▸ h).not_map.elim

/-- Only an enum is asked for its members; flags are spelled without them. -/
theorem failure?_defaultTypeValue (h : Mappable x.system s.type) :
    failure? (x.defaultTypeValue s) = emptyEnumFault? x.system s.type := by
  unfold Mapper.defaultTypeValue emptyEnumFault?
  cases ht : s.type with
  | void | list item | model item => rfl
  | primitive p => cases p <;> rfl
  | enum r =>
      obtain ⟨⟨m, e⟩, hp⟩ := Option.isSome_iff_exists.mp (ht ▸ h).resolves
      dsimp only
      rw [enum_eq_ok hp, hp]
      cases hmembers : e.members with
      | nil => simp [failure?, hmembers, bind, Except.bind, throw, throwThe, MonadExceptOf.throw]
      | cons first rest => simp [failure?, hmembers, bind, Except.bind, pure, Except.pure]
  | flag r =>
      obtain ⟨p, hp⟩ := Option.isSome_iff_exists.mp (ht ▸ h).resolves
      dsimp only
      rw [enum_eq_ok hp]
      rfl
  | struct r =>
      exact (failure?_map _ _).trans
        (failure?_classType (ht ▸ h).resolves "default_type_value" s)
  | interface r => exact (ht ▸ h).not_interface.elim
  | map item => exact (ht ▸ h).not_map.elim

/-- A parameter with its default value has the fault of its type, or else that of the value. -/
theorem failure?_parameterTypeDefault (h : Mappable x.system s.type) :
    failure? (x.parameterTypeDefault s) =
      (voidModelFault? "parameter_type_default" s <|> emptyEnumFault? x.system s.type) := by
  have hvalue := failure?_defaultTypeValue h
  unfold Mapper.parameterTypeDefault voidModelFault?
  cases ht : s.type with
  | list item => rfl
  | void =>
      rw [ht] at hvalue
      exact (failure?_map _ _).trans hvalue
  | primitive p =>
      rw [ht] at hvalue
      cases p with
      | int | bool => exact (failure?_map _ _).trans hvalue
      | string | real | var => rfl
  | model item => cases item <;> rfl
  | enum r | flag r =>
      have htype := failure?_enumType (ht ▸ h).resolves "parameter_type_default" s
      obtain ⟨text, htext⟩ := failure?_eq_none.mp htype
      dsimp only
      rw [htext]
      exact (failure?_map (fun v => text ++ " " ++ s.name ++ "=" ++ v) _).trans (ht ▸ hvalue)
  | struct r =>
      exact (failure?_map _ _).trans
        (failure?_classType (ht ▸ h).resolves "parameter_type_default" s)
  | interface r => exact (ht ▸ h).not_interface.elim
  | map item => exact (ht ▸ h).not_map.elim

theorem failure?_qmlInfoType (h : Mappable x.system s.type) :
    failure? (x.qmlInfoType s) = none := by
  unfold Mapper.qmlInfoType
  cases ht : s.type with
  | void | list item | model item | struct r => rfl
  | primitive p => cases p <;> rfl
  | enum r | flag r =>
      obtain ⟨p, hp⟩ := Option.isSome_iff_exists.mp (ht ▸ h).resolves
      dsimp only
      rw [enum_eq_ok hp]
      rfl
  | interface r => exact (ht ▸ h).not_interface.elim
  | map item => exact (ht ▸ h).not_map.elim

theorem failure?_flagType (h : Mappable x.system s.type) :
    failure? (x.flagType s) = none := by
  unfold Mapper.flagType
  cases ht : s.type with
  | enum r | flag r =>
      obtain ⟨p, hp⟩ := Option.isSome_iff_exists.mp (ht ▸ h).resolves
      dsimp only
      rw [enum_eq_ok hp]
      rfl
  | _ => rfl

theorem voidModelFault?_eq_none (h : s.type ≠ .model .void) (filter : String) :
    voidModelFault? filter s = none := by
  unfold voidModelFault?
  split
  · rename_i ht
    exact absurd ht h
  · rfl

theorem emptyEnum_of_emptyEnumFault? {system : System} {t : DataType} {e : Error}
    (h : emptyEnumFault? system t = some e) : ∃ name, e = .emptyEnum "default_type_value" name := by
  unfold emptyEnumFault? at h
  split at h
  · obtain ⟨⟨m, d⟩, -, hfault⟩ := Option.bind_eq_some_iff.mp h
    dsimp only at hfault
    split_ifs at hfault
    cases hfault
    exact ⟨d.name, rfl⟩
  · cases h

/-! ## Systems from documents -/

/-- The typed symbols of a loaded system that has passed the check are mappable. -/
theorem mappable_of_walk {t : Files.Tree} {paths : List String} {source : String}
    {system : System} (hload : Document.load t paths = .ok system)
    (hcheck : Prepare.checkSupportedTypes source system = .ok ()) {name : String} {n : Node}
    (hn : (name, n) ∈ system.walk) (hs : n.symbol? = some s) : Mappable system s.type := by
  obtain ⟨sources, -, hbuild⟩ := bind_eq_ok.mp hload
  have hself : s.type.inner? 0 = some s.type := rfl
  have hresolves := Document.resolves_of_walk hbuild hn hs hself
  exact ⟨hresolves, Prepare.supported_of_walk hcheck hn hs⟩

/-- In a loaded system that has passed the check, the spellings of every typed symbol fail with
these errors and no others, whatever stands before the names of enum scopes. -/
theorem faults_of_checked {t : Files.Tree} {paths : List String} {source : String}
    {system : System} (hload : Document.load t paths = .ok system)
    (hcheck : Prepare.checkSupportedTypes source system = .ok ()) {name : String} {n : Node}
    (hn : (name, n) ∈ system.walk) (hs : n.symbol? = some s) (classPrefix : String) :
    let x : Mapper := ⟨system, classPrefix⟩
    failure? (x.returnType s) = voidModelFault? "return_type" s ∧
    failure? (x.parameterType s) = voidModelFault? "parameter_type" s ∧
    failure? (x.defaultTypeValue s) = emptyEnumFault? system s.type ∧
    failure? (x.parameterTypeDefault s) =
      (voidModelFault? "parameter_type_default" s <|> emptyEnumFault? system s.type) ∧
    failure? (x.qmlInfoType s) = none ∧
    failure? (x.flagType s) = none ∧
    (s.type ≠ .model .void →
      ∀ spelling ∈ [x.returnType s, x.parameterType s, x.defaultTypeValue s,
        x.parameterTypeDefault s, x.qmlInfoType s, x.flagType s],
        ∀ filter symbol type, spelling ≠ .error (.unknownType filter symbol type)) := by
  intro x
  have h : Mappable x.system s.type := mappable_of_walk hload hcheck hn hs
  have hreturn := failure?_returnType h
  have hparameter := failure?_parameterType h
  have hvalue := failure?_defaultTypeValue h
  have hdefault := failure?_parameterTypeDefault h
  have hinfo := failure?_qmlInfoType h
  have hflag := failure?_flagType h
  refine ⟨hreturn, hparameter, hvalue, hdefault, hinfo, hflag, ?_⟩
  intro hvoid spelling hmem filter symbol type heq
  rw [voidModelFault?_eq_none hvoid] at hreturn hparameter hdefault
  -- what is left of the errors is that of an enum without members
  have hfault : failure? spelling = none ∨ failure? spelling = emptyEnumFault? system s.type := by
    simp only [List.mem_cons, List.not_mem_nil, or_false] at hmem
    rcases hmem with rfl | rfl | rfl | rfl | rfl | rfl
    · exact Or.inl hreturn
    · exact Or.inl hparameter
    · exact Or.inr hvalue
    · exact Or.inr hdefault
    · exact Or.inl hinfo
    · exact Or.inl hflag
  have hsome := failure?_eq_some.mpr heq
  rcases hfault with hnone | hempty
  · rw [hnone] at hsome
    cases hsome
  · obtain ⟨enumName, hname⟩ := emptyEnum_of_emptyEnumFault? (hempty.symm.trans hsome)
    cases hname

/-- A tree with one document. -/
def Sample.tree : Files.Tree :=
  ⟨[(["w", "a.yaml"], .file (.text
      "module: m
interfaces:
  - name: Echo
    properties:
      - { name: rows, type: model<void> }
      - { name: mode, type: Mode }
enums:
  - { name: Mode, members: [] }
")), (["w"], .directory)], ["w"]⟩

/-- The enum of the document, which has no members. -/
def Sample.mode : Model.Enum where
  name := "Mode"

/-- A property of that enum. -/
def Sample.property : Model.Property where
  name := "mode"
  type := .enum ⟨"m", "Mode"⟩

/-- An interface with the two types that lack a spelling. -/
def Sample.echo : Model.Interface where
  name := "Echo"
  properties := [{ name := "rows", type := .model .void }, Sample.property]

/-- The module that the document describes. -/
def Sample.module : Model.Module where
  name := "m"
  version := ⟨1, 0⟩
  interfaces := [Sample.echo]
  enums := [Sample.mode]
  source := some "a.yaml"

/-- The system that is loaded. -/
def Sample.system : System := ⟨[Sample.module]⟩

theorem Sample.load_system : Document.load Sample.tree ["a.yaml"] = .ok Sample.system := by
  decide +kernel

theorem faults_of_checked_mode :
    Document.load Sample.tree ["a.yaml"] = .ok Sample.system ∧
    Prepare.checkSupportedTypes "a.yaml" Sample.system = .ok () ∧
    ("m.Echo#mode", Node.property Sample.module Sample.echo Sample.property) ∈
      Sample.system.walk ∧
    failure? ((⟨Sample.system, ""⟩ : Mapper).parameterTypeDefault
      (.ofProperty Sample.module Sample.echo Sample.property)) =
        some (.emptyEnum "default_type_value" "Mode") :=
  have hcheck : Prepare.checkSupportedTypes "a.yaml" Sample.system = .ok () := rfl
  have hmem : ("m.Echo#mode", Node.property Sample.module Sample.echo Sample.property) ∈
      Sample.system.walk := by decide +kernel
  have hfaults := faults_of_checked Sample.load_system hcheck hmem rfl ""
  ⟨Sample.load_system, hcheck, hmem, hfaults.2.2.2.1⟩

end Stencil.Spelling
