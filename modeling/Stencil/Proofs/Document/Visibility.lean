import Stencil.Proofs.Document.Spelling

/-!
# Which modules a spelling can name

A name alone is looked for in the module and its imports, so it stands for nothing
that these do not declare.  A name after that of a module is looked for there,
whether the module is imported or not, so the references of a module stay within
its imports exactly if no spelling in it is qualified with another one.
-/

namespace Stencil

namespace Model

/-- The module is the other one or imports it. -/
def Module.Sees (m : Module) (name : String) : Prop := name ∈ m.name :: m.imports

/-- What a type comes down to are its references at any depth. -/
theorem DataType.leaf?_eq_some_iff {r : SymbolRef} : ∀ {t : DataType},
    t.leaf? = some r ↔ ∃ depth u, t.inner? depth = some u ∧ u.reference? = some r := by
  intro t
  constructor
  · intro h
    induction t with
    | list t ih | model t ih | map t ih =>
        obtain ⟨depth, u, hu, hr⟩ := ih h
        exact ⟨depth + 1, u, hu, hr⟩
    | _ => exact ⟨0, _, rfl, h⟩
  · rintro ⟨depth, u, hu, hr⟩
    induction depth generalizing t with
    | zero =>
        cases hu
        cases u with
        | list | model | map => cases hr
        | _ => exact hr
    | succ depth ih =>
        cases t with
        | list t | model t | map t =>
            show t.leaf? = some r
            exact ih hu
        | _ => cases hu

end Model

namespace Document

open Model (DataType Primitive SymbolRef)

/-! ## The name in a spelling -/

/-- The name inside all brackets of a spelling, if these are closed. -/
def innerName? (cs : List Char) : Option String :=
  let spelling := Text.trimList Text.isBlank cs
  match _cut : Text.cutFirstList '<' spelling with
  | none => some (String.ofList spelling)
  | some (_, back) =>
      match _drop : Text.dropSuffixList ['>'] back with
      | none => none
      | some inner => innerName? inner
termination_by cs.length
decreasing_by exact length_inner_lt _cut _drop

/-- The module that the name in a spelling is qualified with. -/
def qualifier? (spelling : String) : Option String :=
  (innerName? spelling.toList).bind fun name => (Text.cutLast '.' name).map Prod.fst

section Levels

variable {cs front back inner : List Char}

theorem innerName?_name (h : Text.cutFirstList '<' (Text.trimList Text.isBlank cs) = none) :
    innerName? cs = some (String.ofList (Text.trimList Text.isBlank cs)) := by
  rw [innerName?]
  split
  · rfl
  · next hcut => cases h.symm.trans hcut

theorem innerName?_open
    (hcut : Text.cutFirstList '<' (Text.trimList Text.isBlank cs) = some (front, back))
    (hdrop : Text.dropSuffixList ['>'] back = none) : innerName? cs = none := by
  rw [innerName?]
  split
  · next h => cases h.symm.trans hcut
  · next h =>
      cases h.symm.trans hcut
      split
      · rfl
      · next h => cases h.symm.trans hdrop

theorem innerName?_container
    (hcut : Text.cutFirstList '<' (Text.trimList Text.isBlank cs) = some (front, back))
    (hdrop : Text.dropSuffixList ['>'] back = some inner) :
    innerName? cs = innerName? inner := by
  rw [innerName?]
  split
  · next h => cases h.symm.trans hcut
  · next h =>
      cases h.symm.trans hcut
      split
      · next h => cases h.symm.trans hdrop
      · next h =>
          cases h.symm.trans hdrop
          rfl

end Levels

/-! ## Names that stand for nothing -/

/-- The module itself and its imports. -/
def Scope.Sees (s : Scope) (module : String) : Prop := module ∈ s.module :: s.imports

/-- A name is unknown if it is not built in, and declared neither in the module that it is qualified
with nor, if it has no qualifier, in any that is seen. -/
structure Scope.Unknown (s : Scope) (name : String) : Prop where
  void : name ≠ "void"
  primitive : Primitive.ofName? name = none
  qualified : ∀ module last, Text.cutLast '.' name = some (module, last) →
    s.symbols module last = none
  alone : Text.cutLast '.' name = none → ∀ module, s.Sees module → s.symbols module name = none

section Scope

variable {s : Scope} {name : String}

theorem lookup?_eq_none_iff : s.lookup? name = none ↔
    (∀ module last, Text.cutLast '.' name = some (module, last) → s.symbols module last = none) ∧
      (Text.cutLast '.' name = none → ∀ module, s.Sees module → s.symbols module name = none) := by
  unfold Scope.lookup?
  cases hcut : Text.cutLast '.' name with
  | some p =>
      obtain ⟨module, last⟩ := p
      simp only [Option.map_eq_none_iff]
      constructor
      · intro h
        refine ⟨fun module' last' heq => ?_, fun hnone => nomatch hnone⟩
        cases heq
        exact h
      · intro h
        exact h.1 module last rfl
  | none =>
      simp only [List.findSome?_eq_none_iff, Option.map_eq_none_iff]
      constructor
      · exact fun h => ⟨by simp, fun _ => h⟩
      · exact fun h => h.2 trivial

theorem named_eq_error {fault : TypeFault} :
    s.named name = .error fault ↔ s.Unknown name ∧ fault = .unknown name := by
  constructor
  · intro h
    unfold Scope.named at h
    split at h
    · cases h
    · next hvoid =>
        split at h
        · cases h
        · next hprimitive =>
            split at h
            · cases h
            · next hlookup =>
                cases h
                obtain ⟨hqualified, halone⟩ := lookup?_eq_none_iff.mp hlookup
                exact ⟨⟨hvoid, hprimitive, hqualified, halone⟩, rfl⟩
  · rintro ⟨h, rfl⟩
    have hlookup := lookup?_eq_none_iff.mpr ⟨h.qualified, h.alone⟩
    unfold Scope.named
    rw [if_neg h.void]
    simp only [h.primitive, hlookup]

/-- A spelling has an unknown name in it exactly if it is refused for this name. -/
theorem resolveList_unknown_iff (cs : List Char) :
    s.resolveList cs = .error (.unknown name) ↔ innerName? cs = some name ∧ s.Unknown name := by
  induction hn : cs.length using Nat.strongRecOn generalizing cs with
  | ind n ih =>
      rw [resolveList_eq]
      cases hcut : Text.cutFirstList '<' (Text.trimList Text.isBlank cs) with
      | none =>
          rw [innerName?_name hcut, named_eq_error]
          constructor
          · rintro ⟨h, heq⟩
            cases heq
            exact ⟨rfl, h⟩
          · rintro ⟨heq, h⟩
            cases heq
            exact ⟨h, rfl⟩
      | some p =>
          obtain ⟨front, back⟩ := p
          cases hdrop : Text.dropSuffixList ['>'] back with
          | none =>
              rw [innerName?_open hcut hdrop]
              simp [hdrop]
          | some inner =>
              rw [innerName?_container hcut hdrop,
                ← ih inner.length (hn ▸ length_inner_lt hcut hdrop) inner rfl]
              simp only [hdrop]
              -- the container is looked up after its item, and fails in another way
              cases s.resolveList inner with
              | error fault => rfl
              | ok item =>
                  simp only [bind, Except.bind, reduceCtorEq, iff_false]
                  split <;> simp

/-- A built-in name has no dots and no reference; any other refers to the module that it is found
in. -/
theorem leaf?_of_named {t : DataType} (h : s.named name = .ok t) :
    (t.leaf? = none ∧ Text.cutLast '.' name = none) ∨
      ∃ module d, s.lookup? name = some (module, d) ∧
        t.leaf? = some ⟨module, Text.afterLast '.' name⟩ := by
  have hbuiltin : name = "void" ∨ (∃ p, Primitive.ofName? name = some p) →
      Text.cutLast '.' name = none := by
    intro hname
    cases hcut : Text.cutLast '.' name with
    | none => rfl
    | some p =>
        obtain ⟨rfl, -⟩ := eq_qualifiedName_of_cutLast hcut
        obtain ⟨hvoid, hprimitive⟩ := not_builtin_qualifiedName ⟨p.1, p.2⟩
        rcases hname with hname | ⟨p, hp⟩
        · exact absurd hname hvoid
        · cases hprimitive.symm.trans hp
  unfold Scope.named at h
  split at h
  · next hvoid =>
      cases h
      exact Or.inl ⟨rfl, hbuiltin (Or.inl hvoid)⟩
  · split at h
    · next p hp =>
        cases h
        exact Or.inl ⟨rfl, hbuiltin (Or.inr ⟨p, hp⟩)⟩
    · split at h
      · next module d hlookup =>
          cases h
          exact Or.inr ⟨module, d, hlookup, (spelling_type d _ SymbolRef.qualifiedName).1⟩
      · cases h

/-- A name that stands for a type refers to what is seen exactly if it is qualified with nothing
else. -/
theorem sees_iff_of_named {t : DataType} (h : s.named name = .ok t) :
    (∀ r, t.leaf? = some r → s.Sees r.module) ↔
      ∀ module last, Text.cutLast '.' name = some (module, last) → s.Sees module := by
  rcases leaf?_of_named h with ⟨hleaf, hcut⟩ | ⟨home, d, hlookup, hleaf⟩
  · rw [hleaf, hcut]
    simp
  · rw [hleaf]
    cases hcut : Text.cutLast '.' name with
    | some p =>
        obtain ⟨module, last⟩ := p
        obtain ⟨rfl, hdot⟩ := eq_qualifiedName_of_cutLast hcut
        rw [lookup?_qualifiedName hdot] at hlookup
        obtain ⟨e, -, heq⟩ := Option.map_eq_some_iff.mp hlookup
        cases heq
        simp
    | none =>
        have hfirst := ((lookup?_alone (Text.cutLast_eq_none.mp hcut)).mp hlookup).1
        have hseen : s.Sees home := List.mem_of_find?_eq_some hfirst
        simp [hseen]

/-- A spelling that stands for a type has a name in it, which refers to what the type comes down
to. -/
theorem exists_named_of_resolveList {cs : List Char} {t : DataType} (h : s.resolveList cs = .ok t) :
    ∃ name core, innerName? cs = some name ∧ s.named name = .ok core ∧ t.leaf? = core.leaf? := by
  induction hn : cs.length using Nat.strongRecOn generalizing cs t with
  | ind n ih =>
      rw [resolveList_eq] at h
      cases hcut : Text.cutFirstList '<' (Text.trimList Text.isBlank cs) with
      | none =>
          simp only [hcut] at h
          exact ⟨_, t, innerName?_name hcut, h, rfl⟩
      | some p =>
          obtain ⟨front, back⟩ := p
          cases hdrop : Text.dropSuffixList ['>'] back with
          | none => simp [hcut, hdrop] at h
          | some inner =>
              simp only [hcut, hdrop] at h
              obtain ⟨item, hitem, hwrapped⟩ := bind_eq_ok.mp h
              obtain ⟨wrap, hwrap, rfl⟩ := contained_eq_ok.mp hwrapped
              obtain ⟨name, core, hname, hcore, hleaf⟩ :=
                ih inner.length (hn ▸ length_inner_lt hcut hdrop) hitem rfl
              refine ⟨name, core, ?_, hcore, ?_⟩
              · rw [innerName?_container hcut hdrop, hname]
              · rw [(spelling_container hwrap item SymbolRef.qualifiedName).1, hleaf]

theorem sees_iff_of_resolve {spelling : String} {t : DataType} (h : s.resolve spelling = .ok t) :
    (∀ r, t.leaf? = some r → s.Sees r.module) ↔
      ∀ module, qualifier? spelling = some module → s.Sees module := by
  obtain ⟨name, core, hname, hcore, hleaf⟩ := exists_named_of_resolveList h
  rw [hleaf, sees_iff_of_named hcore, qualifier?, hname, Option.bind_some]
  simp only [Option.map_eq_some_iff, Prod.exists, exists_and_right, exists_eq_right,
    forall_exists_index]

end Scope

/-! ## The modules of a system -/

variable {sources : List Source}

/-- The view in which a document is read that is loaded together with others. -/
def readingOf (sources : List Source) (source : Source) : Reading where
  scope := scopeOf (symbols (sources.map (·.document))) source.document.module
    (group sources source.document.module)
  origin := source.origin

theorem sees_iff_of_assemble {table : Symbols} {name : String} {m : Model.Module}
    (h : assemble table name sources = .ok m) :
    (m.AllTypes fun t => ∀ depth u r, t.inner? depth = some u → u.reference? = some r →
      m.Sees r.module) ↔
    ∀ source ∈ sources, ∀ spelling ∈ source.document.spellings,
      ∀ module, qualifier? spelling = some module → m.Sees module := by
  have hread : ∀ spelling t, (scopeOf table name sources).resolve spelling = .ok t →
      ((∀ module, qualifier? spelling = some module → (scopeOf table name sources).Sees module) ↔
        ∀ depth u r, t.inner? depth = some u → u.reference? = some r →
          (scopeOf table name sources).Sees r.module) := by
    intro spelling t ht
    rw [← sees_iff_of_resolve ht]
    constructor
    · intro hleaf depth u r hu hr
      exact hleaf r (DataType.leaf?_eq_some_iff.mpr ⟨depth, u, hu, hr⟩)
    · intro hinner r hr
      obtain ⟨depth, u, hu, hr⟩ := DataType.leaf?_eq_some_iff.mp hr
      exact hinner depth u r hu hr
  have hall := allTypes_iff_of_assemble hread h
  -- the module sees what the view sees in which its documents are read
  obtain ⟨version, parts, -, -, rfl⟩ := assemble_eq_ok.mp h
  exact hall.symm

theorem type_unknown_iff (r : Reading) (spelling name : String) :
    r.type spelling = .error (r.origin.unknownType name r.scope.module) ↔
      innerName? spelling.toList = some name ∧ r.scope.Unknown name := by
  rw [← resolveList_unknown_iff, type_eq, Scope.resolve]
  cases r.scope.resolveList spelling.toList with
  | ok t => simp [Except.mapError]
  | error fault =>
      cases fault with
      | malformed | unknownContainer =>
          simp [Except.mapError, Reading.fault, Origin.flaw, Origin.unknownType]
      | unknown other =>
          simp only [Except.mapError, Reading.fault, Except.error.injEq, TypeFault.unknown.injEq]
          constructor
          · intro h
            injection h
          · rintro rfl
            rfl

theorem exists_type_of_build {s : Model.System} (h : build sources = .ok s) {source : Source}
    (hsource : source ∈ sources) {spelling : String}
    (hspelling : spelling ∈ source.document.spellings) :
    ∃ t, (readingOf sources source).type spelling = .ok t := by
  have hname : source.document.module ∈ moduleNames sources :=
    mem_distinct.mpr (List.mem_map_of_mem hsource)
  obtain ⟨m, -, hassemble⟩ := exists_of_mem_steps (build_eq_ok.mp h) hname
  obtain ⟨version, parts, -, hparts, -⟩ := assemble_eq_ok.mp hassemble
  have hgroup : source ∈ group sources source.document.module :=
    List.mem_filter.mpr ⟨hsource, decide_eq_true rfl⟩
  obtain ⟨c, -, hc⟩ := exists_of_mem_steps hparts hgroup
  exact exists_type_of_contents hc hspelling

/-- What the modules of some documents can refer to.  The references of a module stay within the
module and its imports exactly if no spelling in its documents is qualified with another module.  A
spelling is refused as unknown for the name in it if this is declared nowhere that is seen, unless
it is qualified with a module that declares it, and then nothing is built. -/
structure Visibility (sources : List Source) : Prop where
  seen : ∀ s, build sources = .ok s → ∀ m ∈ s.modules,
    (m.AllTypes fun t => ∀ depth u r, t.inner? depth = some u → u.reference? = some r →
      m.Sees r.module) ↔
    ∀ source ∈ group sources m.name, ∀ spelling ∈ source.document.spellings,
      ∀ module, qualifier? spelling = some module → m.Sees module
  unknown : ∀ source ∈ sources, ∀ spelling name,
    (readingOf sources source).type spelling =
        .error (source.origin.unknownType name source.document.module) ↔
      innerName? spelling.toList = some name ∧ (readingOf sources source).scope.Unknown name
  refused : ∀ source ∈ sources, ∀ spelling ∈ source.document.spellings,
    ∀ name, innerName? spelling.toList = some name →
      (readingOf sources source).scope.Unknown name → ∃ e, build sources = .error e

theorem visibility (sources : List Source) : Visibility sources where
  seen _ h _ hm := sees_iff_of_assemble (assemble_of_mem_modules h hm)
  unknown source _ spelling name := type_unknown_iff (readingOf sources source) spelling name
  refused source hsource spelling hspelling name hname hunknown := by
    cases h : build sources with
    | error e => exact ⟨e, rfl⟩
    | ok s =>
        obtain ⟨t, ht⟩ := exists_type_of_build h hsource hspelling
        have hfails := (type_unknown_iff (readingOf sources source) spelling name).mpr
          ⟨hname, hunknown⟩
        cases ht.symm.trans hfails

namespace Sample

/-- A document that names the flags of another module, which it does not import. -/
def cart : Source :=
  ⟨⟨"shop.yaml", ""⟩,
    { (default : Document) with
      module := "shop"
      interfaces := [{ (default : Interface) with
        name := "Cart"
        properties := [{ (default : Property) with name := "unit", type := "units.Unit" }] }] }⟩

end Sample

/-- A module can refer to what it does not import. -/
theorem not_sees_of_build : ¬ ∀ (sources : List Source) (s : Model.System),
    build sources = .ok s → ∀ m ∈ s.modules,
      m.AllTypes fun t => ∀ depth u r, t.inner? depth = some u → u.reference? = some r →
        m.Sees r.module := by
  intro h
  obtain ⟨s, hs⟩ : ∃ s, build [Sample.units, Sample.cart] = .ok s := exists_ok (by decide +kernel)
  have hunit : ((build [Sample.units, Sample.cart]).toOption.getD default).modules.any (fun m =>
      m.interfaces.any fun face => face.properties.any fun p =>
        p.type.reference?.any fun r => decide (r.module ∉ m.name :: m.imports)) = true := by
    decide +kernel
  rw [hs] at hunit
  obtain ⟨m, hm, hunit⟩ := List.any_eq_true.mp hunit
  obtain ⟨face, hface, hunit⟩ := List.any_eq_true.mp hunit
  obtain ⟨p, hp, hunit⟩ := List.any_eq_true.mp hunit
  cases hr : p.type.reference? with
  | none => simp [hr] at hunit
  | some r =>
      have hunseen : r.module ∉ m.name :: m.imports := by simpa [hr] using hunit
      exact hunseen (((h _ s hs m hm).interfaces face hface).properties p hp 0 p.type r rfl hr)

end Document

end Stencil
