import Stencil.Proofs.Document.WrittenTypes

/-!
# References of a built system

The symbols of all documents and the modules that are built from them cover each
other: whatever a spelling stands for has been declared with that kind, and every
declaration of a document is in its module.  So every reference in a type of a
built system leads to a declaration.
-/

namespace Stencil.Document

open Model (DataType SymbolRef)

/-! ## What spellings stand for -/

/-- Whether every reference in a type is among the symbols, with the kind that it has there. -/
def Symbols.Cover (symbols : Symbols) : DataType → Prop
  | .void | .primitive _ => True
  | .enum r => symbols r.module r.name = some (.enum false)
  | .flag r => symbols r.module r.name = some (.enum true)
  | .struct r => symbols r.module r.name = some .struct
  | .interface r => symbols r.module r.name = some .interface
  | .list t | .model t | .map t => symbols.Cover t

theorem cover_type {symbols : Symbols} {d : Declared} {r : SymbolRef}
    (h : symbols r.module r.name = some d) : symbols.Cover (d.type r) := by
  cases d with
  | enum flag => cases flag <;> exact h
  | struct => exact h
  | interface => exact h

/-- What a name is found to be has been declared in the module that it is found in. -/
theorem symbols_of_lookup? {s : Scope} {spelling module : String} {d : Declared}
    (h : s.lookup? spelling = some (module, d)) :
    s.symbols module (Text.afterLast '.' spelling) = some d := by
  unfold Scope.lookup? at h
  unfold Text.afterLast
  cases hcut : Text.cutLast '.' spelling with
  | some p =>
      obtain ⟨front, name⟩ := p
      simp only [hcut, Option.map_eq_some_iff, Prod.mk.injEq] at h ⊢
      obtain ⟨e, he, rfl, rfl⟩ := h
      exact he
  | none =>
      simp only [hcut] at h ⊢
      obtain ⟨found, -, hfound⟩ := List.exists_of_findSome?_eq_some h
      simp only [Option.map_eq_some_iff, Prod.mk.injEq] at hfound
      obtain ⟨e, he, rfl, rfl⟩ := hfound
      exact he

theorem cover_of_named {s : Scope} {name : String} {t : DataType} (h : s.named name = .ok t) :
    s.symbols.Cover t := by
  unfold Scope.named at h
  split at h
  · simp only [Except.ok.injEq] at h
    exact h ▸ trivial
  · split at h
    · simp only [Except.ok.injEq] at h
      exact h ▸ trivial
    · split at h
      · rename_i module d hlookup
        simp only [Except.ok.injEq] at h
        subst h
        exact cover_type (symbols_of_lookup? hlookup)
      · simp at h

/-- A container covers what its item covers. -/
theorem cover_of_container? {symbols : Symbols} {name : String} {wrap : DataType → DataType}
    (h : container? name = some wrap) {t : DataType} (ht : symbols.Cover t) :
    symbols.Cover (wrap t) := by
  unfold container? at h
  repeat' split at h
  all_goals
    simp only [Option.some.injEq, reduceCtorEq] at h
  all_goals
    subst h
    exact ht

/-- What a spelling stands for is covered by the symbols. -/
theorem cover_of_resolveList {s : Scope} {cs : List Char} {t : DataType}
    (h : s.resolveList cs = .ok t) : s.symbols.Cover t := by
  fun_induction s.resolveList cs generalizing t with
  | case1 => exact cover_of_named h
  | case2 => cases h
  | case3 => cases h
  | case4 cs spelling front back hcut inner hdrop item hitem name wrap hwrap =>
      rename_i ih
      cases h
      exact cover_of_container? hwrap (ih hitem)
  | case5 => cases h

/-! ## The types of a built system -/

/-- What the symbols cover, they cover at every depth. -/
theorem cover_of_inner? {symbols : Symbols} {depth : Nat} :
    ∀ {t u : DataType}, symbols.Cover t → t.inner? depth = some u → symbols.Cover u := by
  induction depth with
  | zero =>
      intro t u ht hu
      cases hu
      exact ht
  | succ depth ih =>
      intro t u ht hu
      obtain ⟨item, hitem, hu⟩ := Option.bind_eq_some_iff.mp hu
      have hcover : symbols.Cover item := by
        cases t with
        | list t | model t | map t =>
            cases hitem
            exact ht
        | _ => cases hitem
      exact ih hcover hu

variable {sources : List Source}

theorem allTypes_of_assemble {table : Symbols} {name : String} {m : Model.Module}
    (h : assemble table name sources = .ok m) : m.AllTypes table.Cover := by
  have hread : ∀ spelling t, (scopeOf table name sources).resolve spelling = .ok t →
      (True ↔ table.Cover t) :=
    fun _ _ ht => iff_of_true trivial (cover_of_resolveList ht)
  exact (allTypes_iff_of_assemble hread h).mp fun _ _ _ _ => trivial

/-- The type of a declaration that stands in its module resolves. -/
theorem resolves_type {s : Model.System} {r : SymbolRef} {m : Model.Module} {d : Declared}
    (hm : s.module? r.module = some m) (hd : d.StandsIn m r.name) : s.Resolves (d.type r) := by
  cases d with
  | enum flag =>
      have henum : (s.enum? r).isSome := by
        rw [Model.System.enum?, hm, Option.bind_some, Option.isSome_map]
        exact hd
      cases flag <;> exact henum
  | struct =>
      show (s.struct? r).isSome
      rw [Model.System.struct?, hm, Option.bind_some, Option.isSome_map]
      exact hd
  | interface =>
      show (s.interface? r).isSome
      rw [Model.System.interface?, hm, Option.bind_some, Option.isSome_map]
      exact hd

/-- What the symbols of the documents cover resolves in the system that is built from them. -/
theorem resolves_of_cover {s : Model.System} (h : build sources = .ok s) {t : DataType}
    (ht : (symbols (sources.map (·.document))).Cover t) : s.Resolves t := by
  cases t with
  | void | primitive p | list t | model t | map t => trivial
  | enum r | flag r | struct r | interface r =>
      obtain ⟨m, hm, hd⟩ := standsIn_of_symbols h ht
      exact resolves_type hm hd

/-- The typed symbols that a walk over a built system meets refer to declarations. -/
theorem resolves_of_walk {s : Model.System} (h : build sources = .ok s) {name : String}
    {n : Model.Node} (hn : (name, n) ∈ s.walk) {x : Model.Symbol} (hx : n.symbol? = some x)
    {depth : Nat} {t : DataType} (ht : x.type.inner? depth = some t) : s.Resolves t := by
  obtain ⟨m, hm, hmn⟩ := List.mem_flatMap.mp hn
  have hall := allTypes_of_assemble (assemble_of_mem_modules h hm)
  have hcover := hall.type_of_walk hmn hx
  exact resolves_of_cover h (cover_of_inner? hcover ht)

/-- A built system has no dangling references: whatever refers to a declaration in the type
of a property, operation, parameter or field, however deep inside containers, resolves. -/
theorem resolves_of_build {s : Model.System} (h : build sources = .ok s) :
    ∀ m ∈ s.modules,
      m.AllTypes fun t => ∀ depth u, t.inner? depth = some u → s.Resolves u := by
  intro m hm
  have hall := allTypes_of_assemble (assemble_of_mem_modules h hm)
  refine hall.mono ?_
  intro t ht depth u hu
  exact resolves_of_cover h (cover_of_inner? ht hu)

namespace Sample

/-- A document with an interface whose property lists a struct that is declared elsewhere. -/
def shop : Source :=
  ⟨⟨"shop.yaml", ""⟩,
    { (default : Document) with
      module := "shop"
      imports := ["units"]
      interfaces := [{ (default : Interface) with
        name := "Cart"
        properties := [{ (default : Property) with name := "items", type := "list< Item >" }] }] }⟩

/-- A document with flags. -/
def units : Source :=
  ⟨⟨"units.yaml", ""⟩,
    { (default : Document) with
      module := "units"
      enums := [{ (default : Enum) with name := "Unit", flag := true }] }⟩

/-- Another document of the first module, with a struct that refers to both other documents. -/
def items : Source :=
  ⟨⟨"items.yaml", ""⟩,
    { (default : Document) with
      module := "shop"
      structs := [{ (default : Struct) with
        name := "Item"
        fields :=
          [{ (default : Field) with name := "unit", type := "Unit" },
            { (default : Field) with name := "carts", type := "map<list<shop.Cart>>" }] }] }⟩

/-- Documents that refer to one another, two of them of one module. -/
def documents : List Source := [shop, units, items]

end Sample

theorem resolves_of_build_documents :
    ∃ s, build Sample.documents = .ok s ∧ ∀ m ∈ s.modules,
      m.AllTypes fun t => ∀ depth u, t.inner? depth = some u → s.Resolves u := by
  have hbuilt : (build Sample.documents).toOption.isSome = true := by decide +kernel
  cases h : build Sample.documents with
  | error e =>
      rw [h] at hbuilt
      cases hbuilt
  | ok s => exact ⟨s, rfl, resolves_of_build h⟩

end Stencil.Document
