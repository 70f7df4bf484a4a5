import Stencil.Document.Load
import Stencil.Proofs.Document.References
import Stencil.Proofs.Spelling.Entries

/-!
# Which annotation values are accepted

An annotation value gives an initializer exactly if it conforms to the type of its
symbol.  Otherwise it is refused for the first of its parts that has a fault, where
a value comes before its entries and these come in their order.
-/

namespace Stencil.Spelling

open Model (DataType Field Module Struct Symbol SymbolRef System)

/-- A value conforms to a type: it has one entry for each field of a struct, or is an array of rows for
a list or model, and its entries conform in turn.  Types without parts take any value, interfaces and
maps none. -/
inductive Conforms (system : System) : DataType → Json → Prop
  | struct {r : SymbolRef} {m : Module} {struct : Struct} {v : Json} {entries : List Json}
      (hr : system.struct? r = some (m, struct)) (hv : v.entries? = some entries)
      (hcount : entries.length = struct.fields.length)
      (hall : ∀ (i : Nat) (f : Field) (w : Json), struct.fields[i]? = some f →
        entries[i]? = some w → Conforms system f.type w) : Conforms system (.struct r) v
  | list {item : DataType} {items : List Json} (hall : ∀ w ∈ items, Conforms system item w) :
      Conforms system (.list item) (.array items)
  | model {item : DataType} {items : List Json} (hall : ∀ w ∈ items, Conforms system item w) :
      Conforms system (.model item) (.array items)
  | void (v : Json) : Conforms system .void v
  | primitive (p : Model.Primitive) (v : Json) : Conforms system (.primitive p) v
  | enum (r : SymbolRef) (v : Json) : Conforms system (.enum r) v
  | flag (r : SymbolRef) (v : Json) : Conforms system (.flag r) v

/-! ## Parts and their faults -/

/-- What is wrong with the value of a symbol, its entries apart. -/
def fault? (system : System) (s : Symbol) (v : Json) : Option Error :=
  match s.type with
  | .struct r =>
      match v.entries? with
      | none => some (.shape "default_value" s.qualifiedName "dict or list")
      | some entries =>
          (system.struct? r).bind fun (_, struct) =>
            if entries.length = struct.fields.length then none
            else some (.fieldCount "default_value" s.qualifiedName struct.fields.length
              entries.length)
  | .list _ | .model _ =>
      match v.items? with
      | none => some (.shape "default_value" s.qualifiedName "list")
      | some _ => none
  | .interface _ | .map _ => some (.unknown "default_value" s)
  | .void | .primitive _ | .enum _ | .flag _ => none

/-- The entries of the value of a symbol, each with the symbol that it is the value of. -/
def parts (system : System) (s : Symbol) (v : Json) : List (Symbol × Json) :=
  match s.type with
  | .struct r =>
      match system.struct? r, v.entries? with
      | some (m, struct), some entries => fieldParts m struct entries
      | _, _ => []
  | .list item | .model item => (v.items?.map (rowParts s item)).getD []
  | _ => []

/-- The part of a value at a place, which tells at each level the number of the entry. -/
def part? (system : System) : Symbol → Json → List Nat → Option (Symbol × Json)
  | s, v, [] => some (s, v)
  | s, v, i :: place => (parts system s v)[i]?.bind fun p => part? system p.1 p.2 place

/-- The first part of a value that has a fault.  Places are ordered like words in a dictionary, so that
a value comes before its entries, and an entry before those that follow it. -/
structure FirstFault (system : System) (s : Symbol) (v : Json) (place : List Nat) (e : Error) :
    Prop where
  here : ∃ t w, part? system s v place = some (t, w) ∧ fault? system t w = some e
  before : ∀ earlier < place, ∀ t w, part? system s v earlier = some (t, w) →
    fault? system t w = none

theorem FirstFault.error_eq {system : System} {s : Symbol} {v : Json} {place place' : List Nat}
    {e e' : Error} (h : FirstFault system s v place e) (h' : FirstFault system s v place' e') :
    e = e' := by
  obtain ⟨t, w, hpart, hfault⟩ := h.here
  obtain ⟨t', w', hpart', hfault'⟩ := h'.here
  have hle : ¬ place' < place := fun hlt =>
    Option.some_ne_none e' (hfault'.symm.trans (h.before place' hlt t' w' hpart'))
  have hge : ¬ place < place' := fun hlt =>
    Option.some_ne_none e (hfault.symm.trans (h'.before place hlt t w hpart))
  obtain rfl : place = place' := List.le_antisymm hle hge
  cases hpart.symm.trans hpart'
  exact Option.some.inj (hfault.symm.trans hfault')

/-! ## One level -/

variable {x : Mapper} {system : System} {s : Symbol} {v : Json}

/-- The parts of the value of a list or model are the items of an array. -/
theorem exists_item_of_rows {item : DataType} {p : Symbol × Json}
    (hp : p ∈ (v.items?.map (rowParts s item)).getD []) :
    p.1 = s.withType item ∧ ∃ items, v = .array items ∧ p.2 ∈ items := by
  cases v with
  | array items =>
      obtain ⟨w, hw, rfl⟩ := List.mem_map.mp hp
      exact ⟨rfl, items, rfl, hw⟩
  | _ => exact absurd hp List.not_mem_nil

/-- A part of a value is one of its entries. -/
theorem exists_entry_of_parts {p : Symbol × Json} (hp : p ∈ parts system s v) :
    ∃ entries, v.entries? = some entries ∧ p.2 ∈ entries := by
  unfold parts at hp
  split at hp
  · split at hp
    · rename_i entries _ hentries
      obtain ⟨i, f, -, hentry, -⟩ := mem_fieldParts.mp hp
      exact ⟨entries, hentries, List.mem_of_getElem? hentry⟩
    · exact absurd hp List.not_mem_nil
  · obtain ⟨-, items, rfl, hmem⟩ := exists_item_of_rows hp
    exact ⟨items, rfl, hmem⟩
  · obtain ⟨-, items, rfl, hmem⟩ := exists_item_of_rows hp
    exact ⟨items, rfl, hmem⟩
  · exact absurd hp List.not_mem_nil

theorem module_eq_ok_of_enum? {r : SymbolRef} (h : (x.system.enum? r).isSome) (filter : String)
    (s : Symbol) : ∃ m, x.module filter s r = .ok m := by
  obtain ⟨p, hp⟩ := Option.isSome_iff_exists.mp h
  obtain ⟨m, hm, -⟩ := Option.bind_eq_some_iff.mp hp
  refine ⟨m, ?_⟩
  unfold Mapper.module
  rw [hm]

/-- The names of enum members are written with the module of the enum, and are not looked up. -/
theorem failure?_enumLiteral {r : SymbolRef} (ht : s.type = .enum r ∨ s.type = .flag r)
    (h : (x.system.enum? r).isSome) (v : Json) : failure? (x.scalarLiteral s v) = none := by
  obtain ⟨m, hm⟩ := module_eq_ok_of_enum? h "default_value" s
  have hname : x.enumModuleName "default_value" s = .ok m.shortName := by
    unfold Mapper.enumModuleName
    rcases ht with ht | ht
    all_goals
      rw [ht]
      dsimp only
      rw [hm]
      rfl
  unfold Mapper.scalarLiteral
  rcases ht with ht | ht
  all_goals
    rw [ht]
    dsimp only
    rw [hname]
    rfl

/-- A value is refused for its own fault, or else for the first of its entries that is refused. -/
theorem failure?_defaultValue (h : x.system.Resolves s.type) (v : Json) :
    failure? (x.defaultValue s v) =
      (fault? x.system s v).or
        ((parts x.system s v).findSome? fun p => failure? (x.defaultValue p.1 p.2)) := by
  unfold fault? parts
  cases ht : s.type with
  | struct r =>
      obtain ⟨⟨m, struct⟩, hr⟩ := Option.isSome_iff_exists.mp (ht ▸ h)
      rw [Mapper.defaultValue_struct ht hr]
      unfold convertStruct Mapper.checkCount
      dsimp only
      rw [hr]
      cases v.entries? with
      | none => rfl
      | some entries =>
          by_cases hcount : entries.length = struct.fields.length
          · simp only [hcount, if_true, failure?_map, failure?_mapM, Option.bind_some,
              Option.none_or]
          · simp only [hcount, if_false, failure?, Option.bind_some, Option.some_or]
  | list item | model item =>
      have hrows : s.type = .list item ∨ s.type = .model item := by simp [ht]
      rw [Mapper.defaultValue_list hrows]
      cases v.items? with
      | none => rfl
      | some items => exact (failure?_map _ _).trans (failure?_mapM _ _)
  | enum r | flag r =>
      have hnames : s.type = .enum r ∨ s.type = .flag r := by simp [ht]
      have hscalar := failure?_enumLiteral hnames (ht ▸ h) v
      unfold Mapper.defaultValue
      rw [ht]
      exact hscalar
  | void | interface r | map item =>
      unfold Mapper.defaultValue Mapper.scalarLiteral
      rw [ht]
      rfl
  | primitive p =>
      unfold Mapper.defaultValue Mapper.scalarLiteral
      rw [ht]
      cases p with
      | var => cases v <;> rfl
      | _ => rfl

/-- An array conforms to a list or model if its items conform. -/
theorem conforms_rows_iff {t item : DataType} (ht : t = .list item ∨ t = .model item) :
    Conforms system t v ↔ ∃ items, v = .array items ∧ ∀ w ∈ items, Conforms system item w := by
  constructor
  · intro h
    rcases ht with rfl | rfl
    · cases h with
      | list hall => exact ⟨_, rfl, hall⟩
    · cases h with
      | model hall => exact ⟨_, rfl, hall⟩
  · rintro ⟨items, rfl, hall⟩
    rcases ht with rfl | rfl
    · exact .list hall
    · exact .model hall

/-- A value conforms if it has no fault of its own and its entries conform. -/
theorem conforms_iff (h : system.Resolves s.type) (v : Json) :
    Conforms system s.type v ↔
      fault? system s v = none ∧ ∀ p ∈ parts system s v, Conforms system p.1.type p.2 := by
  unfold fault? parts
  cases ht : s.type with
  | struct r =>
      obtain ⟨⟨m, struct⟩, hr⟩ := Option.isSome_iff_exists.mp (ht ▸ h)
      dsimp only
      rw [hr]
      constructor
      · intro hv
        cases hv with
        | @struct _ m' struct' _ entries hr' hv hcount hall =>
            cases hr.symm.trans hr'
            rw [hv]
            refine ⟨if_pos hcount, fun p hp => ?_⟩
            obtain ⟨i, f, hf, hw, hsymbol⟩ := mem_fieldParts.mp hp
            rw [hsymbol]
            exact hall i f p.2 hf hw
      · rintro ⟨hfault, hall⟩
        cases hv : v.entries? with
        | none => simp [hv] at hfault
        | some entries =>
            rw [hv] at hfault hall
            by_cases hcount : entries.length = struct.fields.length
            · refine .struct hr hv hcount fun i f w hf hw => ?_
              exact hall (.ofField m struct f, w) (mem_fieldParts.mpr ⟨i, f, hf, hw, rfl⟩)
            · simp [hcount] at hfault
  | list item | model item =>
      have hrows : s.type = .list item ∨ s.type = .model item := by simp [ht]
      rw [ht] at hrows
      rw [conforms_rows_iff hrows]
      constructor
      · rintro ⟨items, rfl, hall⟩
        exact ⟨rfl, forall_mem_rowParts.mpr hall⟩
      · rintro ⟨hfault, hall⟩
        cases v with
        | array items => exact ⟨items, rfl, forall_mem_rowParts.mp hall⟩
        | _ => cases hfault
  | void => exact iff_of_true (.void v) ⟨rfl, by simp⟩
  | primitive p => exact iff_of_true (.primitive p v) ⟨rfl, by simp⟩
  | enum r => exact iff_of_true (.enum r v) ⟨rfl, by simp⟩
  | flag r => exact iff_of_true (.flag r v) ⟨rfl, by simp⟩
  | interface r | map item =>
      constructor
      · intro hv
        cases hv
      · rintro ⟨hfault, -⟩
        cases hfault

/-! ## All levels -/

/-- Every reference in a type, however deep inside containers, leads to a declaration. -/
def Covers (system : System) (t : DataType) : Prop :=
  ∀ depth u, t.inner? depth = some u → system.Resolves u

/-- The types of the fields of all structs refer to declarations. -/
def CoversFields (system : System) : Prop :=
  ∀ m ∈ system.modules, ∀ struct ∈ m.structs, ∀ f ∈ struct.fields, Covers system f.type

theorem Covers.resolves {t : DataType} (h : Covers system t) : system.Resolves t := h 0 t rfl

theorem Covers.list {item : DataType} (h : Covers system (.list item)) : Covers system item :=
  fun depth u hu => h (depth + 1) u hu

theorem Covers.model {item : DataType} (h : Covers system (.model item)) : Covers system item :=
  fun depth u hu => h (depth + 1) u hu

theorem mem_of_struct? {r : SymbolRef} {m : Module} {struct : Struct}
    (h : system.struct? r = some (m, struct)) : m ∈ system.modules ∧ struct ∈ m.structs := by
  obtain ⟨found, hm, hstruct⟩ := Option.bind_eq_some_iff.mp h
  obtain ⟨there, hthere, heq⟩ := Option.map_eq_some_iff.mp hstruct
  cases heq
  exact ⟨List.mem_of_find?_eq_some hm, List.mem_of_find?_eq_some hthere⟩

theorem covers_of_parts (hfields : CoversFields system) (h : Covers system s.type)
    {p : Symbol × Json} (hp : p ∈ parts system s v) : Covers system p.1.type := by
  unfold parts at hp
  split at hp
  · split at hp
    · rename_i m struct entries hr _
      obtain ⟨i, f, hf, -, hsymbol⟩ := mem_fieldParts.mp hp
      obtain ⟨hm, hstruct⟩ := mem_of_struct? hr
      rw [hsymbol]
      exact hfields m hm struct hstruct f (List.mem_of_getElem? hf)
    · exact absurd hp List.not_mem_nil
  · rename_i item ht
    rw [(exists_item_of_rows hp).1]
    exact (ht ▸ h).list
  · rename_i item ht
    rw [(exists_item_of_rows hp).1]
    exact (ht ▸ h).model
  · exact absurd hp List.not_mem_nil

/-- No part of a value has a fault, the value itself included. -/
def Faultless (system : System) (s : Symbol) (v : Json) : Prop :=
  ∀ place t w, part? system s v place = some (t, w) → fault? system t w = none

theorem faultless_iff :
    Faultless system s v ↔
      fault? system s v = none ∧ ∀ p ∈ parts system s v, Faultless system p.1 p.2 := by
  constructor
  · intro h
    refine ⟨h [] s v rfl, fun p hp place t w hw => ?_⟩
    obtain ⟨i, hi⟩ := List.mem_iff_getElem?.mp hp
    exact h (i :: place) t w (by rw [part?, hi]; exact hw)
  · rintro ⟨hown, hparts⟩ place t w hw
    cases place with
    | nil =>
        cases hw
        exact hown
    | cons i place =>
        obtain ⟨p, hp, hw⟩ := Option.bind_eq_some_iff.mp hw
        exact hparts p (List.mem_of_getElem? hp) place t w hw

/-- The first fault of an entry is that of the whole, if neither the value itself nor an entry before it
has a fault. -/
theorem FirstFault.of_part {front back : List (Symbol × Json)} {p : Symbol × Json}
    {place : List Nat} {e : Error} (hown : fault? system s v = none)
    (hsplit : parts system s v = front ++ p :: back)
    (hfront : ∀ q ∈ front, Faultless system q.1 q.2) (h : FirstFault system p.1 p.2 place e) :
    FirstFault system s v (front.length :: place) e := by
  obtain ⟨⟨t, w, hpart, hfault⟩, hbefore⟩ := h
  refine ⟨⟨t, w, ?_, hfault⟩, ?_⟩
  · rw [part?, hsplit]
    simpa using hpart
  · intro earlier hlt u z hu
    cases earlier with
    | nil =>
        cases hu
        exact hown
    | cons i inner =>
        rw [part?, hsplit] at hu
        obtain ⟨q, hq, hu⟩ := Option.bind_eq_some_iff.mp hu
        rcases List.cons_lt_cons_iff.mp hlt with hi | ⟨rfl, hinner⟩
        · rw [List.getElem?_append_left hi] at hq
          exact hfront q (List.mem_of_getElem? hq) inner u z hu
        · obtain rfl : p = q := by simpa using hq
          exact hbefore inner hinner u z hu

/-- The initializer of a value tells whether a part of it has a fault, and the first one. -/
structure TellsFaults (x : Mapper) (s : Symbol) (v : Json) : Prop where
  faultless : failure? (x.defaultValue s v) = none → Faultless x.system s v
  first : ∀ e, failure? (x.defaultValue s v) = some e →
    ∃ place, FirstFault x.system s v place e

/-- The induction is on the value, as the types of structs may refer to each other. -/
theorem tellsFaults (hfields : CoversFields x.system) (v : Json) :
    ∀ s, Covers x.system s.type → TellsFaults x s v := by
  induction v using Json.entries_induction with
  | h v ih =>
      intro s hs
      have hpart : ∀ p ∈ parts x.system s v, TellsFaults x p.1 p.2 := by
        intro p hp
        obtain ⟨entries, hentries, hmem⟩ := exists_entry_of_parts hp
        exact ih entries hentries p.2 hmem p.1 (covers_of_parts hfields hs hp)
      have hstep := failure?_defaultValue hs.resolves v
      constructor
      · intro hnone
        obtain ⟨hown, hrest⟩ := Option.or_eq_none_iff.mp (hstep.symm.trans hnone)
        rw [List.findSome?_eq_none_iff] at hrest
        exact faultless_iff.mpr ⟨hown, fun p hp => (hpart p hp).faultless (hrest p hp)⟩
      · intro e hsome
        rw [hstep] at hsome
        cases hown : fault? x.system s v with
        | some own =>
            rw [hown] at hsome
            cases hsome
            exact ⟨[], ⟨s, v, rfl, hown⟩, fun earlier hlt => absurd hlt (List.not_lt_nil earlier)⟩
        | none =>
            rw [hown, Option.none_or] at hsome
            obtain ⟨front, p, back, hsplit, hp, hfront⟩ := List.findSome?_eq_some_iff.mp hsome
            have hsplits : ∀ q ∈ front ++ p :: back, TellsFaults x q.1 q.2 := hsplit ▸ hpart
            obtain ⟨place, hplace⟩ := (hsplits p (by simp)).first e hp
            refine ⟨front.length :: place, hplace.of_part hown hsplit fun q hq => ?_⟩
            exact (hsplits q (by simp [hq])).faultless (hfront q hq)

theorem conforms_iff_failure?_eq_none (hfields : CoversFields x.system) (v : Json) :
    ∀ s, Covers x.system s.type →
      (Conforms x.system s.type v ↔ failure? (x.defaultValue s v) = none) := by
  induction v using Json.entries_induction with
  | h v ih =>
      intro s hs
      rw [conforms_iff hs.resolves, failure?_defaultValue hs.resolves, Option.or_eq_none_iff,
        List.findSome?_eq_none_iff]
      refine and_congr_right fun _ => forall₂_congr fun p hp => ?_
      obtain ⟨entries, hentries, hmem⟩ := exists_entry_of_parts hp
      exact ih entries hentries p.2 hmem p.1 (covers_of_parts hfields hs hp)

/-! ## Systems from documents -/

theorem coversFields_of_build {sources : List Document.Source}
    (h : Document.build sources = .ok system) : CoversFields system :=
  fun m hm struct hstruct f hf => (Document.resolves_of_build h m hm).structs struct hstruct f hf

/-- In a loaded system, a value gives an initializer for a typed symbol exactly if it conforms to its
type.  If it does not, the error is the fault of the first of its parts that has one. -/
theorem defaultValue_of_loaded {t : Files.Tree} {paths : List String}
    (hload : Document.load t paths = .ok system) {name : String} {n : Model.Node}
    (hn : (name, n) ∈ system.walk) (hs : n.symbol? = some s) (classPrefix : String) (v : Json) :
    let x : Mapper := ⟨system, classPrefix⟩
    ((∃ text, x.defaultValue s v = .ok text) ↔ Conforms system s.type v) ∧
    ∀ e, x.defaultValue s v = .error e ↔ ∃ place, FirstFault system s v place e := by
  intro x
  obtain ⟨sources, -, hbuild⟩ := bind_eq_ok.mp hload
  have hcovers : Covers x.system s.type := fun depth u hu =>
    Document.resolves_of_walk hbuild hn hs hu
  have hfields : CoversFields x.system := coversFields_of_build hbuild
  have htold := tellsFaults hfields v s hcovers
  refine ⟨?_, fun e => ⟨fun h => htold.first e (failure?_eq_some.mpr h), ?_⟩⟩
  · rw [← failure?_eq_none]
    exact (conforms_iff_failure?_eq_none hfields v s hcovers).symm
  · rintro ⟨place, hplace⟩
    cases hvalue : failure? (x.defaultValue s v) with
    | none =>
        obtain ⟨u, w, hu, hwrong⟩ := hplace.here
        rw [htold.faultless hvalue place u w hu] at hwrong
        cases hwrong
    | some other =>
        obtain ⟨_, hother⟩ := htold.first other hvalue
        rw [hplace.error_eq hother]
        exact failure?_eq_some.mp hvalue

namespace Sample

/-- A tree with a document about structs. -/
def boardTree : Files.Tree :=
  ⟨[(["w", "board.yaml"], .file (.text
      "module: m
interfaces:
- name: Board
  properties: [{name: line, type: list<Point>}, {name: origin, type: Point}]
structs: [{name: Point, fields: [{name: x, type: int}, {name: y, type: int}]}]
")), (["w"], .directory)], ["w"]⟩

/-- A struct with two fields. -/
def point : Struct where
  name := "Point"
  fields := [{ name := "x", type := .primitive .int }, { name := "y", type := .primitive .int }]

/-- A property that lists such structs. -/
def line : Model.Property where
  name := "line"
  type := .list (.struct ⟨"m", "Point"⟩)

/-- A property of such a struct. -/
def origin : Model.Property where
  name := "origin"
  type := .struct ⟨"m", "Point"⟩

/-- The interface with these properties. -/
def board : Model.Interface where
  name := "Board"
  properties := [line, origin]

/-- The module that the document describes. -/
def boardModule : Module where
  name := "m"
  version := ⟨1, 0⟩
  interfaces := [board]
  structs := [point]
  source := some "board.yaml"

/-- The system that is loaded. -/
def boardSystem : System := ⟨[boardModule]⟩

theorem load_board : Document.load boardTree ["board.yaml"] = .ok boardSystem := by
  decide +kernel

/-- Two points, the second one by the names of its fields. -/
def points : Json := .array [.array [.int 1, .int 2], .object [("x", .int 3), ("y", .int 4)]]

/-- Two points, of which the second one lacks a field. -/
def shortPoints : Json := .array [.array [.int 1, .int 2], .object [("x", .int 3)]]

end Sample

theorem defaultValue_of_loaded_line :
    let s : Symbol := .ofProperty Sample.boardModule Sample.board Sample.line
    Document.load Sample.boardTree ["board.yaml"] = .ok Sample.boardSystem ∧
    ("m.Board#line", Model.Node.property Sample.boardModule Sample.board Sample.line) ∈
      Sample.boardSystem.walk ∧
    Conforms Sample.boardSystem s.type Sample.points ∧
    ∃ place, FirstFault Sample.boardSystem s Sample.shortPoints place
      (.fieldCount "default_value" "m.Board#line" 2 1) :=
  have hmem : ("m.Board#line", Model.Node.property Sample.boardModule Sample.board Sample.line) ∈
      Sample.boardSystem.walk := by decide +kernel
  have haccepted := (defaultValue_of_loaded Sample.load_board hmem rfl "" Sample.points).1
  have hrefused := (defaultValue_of_loaded Sample.load_board hmem rfl "" Sample.shortPoints).2
  ⟨Sample.load_board, hmem, haccepted.mp ⟨_, rfl⟩, (hrefused _).mp rfl⟩

end Stencil.Spelling
