import Stencil.Document.Load
import Stencil.Proofs.Document.Records

/-!
# Keys that a record does not have

A document is read as a tree of records, which know their keys.  A key that its
record does not know makes the document unreadable, except in an enum member: there
it is skipped, and the document is read as if the entry were not written.
-/

namespace Stencil.Document

open Yaml (Node Record)

/-! ## The records of a document -/

/-- The records that a document is made of. -/
inductive Shape where
  | module
  | interface
  | property
  | operation
  | signal
  | parameter
  | struct
  | field
  | enum
  | member
  deriving DecidableEq

namespace Shape

/-- The keys that a record knows. -/
def keys : Shape → List String
  | .module =>
      ["module", "version", "imports", "comment", "tags", "interfaces", "structs", "enums"]
  | .interface => ["name", "comment", "tags", "properties", "operations", "signals"]
  | .property => ["name", "type", "readonly", "const", "comment", "tags"]
  | .operation => ["name", "type", "parameters", "const", "comment", "tags"]
  | .signal => ["name", "parameters", "comment", "tags"]
  | .parameter => ["name", "type", "tags"]
  | .struct => ["name", "comment", "tags", "fields"]
  | .field => ["name", "type", "comment", "tags"]
  | .enum => ["name", "flag", "comment", "tags", "members"]
  | .member => ["name", "value", "comment", "tags"]

/-- The lists of records in a record, under their keys. -/
def lists : Shape → List (String × Shape)
  | .module => [("interfaces", .interface), ("structs", .struct), ("enums", .enum)]
  | .interface => [("properties", .property), ("operations", .operation), ("signals", .signal)]
  | .operation | .signal => [("parameters", .parameter)]
  | .struct => [("fields", .field)]
  | .enum => [("members", .member)]
  | .property | .parameter | .field | .member => []

/-- Whether a node is read as a record. -/
def Reads : Shape → Node → Prop
  | .module, n => (ofNode? n).isSome
  | .interface, n => (Interface.ofNode? n).isSome
  | .property, n => (Property.ofNode? n).isSome
  | .operation, n => (Operation.ofNode? n).isSome
  | .signal, n => (Signal.ofNode? n).isSome
  | .parameter, n => (Parameter.ofNode? n).isSome
  | .struct, n => (Struct.ofNode? n).isSome
  | .field, n => (Field.ofNode? n).isSome
  | .enum, n => (Enum.ofNode? n).isSome
  | .member, n => (Member.ofNode? n).isSome

/-- A key of a mapping that its record knows. -/
def Knows (shape : Shape) (key : Node) : Prop := ∃ name ∈ shape.keys, key.text? = some name

end Shape

/-- A record and the records in its lists, at any depth.  What stands under `tags` is not one of
them. -/
inductive Contains : Shape → Node → Shape → Node → Prop
  | self {shape : Shape} {n : Node} : Contains shape n shape n
  | item {shape inner last : Shape} {n item m : Node} {name : String}
      (hname : (name, inner) ∈ shape.lists) (hitem : HasItemUnder n name item)
      (h : Contains inner item last m) : Contains shape n last m

/-! ## Reading a record is reading its lists -/

section Reading

variable {n m : Node} {shape last : Shape}

/-- The two parts of reading a record: its keys are known, and the items of its lists are read. -/
structure ReadsInside (shape : Shape) (n : Node) : Prop where
  knows : ∀ key value, HasEntry n key value → shape.Knows key
  items : ∀ name inner item, (name, inner) ∈ shape.lists → HasItemUnder n name item →
    inner.Reads item

variable {r : Record}

theorem knows_of_closed (h : Record.closed? shape.keys n = some r) (key value : Node)
    (hentry : HasEntry n key value) : shape.Knows key := by
  obtain ⟨name, hname, hkey, -⟩ := (fieldsOf_of_closed h).field key value hentry
  exact ⟨name, hname, hkey⟩

/-- A record without lists in it. -/
theorem readsInside_of_closed (hlists : shape.lists = [])
    (h : Record.closed? shape.keys n = some r) : ReadsInside shape n := by
  refine ⟨knows_of_closed h, fun name inner item hname => ?_⟩
  rw [hlists] at hname
  cases hname

/-- A record with one list in it. -/
theorem readsInside_of_list {name : String} {inner : Shape} (hlists : shape.lists = [(name, inner)])
    (h : Record.closed? shape.keys n = some r)
    (hitems : ∀ item, HasItemUnder n name item → inner.Reads item) : ReadsInside shape n := by
  refine ⟨knows_of_closed h, fun other last item hname => ?_⟩
  rw [hlists, List.mem_singleton] at hname
  cases hname
  exact hitems item

/-- A record with three lists in it. -/
theorem readsInside_of_lists {a b c : String} {x y z : Shape}
    (hlists : shape.lists = [(a, x), (b, y), (c, z)])
    (h : Record.closed? shape.keys n = some r)
    (ha : ∀ item, HasItemUnder n a item → x.Reads item)
    (hb : ∀ item, HasItemUnder n b item → y.Reads item)
    (hc : ∀ item, HasItemUnder n c item → z.Reads item) : ReadsInside shape n := by
  refine ⟨knows_of_closed h, fun other last item hname => ?_⟩
  rw [hlists, List.mem_cons, List.mem_cons, List.mem_singleton] at hname
  rcases hname with heq | heq | heq
  · cases heq
    exact ha item
  · cases heq
    exact hb item
  · cases heq
    exact hc item

theorem readsInside_of_reads (hmember : shape ≠ .member) (h : shape.Reads n) :
    ReadsInside shape n := by
  cases shape with
  | member => exact absurd rfl hmember
  | property | parameter | field =>
      obtain ⟨x, hx⟩ := Option.isSome_iff_exists.mp h
      obtain ⟨r, hr, -⟩ := Option.bind_eq_some_iff.mp hx
      exact readsInside_of_closed rfl hr
  | operation =>
      obtain ⟨x, hx⟩ := Option.isSome_iff_exists.mp h
      obtain ⟨r, hr, hx⟩ := Option.bind_eq_some_iff.mp hx
      simp only [Option.bind_eq_bind, Option.bind_eq_some_iff] at hx
      obtain ⟨_, -, _, -, parameters, hparameters, -⟩ := hx
      exact readsInside_of_list rfl hr
        fun _ => (fieldsOf_of_closed hr).isSome_of_optional hparameters
  | signal =>
      obtain ⟨x, hx⟩ := Option.isSome_iff_exists.mp h
      obtain ⟨r, hr, hx⟩ := Option.bind_eq_some_iff.mp hx
      simp only [Option.bind_eq_bind, Option.bind_eq_some_iff] at hx
      obtain ⟨_, -, parameters, hparameters, -⟩ := hx
      exact readsInside_of_list rfl hr
        fun _ => (fieldsOf_of_closed hr).isSome_of_optional hparameters
  | struct =>
      obtain ⟨x, hx⟩ := Option.isSome_iff_exists.mp h
      obtain ⟨r, hr, hx⟩ := Option.bind_eq_some_iff.mp hx
      simp only [Option.bind_eq_bind, Option.bind_eq_some_iff] at hx
      obtain ⟨_, -, _, -, _, -, fields, hfields, -⟩ := hx
      exact readsInside_of_list rfl hr
        fun _ => (fieldsOf_of_closed hr).isSome_of_optional hfields
  | enum =>
      obtain ⟨x, hx⟩ := Option.isSome_iff_exists.mp h
      obtain ⟨r, hr, hx⟩ := Option.bind_eq_some_iff.mp hx
      simp only [Option.bind_eq_bind, Option.bind_eq_some_iff] at hx
      obtain ⟨_, -, _, -, _, -, _, -, members, hmembers, -⟩ := hx
      exact readsInside_of_list rfl hr
        fun _ => (fieldsOf_of_closed hr).isSome_of_required hmembers
  | interface =>
      obtain ⟨x, hx⟩ := Option.isSome_iff_exists.mp h
      obtain ⟨r, hr, hx⟩ := Option.bind_eq_some_iff.mp hx
      simp only [Option.bind_eq_bind, Option.bind_eq_some_iff] at hx
      obtain ⟨_, -, _, -, _, -, ps, hps, os, hos, ss, hss, -⟩ := hx
      have hfields := fieldsOf_of_closed hr
      exact readsInside_of_lists rfl hr (fun _ => hfields.isSome_of_optional hps)
        (fun _ => hfields.isSome_of_optional hos) fun _ => hfields.isSome_of_optional hss
  | module =>
      obtain ⟨x, hx⟩ := Option.isSome_iff_exists.mp h
      obtain ⟨r, hr, hx⟩ := Option.bind_eq_some_iff.mp hx
      simp only [Option.bind_eq_bind, Option.bind_eq_some_iff] at hx
      obtain ⟨_, -, _, -, _, -, _, -, _, -, is, his, ss, hss, es, hes, -⟩ := hx
      have hfields := fieldsOf_of_closed hr
      exact readsInside_of_lists rfl hr (fun _ => hfields.isSome_of_optional his)
        (fun _ => hfields.isSome_of_optional hss) fun _ => hfields.isSome_of_optional hes

/-- If a record is read, all the records in it are. -/
theorem reads_of_contains (h : Contains shape n last m) (hreads : shape.Reads n) :
    last.Reads m := by
  induction h with
  | self => exact hreads
  | @item shape inner last n item m name hname hitem _ ih =>
      have hmember : shape ≠ .member := by
        rintro rfl
        cases hname
      exact ih ((readsInside_of_reads hmember hreads).items name inner item hname hitem)

end Reading

/-! ## Members of enums -/

/-- A key of an enum member that names none of its fields. -/
def isSkipped (key : Node) : Bool := decide (memberKey? key = some none)

/-- The mapping without the entries whose keys are skipped. -/
def withoutSkipped : Node → Node
  | .mapping tag entries => .mapping tag (entries.filter fun e => !isSkipped e.1)
  | n => n

/-- The skipped entries hold plain data, as every part of a member has to. -/
def SkipsPlainData (n : Node) : Prop :=
  ∀ key value, HasEntry n key value → isSkipped key = true → isPlainEntry (key, value) = true

theorem arePlainEntries_iff {entries : List (Node × Node)} :
    arePlainEntries entries = true ↔ ∀ e ∈ entries, isPlainEntry e = true := by
  induction entries with
  | nil => simp [arePlainEntries]
  | cons e rest ih => simp [arePlainEntries, ih]

theorem memberRecord?_filter {entries : List (Node × Node)} : ∀ r : Record,
    memberRecord? (entries.filter fun e => !isSkipped e.1) r = memberRecord? entries r := by
  induction entries with
  | nil => exact fun _ => rfl
  | cons e rest ih =>
      intro r
      obtain ⟨k, v⟩ := e
      rw [List.filter_cons, memberRecord?]
      cases hk : memberKey? k with
      | none =>
          have hskip : isSkipped k = false := by simp [isSkipped, hk]
          simp [hskip, memberRecord?, hk]
      | some field? =>
          cases field? with
          | none =>
              have hskip : isSkipped k = true := by simp [isSkipped, hk]
              simp [hskip, ih]
          | some field =>
              have hskip : isSkipped k = false := by simp [isSkipped, hk]
              simp only [hskip, Bool.not_false, if_true, memberRecord?, hk]
              exact congrArg _ (funext ih)

theorem isPlainData_withoutSkipped {tag : Option String} {entries : List (Node × Node)} :
    isPlainData (.mapping tag entries) = true ↔
      isPlainData (withoutSkipped (.mapping tag entries)) = true ∧
        SkipsPlainData (.mapping tag entries) := by
  have hskips : SkipsPlainData (.mapping tag entries) ↔
      ∀ e ∈ entries, isSkipped e.1 = true → isPlainEntry e = true := by
    constructor
    · exact fun h e he => h e.1 e.2 ⟨entries, rfl, he⟩
    · rintro h key value ⟨_, hentries, he⟩
      cases hentries
      exact h (key, value) he
  rw [hskips, withoutSkipped, isPlainData, isPlainData, Bool.and_eq_true, Bool.and_eq_true,
    arePlainEntries_iff, arePlainEntries_iff, and_assoc]
  refine and_congr_right fun _ => ⟨?_, ?_⟩
  · exact fun h => ⟨fun e he => h e (List.mem_filter.mp he).1, fun e he _ => h e he⟩
  · rintro ⟨hkept, hskipped⟩ e he
    cases hskip : isSkipped e.1 with
    | true => exact hskipped e he hskip
    | false => exact hkept e (List.mem_filter.mpr ⟨he, by simp [hskip]⟩)

/-- Only mappings have entries: what is read as an empty mapping has none. -/
theorem exists_mapping_of_hasEntry {n key value : Node} (h : HasEntry n key value) :
    ∃ tag entries, n = .mapping tag entries ∧ (key, value) ∈ entries := by
  obtain ⟨entries, hentries, hmem⟩ := h
  cases n with
  | mapping tag others =>
      cases hentries
      exact ⟨tag, entries, rfl, hmem⟩
  | scalar tag style text =>
      have hscalar : (Node.scalar tag style text).entries? =
          if (Node.scalar tag style text).isEmpty then some [] else none := rfl
      rw [hscalar] at hentries
      split_ifs at hentries
      cases hentries
      cases hmem
  | sequence tag items => cases hentries
  | unreadable => cases hentries

theorem isPlainData_of_member {n : Node} {x : Member} (h : Member.ofNode? n = some x) :
    isPlainData n = true := by
  unfold Member.ofNode? at h
  by_contra hplain
  rw [if_pos (by simpa using hplain)] at h
  cases h

/-- A member is read as if its skipped entries were not written, if these hold plain data. -/
theorem member_eq_some_iff {n : Node} {x : Member} :
    Member.ofNode? n = some x ↔ Member.ofNode? (withoutSkipped n) = some x ∧ SkipsPlainData n := by
  cases n with
  | mapping tag entries =>
      have hsame : isPlainData (.mapping tag entries) = true →
          isPlainData (withoutSkipped (.mapping tag entries)) = true →
            Member.ofNode? (withoutSkipped (.mapping tag entries)) =
              Member.ofNode? (.mapping tag entries) := by
        intro hall hkept
        unfold withoutSkipped at hkept ⊢
        simp only [Member.ofNode?, hall, hkept, meantText?, scalarMeaning?, memberRecord?_filter]
      constructor
      · intro h
        have hall := isPlainData_of_member h
        obtain ⟨hkept, hskips⟩ := isPlainData_withoutSkipped.mp hall
        exact ⟨(hsame hall hkept).trans h, hskips⟩
      · rintro ⟨h, hskips⟩
        have hkept := isPlainData_of_member h
        have hall := isPlainData_withoutSkipped.mpr ⟨hkept, hskips⟩
        exact (hsame hall hkept).symm.trans h
  | scalar | sequence | unreadable =>
      refine (and_iff_left ?_).symm
      intro key value hentry
      obtain ⟨tag, entries, hmapping, -⟩ := exists_mapping_of_hasEntry hentry
      cases hmapping

/-! ## Documents without the skipped entries -/

/-- The enum without the entries of its members that are skipped. -/
def enumWithoutSkipped : Node → Node := editUnder "members" (editItems withoutSkipped)

/-- The document without the entries of enum members that are skipped. -/
def documentWithoutSkipped : Node → Node := editUnder "enums" (editItems enumWithoutSkipped)

theorem contains_member_of_enum {n m : Node} :
    Contains .enum n .member m ↔ HasItemUnder n "members" m := by
  constructor
  · intro h
    cases h with
    | item hname hitem h =>
        rw [Shape.lists, List.mem_singleton] at hname
        cases hname
        cases h with
        | self => exact hitem
        | item hname => cases hname
  · exact fun h => .item List.mem_cons_self h .self

/-- Outside of enums there are neither enums nor their members. -/
theorem not_member_of_contains {shape last : Shape} {n m : Node} (h : Contains shape n last m)
    (hshape : shape ∉ [.module, .enum, .member]) : last ≠ .member := by
  have houtside : ∀ outer : Shape, outer ∉ [.module, .enum, .member] →
      ∀ p ∈ outer.lists, p.2 ∉ [.module, .enum, .member] := by
    intro outer
    cases outer <;> decide
  induction h with
  | self =>
      rintro rfl
      exact hshape (by decide)
  | item hname _ _ ih => exact ih (houtside _ hshape _ hname)

/-- The members in a document are those in its enums. -/
theorem contains_member_of_module {n m : Node} :
    Contains .module n .member m ↔
      ∃ e, HasItemUnder n "enums" e ∧ Contains .enum e .member m := by
  constructor
  · intro h
    cases h with
    | item hname hitem h =>
        simp only [Shape.lists, List.mem_cons, List.not_mem_nil, or_false] at hname
        rcases hname with heq | heq | heq
        · cases heq
          exact absurd rfl (not_member_of_contains h (by decide))
        · cases heq
          exact absurd rfl (not_member_of_contains h (by decide))
        · cases heq
          exact ⟨_, hitem, h⟩
  · rintro ⟨e, hitem, h⟩
    exact .item (List.mem_cons_of_mem _ (List.mem_cons_of_mem _ List.mem_cons_self)) hitem h

/-- All members in a record skip plain data only. -/
def AllSkipPlainData (shape : Shape) (n : Node) : Prop :=
  ∀ m, Contains shape n .member m → SkipsPlainData m

theorem allSkipPlainData_enum {n : Node} {known : List String} {r : Record}
    (h : FieldsOf known n r) :
    AllSkipPlainData .enum n ↔
      ∀ list, r.lookup "members" = some list → ∀ i, HasItem list i → SkipsPlainData i := by
  unfold AllSkipPlainData
  simp only [contains_member_of_enum, h.hasItemUnder_iff]
  exact ⟨fun hall list hlist i hi => hall i ⟨list, hlist, hi⟩,
    fun hall m ⟨list, hlist, hi⟩ => hall list hlist m hi⟩

theorem allSkipPlainData_module {n : Node} {known : List String} {r : Record}
    (h : FieldsOf known n r) :
    AllSkipPlainData .module n ↔
      ∀ list, r.lookup "enums" = some list → ∀ e, HasItem list e → AllSkipPlainData .enum e := by
  unfold AllSkipPlainData
  simp only [contains_member_of_module, h.hasItemUnder_iff]
  exact ⟨fun hall list hlist e he m hm => hall m ⟨e, ⟨list, hlist, he⟩, hm⟩,
    fun hall m ⟨e, ⟨list, hlist, he⟩, hm⟩ => hall list hlist e he m hm⟩

theorem enum_eq_some {n : Node} {x : Enum} :
    Enum.ofNode? n = some x ↔ ∃ r, Record.closed? Shape.enum.keys n = some r ∧
      r.required? "name" Node.text? = some x.name ∧
      r.optional? "flag" false Node.bool? = some x.flag ∧ comment? r = some x.comment ∧
      tags? r = some x.tags ∧
      r.required? "members" (Node.list? Member.ofNode?) = some x.members := by
  unfold Enum.ofNode?
  simp only [Option.bind_eq_bind, Option.bind_eq_some_iff, Option.pure_def, Option.some.injEq]
  constructor
  · rintro ⟨r, hr, name, hname, flag, hflag, comment, hcomment, tags, htags, members, hmembers, rfl⟩
    exact ⟨r, hr, hname, hflag, hcomment, htags, hmembers⟩
  · rintro ⟨r, hr, hname, hflag, hcomment, htags, hmembers⟩
    exact ⟨r, hr, _, hname, _, hflag, _, hcomment, _, htags, _, hmembers, rfl⟩

theorem document_eq_some {n : Node} {x : Document} :
    ofNode? n = some x ↔ ∃ r, Record.closed? Shape.module.keys n = some r ∧
      r.required? "module" Node.text? = some x.module ∧
      r.optional? "version" none Node.versionText? = some x.version ∧
      r.optional? "imports" [] (Node.list? Node.text?) = some x.imports ∧
      comment? r = some x.comment ∧ tags? r = some x.tags ∧
      r.optional? "interfaces" [] (Node.list? Interface.ofNode?) = some x.interfaces ∧
      r.optional? "structs" [] (Node.list? Struct.ofNode?) = some x.structs ∧
      r.optional? "enums" [] (Node.list? Enum.ofNode?) = some x.enums := by
  unfold ofNode?
  simp only [Option.bind_eq_bind, Option.bind_eq_some_iff, Option.pure_def, Option.some.injEq]
  constructor
  · rintro ⟨r, hr, _, h₁, _, h₂, _, h₃, _, h₄, _, h₅, _, h₆, _, h₇, _, h₈, rfl⟩
    exact ⟨r, hr, h₁, h₂, h₃, h₄, h₅, h₆, h₇, h₈⟩
  · rintro ⟨r, hr, h₁, h₂, h₃, h₄, h₅, h₆, h₇, h₈⟩
    exact ⟨r, hr, _, h₁, _, h₂, _, h₃, _, h₄, _, h₅, _, h₆, _, h₇, _, h₈, rfl⟩

/-- An enum is read as if the skipped entries of its members were not written. -/
theorem enum_eq_some_iff {n : Node} {x : Enum} :
    Enum.ofNode? n = some x ↔
      Enum.ofNode? (enumWithoutSkipped n) = some x ∧ AllSkipPlainData .enum n := by
  have hmember : ∀ i m, Member.ofNode? i = some m ↔
      Member.ofNode? (withoutSkipped i) = some m ∧ SkipsPlainData i :=
    fun _ _ => member_eq_some_iff
  have hmembers : ∀ list members, list.list? Member.ofNode? = some members ↔
      (editItems withoutSkipped list).list? Member.ofNode? = some members ∧
        ∀ i, HasItem list i → SkipsPlainData i :=
    fun _ _ => list?_eq_some_congr hmember
  rw [enum_eq_some, enum_eq_some]
  refine exists_closed_congr fun r hr => ?_
  rw [allSkipPlainData_enum (fieldsOf_of_closed hr), required?_eq_some_congr hmembers]
  -- the other fields are those of the record as it is written
  simp only [comment?, tags?, ne_eq, String.reduceEq, not_false_eq_true, required?_editField_of_ne,
    optional?_editField_of_ne, and_assoc]

/-- A document is read as if the skipped entries of its enum members were not written. -/
theorem document_eq_some_iff {n : Node} {x : Document} :
    ofNode? n = some x ↔
      ofNode? (documentWithoutSkipped n) = some x ∧ AllSkipPlainData .module n := by
  have henum : ∀ e x, Enum.ofNode? e = some x ↔
      Enum.ofNode? (enumWithoutSkipped e) = some x ∧ AllSkipPlainData .enum e :=
    fun _ _ => enum_eq_some_iff
  have henums : ∀ list enums, list.list? Enum.ofNode? = some enums ↔
      (editItems enumWithoutSkipped list).list? Enum.ofNode? = some enums ∧
        ∀ e, HasItem list e → AllSkipPlainData .enum e :=
    fun _ _ => list?_eq_some_congr henum
  rw [document_eq_some, document_eq_some]
  refine exists_closed_congr fun r hr => ?_
  rw [allSkipPlainData_module (fieldsOf_of_closed hr), optional?_eq_some_congr henums]
  -- the other fields are those of the record as it is written
  simp only [comment?, tags?, ne_eq, String.reduceEq, not_false_eq_true, required?_editField_of_ne,
    optional?_editField_of_ne, and_assoc]

/-! ## Documents that are loaded -/

/-- A document that is not read makes loading fail, whatever is loaded with it. -/
theorem exists_error_of_ofText? {t : Files.Tree} {paths : List String} {path text : String}
    (hpath : path ∈ paths) (htext : t.readText path = .ok text) (h : ofText? text = none) :
    ∃ e, load t paths = .error e := by
  cases hload : load t paths with
  | error e => exact ⟨e, rfl⟩
  | ok s =>
      obtain ⟨sources, hsources, -⟩ := bind_eq_ok.mp hload
      obtain ⟨source, -, hsource⟩ := exists_of_mem_steps hsources hpath
      have hread : read t path = .ok ⟨path, text⟩ := by
        unfold read
        rw [htext]
      have hfails : readSource t path = .error .malformed := by
        unfold readSource
        rw [hread]
        simp only [bind, Except.bind, h]
        rfl
      cases hsource.symm.trans hfails

theorem ofText?_eq {text : String} {n : Node} (h : Node.ofText text = .ok n) :
    ofText? text = ofNode? n := by
  unfold ofText?
  rw [h]

/-- The keys of a member that is read are texts and whole numbers from zero on. -/
theorem isSome_memberKey? {entries : List (Node × Node)} :
    ∀ {r last : Record}, memberRecord? entries r = some last →
      ∀ e ∈ entries, (memberKey? e.1).isSome := by
  induction entries with
  | nil => exact fun _ _ he => absurd he List.not_mem_nil
  | cons e rest ih =>
      intro r last h
      obtain ⟨k, v⟩ := e
      rw [memberRecord?] at h
      cases hk : memberKey? k with
      | none => simp [hk] at h
      | some field? =>
          rw [hk] at h
          refine List.forall_mem_cons.mpr ⟨by simp [hk], ?_⟩
          cases field? with
          | none => exact ih h
          | some field =>
              obtain ⟨next, -, hnext⟩ := Option.bind_eq_some_iff.mp h
              exact ih hnext

theorem memberKey?_of_reads {m key value : Node} (h : Shape.member.Reads m)
    (hentry : HasEntry m key value) : memberKey? key ≠ none := by
  obtain ⟨tag, entries, rfl, hmem⟩ := exists_mapping_of_hasEntry hentry
  obtain ⟨x, hx⟩ := Option.isSome_iff_exists.mp h
  have hplain := isPlainData_of_member hx
  simp only [Member.ofNode?, hplain, Bool.not_true, Bool.false_eq_true, if_false, meantText?,
    scalarMeaning?] at hx
  obtain ⟨r, hr, -⟩ := Option.bind_eq_some_iff.mp hx
  exact Option.isSome_iff_ne_none.mp (isSome_memberKey? hr (key, value) hmem)

/-! ## Keys that name a field -/

theorem int?_ne_text (s t : String) : Yaml.Meaning.int? s ≠ some (.text t) := by
  intro h
  obtain ⟨i, -, hi⟩ := Option.bind_eq_some_iff.mp h
  unfold Yaml.Meaning.ofInt? at hi
  split_ifs at hi <;> cases hi

theorem eq_of_ofPlain {s t : String} (h : Yaml.Meaning.ofPlain s = .text t) : s = t := by
  unfold Yaml.Meaning.ofPlain at h
  split at h
  · cases h
  · split at h
    · cases h
    · split at h
      · rename_i m hint
        exact absurd (hint.trans (congrArg some h)) (int?_ne_text s t)
      · split at h
        · exact Yaml.Meaning.text.inj h
        · split at h
          · cases h
          · exact Yaml.Meaning.text.inj h

theorem eq_of_ofTagged? {tag s t : String} (h : Yaml.Meaning.ofTagged? tag s = some (.text t)) :
    s = t := by
  unfold Yaml.Meaning.ofTagged? at h
  split_ifs at h
  · obtain ⟨b, -, hb⟩ := Option.map_eq_some_iff.mp h
    cases hb
  · exact absurd h (int?_ne_text s t)
  · obtain ⟨d, -, hd⟩ := Option.map_eq_some_iff.mp h
    cases hd
  · cases h
  · exact Yaml.Meaning.text.inj (Option.some.inj h)

/-- A scalar that means a text means the text that is written. -/
theorem text?_of_scalarMeaning? {key : Node} {s : String}
    (h : scalarMeaning? key = some (.text s)) : key.text? = some s := by
  cases key with
  | scalar tag style text =>
      suffices text = s from congrArg some this
      rw [scalarMeaning?] at h
      cases tag with
      | none =>
          have hscalar : Yaml.Meaning.ofScalar style text = .text s := Option.some.inj h
          rw [Yaml.Meaning.ofScalar] at hscalar
          split_ifs at hscalar
          · exact eq_of_ofPlain hscalar
          · exact Yaml.Meaning.text.inj hscalar
      | some t =>
          unfold Node.meaning? at h
          dsimp only at h
          split_ifs at h
          exact eq_of_ofTagged? h
  | _ => cases h

theorem mem_keys_of_memberKey? {key : Node} {name : String}
    (h : memberKey? key = some (some name)) : name ∈ Shape.member.keys := by
  unfold memberKey? at h
  split at h
  · exact List.mem_of_find?_eq_some (Option.some.inj h)
  · split_ifs at h
    exact List.mem_of_getElem? (Option.some.inj h)
  · cases h

/-- A key that names a field of a member is its name or the number of its place. -/
theorem cases_of_memberKey? {key : Node} {name : String} (h : memberKey? key = some (some name)) :
    key.text? = some name ∨
      ∃ place : Nat, scalarMeaning? key = some (.int place) ∧
        Shape.member.keys[place]? = some name := by
  unfold memberKey? at h
  split at h
  · rename_i s hs
    have hfound := Option.some.inj h
    have hname : name = s := by simpa using List.find?_some hfound
    rw [hname]
    exact Or.inl (text?_of_scalarMeaning? hs)
  · rename_i i hi
    split_ifs at h with hneg
    refine Or.inr ⟨i.toNat, ?_, Option.some.inj h⟩
    rw [hi, Int.toNat_of_nonneg (Int.not_lt.mp hneg)]
  · cases h

/-- What becomes of a key that its record does not know.  The document is refused, and whatever is
loaded with it; only a member of an enum may have a text or a whole number as such a key.  There a
number may stand for the field in its place.  Any other entry is skipped: the document is read as
the one in which these entries are not written, as long as they hold plain data. -/
structure UnknownKeys (text : String) (n : Node) : Prop where
  refused : ∀ shape m key value, Contains .module n shape m → HasEntry m key value →
    ¬ shape.Knows key → (shape = .member → memberKey? key = none) →
      ∀ (t : Files.Tree) (paths : List String) (path : String),
        path ∈ paths → t.readText path = .ok text → ∃ e, load t paths = .error e
  placed : ∀ key name, ¬ Shape.member.Knows key → memberKey? key = some (some name) →
    ∃ place : Nat, scalarMeaning? key = some (.int place) ∧ Shape.member.keys[place]? = some name
  skipped : ∀ d, ofText? text = some d ↔
    ofNode? (documentWithoutSkipped n) = some d ∧ AllSkipPlainData .module n

theorem unknown_keys_refused_or_skipped {text : String} {n : Node} (h : Node.ofText text = .ok n) :
    UnknownKeys text n where
  refused shape m key value hm hentry hunknown hkey t paths path hpath htext := by
    refine exists_error_of_ofText? hpath htext ?_
    rw [ofText?_eq h]
    by_contra hread
    have hreads : shape.Reads m := reads_of_contains hm (Option.isSome_iff_ne_none.mpr hread)
    by_cases hmember : shape = .member
    · subst hmember
      exact memberKey?_of_reads hreads hentry (hkey rfl)
    · exact hunknown ((readsInside_of_reads hmember hreads).knows key value hentry)
  placed key name hunknown hkey := by
    rcases cases_of_memberKey? hkey with htext | hplace
    · exact absurd ⟨name, mem_keys_of_memberKey? hkey, htext⟩ hunknown
    · exact hplace
  skipped d := by
    rw [ofText?_eq h]
    exact document_eq_some_iff

namespace Sample

/-- A tree with one file. -/
def treeOf (text : String) : Files.Tree :=
  ⟨[(["w", "a.yaml"], .file (.text text)), (["w"], .directory)], ["w"]⟩

/-- A document with a field whose comment is misspelled. -/
def misspelledField : String :=
  "module: m
structs:
  - name: Point
    fields:
      - { name: x, type: int, coment: left }
"

/-- A document with an enum member whose value is misspelled. -/
def misspelledMember : String :=
  "module: m
enums:
  - name: Color
    members:
      - { name: Green, valeu: 2 }
"

end Sample

/-- A word among the keys of a record two lists further in that is none of those that it knows. -/
theorem exists_unknown_key (text : String) {outer inner word : String} {kind last : Shape}
    (houter : (outer, kind) ∈ Shape.module.lists) (hinner : (inner, last) ∈ kind.lists)
    (hword : word ∉ last.keys)
    (hfound : ((Node.ofText text).toOption.any fun n => (itemsUnder n outer).any fun r =>
      (itemsUnder r inner).any fun m => (m.entries?.getD []).any fun p =>
        p.1.text? = some word) = true) :
    ∃ n m key value, Node.ofText text = .ok n ∧ Contains .module n last m ∧
      HasEntry m key value ∧ ¬ last.Knows key := by
  cases hn : Node.ofText text with
  | error problem => simp [hn, Except.toOption] at hfound
  | ok n =>
      simp only [hn, Except.toOption, Option.any_some, List.any_eq_true,
        decide_eq_true_eq] at hfound
      obtain ⟨r, hr, m, hm, ⟨key, value⟩, hmem, hkey⟩ := hfound
      refine ⟨n, m, key, value, rfl, .item houter (hasItemUnder_of_mem hr)
        (.item hinner (hasItemUnder_of_mem hm) .self), hasEntry_of_mem hmem, ?_⟩
      rintro ⟨name, hname, htext⟩
      rw [hkey] at htext
      cases htext
      exact hword hname

/-- The misspelled comment of the field makes loading fail. -/
theorem unknown_keys_refused_or_skipped_field :
    ∃ n, Node.ofText Sample.misspelledField = .ok n ∧
      ∃ e, load (Sample.treeOf Sample.misspelledField) ["a.yaml"] = .error e := by
  obtain ⟨n, f, key, value, hn, hf, hentry, hunknown⟩ :=
    exists_unknown_key Sample.misspelledField
      (show ("structs", .struct) ∈ Shape.module.lists by decide)
      (show ("fields", .field) ∈ Shape.struct.lists by decide)
      (show "coment" ∉ Shape.field.keys by decide) (by decide +kernel)
  exact ⟨n, hn, (unknown_keys_refused_or_skipped hn).refused .field f key value hf hentry hunknown
    (fun h => nomatch h) _ _ "a.yaml" List.mem_cons_self rfl⟩

/-- The misspelled value of the enum member is skipped. -/
theorem not_refused_of_unknown_key :
    ¬ ∀ (t : Files.Tree) (paths : List String) (path text : String) (n : Node), path ∈ paths →
      t.readText path = .ok text → Node.ofText text = .ok n →
      ∀ shape m key value, Contains .module n shape m → HasEntry m key value →
        ¬ shape.Knows key → ∃ e, load t paths = .error e := by
  intro h
  obtain ⟨n, m, key, value, hn, hm, hentry, hunknown⟩ :=
    exists_unknown_key Sample.misspelledMember
      (show ("enums", .enum) ∈ Shape.module.lists by decide)
      (show ("members", .member) ∈ Shape.enum.lists by decide)
      (show "valeu" ∉ Shape.member.keys by decide) (by decide +kernel)
  obtain ⟨problem, hfails⟩ := h (Sample.treeOf Sample.misspelledMember) ["a.yaml"] "a.yaml" _ n
    List.mem_cons_self rfl hn .member m key value hm hentry hunknown
  have hloads :
      (load (Sample.treeOf Sample.misspelledMember) ["a.yaml"]).toOption.isSome = true := by
    decide +kernel
  rw [hfails] at hloads
  cases hloads

end Stencil.Document
