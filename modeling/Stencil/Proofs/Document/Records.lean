import Stencil.Proofs.Document.ModuleNames

/-!
# Records and the mappings that they are read from

A record that refuses unknown keys has a field for every entry of its mapping, and
no other fields.  A change of the value under one key is a change of that field, and
a change of the items of a list is one of how they are read.
-/

namespace Stencil

open Yaml (Node Record)

/-! ## Lists that may not be readable -/

/-- A list is read if all of its items are. -/
theorem mapM_eq_some_iff {α β : Type} {read : α → Option β} {items : List α} :
    ∀ {values : List β},
      items.mapM read = some values ↔ List.Forall₂ (fun i v => read i = some v) items values := by
  induction items with
  | nil =>
      intro values
      cases values <;> simp
  | cons item rest ih =>
      intro values
      rw [List.mapM_cons, List.forall₂_cons_left_iff]
      simp only [Option.bind_eq_bind, Option.bind_eq_some_iff, ih, Option.pure_def,
        Option.some.injEq]
      constructor
      · rintro ⟨v, hv, vs, hvs, rfl⟩
        exact ⟨v, vs, hv, hvs, rfl⟩
      · rintro ⟨v, vs, hv, hvs, rfl⟩
        exact ⟨v, hv, vs, hvs, rfl⟩

/-- Two ways to read items agree on a list, up to a condition, if they do on every item. -/
theorem mapM_eq_some_congr {α β : Type} {read other : α → Option β} {P : α → Prop}
    (h : ∀ i v, read i = some v ↔ other i = some v ∧ P i) {items : List α} {values : List β} :
    items.mapM read = some values ↔ items.mapM other = some values ∧ ∀ i ∈ items, P i := by
  rw [mapM_eq_some_iff, mapM_eq_some_iff]
  simp only [h]
  constructor
  · intro hall
    refine ⟨hall.imp fun _ _ hi => hi.1, fun i hi => ?_⟩
    obtain ⟨v, -, hv⟩ := exists_left_of_forall₂ hall.flip hi
    exact hv.2
  · rintro ⟨hall, hP⟩
    induction hall with
    | nil => exact .nil
    | @cons i v is vs hi _ ih =>
        obtain ⟨hPi, hPis⟩ := List.forall_mem_cons.mp hP
        exact .cons ⟨hi, hPi⟩ (ih hPis)

namespace Document

/-! ## Entries and fields -/

/-- A mapping with a key and its value. -/
def HasEntry (n key value : Node) : Prop :=
  ∃ entries, n.entries? = some entries ∧ (key, value) ∈ entries

/-- A list with an item. -/
def HasItem (list item : Node) : Prop := ∃ items, list.items? = some items ∧ item ∈ items

/-- An item of a list under a key. -/
def HasItemUnder (n : Node) (name : String) (item : Node) : Prop :=
  ∃ key list, HasEntry n key list ∧ key.text? = some name ∧ HasItem list item

theorem hasEntry_of_mem {n key value : Node} (h : (key, value) ∈ n.entries?.getD []) :
    HasEntry n key value := by
  cases hentries : n.entries? with
  | none => simp [hentries] at h
  | some entries =>
      rw [hentries, Option.getD_some] at h
      exact ⟨entries, hentries, h⟩

/-- The items of the lists under a key. -/
def itemsUnder (n : Node) (name : String) : List Node :=
  (n.entries?.getD []).flatMap fun (k, v) =>
    if k.text? = some name then v.items?.getD [] else []

theorem hasItemUnder_of_mem {n item : Node} {name : String} (h : item ∈ itemsUnder n name) :
    HasItemUnder n name item := by
  obtain ⟨⟨key, list⟩, hentry, hitem⟩ := List.mem_flatMap.mp h
  dsimp only at hitem
  split_ifs at hitem with hkey
  · cases hitems : list.items? with
    | none => simp [hitems] at hitem
    | some items =>
        rw [hitems, Option.getD_some] at hitem
        exact ⟨key, list, hasEntry_of_mem hentry, hkey, items, hitems, hitem⟩
  · cases hitem

/-- The fields of a record are the entries of a mapping, all of them under known names. -/
structure FieldsOf (known : List String) (n : Node) (r : Record) : Prop where
  field : ∀ key value, HasEntry n key value →
    ∃ name ∈ known, key.text? = some name ∧ r.lookup name = some value
  entry : ∀ name value, r.lookup name = some value →
    ∃ key, HasEntry n key value ∧ key.text? = some name

variable {known : List String} {n : Node} {r : Record}

/-- What stands in a record stays there while entries are added, and each of them gets a field.  The
record at the beginning is left open, as the induction moves it along. -/
theorem fields_of_ofEntries {entries : List (Node × Node)} :
    ∀ {r last : Record}, Record.ofEntries? false known entries r = some last →
      (∀ name value, r.lookup name = some value → last.lookup name = some value) ∧
      (∀ key value, (key, value) ∈ entries →
        ∃ name ∈ known, key.text? = some name ∧ last.lookup name = some value) ∧
      ∀ name value, last.lookup name = some value →
        r.lookup name = some value ∨ ∃ key, (key, value) ∈ entries ∧ key.text? = some name := by
  induction entries with
  | nil =>
      intro r last h
      cases h
      exact ⟨fun _ _ hr => hr, fun _ _ hmem => absurd hmem List.not_mem_nil,
        fun _ _ hr => Or.inl hr⟩
  | cons entry rest ih =>
      intro r last h
      obtain ⟨k, v⟩ := entry
      obtain ⟨field, hknown, hk, hfresh, hrest⟩ := exists_field_of_closed h
      obtain ⟨hkept, hfields, hentries⟩ := ih hrest
      have hself : List.lookup field (r ++ [(field, v)]) = some v := by
        rw [List.lookup_append, hfresh, List.lookup_cons_self]
        rfl
      refine ⟨fun name value hr => hkept name value ?_, fun key value hmem => ?_,
        fun name value hlast => ?_⟩
      · rw [List.lookup_append, hr]
        rfl
      · rcases List.mem_cons.mp hmem with heq | hmem
        · cases heq
          exact ⟨field, hknown, hk, hkept field v hself⟩
        · exact hfields key value hmem
      · rcases hentries name value hlast with hr | ⟨key, hmem, hkey⟩
        · by_cases hname : name = field
          · subst hname
            rw [hself] at hr
            cases hr
            exact Or.inr ⟨k, List.mem_cons_self, hk⟩
          · rw [List.lookup_append, List.lookup_cons, beq_false_of_ne hname] at hr
            simpa using Or.inl hr
        · exact Or.inr ⟨key, List.mem_cons_of_mem _ hmem, hkey⟩

theorem fieldsOf_of_closed (h : Record.closed? known n = some r) : FieldsOf known n r := by
  obtain ⟨entries, hentries, hclosed⟩ := Option.bind_eq_some_iff.mp h
  obtain ⟨-, hfields, hback⟩ := fields_of_ofEntries hclosed
  refine ⟨?_, fun name value hvalue => ?_⟩
  · rintro key value ⟨entries', hentries', hmem⟩
    cases hentries.symm.trans hentries'
    exact hfields key value hmem
  · rcases hback name value hvalue with hnil | ⟨key, hmem, hkey⟩
    · cases hnil
    · exact ⟨key, ⟨entries, hentries, hmem⟩, hkey⟩

/-- The entry under a known key is the field of that name. -/
theorem FieldsOf.lookup (h : FieldsOf known n r) {key value : Node} {name : String}
    (hentry : HasEntry n key value) (hkey : key.text? = some name) :
    r.lookup name = some value := by
  obtain ⟨field, -, hfield, hvalue⟩ := h.field key value hentry
  cases hkey.symm.trans hfield
  exact hvalue

/-- The items of a list under a key are those of the field of that name. -/
theorem FieldsOf.hasItemUnder_iff (h : FieldsOf known n r) {name : String} {item : Node} :
    HasItemUnder n name item ↔ ∃ list, r.lookup name = some list ∧ HasItem list item := by
  constructor
  · rintro ⟨key, list, hentry, hkey, hitem⟩
    exact ⟨list, h.lookup hentry hkey, hitem⟩
  · rintro ⟨list, hlist, hitem⟩
    obtain ⟨key, hentry, hkey⟩ := h.entry name list hlist
    exact ⟨key, list, hentry, hkey, hitem⟩

/-- A list that is read is one whose items are read. -/
theorem isSome_of_hasItem {α : Type} {read : Node → Option α} {list item : Node} {values : List α}
    (h : list.list? read = some values) (hitem : HasItem list item) : (read item).isSome := by
  obtain ⟨items, hitems, hmem⟩ := hitem
  rw [Node.list?, hitems, Option.bind_some, mapM_eq_some_iff] at h
  obtain ⟨v, -, hv⟩ := exists_left_of_forall₂ h.flip hmem
  exact Option.isSome_iff_exists.mpr ⟨v, hv⟩

/-- The items of a list that a record is read with are read. -/
theorem FieldsOf.isSome_of_optional {α : Type} {read : Node → Option α} {missing values : List α}
    {name : String} {item : Node} (h : FieldsOf known n r)
    (hread : r.optional? name missing (Node.list? read) = some values)
    (hitem : HasItemUnder n name item) : (read item).isSome := by
  obtain ⟨list, hlist, hitem⟩ := h.hasItemUnder_iff.mp hitem
  rw [Record.optional?, hlist] at hread
  exact isSome_of_hasItem hread hitem

theorem FieldsOf.isSome_of_required {α : Type} {read : Node → Option α} {values : List α}
    {name : String} {item : Node} (h : FieldsOf known n r)
    (hread : r.required? name (Node.list? read) = some values)
    (hitem : HasItemUnder n name item) : (read item).isSome := by
  obtain ⟨list, hlist, hitem⟩ := h.hasItemUnder_iff.mp hitem
  rw [Record.required?, hlist, Option.bind_some] at hread
  exact isSome_of_hasItem hread hitem

/-! ## Changes of a node -/

/-- The record with another value of one field. -/
def editField (name : String) (edit : Node → Node) (r : Record) : Record :=
  r.map fun (field, v) => (field, if field = name then edit v else v)

/-- The mapping with another value under one key. -/
def editUnder (name : String) (edit : Node → Node) : Node → Node
  | .mapping tag entries =>
      .mapping tag (entries.map fun (k, v) => (k, if k.text? = some name then edit v else v))
  | n => n

/-- The list with other items. -/
def editItems (edit : Node → Node) : Node → Node
  | .sequence tag items => .sequence tag (items.map edit)
  | n => n

variable {name : String} {edit : Node → Node}

theorem lookup_editField_self (r : Record) :
    (editField name edit r).lookup name = (r.lookup name).map edit := by
  induction r with
  | nil => rfl
  | cons p rest ih =>
      obtain ⟨field, v⟩ := p
      by_cases hname : field = name
      · subst hname
        simp [editField]
      · have hother : (name == field) = false := beq_false_of_ne (Ne.symm hname)
        show List.lookup name ((field, _) :: editField name edit rest) = _
        rw [List.lookup_cons, List.lookup_cons, hother, ih]

theorem lookup_editField_of_ne {other : String} (h : other ≠ name) (r : Record) :
    (editField name edit r).lookup other = r.lookup other := by
  induction r with
  | nil => rfl
  | cons p rest ih =>
      obtain ⟨field, v⟩ := p
      show List.lookup other ((field, _) :: editField name edit rest) = _
      rw [List.lookup_cons, List.lookup_cons, ih]
      by_cases hfield : other = field
      · subst hfield
        simp [h]
      · simp [beq_false_of_ne hfield]

theorem editField_append (r : Record) (field : String) (v : Node) :
    editField name edit (r ++ [(field, v)]) =
      editField name edit r ++ [(field, if field = name then edit v else v)] :=
  List.map_append

theorem ofEntries?_editUnder {entries : List (Node × Node)} (open_ : Bool) : ∀ r : Record,
    Record.ofEntries? open_ known
        (entries.map fun (k, v) => (k, if k.text? = some name then edit v else v))
        (editField name edit r) =
      (Record.ofEntries? open_ known entries r).map (editField name edit) := by
  induction entries with
  | nil => exact fun _ => rfl
  | cons entry rest ih =>
      intro r
      obtain ⟨k, v⟩ := entry
      rw [List.map_cons, Record.ofEntries?, Record.ofEntries?]
      cases hk : k.text? with
      | none => rfl
      | some field =>
          have hlookup :
              ((editField name edit r).lookup field).isSome = (r.lookup field).isSome := by
            by_cases hname : field = name
            · rw [hname, lookup_editField_self, Option.isSome_map]
            · rw [lookup_editField_of_ne hname]
          simp only [Option.some.injEq, Record.insert?, hlookup]
          by_cases hknown : known.contains field = true
          · rw [if_pos hknown, if_pos hknown]
            by_cases hthere : (r.lookup field).isSome = true
            · rw [if_pos hthere, if_pos hthere]
              rfl
            · rw [if_neg hthere, if_neg hthere, Option.bind_some, Option.bind_some, ← ih,
                editField_append]
          · rw [if_neg hknown, if_neg hknown]
            cases open_ with
            | true => exact ih r
            | false => rfl

/-- The entries of a changed mapping are those of the mapping, changed. -/
theorem entries?_editUnder (n : Node) :
    (editUnder name edit n).entries? =
      n.entries?.map (List.map fun (k, v) => (k, if k.text? = some name then edit v else v)) := by
  cases n with
  | mapping tag entries => rfl
  | scalar tag style text =>
      have hentries : (Node.scalar tag style text).entries? =
          if (Node.scalar tag style text).isEmpty then some [] else none := rfl
      show (Node.scalar tag style text).entries? = _
      rw [hentries]
      split_ifs <;> rfl
  | sequence tag items => rfl
  | unreadable => rfl

/-- A record of a changed mapping is the changed record. -/
theorem closed?_editUnder (n : Node) :
    Record.closed? known (editUnder name edit n) =
      (Record.closed? known n).map (editField name edit) := by
  rw [Record.closed?, Record.closed?, entries?_editUnder]
  cases n.entries? with
  | none => rfl
  | some entries => exact ofEntries?_editUnder false []

theorem open?_editUnder (n : Node) :
    Record.open? known (editUnder name edit n) =
      (Record.open? known n).map (editField name edit) := by
  rw [Record.open?, Record.open?, entries?_editUnder]
  cases n.entries? with
  | none => rfl
  | some entries => exact ofEntries?_editUnder true []

/-- Reading a changed list is reading its items through the change. -/
theorem list?_editItems {α : Type} (read : Node → Option α) (list : Node) :
    (editItems edit list).list? read = list.list? (read ∘ edit) := by
  cases list with
  | sequence tag items => exact List.mapM_map
  | scalar tag style text =>
      have hitems : (Node.scalar tag style text).items? =
          if (Node.scalar tag style text).isEmpty then some [] else none := rfl
      show (Node.scalar tag style text).list? read = _
      rw [Node.list?, Node.list?, hitems]
      split_ifs <;> rfl
  | mapping tag entries => rfl
  | unreadable => rfl

/-- A change that makes no difference to the items of a list, up to a condition on them, makes none
to the list. -/
theorem list?_eq_some_congr {α : Type} {read : Node → Option α} {P : Node → Prop}
    (h : ∀ i v, read i = some v ↔ read (edit i) = some v ∧ P i) {list : Node} {values : List α} :
    list.list? read = some values ↔
      (editItems edit list).list? read = some values ∧ ∀ i, HasItem list i → P i := by
  rw [list?_editItems]
  unfold Node.list? HasItem
  cases hitems : list.items? with
  | none => simp
  | some items =>
      simp only [Option.bind_some, Option.some.injEq]
      refine (mapM_eq_some_congr h).trans (and_congr_right fun _ => ⟨?_, ?_⟩)
      · rintro hall i ⟨_, rfl, hi⟩
        exact hall i hi
      · exact fun hall i hi => hall i ⟨items, rfl, hi⟩

/-- A change of one field that makes no difference to what it is read as, up to a condition. -/
theorem optional?_eq_some_congr {α : Type} {read : Node → Option α} {P : Node → Prop}
    (h : ∀ v x, read v = some x ↔ read (edit v) = some x ∧ P v) {r : Record} {missing x : α} :
    r.optional? name missing read = some x ↔
      (editField name edit r).optional? name missing read = some x ∧
        ∀ v, r.lookup name = some v → P v := by
  unfold Record.optional?
  rw [lookup_editField_self]
  cases r.lookup name with
  | none => simp
  | some v => simp [h v x]

theorem required?_eq_some_congr {α : Type} {read : Node → Option α} {P : Node → Prop}
    (h : ∀ v x, read v = some x ↔ read (edit v) = some x ∧ P v) {r : Record} {x : α} :
    r.required? name read = some x ↔
      (editField name edit r).required? name read = some x ∧
        ∀ v, r.lookup name = some v → P v := by
  unfold Record.required?
  rw [lookup_editField_self]
  cases r.lookup name with
  | none => simp
  | some v => simp [h v x]

theorem optional?_editField_of_ne {α : Type} {read : Node → Option α} {other : String}
    (h : other ≠ name) (r : Record) (missing : α) :
    (editField name edit r).optional? other missing read = r.optional? other missing read := by
  unfold Record.optional?
  rw [lookup_editField_of_ne h]

/-- Two changes of one field that are read alike. -/
theorem optional?_editField_congr {α : Type} {read : Node → Option α} {other : Node → Node}
    (h : ∀ v, read (edit v) = read (other v)) (r : Record) (missing : α) :
    (editField name edit r).optional? name missing read =
      (editField name other r).optional? name missing read := by
  unfold Record.optional?
  rw [lookup_editField_self, lookup_editField_self]
  cases r.lookup name with
  | none => rfl
  | some v => exact h v

theorem required?_editField_of_ne {α : Type} {read : Node → Option α} {other : String}
    (h : other ≠ name) (r : Record) :
    (editField name edit r).required? other read = r.required? other read := by
  unfold Record.required?
  rw [lookup_editField_of_ne h]

/-- A change under one key that makes no difference to what a record is read as, up to a condition,
makes none to what its mapping is read as. -/
theorem exists_closed_congr {P : Record → Prop} {A : Prop} {n : Node}
    (h : ∀ r, Record.closed? known n = some r → (P r ↔ P (editField name edit r) ∧ A)) :
    (∃ r, Record.closed? known n = some r ∧ P r) ↔
      (∃ r, Record.closed? known (editUnder name edit n) = some r ∧ P r) ∧ A := by
  rw [closed?_editUnder]
  constructor
  · rintro ⟨r, hr, hP⟩
    obtain ⟨hedited, hA⟩ := (h r hr).mp hP
    exact ⟨⟨_, Option.map_eq_some_iff.mpr ⟨r, hr, rfl⟩, hedited⟩, hA⟩
  · rintro ⟨⟨edited, hedited, hP⟩, hA⟩
    obtain ⟨r, hr, rfl⟩ := Option.map_eq_some_iff.mp hedited
    exact ⟨r, hr, (h r hr).mpr ⟨hP, hA⟩⟩

end Document

end Stencil
