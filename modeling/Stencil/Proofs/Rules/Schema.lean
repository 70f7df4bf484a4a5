import Stencil.Proofs.Fallible
import Stencil.Rules.RuleSet

/-!
# The schema of rule files

Which values are rules, told by the shape of the value alone.  Reading a value
succeeds exactly if it has the shape, and its form is told by its top-level keys.
-/

namespace Stencil.Rules

/-! ## Shapes of values -/

/-- A text. -/
def isText : Json → Bool
  | .string _ => true
  | _ => false

/-- A truth value. -/
def isFlag : Json → Bool
  | .bool _ => true
  | _ => false

/-- A mapping with such members. -/
def isMapping (fits : Members → Bool) : Json → Bool
  | .object ms => fits ms
  | _ => false

/-- Such a value, null or none at all. -/
def isOptional (fits : Json → Bool) : Option Json → Bool
  | none | some .null => true
  | some v => fits v

/-- A text or a list of texts. -/
def isTexts : Json → Bool
  | .array items => items.all isText
  | v => isText v

/-- Texts under all keys. -/
def holdsTexts (ms : Members) : Bool := ms.all fun p => isText p.2

/-- A mapping to texts or a list of such mappings. -/
def isTargets : Json → Bool
  | .array items => items.all (isMapping holdsTexts)
  | v => isMapping holdsTexts v

/-! ## Rules of documents -/

/-- What rules and documents have in common: a condition, variables and two directories. -/
def fitsCommon (ms : Members) : Bool :=
  isOptional isTexts (Members.get? "when" ms)
    && isOptional (isMapping fun _ => true) (Members.get? "context" ms)
    && isOptional isText (Members.get? "path" ms) && isOptional isText (Members.get? "source" ms)

/-- The members of a rule. -/
def fitsRule (ms : Members) : Bool :=
  fitsCommon ms && isOptional isTargets (Members.get? "documents" ms)
    && isOptional isTargets (Members.get? "preserve" ms)

/-- The levels that a document can have a rule for. -/
def levels : List String := ["system", "module", "interface", "struct", "enum"]

/-- The members of a document. -/
def fitsDocument (ms : Members) : Bool :=
  fitsCommon ms && isOptional isTexts (Members.get? "extra_filters" ms)
    && levels.all fun level => isOptional (isMapping fitsRule) (Members.get? level ms)

section Fields

variable {ms : Members}

theorem failure?_entryText {flaw : Json → Flaw} {v : Json} :
    failure? (entryText flaw v) = none ↔ isText v = true := by
  cases v <;> simp [entryText, failure?, isText]

theorem failure?_entryTexts {flaw : Json → Flaw} {items : List Json} :
    failure? (items.mapM (entryText flaw)) = none ↔ items.all isText = true := by
  rw [failure?_mapM_eq_none, List.all_eq_true]
  exact forall₂_congr fun v _ => failure?_entryText

theorem failure?_condition {v? : Option Json} :
    failure? (Condition.ofJson v?) = none ↔ isOptional isTexts v? = true := by
  match v? with
  | none => simp [Condition.ofJson, failure?, isOptional]
  | some (.array items) =>
      rw [Condition.ofJson, failure?_map, failure?_entryTexts]
      rfl
  | some .null | some (.bool _) | some (.int _) | some (.double _) | some (.string _)
  | some (.object _) => simp [Condition.ofJson, failure?, isOptional, isTexts, isText]

theorem failure?_filters {v? : Option Json} :
    failure? (RuleDocument.filters v?) = none ↔ isOptional isTexts v? = true := by
  match v? with
  | none => simp [RuleDocument.filters, failure?, isOptional]
  | some (.array items) => exact failure?_entryTexts
  | some .null | some (.bool _) | some (.int _) | some (.double _) | some (.string _)
  | some (.object _) => simp [RuleDocument.filters, failure?, isOptional, isTexts, isText]

theorem failure?_optionalText {key : String} :
    failure? (optionalText key ms) = none ↔ isOptional isText (Members.get? key ms) = true := by
  unfold optionalText
  match Members.get? key ms with
  | none => simp [failure?, isOptional]
  | some .null | some (.bool _) | some (.int _) | some (.double _) | some (.string _)
  | some (.array _) | some (.object _) => simp [failure?, isOptional, isText]

theorem failure?_context :
    failure? (context ms) = none ↔
      isOptional (isMapping fun _ => true) (Members.get? "context" ms) = true := by
  unfold context
  match Members.get? "context" ms with
  | none => simp [failure?, isOptional]
  | some .null | some (.bool _) | some (.int _) | some (.double _) | some (.string _)
  | some (.array _) | some (.object _) => simp [failure?, isOptional, isMapping]

theorem failure?_template {key : String} :
    failure? (ms.mapM (target key)) = none ↔ holdsTexts ms = true := by
  rw [failure?_mapM_eq_none, holdsTexts, List.all_eq_true]
  refine forall₂_congr fun p _ => ?_
  obtain ⟨name, v⟩ := p
  cases v <;> simp [target, failure?, isText]

theorem failure?_targets {key : String} {v? : Option Json} :
    failure? (targets key v?) = none ↔ isOptional isTargets v? = true := by
  match v? with
  | none => simp [targets, failure?, isOptional]
  | some (.object ms) => exact failure?_template
  | some (.array items) =>
      rw [targets, failure?_map, failure?_mapM_eq_none]
      show _ ↔ items.all (isMapping holdsTexts) = true
      rw [List.all_eq_true]
      refine forall₂_congr fun v _ => ?_
      cases v with
      | object ms => exact failure?_template
      | _ => simp [targetsOf, failure?, isMapping]
  | some .null | some (.bool _) | some (.int _) | some (.double _) | some (.string _) =>
      simp [targets, failure?, isOptional, isTargets, isMapping]

theorem failure?_ruleOfJson {level : String} {v : Json} :
    failure? (Rule.ofJson level v) = none ↔ isOptional (isMapping fitsRule) (some v) = true := by
  match v with
  | .object ms =>
      have hsteps : failure? (Rule.ofJson level (.object ms)) =
          (failure? (Condition.ofJson (Members.get? "when" ms))).or ((failure? (context ms)).or
            ((failure? (optionalText "path" ms)).or ((failure? (optionalText "source" ms)).or
              ((failure? (targets "documents" (Members.get? "documents" ms))).or
                (failure? (targets "preserve" (Members.get? "preserve" ms))))))) :=
        failure?_bind fun _ _ => failure?_bind fun _ _ => failure?_bind fun _ _ =>
          failure?_bind fun _ _ => failure?_bind fun _ _ => failure?_bind_pure _ _
      rw [hsteps]
      simp only [Option.or_eq_none_iff, failure?_condition, failure?_context, failure?_optionalText,
        failure?_targets, isOptional, isMapping, fitsRule, fitsCommon, Bool.and_eq_true, and_assoc]
  | .null | .bool _ | .int _ | .double _ | .string _ | .array _ =>
      simp [Rule.ofJson, failure?, isOptional, isMapping]

theorem failure?_rule {level : String} :
    failure? (RuleDocument.rule level ms) = none ↔
      isOptional (isMapping fitsRule) (Members.get? level ms) = true := by
  unfold RuleDocument.rule
  cases hrule : Members.get? level ms with
  | none => simp [failure?, isOptional]
  | some v =>
      rw [failure?_map]
      exact failure?_ruleOfJson

theorem failure?_ofMembers {name : Option String} :
    failure? (RuleDocument.ofMembers name ms) = none ↔ fitsDocument ms = true := by
  have hsteps : failure? (RuleDocument.ofMembers name ms) =
      (failure? (RuleDocument.filters (Members.get? "extra_filters" ms))).or
        ((failure? (Condition.ofJson (Members.get? "when" ms))).or ((failure? (context ms)).or
          ((failure? (optionalText "path" ms)).or ((failure? (optionalText "source" ms)).or
            ((failure? (RuleDocument.rule "system" ms)).or
              ((failure? (RuleDocument.rule "module" ms)).or
                ((failure? (RuleDocument.rule "interface" ms)).or
                  ((failure? (RuleDocument.rule "struct" ms)).or
                    (failure? (RuleDocument.rule "enum" ms)))))))))) :=
    failure?_bind fun _ _ => failure?_bind fun _ _ => failure?_bind fun _ _ =>
      failure?_bind fun _ _ => failure?_bind fun _ _ => failure?_bind fun _ _ =>
        failure?_bind fun _ _ => failure?_bind fun _ _ => failure?_bind fun _ _ =>
          failure?_bind_pure _ _
  -- whether all steps succeed does not depend on their order
  rw [hsteps]
  simp only [Option.or_eq_none_iff, failure?_filters, failure?_condition, failure?_context,
    failure?_optionalText, failure?_rule, fitsDocument, fitsCommon, levels, List.all_cons,
    List.all_nil, Bool.and_eq_true, Bool.and_true, and_assoc, and_comm, and_left_comm]

/-- A document under a name may be null. -/
theorem failure?_ofEntry {p : String × Json} :
    failure? (RuleDocument.ofEntry p) = none ↔
      isOptional (isMapping fitsDocument) (some p.2) = true := by
  obtain ⟨name, v⟩ := p
  match v with
  | .object ms => exact failure?_ofMembers
  | .null =>
      show failure? (RuleDocument.ofMembers (some name) []) = none ↔ _
      rw [failure?_ofMembers]
      exact iff_of_true (by decide) rfl
  | .bool _ | .int _ | .double _ | .string _ | .array _ =>
      simp [RuleDocument.ofEntry, failure?, isOptional, isMapping]

end Fields

/-! ## Rules of the older form -/

/-- A member of an entry that fits; members of other names do not matter. -/
def fitsMember : String × Json → Bool
  | ("dest_file", v) | ("template_file", v) => isText v
  | ("preserve", v) => isFlag v
  | _ => true

/-- An entry, as a mapping or as a list of its fields; both files are named in it. -/
def fitsEntry : Json → Bool
  | .object ms => ms.all fitsMember && (Members.keys ms).contains "dest_file"
      && (Members.keys ms).contains "template_file"
  | .array [dest, template] => isText dest && isText template
  | .array [dest, template, preserve] => isText dest && isText template && isFlag preserve
  | _ => false

/-- The lists of the older form. -/
def legacyKeys : List String := ["module_rules", "interface_rules", "struct_rules"]

/-- A list of entries; anything but a list counts as none. -/
def fitsList : Option Json → Bool
  | some (.array items) => items.all fitsEntry
  | _ => true

/-- The rules of the older form. -/
def fitsLegacy (v : Json) : Bool :=
  legacyKeys.all fun key => fitsList (v.members?.bind (Members.get? key))

section Legacy

theorem failure?_legacyText {v : Json} : failure? (legacyText v) = none ↔ isText v = true := by
  cases v <;> simp [legacyText, failure?, isText]

theorem failure?_legacyFlag {v : Json} : failure? (legacyFlag v) = none ↔ isFlag v = true := by
  cases v <;> simp [legacyFlag, failure?, isFlag]

theorem fitsMember_of_ne {p : String × Json} (hdest : ∀ v, p ≠ ("dest_file", v))
    (htemplate : ∀ v, p ≠ ("template_file", v)) (hpreserve : ∀ v, p ≠ ("preserve", v)) :
    fitsMember p = true := by
  unfold fitsMember
  split
  · exact (hdest _ rfl).elim
  · exact (htemplate _ rfl).elim
  · exact (hpreserve _ rfl).elim
  · rfl

theorem failure?_add {fields : LegacyFields} {p : String × Json} :
    failure? (fields.add p) = none ↔ fitsMember p = true := by
  unfold LegacyFields.add
  split
  · rw [failure?_map]
    exact failure?_legacyText
  · rw [failure?_map]
    exact failure?_legacyText
  · rw [failure?_map]
    exact failure?_legacyFlag
  · next hdest htemplate hpreserve =>
      -- a member of another name is left aside
      exact iff_of_true rfl (fitsMember_of_ne hdest htemplate hpreserve)

/-- The files that are named after some members were read are those that were named before and those
that the members name. -/
structure LegacyFields.Knows (fields next : LegacyFields) (keys : List String) : Prop where
  dest : next.destFile.isSome ↔ fields.destFile.isSome ∨ "dest_file" ∈ keys
  template : next.templateFile.isSome ↔ fields.templateFile.isSome ∨ "template_file" ∈ keys

theorem LegacyFields.Knows.trans {fields middle next : LegacyFields} {keys rest : List String}
    (h : fields.Knows middle keys) (hrest : middle.Knows next rest) :
    fields.Knows next (keys ++ rest) where
  dest := by rw [hrest.dest, h.dest, List.mem_append, or_assoc]
  template := by rw [hrest.template, h.template, List.mem_append, or_assoc]

theorem knows_of_add {fields next : LegacyFields} {p : String × Json}
    (h : fields.add p = .ok next) : fields.Knows next [p.1] := by
  unfold LegacyFields.add at h
  split at h
  · obtain ⟨s, -, rfl⟩ := map_eq_ok.mp h
    exact ⟨by simp, by simp⟩
  · obtain ⟨s, -, rfl⟩ := map_eq_ok.mp h
    exact ⟨by simp, by simp⟩
  · obtain ⟨b, -, rfl⟩ := map_eq_ok.mp h
    exact ⟨by simp, by simp⟩
  · next hdest htemplate hpreserve =>
      cases h
      have hd : "dest_file" ≠ p.1 := fun h => hdest p.2 (Prod.ext h.symm rfl)
      have ht : "template_file" ≠ p.1 := fun h => htemplate p.2 (Prod.ext h.symm rfl)
      exact ⟨by simp [hd], by simp [ht]⟩

/-- The members of an entry are read one after another. -/
theorem foldlM_add (ms : Members) : ∀ fields : LegacyFields,
    (failure? (ms.foldlM LegacyFields.add fields) = none ↔ ms.all fitsMember = true) ∧
      ∀ next, ms.foldlM LegacyFields.add fields = .ok next →
        fields.Knows next (Members.keys ms) := by
  -- what was read before the members is left open, as the induction moves it along
  induction ms with
  | nil =>
      intro fields
      refine ⟨iff_of_true rfl rfl, fun next h => ?_⟩
      cases h
      exact ⟨by simp [Members.keys], by simp [Members.keys]⟩
  | cons p rest ih =>
      intro fields
      have hfits : failure? (fields.add p) = none ↔ fitsMember p = true := failure?_add
      rw [List.foldlM_cons, List.all_cons, Bool.and_eq_true, ← hfits]
      refine ⟨?_, fun next h => ?_⟩
      · cases hp : fields.add p with
        | error e => simp [failure?, bind, Except.bind]
        | ok middle =>
            show failure? (rest.foldlM LegacyFields.add middle) = none ↔ _
            rw [(ih middle).1]
            simp [failure?]
      · obtain ⟨middle, hp, hrest⟩ := bind_eq_ok.mp h
        exact (knows_of_add hp).trans ((ih middle).2 next hrest)

theorem failure?_entryOfMembers (ms : Members) :
    failure? (LegacyRule.ofJson (.object ms)) = none ↔ fitsEntry (.object ms) = true := by
  obtain ⟨hfits, hknows⟩ := foldlM_add ms {}
  rw [LegacyRule.ofJson, fitsEntry, Bool.and_eq_true, Bool.and_eq_true, ← hfits]
  cases hfields : ms.foldlM LegacyFields.add {} with
  | error e => simp [failure?, bind, Except.bind]
  | ok fields =>
      obtain ⟨hdest, htemplate⟩ := hknows fields hfields
      simp only [Option.isSome_none, Bool.false_eq_true, false_or] at hdest htemplate
      rw [List.contains_iff_mem, List.contains_iff_mem, ← hdest, ← htemplate]
      obtain ⟨dest, template, preserve⟩ := fields
      cases dest <;> cases template <;>
        simp [failure?, bind, Except.bind, throw, throwThe, MonadExceptOf.throw, pure, Except.pure]

theorem failure?_entryOfItems (items : List Json) :
    failure? (LegacyRule.ofJson (.array items)) = none ↔ fitsEntry (.array items) = true := by
  match items with
  | [] => simp [LegacyRule.ofJson, failure?, fitsEntry]
  | [dest] =>
      rw [LegacyRule.ofJson]
      cases legacyText dest <;>
        simp [failure?, fitsEntry, bind, Except.bind, throw, throwThe, MonadExceptOf.throw]
  | [dest, template] =>
      have hsteps : failure? (LegacyRule.ofJson (.array [dest, template])) =
          (failure? (legacyText dest)).or (failure? (legacyText template)) :=
        failure?_bind fun _ _ => failure?_bind_pure _ _
      rw [hsteps, Option.or_eq_none_iff, failure?_legacyText, failure?_legacyText, fitsEntry,
        Bool.and_eq_true]
  | [dest, template, preserve] =>
      have hsteps : failure? (LegacyRule.ofJson (.array [dest, template, preserve])) =
          (failure? (legacyText dest)).or ((failure? (legacyText template)).or
            (failure? (legacyFlag preserve))) :=
        failure?_bind fun _ _ => failure?_bind fun _ _ => failure?_bind_pure _ _
      rw [hsteps, Option.or_eq_none_iff, Option.or_eq_none_iff, failure?_legacyText,
        failure?_legacyText, failure?_legacyFlag, fitsEntry, Bool.and_eq_true, Bool.and_eq_true,
        and_assoc]
  | dest :: template :: preserve :: extra :: rest =>
      -- a longer list fails in any case, with the failure of a field or else for its length
      have hsteps : ∃ reason,
          failure? (LegacyRule.ofJson (.array (dest :: template :: preserve :: extra :: rest))) =
            (failure? (legacyText dest)).or ((failure? (legacyText template)).or
              ((failure? (legacyFlag preserve)).or (some reason))) :=
        ⟨_, failure?_bind fun _ _ => failure?_bind fun _ _ => failure?_bind fun _ _ => rfl⟩
      obtain ⟨reason, hsteps⟩ := hsteps
      rw [hsteps]
      simp [fitsEntry]

theorem failure?_entry {v : Json} : failure? (LegacyRule.ofJson v) = none ↔ fitsEntry v = true := by
  match v with
  | .object ms => exact failure?_entryOfMembers ms
  | .array items => exact failure?_entryOfItems items
  | .null | .bool _ | .int _ | .double _ | .string _ =>
      simp [LegacyRule.ofJson, failure?, fitsEntry]

theorem failure?_list {key : String} {v : Json} :
    failure? (LegacyRules.list key v) = none ↔
      fitsList (v.members?.bind (Members.get? key)) = true := by
  unfold LegacyRules.list
  match v.members?.bind (Members.get? key) with
  | some (.array items) =>
      rw [failure?_map, failure?_mapM_eq_none, fitsList, List.all_eq_true]
      refine forall₂_congr fun item _ => ?_
      rw [failure?_mapError, Option.map_eq_none_iff, failure?_entry]
  | none | some .null | some (.bool _) | some (.int _) | some (.double _) | some (.string _)
  | some (.object _) => simp [failure?, fitsList]

theorem failure?_legacy {v : Json} :
    failure? (LegacyRules.ofJson v) = none ↔ fitsLegacy v = true := by
  have hsteps : failure? (LegacyRules.ofJson v) =
      (failure? (LegacyRules.list "module_rules" v)).or
        ((failure? (LegacyRules.list "interface_rules" v)).or
          (failure? (LegacyRules.list "struct_rules" v))) :=
    failure?_bind fun _ _ => failure?_bind fun _ _ => failure?_bind_pure _ _
  rw [hsteps]
  simp only [Option.or_eq_none_iff, failure?_list, fitsLegacy, legacyKeys, List.all_cons,
    List.all_nil, Bool.and_eq_true, Bool.and_true]

end Legacy

/-! ## Rule files -/

open Report (Failure)

/-- The value that a text is read as. -/
def valueOf? (text : String) : Option Json :=
  (Yaml.Node.ofText text).toOption.bind (Yaml.Node.json? false)

/-- The rules at a path are refused for what is in them. -/
def Refused (path : String) (result : Except Failure RuleSet) : Prop :=
  ∃ reason, result = .error (.invalidRules path reason)

/-- What a value is read as, if it is in a file at a path.  A mapping with the key of the older form
is read in this form, whatever else is in it; one with a key of documents as a single document
without a name; any other as documents under their names, in order. -/
structure ReadAs (path : String) (v : Json) (result : Except Failure RuleSet) : Prop where
  empty : v = .null → result = .ok (.modern [])
  other : v ≠ .null → v.members? = none → Refused path result
  legacy : ∀ root old, v = .object root → Members.get? "generate_rules" root = some old →
    if fitsLegacy old then ∃ rules, result = .ok (.legacy rules) else Refused path result
  single : ∀ root, v = .object root → Members.get? "generate_rules" root = none →
    (∃ key ∈ Members.keys root, key ∈ RuleDocument.keys) →
      if fitsDocument root then ∃ d, d.name = none ∧ result = .ok (.modern [d])
      else Refused path result
  named : ∀ root, v = .object root → Members.get? "generate_rules" root = none →
    (∀ key ∈ Members.keys root, key ∉ RuleDocument.keys) →
      if root.all fun p => isOptional (isMapping fitsDocument) (some p.2) then
        ∃ ds, ds.map (·.name) = (Members.keys root).map some ∧ result = .ok (.modern ds)
      else Refused path result

theorem name_of_ofMembers {name : Option String} {ms : Members} {d : RuleDocument}
    (h : RuleDocument.ofMembers name ms = .ok d) : d.name = name := by
  simp only [RuleDocument.ofMembers, bind_eq_ok] at h
  obtain ⟨_, -, _, -, _, -, _, -, _, -, _, -, _, -, _, -, _, -, _, -, heq⟩ := h
  cases heq
  rfl

theorem name_of_ofEntry {p : String × Json} {d : RuleDocument}
    (h : RuleDocument.ofEntry p = .ok d) : d.name = some p.1 := by
  obtain ⟨name, v⟩ := p
  cases v with
  | object ms => exact name_of_ofMembers h
  | null => exact name_of_ofMembers h
  | _ => cases h

/-- What becomes of a reading that succeeds exactly if something fits. -/
theorem outcome_of_failure? {α : Type} {x : Except Flaw α} {fits : Bool} {P : α → Prop}
    (h : failure? x = none ↔ fits = true) (hP : ∀ a, x = .ok a → P a) (make : α → RuleSet)
    (path : String) :
    if fits then
      ∃ a, P a ∧
        ((x.map make).mapError fun flaw => Failure.invalidRules path flaw.message) = .ok (make a)
    else Refused path ((x.map make).mapError fun flaw => .invalidRules path flaw.message) := by
  cases hx : x with
  | ok a =>
      have hfits : fits = true := h.mp (failure?_eq_none.mpr ⟨a, hx⟩)
      rw [if_pos hfits]
      exact ⟨a, hP a hx, rfl⟩
  | error flaw =>
      have hfits : fits ≠ true := by
        intro hfits
        obtain ⟨a, ha⟩ := failure?_eq_none.mp (h.mpr hfits)
        rw [hx] at ha
        cases ha
      rw [if_neg hfits]
      exact ⟨flaw.message, rfl⟩

/-- Documents under names fit if each of them does. -/
theorem failure?_ofEntries {root : Members} :
    failure? (root.mapM RuleDocument.ofEntry) = none ↔
      (root.all fun p => isOptional (isMapping fitsDocument) (some p.2)) = true := by
  rw [failure?_mapM_eq_none, List.all_eq_true]
  exact forall₂_congr fun p _ => failure?_ofEntry

theorem names_of_ofEntries {root : Members} {ds : List RuleDocument}
    (h : root.mapM RuleDocument.ofEntry = .ok ds) :
    ds.map (·.name) = (Members.keys root).map some := by
  have hnames : ds.map (·.name) = root.map fun p => some p.1 :=
    map_of_mapM (fun _ _ => name_of_ofEntry) h
  rw [hnames, Members.keys, List.map_map]
  rfl

theorem parse_eq {text : String} {v : Json} (h : valueOf? text = some v) (path : String) :
    RuleSet.parse text path =
      (RuleSet.ofJson v).mapError fun flaw => .invalidRules path flaw.message := by
  obtain ⟨n, hn, hv⟩ := Option.bind_eq_some_iff.mp h
  have htext : Yaml.Node.ofText text = .ok n := by
    cases hread : Yaml.Node.ofText text with
    | error e => simp [hread, Except.toOption] at hn
    | ok m => simpa [hread, Except.toOption] using hn
  simp only [RuleSet.parse, htext, hv]

/-- Whether a mapping has a key of documents. -/
theorem any_key {root : Members} :
    (root.any fun p => RuleDocument.keys.contains p.1) = true ↔
      ∃ key ∈ Members.keys root, key ∈ RuleDocument.keys := by
  simp [Members.keys, List.any_eq_true]

/-- A mapping with a key of documents is read as one document. -/
theorem ofJson_single {root : Members} (hmodern : Members.get? LegacyRules.key root = none)
    (hkey : ∃ key ∈ Members.keys root, key ∈ RuleDocument.keys) :
    RuleSet.ofJson (.object root) =
      (RuleDocument.ofMembers none root).map fun d => .modern [d] := by
  simp only [RuleSet.ofJson, hmodern, any_key.mpr hkey, if_true]

/-- Any other mapping is read as documents under their names. -/
theorem ofJson_named {root : Members} (hmodern : Members.get? LegacyRules.key root = none)
    (hkeys : ∀ key ∈ Members.keys root, key ∉ RuleDocument.keys) :
    RuleSet.ofJson (.object root) = (root.mapM RuleDocument.ofEntry).map .modern := by
  have hany : ¬(root.any fun p => RuleDocument.keys.contains p.1) = true := by
    rw [any_key]
    rintro ⟨key, hmem, hkey⟩
    exact hkeys key hmem hkey
  simp only [RuleSet.ofJson, hmodern, if_neg hany]

/-- Reading a rules file gives rules exactly if its value has the shape of its form. -/
theorem readAs_parse {v : Json} (text path : String) (h : valueOf? text = some v) :
    ReadAs path v (RuleSet.parse text path) := by
  rw [parse_eq h]
  refine ⟨?empty, ?other, ?legacy, ?single, ?named⟩
  case empty =>
    rintro rfl
    rfl
  case other =>
    intro hnull hmapping
    match v with
    | .null => exact absurd rfl hnull
    | .object root => cases hmapping
    | .bool _ | .int _ | .double _ | .string _ | .array _ => exact ⟨_, rfl⟩
  case legacy =>
    rintro root old rfl hold
    have hread : RuleSet.ofJson (.object root) = (LegacyRules.ofJson old).map .legacy := by
      simp only [RuleSet.ofJson, LegacyRules.key, hold]
    have houtcome := outcome_of_failure? (failure?_legacy (v := old)) (P := fun _ => True)
      (fun _ _ => trivial) RuleSet.legacy path
    rw [hread]
    simpa only [true_and] using houtcome
  case single =>
    rintro root rfl hnone hkey
    rw [ofJson_single hnone hkey]
    exact outcome_of_failure? failure?_ofMembers (fun _ => name_of_ofMembers) _ path
  case named =>
    rintro root rfl hnone hkeys
    rw [ofJson_named hnone hkeys]
    exact outcome_of_failure? failure?_ofEntries (fun _ => names_of_ofEntries) _ path

/-- A file with a rule for modules holds one document, which has no name. -/
theorem readAs_parse_module :
    ∃ d : RuleDocument, d.name = none ∧
      RuleSet.parse "module:\n  documents:\n    a: b\n" "rules.yaml" = .ok (.modern [d]) := by
  have hvalue : valueOf? "module:\n  documents:\n    a: b\n" =
      some (.object [("module", .object [("documents", .object [("a", .string "b")])])]) := by
    decide +kernel
  exact (readAs_parse _ "rules.yaml" hvalue).single _ rfl (by decide)
    ⟨"module", by decide, by decide⟩

end Stencil.Rules
