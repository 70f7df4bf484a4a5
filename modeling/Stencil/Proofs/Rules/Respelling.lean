import Stencil.Proofs.Json.Members
import Stencil.Proofs.Rules.Schema

/-!
# Rule files that say the same

A feature may stand alone instead of in a list, and so may a filter set.  The files of
a rule may be one mapping or a list of mappings; a mapping that is cut into pieces names
the same files in the same order.  A document may stand under a name of its own.  None
of this changes what a rules file is read as.

The readers look up one key after another, so a mapping is read like another one if the
two agree, key by key, up to the spellings that the reader of each key allows.
-/

namespace Stencil.Rules

/-! ## Spellings of a value -/

/-- A text, or a list of it alone. -/
inductive SameTexts : Json → Json → Prop
  | same (v : Json) : SameTexts v v
  | listed (s : String) : SameTexts (.string s) (.array [.string s])

/-- A mapping, or a list of the mappings that it is cut into, in order. -/
inductive SameTargets : Json → Json → Prop
  | same (v : Json) : SameTargets v v
  | cut (pieces : List Members) :
      SameTargets (.object pieces.flatten) (.array (pieces.map .object))

/-- The same keys in the same order, with values that are spelled as they may be under each. -/
def SameMembers (spelled : String → Json → Json → Prop) (ms ns : Members) : Prop :=
  List.Forall₂ (fun p q => p.1 = q.1 ∧ spelled p.1 p.2 q.2) ms ns

/-- The same value, or a mapping with members that are spelled as they may be. -/
inductive SameMapping (spelled : String → Json → Json → Prop) : Json → Json → Prop
  | same (v : Json) : SameMapping spelled v v
  | members {ms ns : Members} (h : SameMembers spelled ms ns) :
      SameMapping spelled (.object ms) (.object ns)

/-- Spellings of what stands under a key of a rule. -/
def SameInRule (key : String) (v w : Json) : Prop :=
  if key = "when" then SameTexts v w
  else if key ∈ ["documents", "preserve"] then SameTargets v w
  else v = w

/-- Spellings of what stands under a key of a document. -/
def SameInDocument (key : String) (v w : Json) : Prop :=
  if key ∈ ["when", "extra_filters"] then SameTexts v w
  else if key ∈ levels then SameMapping SameInRule v w
  else v = w

/-- Spellings of a rules file: of its only document, or of the documents under its names.  Nothing
else is read of a file of the older form than the value that marks it. -/
inductive Respelled : Json → Json → Prop
  | same (v : Json) : Respelled v v
  | single {root other : Members} (hmodern : Members.get? LegacyRules.key root = none)
      (hkey : ∃ key ∈ Members.keys root, key ∈ RuleDocument.keys)
      (h : SameMembers SameInDocument root other) : Respelled (.object root) (.object other)
  | named {root other : Members} (hmodern : Members.get? LegacyRules.key root = none)
      (hkeys : ∀ key ∈ Members.keys root, key ∉ RuleDocument.keys)
      (h : SameMembers (fun _ => SameMapping SameInDocument) root other) :
      Respelled (.object root) (.object other)

/-! ## Members -/

section Members

variable {spelled : String → Json → Json → Prop} {ms ns : Members}

theorem SameMembers.keys_eq (h : SameMembers spelled ms ns) :
    Members.keys ms = Members.keys ns := by
  induction h with
  | nil => rfl
  | @cons p q ms ns hpq _ ih =>
      unfold Members.keys at ih ⊢
      rw [List.map_cons, List.map_cons, hpq.1, ih]

theorem SameMembers.get?_eq_none (h : SameMembers spelled ms ns) {key : String}
    (hnone : Members.get? key ms = none) : Members.get? key ns = none := by
  rw [Members.get?_eq_none_iff, ← h.keys_eq, ← Members.get?_eq_none_iff]
  exact hnone

/-- What stands under a key is spelled as it may be there, or stands in neither mapping. -/
theorem SameMembers.get? (h : SameMembers spelled ms ns) (key : String) :
    Option.Rel (spelled key) (Members.get? key ms) (Members.get? key ns) := by
  induction h with
  | nil => exact Option.Rel.none
  | @cons p q ms ns hpq _ ih =>
      obtain ⟨k, v⟩ := p
      obtain ⟨l, w⟩ := q
      obtain ⟨rfl, hvw⟩ := hpq
      by_cases hk : k = key
      · subst hk
        simp only [Members.get?, if_true]
        exact Option.Rel.some hvw
      · simp only [Members.get?, if_neg hk]
        exact ih

/-- Under a key that allows no other spelling stands the same. -/
theorem SameMembers.get?_eq (h : SameMembers spelled ms ns) {key : String}
    (hkey : ∀ v w, spelled key v w → v = w) : Members.get? key ms = Members.get? key ns := by
  have hrel := h.get? key
  generalize Members.get? key ms = v? at hrel ⊢
  generalize Members.get? key ns = w? at hrel ⊢
  cases hrel with
  | none => rfl
  | some hvw => rw [hkey _ _ hvw]

end Members

/-! ## Readers of a value -/

section Values

variable {v? w? : Option Json}

theorem condition_congr (h : Option.Rel SameTexts v? w?) :
    Condition.ofJson v? = Condition.ofJson w? := by
  cases h with
  | none => rfl
  | some hvw =>
      cases hvw with
      | same v => rfl
      | listed s => rfl

theorem filters_congr (h : Option.Rel SameTexts v? w?) :
    RuleDocument.filters v? = RuleDocument.filters w? := by
  cases h with
  | none => rfl
  | some hvw =>
      cases hvw with
      | same v => rfl
      | listed s => rfl

/-- The files of the pieces of a mapping are those of the mapping, and so is what is wrong with
them. -/
theorem targets_cut (key : String) (pieces : List Members) :
    targets key (some (.array (pieces.map .object))) =
      targets key (some (.object pieces.flatten)) := by
  have hpieces : (pieces.map Json.object).mapM (targetsOf key) =
      pieces.mapM fun ms => ms.mapM (target key) := by
    rw [List.mapM_map]
    rfl
  rw [targets, targets, hpieces, mapM_flatten]

theorem targets_congr {key : String} (h : Option.Rel SameTargets v? w?) :
    targets key v? = targets key w? := by
  cases h with
  | none => rfl
  | some hvw =>
      cases hvw with
      | same v => rfl
      | cut pieces => exact (targets_cut key pieces).symm

end Values

/-! ## Rules and documents -/

section Documents

variable {ms ns : Members}

theorem condition_of_sameInRule (h : SameMembers SameInRule ms ns) :
    Condition.ofJson (Members.get? "when" ms) = Condition.ofJson (Members.get? "when" ns) :=
  condition_congr (h.get? "when")

theorem targets_of_sameInRule (h : SameMembers SameInRule ms ns) {key : String}
    (hkey : key ∈ ["documents", "preserve"]) :
    targets key (Members.get? key ms) = targets key (Members.get? key ns) := by
  have hwhen : key ≠ "when" := by
    rintro rfl
    exact absurd hkey (by decide)
  have hspelled : SameInRule key = SameTargets := by
    funext v w
    unfold SameInRule
    rw [if_neg hwhen, if_pos hkey]
  have hrel := h.get? key
  rw [hspelled] at hrel
  exact targets_congr hrel

/-- Rules that differ in spelling only are read alike. -/
theorem ruleOfJson_congr {level : String} {v w : Json} (h : SameMapping SameInRule v w) :
    Rule.ofJson level v = Rule.ofJson level w := by
  cases h with
  | same v => rfl
  | @members ms ns h =>
      have hcontext : Members.get? "context" ms = Members.get? "context" ns :=
        h.get?_eq fun _ _ => id
      have hpath : Members.get? "path" ms = Members.get? "path" ns := h.get?_eq fun _ _ => id
      have hsource : Members.get? "source" ms = Members.get? "source" ns :=
        h.get?_eq fun _ _ => id
      rw [Rule.ofJson, Rule.ofJson, condition_of_sameInRule h, targets_of_sameInRule h (by decide),
        targets_of_sameInRule h (by decide)]
      simp only [context, optionalText, hcontext, hpath, hsource]

theorem rule_congr (h : SameMembers SameInDocument ms ns) {level : String}
    (hlevel : level ∈ levels) : RuleDocument.rule level ms = RuleDocument.rule level ns := by
  have hother : ∀ level ∈ levels, level ∉ ["when", "extra_filters"] := by decide
  have hspelled : SameInDocument level = SameMapping SameInRule := by
    funext v w
    unfold SameInDocument
    rw [if_neg (hother level hlevel), if_pos hlevel]
  have hrel := h.get? level
  rw [hspelled] at hrel
  unfold RuleDocument.rule
  generalize Members.get? level ms = v? at hrel ⊢
  generalize Members.get? level ns = w? at hrel ⊢
  cases hrel with
  | none => rfl
  | some hvw => exact congrArg (Except.map some) (ruleOfJson_congr hvw)

/-- Documents that differ in spelling only are read alike. -/
theorem ofMembers_congr {name : Option String} (h : SameMembers SameInDocument ms ns) :
    RuleDocument.ofMembers name ms = RuleDocument.ofMembers name ns := by
  have hfilters : RuleDocument.filters (Members.get? "extra_filters" ms) =
      RuleDocument.filters (Members.get? "extra_filters" ns) :=
    filters_congr (h.get? "extra_filters")
  have hcondition : Condition.ofJson (Members.get? "when" ms) =
      Condition.ofJson (Members.get? "when" ns) :=
    condition_congr (h.get? "when")
  have hcontext : Members.get? "context" ms = Members.get? "context" ns := h.get?_eq fun _ _ => id
  have hpath : Members.get? "path" ms = Members.get? "path" ns := h.get?_eq fun _ _ => id
  have hsource : Members.get? "source" ms = Members.get? "source" ns := h.get?_eq fun _ _ => id
  have hrules : ∀ level ∈ levels, RuleDocument.rule level ms = RuleDocument.rule level ns :=
    fun level => rule_congr h
  unfold RuleDocument.ofMembers
  rw [hfilters, hcondition, hrules "system" (by decide), hrules "module" (by decide),
    hrules "interface" (by decide), hrules "struct" (by decide), hrules "enum" (by decide)]
  simp only [context, optionalText, hcontext, hpath, hsource]

theorem ofEntry_congr {p q : String × Json} (hkey : p.1 = q.1)
    (h : SameMapping SameInDocument p.2 q.2) :
    RuleDocument.ofEntry p = RuleDocument.ofEntry q := by
  obtain ⟨name, v⟩ := p
  obtain ⟨other, w⟩ := q
  obtain rfl : name = other := hkey
  cases h with
  | same v => rfl
  | members h => exact ofMembers_congr h

end Documents

/-! ## Rule files -/

/-- Whatever a file is read as, another spelling of it is read as the same, also if it is refused. -/
theorem ofJson_congr {v w : Json} (h : Respelled v w) : RuleSet.ofJson v = RuleSet.ofJson w := by
  -- the form of a file is told by its keys, which all spellings have in common
  cases h with
  | same v => rfl
  | @single root other hmodern hkey h =>
      rw [ofJson_single hmodern hkey, ofMembers_congr h,
        ofJson_single (h.get?_eq_none hmodern) (h.keys_eq ▸ hkey)]
  | @named root other hmodern hkeys h =>
      have hdocuments : root.mapM RuleDocument.ofEntry = other.mapM RuleDocument.ofEntry :=
        mapM_congr_forall₂ (h.imp fun _ _ hpq => ofEntry_congr hpq.1 hpq.2)
      rw [ofJson_named hmodern hkeys, hdocuments,
        ofJson_named (h.get?_eq_none hmodern) (h.keys_eq ▸ hkeys)]

/-- A document is read alike under any name, up to the name itself. -/
theorem ofMembers_name (name : Option String) (ms : Members) :
    RuleDocument.ofMembers name ms =
      (RuleDocument.ofMembers none ms).map fun d => { d with name } := by
  change _ = (fun d : RuleDocument => { d with name }) <$> RuleDocument.ofMembers none ms
  simp only [RuleDocument.ofMembers, map_bind, map_pure]

/-- What is read as a single document without a name is that document. -/
theorem ofMembers_of_unnamed {root : Members} {d : RuleDocument}
    (h : RuleSet.ofJson (.object root) = .ok (.modern [d])) (hd : d.name = none) :
    RuleDocument.ofMembers none root = .ok d := by
  cases hlegacy : Members.get? LegacyRules.key root with
  | some old =>
      simp only [RuleSet.ofJson, hlegacy] at h
      obtain ⟨rules, -, heq⟩ := map_eq_ok.mp h
      cases heq
  | none =>
      by_cases hkey : ∃ key ∈ Members.keys root, key ∈ RuleDocument.keys
      · rw [ofJson_single hlegacy hkey] at h
        obtain ⟨document, hread, heq⟩ := map_eq_ok.mp h
        cases heq
        exact hread
      · have hkeys : ∀ key ∈ Members.keys root, key ∉ RuleDocument.keys :=
          fun key hmem hdocument => hkey ⟨key, hmem, hdocument⟩
        rw [ofJson_named hlegacy hkeys] at h
        obtain ⟨documents, hread, heq⟩ := map_eq_ok.mp h
        cases heq
        -- documents that stand under keys are named after them
        have hnames := names_of_ofEntries hread
        rw [List.map_singleton, hd] at hnames
        have hnone : none ∈ (Members.keys root).map some := hnames ▸ List.mem_singleton.mpr rfl
        simp at hnone

/-- A mapping that is a document may stand under a name instead. -/
theorem ofJson_under_name {root : Members} {d : RuleDocument}
    (h : RuleSet.ofJson (.object root) = .ok (.modern [d])) (hd : d.name = none) {name : String}
    (hname : name ∉ RuleDocument.keys) (hmodern : name ≠ LegacyRules.key) :
    RuleSet.ofJson (.object [(name, .object root)]) =
      .ok (.modern [{ d with name := some name }]) := by
  have hnone : Members.get? LegacyRules.key [(name, .object root)] = none := by
    simp [Members.get?, hmodern]
  have hkeys : ∀ key ∈ Members.keys [(name, .object root)], key ∉ RuleDocument.keys := by
    simpa [Members.keys] using hname
  have hread : RuleDocument.ofEntry (name, .object root) = .ok { d with name := some name } := by
    change RuleDocument.ofMembers (some name) root = _
    rw [ofMembers_name, ofMembers_of_unnamed h hd]
    rfl
  rw [ofJson_named hnone hkeys, List.mapM_cons, hread]
  rfl

/-- A rules file that holds a single document without a name is read as the same document if that
stands under a name.  A rules file with its texts, lists of files and conditions spelled in another
way is read as the same rules; if it is refused, then for the same reason. -/
theorem parse_respelled (path : String) :
    (∀ (text other name : String) (root : Members) (d : RuleDocument),
      valueOf? text = some (.object root) → RuleSet.parse text path = .ok (.modern [d]) →
      d.name = none → name ∉ RuleDocument.keys → name ≠ LegacyRules.key →
      valueOf? other = some (.object [(name, .object root)]) →
      RuleSet.parse other path = .ok (.modern [{ d with name := some name }])) ∧
    ∀ (text other : String) (v w : Json), valueOf? text = some v → valueOf? other = some w →
      Respelled v w → RuleSet.parse other path = RuleSet.parse text path := by
  constructor
  · intro text other name root d htext hparse hd hname hmodern hother
    rw [parse_eq htext] at hparse
    rw [parse_eq hother, ofJson_under_name (mapError_eq_ok.mp hparse) hd hname hmodern]
    rfl
  · intro text other v w htext hother h
    rw [parse_eq htext, parse_eq hother, ofJson_congr h]

namespace Sample

/-- A document for modules, with two files in one mapping. -/
def plain : String :=
  "when: dbus\nextra_filters: qt\nmodule:\n  documents:\n    a.h: a.tpl\n    b.h: b.tpl\n"

/-- The same document with lists. -/
def listed : String :=
  "when: [dbus]\nextra_filters: [qt]\nmodule:\n  documents:\n    - a.h: a.tpl\n    - b.h: b.tpl\n"

/-- The same document under a name. -/
def backend : String :=
  "backend:\n  when: dbus\n  extra_filters: qt\n  module:\n    documents:\n      a.h: a.tpl\n"
    ++ "      b.h: b.tpl\n"

/-- The members of the document. -/
def members : Members :=
  [("when", .string "dbus"), ("extra_filters", .string "qt"),
    ("module", .object [("documents",
      .object [("a.h", .string "a.tpl"), ("b.h", .string "b.tpl")])])]

/-- The members with lists. -/
def listMembers : Members :=
  [("when", .array [.string "dbus"]), ("extra_filters", .array [.string "qt"]),
    ("module", .object [("documents",
      .array [.object [("a.h", .string "a.tpl")], .object [("b.h", .string "b.tpl")]])])]

/-- What the document is read as. -/
def document : RuleDocument where
  condition := ⟨["dbus"]⟩
  extraFilters := ["qt"]
  module := some { documents := [("a.h", "a.tpl"), ("b.h", "b.tpl")] }

theorem respelled_members : Respelled (.object members) (.object listMembers) := by
  have hfiles : SameInRule "documents"
      (.object [("a.h", .string "a.tpl"), ("b.h", .string "b.tpl")])
      (.array [.object [("a.h", .string "a.tpl")], .object [("b.h", .string "b.tpl")]]) :=
    SameTargets.cut [[("a.h", .string "a.tpl")], [("b.h", .string "b.tpl")]]
  refine .single (by decide) ⟨"when", by decide, by decide⟩ ?_
  refine .cons ⟨rfl, SameTexts.listed "dbus"⟩ (.cons ⟨rfl, SameTexts.listed "qt"⟩ ?_)
  exact .cons ⟨rfl, SameMapping.members (.cons ⟨rfl, hfiles⟩ .nil)⟩ .nil

end Sample

/-- A document is the same with lists, and the same under a name. -/
theorem parse_respelled_backend :
    RuleSet.parse Sample.plain "rules.yaml" = .ok (.modern [Sample.document]) ∧
      RuleSet.parse Sample.listed "rules.yaml" = .ok (.modern [Sample.document]) ∧
      RuleSet.parse Sample.backend "rules.yaml" =
        .ok (.modern [{ Sample.document with name := some "backend" }]) := by
  have hplain : valueOf? Sample.plain = some (.object Sample.members) := by decide +kernel
  have hlisted : valueOf? Sample.listed = some (.object Sample.listMembers) := by decide +kernel
  have hbackend : valueOf? Sample.backend =
      some (.object [("backend", .object Sample.members)]) := by decide +kernel
  have hparse : RuleSet.parse Sample.plain "rules.yaml" = .ok (.modern [Sample.document]) := by
    decide +kernel
  obtain ⟨hnamed, hspelled⟩ := parse_respelled "rules.yaml"
  refine ⟨hparse, ?_, ?_⟩
  · rw [hspelled _ _ _ _ hplain hlisted Sample.respelled_members]
    exact hparse
  · exact hnamed _ _ _ _ _ hplain hparse rfl (by decide) (by decide) hbackend

end Stencil.Rules
