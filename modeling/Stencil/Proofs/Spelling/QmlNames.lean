import Stencil.Proofs.Prepare.Tagged
import Stencil.Proofs.Template.Attributes
import Stencil.Spelling.Names

/-!
# Names of nodes in QML

The tags of a node may ask for another name in QML, under `qml_type` or under `qml_name`.  An
empty text asks for nothing where the name is among the settings of the node, as it is for
interfaces, structs and enums.  The other nodes take the first text that they find, be it empty.
-/

namespace Stencil

/-! ## The name that the tags ask for -/

namespace Model

/-- A text under a key of the settings, empty or not. -/
def Tags.Reads (t : Tags) (key s : String) : Prop :=
  ∃ ms, t.Holds "config" ms ∧ ms.get? key = some (.string s)

/-- The first text that there is under `qml_type` or `qml_name` is empty. -/
def Tags.BlankQmlType (t : Tags) : Prop :=
  t.Reads "qml_type" "" ∨ (∀ s, ¬ t.Reads "qml_type" s) ∧ t.Reads "qml_name" ""

/-- The name that a node has in QML by its tags: the first text under `qml_type` and `qml_name` that
is not empty, and the name of the node when there is none. -/
def Node.NamedInQml (n : Node) (name : String) : Prop :=
  ∃ v, n.tags.QmlType v ∧ name = v.getD n.name

/-- The nodes that have their name in QML among their settings. -/
def Node.SettlesQmlType : Node → Prop
  | .interface .. | .struct .. | .enum .. => True
  | _ => False

end Model

namespace Spelling

open Model Prepare

variable {run : RunSettings} {s : System} {a : Address} {n : Node}

/-! ## Settings and raw tags -/

section Tags

variable {t : Tags} {key text : String}

theorem reads_iff : t.Reads key text ↔ t.text? configSpace key = some text :=
  text?_eq_some.symm

theorem not_reads_iff : (∀ text, ¬ t.Reads key text) ↔ t.text? configSpace key = none := by
  rw [Option.eq_none_iff_forall_ne_some]
  exact forall_congr' fun text => not_congr reads_iff

/-- A setting is the text under its key, unless that is empty. -/
theorem setting?_of_ne (h : ¬ t.Reads key "") : setting? t key = t.text? configSpace key := by
  rw [reads_iff] at h
  unfold setting?
  cases htext : t.text? configSpace key with
  | none => rfl
  | some text =>
      have hne : text ≠ "" := fun hempty => h (by rw [htext, hempty])
      simp [hne]

/-- The first text under the two keys, empty or not. -/
def firstText? (t : Tags) : Option String :=
  t.text? configSpace "qml_type" <|> t.text? configSpace "qml_name"

theorem blankQmlType_iff : t.BlankQmlType ↔ firstText? t = some "" := by
  unfold Tags.BlankQmlType firstText?
  rw [not_reads_iff, reads_iff, reads_iff, Option.orElse_eq_some]

/-- If the first text is not empty, it is the one that the tags ask for. -/
theorem qmlType_firstText? (h : ¬ t.BlankQmlType) : t.QmlType (firstText? t) := by
  rw [qmlType_iff, qmlTypeSetting?, firstText?]
  have hfirst : ¬ t.Reads "qml_type" "" := fun hreads => h (.inl hreads)
  rw [setting?_of_ne hfirst]
  cases htext : t.text? configSpace "qml_type" with
  | some text => rfl
  | none =>
      have hsecond : ¬ t.Reads "qml_name" "" :=
        fun hreads => h (.inr ⟨not_reads_iff.mpr htext, hreads⟩)
      rw [setting?_of_ne hsecond]

end Tags

/-- The settings of an interface, a struct or an enum ask for what its tags ask for. -/
theorem qmlType_configured (hn : (configure run s).node? a = some n) (h : n.SettlesQmlType) :
    n.tags.QmlType (configuredQmlType? n) := by
  have htagged := (projection_configure run).into s
  cases System.holds_of_node? hn with
  | interface hm hface =>
      have hmodule := htagged _ (List.mem_of_getElem? hm)
      exact (hmodule.interfaces _ (List.mem_of_getElem? hface)).qmlType
  | struct hm hstruct =>
      have hmodule := htagged _ (List.mem_of_getElem? hm)
      exact (hmodule.structs _ (List.mem_of_getElem? hstruct)).qmlType
  | enum hm henum =>
      have hmodule := htagged _ (List.mem_of_getElem? hm)
      exact (hmodule.enums _ (List.mem_of_getElem? henum)).qmlType
  | _ => exact h.elim

theorem configuredQmlType?_of_raw (h : ¬ n.SettlesQmlType) :
    configuredQmlType? n = firstText? n.tags := by
  cases n with
  | interface => exact absurd trivial h
  | struct => exact absurd trivial h
  | enum => exact absurd trivial h
  | _ => rfl

/-- A node of a model with settings has the name in QML that its tags ask for, unless it is no
interface, struct or enum and the first text under the two keys is empty.  Then it has the empty
name, which is the right one only if the tags ask for nothing and the node itself has no name. -/
theorem named_in_qml_iff (hn : (configure run s).node? a = some n) :
    (n.NamedInQml (qmlType n) ↔
      n.SettlesQmlType ∨ ¬ n.tags.BlankQmlType ∨ n.NamedInQml "") ∧
    (¬ n.NamedInQml (qmlType n) → qmlType n = "") := by
  by_cases hsettles : n.SettlesQmlType
  · have hnamed : n.NamedInQml (qmlType n) := ⟨_, qmlType_configured hn hsettles, rfl⟩
    exact ⟨iff_of_true hnamed (.inl hsettles), fun h => absurd hnamed h⟩
  · have hraw := configuredQmlType?_of_raw hsettles
    by_cases hblank : n.tags.BlankQmlType
    · have hempty : qmlType n = "" := by
        rw [qmlType, hraw, blankQmlType_iff.mp hblank]
        rfl
      rw [hempty]
      exact ⟨by simp [hsettles, hblank], fun _ => rfl⟩
    · have hnamed : n.NamedInQml (qmlType n) :=
        ⟨firstText? n.tags, qmlType_firstText? hblank, by rw [qmlType, hraw]⟩
      exact ⟨iff_of_true hnamed (.inr (.inl hblank)), fun h => absurd hnamed h⟩

/-- Two properties with texts under both keys: the name of one is blanked in front of the older key,
and what stands in front of that of the other is no text. -/
def Sample.renamed : System :=
  ⟨[{
    name := "m"
    version := ⟨1, 0⟩
    interfaces := [{
      name := "Echo"
      properties := [
        { name := "speed", type := .primitive .int,
          tags := ⟨[("config", .object [("qml_type", .string ""), ("qml_name", .string "pace")])]⟩ },
        { name := "range", type := .primitive .int,
          tags := ⟨[("config", .object [("qml_type", .null), ("qml_name", .string "span")])]⟩ }] }] }]⟩

theorem named_in_qml_iff_range :
    ∃ n, (configure ⟨none, false⟩ Sample.renamed).node? (.property 0 0 1) = some n ∧
      n.NamedInQml (qmlType n) ∧ qmlType n = "span" := by
  have hnode : (configure ⟨none, false⟩ Sample.renamed).node? (.property 0 0 1) = some _ := rfl
  refine ⟨_, hnode, (named_in_qml_iff hnode).1.mpr (.inr (.inl ?_)), rfl⟩
  rw [blankQmlType_iff]
  decide

/-- The tags of a property ask for `pace`, and its name in QML is empty. -/
theorem not_named_in_qml :
    ∃ n, (configure ⟨none, false⟩ Sample.renamed).node? (.property 0 0 0) = some n ∧
      n.NamedInQml "pace" ∧ ¬ n.NamedInQml (qmlType n) := by
  refine ⟨_, rfl, ⟨some "pace", qmlType_iff.mpr (by decide), rfl⟩, ?_⟩
  rintro ⟨v, hv, hname⟩
  -- what the tags ask for is not empty
  rw [qmlType_iff.mp hv] at hname
  exact absurd hname (by decide)

end Spelling

end Stencil
