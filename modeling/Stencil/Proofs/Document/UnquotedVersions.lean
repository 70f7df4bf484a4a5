import Stencil.Builtin
import Stencil.Proofs.Document.Merging
import Stencil.Proofs.Model.UnquotedVersion
import Stencil.Proofs.Yaml.Fractions

/-!
# Documents whose versions are not quoted

A version that is written without quotes is read like the text of its shortest digits in quotes,
in a document and in the builtin configuration.  So it is read as it is written exactly if it is
legible, and documents whose versions differ on paper only are merged without a conflict.
-/

namespace Stencil.Document

open Model (Version)
open Yaml (Node Record Style)

/-! ## Entries with a version -/

/-- The mapping with a scalar as the value under one key. -/
def withScalar (key : String) (style : Style) (text : String) : Node → Node :=
  editUnder key fun _ => .scalar none style text

/-- A document that was read from a text with a version in it. -/
def Source.Writes (s : Source) (style : Style) (v : Version) : Prop :=
  ∃ n key, Node.ofText s.origin.text = .ok n ∧ ofNode? n = some s.document ∧
    HasEntry n key (.scalar none style v.text) ∧ key.text? = some "version"

section Entries

variable {v : Version} {s : Source} {style : Style} {n : Node}

theorem versionText?_unquoted (v : Version) :
    Node.versionText? (.scalar none .plain v.text) = some (some v.unquoted) :=
  Node.versionText?_of_float (Yaml.Meaning.ofPlain_of_fraction v.toList_text
    (Decimal.spells_toDigits _) (Decimal.spells_toDigits _) rfl v.double_finite)

/-- A field that holds a version is read as if the digits that are read for it stood in quotes. -/
theorem optional?_unquoted (v : Version) (h : style ≠ .plain) (name : String) (r : Record) :
    (editField name (fun _ => .scalar none .plain v.text) r).optional? name none
        Node.versionText? =
      (editField name (fun _ => .scalar none style v.unquoted) r).optional? name none
        Node.versionText? :=
  optional?_editField_congr
    (fun _ => (versionText?_unquoted v).trans (Node.versionText?_of_style h).symm) r none

theorem ofNode?_withScalar (v : Version) (n : Node) (h : style ≠ .plain) :
    ofNode? (withScalar "version" .plain v.text n) =
      ofNode? (withScalar "version" style v.unquoted n) := by
  unfold ofNode? withScalar
  rw [closed?_editUnder, closed?_editUnder]
  cases Record.closed? _ n with
  | none => rfl
  | some r =>
      simp (disch := decide) only [Option.map_some, Option.bind_eq_bind, Option.bind_some,
        comment?, tags?, optional?_editField_of_ne, required?_editField_of_ne,
        optional?_unquoted v h]

theorem entries?_withScalar (v : Version) (n : Node) (h : style ≠ .plain) :
    Builtin.entries? (withScalar "VERSION" .plain v.text n) =
      Builtin.entries? (withScalar "VERSION" style v.unquoted n) := by
  unfold Builtin.entries? withScalar
  rw [open?_editUnder, open?_editUnder]
  cases Record.open? _ n with
  | none => rfl
  | some r =>
      simp (disch := decide) only [Option.map_some, Option.bind_eq_bind, Option.bind_some,
        optional?_editField_of_ne, optional?_unquoted v h]

/-- The version of a document is what its entry is read as. -/
theorem version_of_writes {text : Option String} (h : s.Writes style v)
    (hread : Node.versionText? (.scalar none style v.text) = some text) :
    s.document.version = text := by
  obtain ⟨n, key, -, hdocument, hentry, hkey⟩ := h
  obtain ⟨r, hr, hdocument⟩ := Option.bind_eq_some_iff.mp hdocument
  have hlookup := (fieldsOf_of_closed hr).lookup hentry hkey
  simp only [Option.bind_eq_bind, Option.bind_eq_some_iff] at hdocument
  obtain ⟨_, -, version, hversion, _, -, _, -, _, -, _, -, _, -, _, -, hdocument⟩ := hdocument
  rw [Record.optional?, hlookup] at hversion
  rw [← Option.some.inj hdocument]
  exact Option.some.inj (hversion.symm.trans hread)

theorem version_of_plain (h : s.Writes .plain v) : s.document.version = some v.unquoted :=
  version_of_writes h (versionText?_unquoted v)

theorem version_of_quoted (hstyle : style ≠ .plain) (h : s.Writes style v) :
    s.document.version = some v.text :=
  version_of_writes h (Node.versionText?_of_style hstyle)

end Entries

/-! ## Versions of modules -/

section Modules

variable {s a b : Source} {text text' : String} {v first second : Version}
  {sources : List Source} {system : Model.System}

theorem declares_iff (h : s.document.version = some text) :
    s.Declares v ↔ Version.parse text = .ok v := by
  unfold Source.Declares Source.version?
  rw [h]
  cases hparse : Version.parse text <;> simp [hparse]

theorem version?_ne_none (h : s.document.version = some text) : s.version? ≠ .ok none := by
  unfold Source.version?
  rw [h]
  cases hparse : Version.parse text <;> simp [hparse]

/-- A module has the version that is read for each of its documents. -/
theorem exists_module_of_version (h : build sources = .ok system) (hs : s ∈ sources)
    (hversion : s.document.version = some text) :
    ∃ m, system.module? s.document.module = some m ∧ Version.parse text = .ok m.version := by
  obtain ⟨m, hm⟩ := exists_module_of_document h hs
  obtain ⟨hmem, hname⟩ := mem_of_module? hm
  refine ⟨m, hm, ?_⟩
  have hgroup : s ∈ group sources m.name :=
    List.mem_filter.mpr ⟨hs, decide_eq_true hname.symm⟩
  have hagreed := ((documents_merged sources).merged system h m hmem).version
  generalize m.version = version at hagreed
  cases hagreed with
  | undeclared hnone => exact absurd (hnone s hgroup) (version?_ne_none hversion)
  | declared _ hall =>
      rcases hall s hgroup with hnone | hdeclares
      · exact absurd hnone (version?_ne_none hversion)
      · exact (declares_iff hversion).mp hdeclares

theorem group_pair (hmodule : a.document.module = b.document.module) :
    group [a, b] a.document.module = [a, b] := by
  simp [group, hmodule]

/-- Two documents of one module with different versions are a conflict. -/
theorem build_pair (hmodule : a.document.module = b.document.module) (ha : a.Declares first)
    (hb : b.Declares second) (hne : first ≠ second) :
    build [a, b] = .error (.versionConflict a.document.module first second) := by
  have hnames : moduleNames [a, b] = [a.document.module] := by
    simp [moduleNames, distinct, hmodule]
  have hversions : versionOf a.document.module none [a, b] =
      .error (.versionConflict a.document.module first second) := by
    have ha : a.version? = .ok (some first) := ha
    have hb : b.version? = .ok (some second) := hb
    simp only [versionOf, ha, hb, if_neg hne]
  rw [build_eq, hnames, List.mapM_cons, group_pair hmodule, assemble_eq, hversions]
  rfl

/-- Two documents of one module are a conflict exactly if two different versions are read for
them. -/
theorem build_pair_conflict_iff (hmodule : a.document.module = b.document.module)
    (ha : a.document.version = some text) (hb : b.document.version = some text') :
    build [a, b] = .error (.versionConflict a.document.module first second) ↔
      Version.parse text = .ok first ∧ Version.parse text' = .ok second ∧ first ≠ second := by
  rw [← declares_iff ha, ← declares_iff hb]
  constructor
  · intro h
    obtain ⟨hne, before, between, after, x, y, hsources, hx, hy⟩ := disagree_of_build h
    -- there are no other documents before, between or after the two
    rw [group_pair hmodule] at hsources
    have hlength := congrArg List.length hsources
    simp only [List.length_cons, List.length_append, List.length_nil] at hlength
    obtain rfl : before = [] := List.eq_nil_of_length_eq_zero (by omega)
    obtain rfl : between = [] := List.eq_nil_of_length_eq_zero (by omega)
    cases hsources
    exact ⟨hx, hy, hne⟩
  · rintro ⟨hfirst, hsecond, hne⟩
    exact build_pair hmodule hfirst hsecond hne

end Modules

/-! ## The builtin configuration -/

/-- The version of a configuration is what its entry is read as. -/
theorem version_of_configuration {v : Version} {n : Node} {text path : String} {b : Builtin}
    (hn : Node.ofText text = .ok (withScalar "VERSION" .plain v.text n))
    (h : Builtin.parse text path = .ok b) : b.version = v.unquoted := by
  unfold Builtin.parse at h
  rw [hn] at h
  dsimp only at h
  split at h
  · cases h
  · cases h
  · cases h
  · rename_i version features hentries
    cases h
    unfold Builtin.entries? withScalar at hentries
    rw [open?_editUnder] at hentries
    simp only [Option.bind_eq_bind, Option.bind_eq_some_iff, Option.map_eq_some_iff] at hentries
    obtain ⟨_, ⟨r, -, rfl⟩, found, hfound, _, -, hfeatures⟩ := hentries
    cases hfeatures
    rw [Record.optional?, lookup_editField_self] at hfound
    cases hlookup : r.lookup "VERSION" with
    | none =>
        rw [hlookup] at hfound
        cases hfound
    | some entry =>
        rw [hlookup, Option.map_some] at hfound
        have := (versionText?_unquoted v).symm.trans hfound
        exact (Option.some.inj (Option.some.inj this)).symm

/-! ## Versions as they are written -/

/-- How a version is read that is written without quotes: like the digits of its number in quotes.
These are the version again exactly if it is legible. -/
structure ReadUnquoted (v : Version) : Prop where
  document : ∀ (n : Node) (style : Style), style ≠ .plain →
    ofNode? (withScalar "version" .plain v.text n) =
      ofNode? (withScalar "version" style v.unquoted n)
  builtin : ∀ (n : Node) (style : Style), style ≠ .plain →
    Builtin.entries? (withScalar "VERSION" .plain v.text n) =
      Builtin.entries? (withScalar "VERSION" style v.unquoted n)
  text : v.unquoted = v.text ↔ v.Legible
  version : Version.parse v.unquoted = .ok v ↔ v.Legible
  few : Double.digitCount v.major.toNat + Double.digitCount v.minor.toNat ≤ 15 →
    (v.Legible ↔ v.minor.toNat % 10 ≠ 0 ∨ v.minor.toNat = 0)
  many : v.Legible → Double.digitCount v.major.toNat + Double.digitCount v.minor.toNat ≤ 17
  quoted : ∀ (s : Source) (style : Style), style ≠ .plain → s.Writes style v → s.Declares v
  declared : ∀ s : Source, s.Writes .plain v → (s.Declares v ↔ v.Legible)
  module : ∀ sources system (s : Source), build sources = .ok system → s ∈ sources →
    s.Writes .plain v →
      ∃ m, system.module? s.document.module = some m ∧ (m.version = v ↔ v.Legible)
  configuration : ∀ text path n b,
    Node.ofText text = .ok (withScalar "VERSION" .plain v.text n) →
      Builtin.parse text path = .ok b → (b.version = v.text ↔ v.Legible)
  conflict : ∀ (w first second : Version) (a b : Source), a.Writes .plain v → b.Writes .plain w →
    a.document.module = b.document.module →
      (build [a, b] = .error (.versionConflict a.document.module first second) ↔
        Version.parse v.unquoted = .ok first ∧ Version.parse w.unquoted = .ok second ∧
          first ≠ second)

/-- Versions without quotes are read as they are written exactly if they are legible. -/
theorem read_unquoted (v : Version) : ReadUnquoted v where
  document n _ h := ofNode?_withScalar v n h
  builtin n _ h := entries?_withScalar v n h
  text := Version.unquoted_eq_text_iff
  version := Version.parse_unquoted_iff
  few h := Version.legible_iff_of_digits h
  many h := Version.digitCount_of_legible h
  quoted s style hstyle h :=
    (declares_iff (version_of_quoted hstyle h)).mpr (Version.parse_eq_ok.mpr v.spelled_text)
  declared s h := (declares_iff (version_of_plain h)).trans Version.parse_unquoted_iff
  module sources system s h hs hwrites := by
    obtain ⟨m, hm, hparse⟩ := exists_module_of_version h hs (version_of_plain hwrites)
    refine ⟨m, hm, ?_⟩
    rw [← Version.parse_unquoted_iff, hparse, Except.ok.injEq]
  configuration text path n b hn h := by
    rw [version_of_configuration hn h]
    exact Version.unquoted_eq_text_iff
  conflict w first second a b ha hb hmodule :=
    build_pair_conflict_iff hmodule (version_of_plain ha) (version_of_plain hb)

namespace Sample

/-- A document with a version, and the text that is read for it. -/
def versioned (written read : String) : Source :=
  ⟨⟨"a.yaml", "module: m\nversion: " ++ written ++ "\n"⟩,
    ⟨"m", some read, [], "", none, [], [], []⟩⟩

/-- A scalar without quotes and its text. -/
def isPlainText (text : String) : Node → Bool
  | .scalar none .plain t => t = text
  | _ => false

end Sample

/-- A text with a version entry, as it is found by reading it. -/
theorem writes_of_text {s : Source} {v : Version} (hread : ofText? s.origin.text = some s.document)
    (h : ((Node.ofText s.origin.text).toOption.any fun n => (n.entries?.getD []).any fun p =>
      decide (p.1.text? = some "version") && Sample.isPlainText v.text p.2) = true) :
    s.Writes .plain v := by
  unfold ofText? at hread
  cases hn : Node.ofText s.origin.text with
  | error problem =>
      rw [hn] at hread
      cases hread
  | ok n =>
      rw [hn] at hread
      simp only [hn, Except.toOption, Option.any_some, List.any_eq_true, Bool.and_eq_true,
        decide_eq_true_eq] at h
      obtain ⟨⟨key, value⟩, hmem, hkey, hvalue⟩ := h
      refine ⟨n, key, hn, hread, ?_, hkey⟩
      have hscalar : value = .scalar none .plain v.text := by
        unfold Sample.isPlainText at hvalue
        split at hvalue
        · rename_i t ht
          rw [show value = .scalar none .plain t from ht, of_decide_eq_true hvalue]
        · cases hvalue
      rw [← hscalar]
      exact hasEntry_of_mem hmem

/-- Two documents whose versions are legible and differ. -/
theorem read_unquoted_conflict :
    build [Sample.versioned "1.1" "1.1", Sample.versioned "1.2" "1.2"] =
      .error (.versionConflict "m" ⟨1, 1⟩ ⟨1, 2⟩) := by
  have hfirst := (read_unquoted ⟨1, 1⟩).version.mpr
    (((read_unquoted ⟨1, 1⟩).few (by decide)).mpr (by decide))
  have hsecond := (read_unquoted ⟨1, 2⟩).version.mpr
    (((read_unquoted ⟨1, 2⟩).few (by decide)).mpr (by decide))
  have ha : (Sample.versioned "1.1" "1.1").Writes .plain ⟨1, 1⟩ :=
    writes_of_text (by decide +kernel) (by decide +kernel)
  have hb : (Sample.versioned "1.2" "1.2").Writes .plain ⟨1, 2⟩ :=
    writes_of_text (by decide +kernel) (by decide +kernel)
  exact ((read_unquoted ⟨1, 1⟩).conflict ⟨1, 2⟩ ⟨1, 1⟩ ⟨1, 2⟩ _ _ ha hb rfl).mpr
    ⟨hfirst, hsecond, by decide⟩

/-- The zero at the end of a version without quotes is lost. -/
theorem not_read_as_written :
    ¬ ∀ (v : Version) (s : Source) (system : Model.System), s.Writes .plain v →
      build [s] = .ok system → ∀ m ∈ system.modules, m.version = v := by
  intro h
  have hwrites : (Sample.versioned "1.10" "1.1").Writes .plain ⟨1, 10⟩ :=
    writes_of_text (by decide +kernel) (by decide +kernel)
  cases hbuild : build [Sample.versioned "1.10" "1.1"] with
  | error e =>
      have hbuilds : (build [Sample.versioned "1.10" "1.1"]).toOption.isSome = true := by
        decide +kernel
      rw [hbuild] at hbuilds
      cases hbuilds
  | ok system =>
      obtain ⟨m, hm, hparse⟩ := exists_module_of_version hbuild List.mem_cons_self
        (version_of_plain hwrites)
      rw [h _ _ _ hwrites hbuild m (mem_of_module? hm).1] at hparse
      have hlegible := Version.parse_unquoted_iff.mp hparse
      exact absurd hlegible.ending (by decide)

end Stencil.Document
