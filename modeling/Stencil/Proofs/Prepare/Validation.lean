import Mathlib.Data.List.ProdSigma
import Stencil.Proofs.Model.TypePlaces
import Stencil.Proofs.Prepare.Kept
import Stencil.Proofs.Template.NodeTree

/-!
# What a validation comes to

A validation refuses a system at the first place, in the order of declarations, where
an interface or a map stands, and does nothing else then.  If there is no such place,
it adds what the lints find to the findings from before, reports each of the new ones,
and fails if there is an error among all of them.

A lint for deprecated annotations warns once for each visited node and each entry of
its table that concerns the node.
-/

namespace Stencil

/-- Values that do not count as set: null, false, zero, and what is empty. -/
inductive Json.Blank : Json → Prop
  | null : Blank .null
  | false : Blank (.bool .false)
  | int : Blank (.int 0)
  | double {d : Double} (h : d.magnitudeBits = 0) : Blank (.double d)
  | string : Blank (.string "")
  | array : Blank (.array [])
  | object : Blank (.object [])

theorem Json.isSet_iff {v : Json} : v.isSet = true ↔ ¬ v.Blank := by
  rw [← Bool.not_eq_false, not_iff_not]
  constructor
  · intro h
    cases v with
    | null => exact .null
    | bool b =>
        obtain rfl : b = .false := h
        exact .false
    | int n =>
        obtain rfl : n = 0 := by simpa [Json.isSet] using h
        exact .int
    | double d => exact .double (by simpa [Json.isSet] using h)
    | string s =>
        obtain rfl : s = "" := by simpa [Json.isSet] using h
        exact .string
    | array items =>
        obtain rfl : items = [] := by simpa [Json.isSet] using h
        exact .array
    | object members =>
        obtain rfl : members = [] := by simpa [Json.isSet] using h
        exact .object
  · intro h
    cases h with
    | double h => simp [Json.isSet, h]
    | _ => rfl

namespace Model

/-- Keys that lead to a value through nested mappings. -/
inductive Tags.Leads : Members → List String → Json → Prop
  | last {ms : Members} {key : String} {v : Json} (h : ms.get? key = some v) : Leads ms [key] v
  | inner {ms inside : Members} {key next : String} {rest : List String} {v : Json}
      (h : ms.get? key = some (.object inside)) (hrest : Leads inside (next :: rest) v) :
      Leads ms (key :: next :: rest) v

theorem Tags.follow_eq_some {keys : List String} {v : Json} : ∀ {ms : Members},
    Tags.follow ms keys = some v ↔ Tags.Leads ms keys v := by
  induction keys with
  | nil =>
      intro ms
      constructor
      · intro h
        cases h
      · intro h
        cases h
  | cons key keys ih =>
      intro ms
      cases keys with
      | nil => exact ⟨.last, fun | .last h => h⟩
      | cons next rest =>
          constructor
          · intro h
            unfold Tags.follow at h
            split at h
            · rename_i inside hkey
              exact .inner hkey (ih.mp h)
            · cases h
          · rintro (_ | ⟨hkey, hrest⟩)
            unfold Tags.follow
            rw [hkey]
            exact ih.mpr hrest

/-- A parameter is visited under the name of its owner followed by its own, any other node under
its qualified name. -/
structure VisitName (s : System) (visit : String × Node) : Prop where
  qualified : visit.2.kind ≠ "Parameter" → visit.1 = visit.2.qualifiedName
  parameter : visit.2.kind = "Parameter" → ∃ owner, (owner.qualifiedName, owner) ∈ s.walk ∧
    visit.1 = owner.qualifiedName ++ "." ++ visit.2.name

end Model

namespace Prepare

open Model
open Report

/-! ## Types that are refused -/

/-- Types that are not supported, with the word for them. -/
inductive Unsupported : DataType → String → Prop
  | interface (r : SymbolRef) : Unsupported (.interface r) "interface"
  | map (item : DataType) : Unsupported (.map item) "map"

theorem unsupported?_eq_some {t : DataType} {word : String} :
    unsupported? t = some word ↔ Unsupported t word := by
  constructor
  · intro h
    cases t <;> cases h
    · exact .interface _
    · exact .map _
  · rintro (_ | _) <;> rfl

/-- An unsupported type stands at a place. -/
def Refuses (s : System) (p : TypePlace) (word : String) : Prop :=
  ∃ t, s.HasType p t ∧ Unsupported t word

/-- The first place where an unsupported type stands. -/
structure RefusesFirst (s : System) (p : TypePlace) (word : String) : Prop where
  refuses : Refuses s p word
  first : ∀ q other, Refuses s q other → q = p ∨ p.Before q

/-! ## The order in which types are checked -/

/-- Types at places, with what they are called. -/
def called (ys : List (TypePlace × DataType)) : List (String × DataType) :=
  ys.map fun y => (y.1.kind, y.2)

theorem called_append (xs ys : List (TypePlace × DataType)) :
    called (xs ++ ys) = called xs ++ called ys := List.map_append

theorem called_placed {α : Type} (place : Nat → TypePlace) (kind : String)
    (hkind : ∀ k, (place k).kind = kind) (type : α → DataType) (xs : List α) :
    called (placed place type xs) = xs.map fun x => (kind, type x) := by
  have hsingle : ∀ k x, called [(place k, type x)] = [(kind, type x)] := by
    intro k x
    rw [called, List.map_singleton, hkind]
  exact (map_indexed hsingle xs).trans (List.map_eq_flatMap ..).symm

theorem called_operation (k i x : Nat) (o : Operation) :
    called (o.placedTypes k i x) =
      o.parameters.map (fun p => ("Arguments", p.type)) ++ [("Return values", o.type)] := by
  rw [Operation.placedTypes, called_append,
    called_placed (.operationParameter k i x) "Arguments" fun _ => rfl]
  rfl

theorem called_signal (k i x : Nat) (sig : Signal) :
    called (sig.placedTypes k i x) = sig.parameters.map fun p => ("Arguments", p.type) :=
  called_placed (.signalParameter k i x) "Arguments" (fun _ => rfl) _ sig.parameters

theorem called_interface (k i : Nat) (face : Interface) :
    called (face.placedTypes k i) =
      face.properties.map (fun p => ("Properties", p.type))
        ++ face.operations.flatMap (fun o =>
            o.parameters.map (fun p => ("Arguments", p.type)) ++ [("Return values", o.type)])
        ++ face.signals.flatMap (fun sig => sig.parameters.map fun p => ("Arguments", p.type)) := by
  have hoperations : called (indexed (Operation.placedTypes k i) face.operations) =
      face.operations.flatMap fun o =>
        o.parameters.map (fun p => ("Arguments", p.type)) ++ [("Return values", o.type)] :=
    map_indexed (called_operation k i) face.operations
  have hsignals : called (indexed (Signal.placedTypes k i) face.signals) =
      face.signals.flatMap fun sig => sig.parameters.map fun p => ("Arguments", p.type) :=
    map_indexed (called_signal k i) face.signals
  rw [Interface.placedTypes, called_append, called_append, hoperations, hsignals,
    called_placed (.property k i) "Properties" fun _ => rfl, List.append_assoc]

theorem called_struct (k i : Nat) (struct : Struct) :
    called (struct.placedTypes k i) = struct.fields.map fun f => ("Fields", f.type) :=
  called_placed (.field k i) "Fields" (fun _ => rfl) _ struct.fields

theorem called_module (k : Nat) (m : Module) : called (m.placedTypes k) = usedTypes m := by
  have hinterfaces := map_indexed (called_interface k) m.interfaces
  have hstructs := map_indexed (called_struct k) m.structs
  rw [Module.placedTypes, called_append]
  exact congrArg₂ (· ++ ·) hinterfaces hstructs

/-- The types that are checked are those of all places, in their order. -/
theorem called_placedTypes (s : System) : called s.placedTypes = s.modules.flatMap usedTypes :=
  map_indexed called_module s.modules

/-- What is found first in a list that is in order comes before everything else that could have been
found. -/
theorem first_of_findSome? {α β : Type} {r : α → α → Prop} {f : α → Option β} {xs : List α}
    {b : β} (hsorted : xs.Pairwise r) (h : xs.findSome? f = some b) :
    ∃ x ∈ xs, f x = some b ∧ ∀ y ∈ xs, (f y).isSome → y = x ∨ r x y := by
  obtain ⟨before, x, after, rfl, hx, hbefore⟩ := List.findSome?_eq_some_iff.mp h
  refine ⟨x, by simp, hx, fun y hy hsome => ?_⟩
  rcases List.mem_append.mp hy with hy | hy
  · rw [hbefore y hy] at hsome
    cases hsome
  · rcases List.mem_cons.mp hy with rfl | hy
    · exact Or.inl rfl
    · have hafter := (List.pairwise_append.mp hsorted).2.1
      exact Or.inr (List.rel_of_pairwise_cons hafter hy)

/-- What the check says of the type at a place. -/
def fault? (y : TypePlace × DataType) : Option (String × String) :=
  (unsupported? y.2).map (y.1.kind, ·)

theorem fault?_eq_some {y : TypePlace × DataType} {fault : String × String} :
    fault? y = some fault ↔ y.1.kind = fault.1 ∧ Unsupported y.2 fault.2 := by
  obtain ⟨kind, word⟩ := fault
  unfold fault?
  rw [Option.map_eq_some_iff]
  constructor
  · rintro ⟨found, hfound, heq⟩
    cases heq
    exact ⟨rfl, unsupported?_eq_some.mp hfound⟩
  · rintro ⟨rfl, hword⟩
    exact ⟨word, unsupported?_eq_some.mpr hword, rfl⟩

theorem checkSupportedTypes_eq (source : String) (s : System) :
    checkSupportedTypes source s = match s.placedTypes.findSome? fault? with
      | some fault => .error (.unsupportedType source fault.1 fault.2)
      | none => .ok () := by
  have hfind : s.placedTypes.findSome? fault? =
      (s.modules.flatMap usedTypes).findSome? fun used =>
        (unsupported? used.2).map (used.1, ·) := by
    rw [← called_placedTypes, called, List.findSome?_map]
    rfl
  unfold checkSupportedTypes
  split
  · rename_i kind word hfound
    rw [hfind.trans hfound]
  · rename_i hfound
    rw [hfind.trans hfound]

/-- A system that has an unsupported type is refused for the first one. -/
theorem checkSupportedTypes_of_refuses (source : String) {s : System} {p : TypePlace}
    {word : String} (h : Refuses s p word) :
    ∃ p word, RefusesFirst s p word ∧
      checkSupportedTypes source s = .error (.unsupportedType source p.kind word) := by
  obtain ⟨t, ht, hword⟩ := h
  -- the place that is given shows that something is found, which may be at an earlier place
  have hsome : (s.placedTypes.findSome? fault?).isSome := by
    rw [List.findSome?_isSome_iff]
    refine ⟨(p, t), System.mem_placedTypes.mpr ht, ?_⟩
    rw [show fault? (p, t) = some (p.kind, word) from fault?_eq_some.mpr ⟨rfl, hword⟩]
    rfl
  obtain ⟨⟨kind, found⟩, hfound⟩ := Option.isSome_iff_exists.mp hsome
  obtain ⟨⟨q, type⟩, hq, hfault, hfirst⟩ := first_of_findSome? s.sorted_placedTypes hfound
  obtain ⟨rfl, htype⟩ := fault?_eq_some.mp hfault
  refine ⟨q, found, ⟨⟨type, System.mem_placedTypes.mp hq, htype⟩, ?_⟩, ?_⟩
  · rintro other word ⟨u, hu, hother⟩
    have hfault : fault? (other, u) = some (other.kind, word) := fault?_eq_some.mpr ⟨rfl, hother⟩
    have hplace := hfirst (other, u) (System.mem_placedTypes.mpr hu) (by rw [hfault]; rfl)
    exact hplace.imp (congrArg Prod.fst) id
  · rw [checkSupportedTypes_eq, hfound]

/-- A system without an unsupported type passes the check. -/
theorem checkSupportedTypes_of_not_refuses (source : String) {s : System}
    (h : ∀ p word, ¬ Refuses s p word) : checkSupportedTypes source s = .ok () := by
  have hnone : s.placedTypes.findSome? fault? = none := by
    rw [List.findSome?_eq_none_iff]
    rintro ⟨p, t⟩ hp
    cases hfault : fault? (p, t) with
    | none => rfl
    | some fault =>
        obtain ⟨-, hword⟩ := fault?_eq_some.mp hfault
        exact absurd ⟨t, System.mem_placedTypes.mp hp, hword⟩ (h p _)
  rw [checkSupportedTypes_eq, hnone]

/-! ## Deprecated annotations -/

/-- A deprecated annotation is set on a node: its dotted path leads to a value that is not blank. -/
structure Deprecation.Concerns (d : Deprecation) (n : Node) : Prop where
  kind : d.kind = n.kind
  isSet : ∃ v, Tags.Leads n.tags.members (Text.split '.' d.annotation) v ∧ ¬ v.Blank

theorem appliesTo_iff {d : Deprecation} {n : Node} : d.appliesTo n = true ↔ d.Concerns n := by
  unfold Deprecation.appliesTo Tags.lookup?
  rw [Bool.and_eq_true, decide_eq_true_eq, Option.any_eq_true]
  constructor
  · rintro ⟨hkind, v, hv, hset⟩
    exact ⟨hkind, v, Tags.follow_eq_some.mp hv, Json.isSet_iff.mp hset⟩
  · rintro ⟨hkind, v, hv, hset⟩
    exact ⟨hkind, v, Tags.follow_eq_some.mpr hv, Json.isSet_iff.mpr hset⟩

instance (d : Deprecation) (n : Node) : Decidable (d.Concerns n) :=
  decidable_of_iff _ appliesTo_iff

/-- A lint for deprecated annotations goes through the visited nodes, and through its table for each
of them. -/
theorem check_deprecationLint (table : List Deprecation) (s : System) :
    (deprecationLint table).check s =
      ((s.walk ×ˢ table).filter fun x => x.2.Concerns x.1.2).map fun x =>
        deprecationWarning x.1.1 x.2 := by
  have hnode : ∀ visit : String × Node,
      (table.filter (·.appliesTo visit.2)).map (deprecationWarning visit.1) =
        ((table.map (Prod.mk visit)).filter fun x => x.2.Concerns x.1.2).map fun x =>
          deprecationWarning x.1.1 x.2 := by
    intro visit
    rw [List.filter_map, List.map_map]
    congr 1
    refine List.filter_congr fun d _ => ?_
    rw [Bool.eq_iff_iff, appliesTo_iff]
    exact decide_eq_true_iff.symm
  change s.walk.flatMap (fun visit =>
    (table.filter (·.appliesTo visit.2)).map (deprecationWarning visit.1)) = _
  change _ = ((s.walk.flatMap fun visit => table.map (Prod.mk visit)).filter _).map _
  rw [List.filter_flatMap, List.map_flatMap]
  exact List.flatMap_congr fun visit _ => hnode visit

/-! ## Validation -/

/-- What a validation comes to that refuses no type. -/
structure Linted (lints : List Lint) (d : Draft) (outcome : Outcome) : Prop where
  system : outcome.2.system = d.system
  findings : outcome.2.diagnostics = d.diagnostics ++ lints.flatMap (·.check d.system)
  messages : outcome.2.reporter =
    d.reporter.tell ((lints.flatMap (·.check d.system)).map (·.notice d.source))
  warnings : outcome.2.reporter.warnings =
    d.reporter.warnings + (lints.flatMap (·.check d.system)).countP (·.severity = .warning)
  fails : outcome.1 ≠ none ↔ ∃ x ∈ outcome.2.diagnostics, x.severity = .error
  failure : ∀ f, outcome.1 = some f →
    f = .invalidModel (outcome.2.diagnostics.countP (·.severity = .error))

theorem linted_of_checked {lints : List Lint} {d : Draft}
    (h : checkSupportedTypes d.source d.system = .ok ()) :
    Linted lints d (checkModel lints d) := by
  have herrors : ∀ found : List Diagnostic, found.countP (·.isError) = 0 ↔
      ¬ ∃ x ∈ found, x.severity = .error := by
    intro found
    simp [List.countP_eq_zero, Diagnostic.isError]
  unfold checkModel
  rw [h]
  dsimp only
  rw [foldl_report]
  -- both outcomes keep the findings and the reports, and differ in the failure
  split
  · rename_i hnone
    refine ⟨rfl, rfl, rfl, ?_, ?_, fun f hf => nomatch hf⟩
    · exact congrArg (d.reporter.warnings + ·) (countP_notice d.source _)
    · exact ⟨fun hf => absurd rfl hf, fun hex => absurd hex ((herrors _).mp hnone)⟩
  · rename_i hsome
    refine ⟨rfl, rfl, rfl, ?_, ?_, fun f hf => (Option.some.inj hf).symm⟩
    · exact congrArg (d.reporter.warnings + ·) (countP_notice d.source _)
    · exact ⟨fun _ => by_contra fun hno => hsome ((herrors _).mpr hno), fun _ hf => nomatch hf⟩

/-- The owner of a parameter is visited as well, and has given the parameter the first part of its
name. -/
theorem exists_owner_of_mem_walk {m : Module} {visit : String × Node} (h : visit ∈ m.walk)
    (hkind : visit.2.kind = "Parameter") :
    ∃ owner : Node, (owner.qualifiedName, owner) ∈ m.walk ∧
      visit.1 = owner.qualifiedName ++ "." ++ visit.2.name := by
  simp only [Module.walk, Module.walkInterface, Module.walkStruct, Module.walkEnum,
    Module.walkParameters, List.mem_cons, List.mem_append, List.mem_flatMap, List.mem_map] at h ⊢
  rcases h with rfl | (⟨face, hface, hvisit⟩ | ⟨struct, -, hvisit⟩) | ⟨enum, -, hvisit⟩
  · simp [Node.kind] at hkind
  · rcases hvisit with rfl | (⟨p, -, rfl⟩ | ⟨o, ho, rfl | ⟨p, -, rfl⟩⟩) |
      ⟨sig, hsig, rfl | ⟨p, -, rfl⟩⟩
    · simp [Node.kind] at hkind
    · simp [Node.kind] at hkind
    · simp [Node.kind] at hkind
    · exact ⟨.operation m face o,
        .inr (.inl (.inl ⟨face, hface, .inr (.inl (.inr ⟨o, ho, .inl rfl⟩))⟩)), rfl⟩
    · simp [Node.kind] at hkind
    · exact ⟨.signal m face sig,
        .inr (.inl (.inl ⟨face, hface, .inr (.inr ⟨sig, hsig, .inl rfl⟩)⟩)), rfl⟩
  · rcases hvisit with rfl | ⟨f, -, rfl⟩ <;> simp [Node.kind] at hkind
  · rcases hvisit with rfl | ⟨x, -, rfl⟩ <;> simp [Node.kind] at hkind

theorem visitName_of_mem_walk {s : System} {visit : String × Node} (h : visit ∈ s.walk) :
    VisitName s visit := by
  obtain ⟨m, hm, hvisit⟩ := List.mem_flatMap.mp h
  refine ⟨qualifiedName_of_mem_walk hvisit, fun hkind => ?_⟩
  obtain ⟨owner, howner, hname⟩ := exists_owner_of_mem_walk hvisit hkind
  exact ⟨owner, List.mem_flatMap.mpr ⟨m, hm, howner⟩, hname⟩

/-- A validation fails for an unsupported type exactly if there is one at some place, and then for
the first one, without having run a lint or reported anything.  Otherwise the findings of the lints
are added to those from before and reported one by one, and it fails exactly if there is an error
among all findings.  A lint for deprecated annotations finds one warning for each visited node and
each entry of its table that concerns the node, at the name of the visit. -/
theorem validation_exact (t : Files.Tree) (lints : List Lint) (d : Draft) :
    let outcome := Phase.run t d (.validate lints)
    ((∃ source kind word, outcome.1 = some (.unsupportedType source kind word)) ↔
        ∃ p word, Refuses d.system p word) ∧
      ((∃ p word, Refuses d.system p word) → ∃ p word, RefusesFirst d.system p word ∧
        outcome = (some (.unsupportedType d.source p.kind word), d)) ∧
      ((¬ ∃ p word, Refuses d.system p word) → Linted lints d outcome) ∧
      (∀ table, (deprecationLint table).check d.system =
        ((d.system.walk ×ˢ table).filter fun x => x.2.Concerns x.1.2).map fun x =>
          { severity := .warning
            lint := "deprecated-annotation"
            message := Deprecation.annotation x.2
              ++ " is deprecated and will be removed in future Qt versions"
            location := some x.1.1 }) ∧
      ∀ visit ∈ d.system.walk, VisitName d.system visit := by
  intro outcome
  have hrefused : (∃ p word, Refuses d.system p word) → ∃ p word, RefusesFirst d.system p word ∧
      outcome = (some (.unsupportedType d.source p.kind word), d) := by
    rintro ⟨p, word, h⟩
    obtain ⟨first, found, hfirst, hcheck⟩ := checkSupportedTypes_of_refuses d.source h
    refine ⟨first, found, hfirst, ?_⟩
    change checkModel lints d = _
    unfold checkModel
    rw [hcheck]
  have hlinted : (¬ ∃ p word, Refuses d.system p word) → Linted lints d outcome := by
    intro h
    have hnone : ∀ p word, ¬ Refuses d.system p word := fun p word hp => h ⟨p, word, hp⟩
    exact linted_of_checked (checkSupportedTypes_of_not_refuses d.source hnone)
  refine ⟨⟨?_, fun h => ?_⟩, hrefused, hlinted, fun table => check_deprecationLint table d.system,
    fun _ => visitName_of_mem_walk⟩
  · rintro ⟨source, kind, word, hfailed⟩
    by_contra hnone
    cases (hlinted hnone).failure _ hfailed
  · obtain ⟨p, word, -, houtcome⟩ := hrefused h
    exact ⟨d.source, p.kind, word, congrArg Prod.fst houtcome⟩

namespace Sample

/-- A system with two unsupported types: a result that is an interface, and a parameter of the same
operation that is a map.  One of its annotations is old. -/
def echo (supported : Bool) : System :=
  ⟨[{ name := "m", version := ⟨1, 0⟩,
      interfaces := [{
        name := "Echo"
        tags := ⟨[("config", .object [("qml_name", .string "EchoItem")])]⟩
        operations := [{
          name := "call"
          type := if supported then .void else .interface ⟨"m", "Echo"⟩
          parameters := [{
            name := "to"
            type := if supported then .primitive .string else .map (.primitive .int) }] }] }] }]⟩

def echoDraft (supported : Bool) : Draft where
  system := echo supported
  source := "echo.yaml"
  reporter := { source := "echo.yaml" }

/-- The older key for the name of a type is deprecated. -/
def oldNames : Lint := deprecationLint [⟨"Interface", "config.qml_name", "6.2"⟩]

end Sample

/-- The parameter is refused before the result.  Without both of them the old annotation is
reported, which is no failure. -/
theorem validation_exact_echo :
    (∃ p, RefusesFirst (Sample.echo false) p "map" ∧ p.kind = "Arguments") ∧
      (¬ ∃ p word, Refuses (Sample.echo true) p word) ∧
      let accepted := Phase.run ⟨[], []⟩ (Sample.echoDraft true) (.validate [Sample.oldNames])
      accepted.1 = none ∧ accepted.2.reporter.warnings = 1 := by
  constructor
  · obtain ⟨hiff, hfirst, -⟩ :=
      validation_exact ⟨[], []⟩ [Sample.oldNames] (Sample.echoDraft false)
    have hcomputed : (Phase.run ⟨[], []⟩ (Sample.echoDraft false) (.validate [Sample.oldNames])).1 =
        some (.unsupportedType "echo.yaml" "Arguments" "map") := by decide +kernel
    obtain ⟨p, word, hp, houtcome⟩ := hfirst (hiff.mp ⟨_, _, _, hcomputed⟩)
    rw [houtcome] at hcomputed
    simp only [Option.some.injEq, Failure.unsupportedType.injEq] at hcomputed
    obtain ⟨-, hkind, rfl⟩ := hcomputed
    exact ⟨p, hp, hkind⟩
  · obtain ⟨hiff, -, hlinted, -⟩ :=
      validation_exact ⟨[], []⟩ [Sample.oldNames] (Sample.echoDraft true)
    have hcomputed : (Phase.run ⟨[], []⟩ (Sample.echoDraft true) (.validate [Sample.oldNames])).1 =
        none := by decide +kernel
    have hsupported : ¬ ∃ p word, Refuses (Sample.echo true) p word := by
      intro hrefuses
      obtain ⟨source, kind, word, hfailed⟩ := hiff.mpr hrefuses
      rw [hcomputed] at hfailed
      cases hfailed
    refine ⟨hsupported, hcomputed, ?_⟩
    rw [(hlinted hsupported).warnings]
    decide +kernel

end Prepare

end Stencil
