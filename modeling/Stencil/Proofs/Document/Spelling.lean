import Stencil.Proofs.Document.References
import Stencil.Proofs.Document.Refusal
import Stencil.Proofs.Text.Cut

/-!
# Spellings of types

A type can be written down and read back, and whatever is read is such a spelling,
apart from white space around the names and brackets in it.  The proofs follow the
spelling from the outermost brackets inwards: a text is a name, a container or has
a bracket that is not closed, and white space changes nothing about which of them.
-/

namespace Stencil.Model

/-- The declaration that a type comes down to inside its containers. -/
def DataType.leaf? : DataType → Option SymbolRef
  | .list t | .model t | .map t => t.leaf?
  | t => t.reference?

/-- A type written without white space, and with a text of one's own for a declaration. -/
def DataType.spelling (write : SymbolRef → String) : DataType → String
  | .void => "void"
  | .primitive p => p.name
  | .enum r | .flag r | .struct r | .interface r => write r
  | .list t => "list<" ++ t.spelling write ++ ">"
  | .model t => "model<" ++ t.spelling write ++ ">"
  | .map t => "map<" ++ t.spelling write ++ ">"

end Stencil.Model

namespace Stencil.Document

open Model (DataType Primitive SymbolRef)
open Text (Trimmed)

/-! ## White space around the parts of a spelling -/

/-- White space, or nothing. -/
def Blank (cs : List Char) : Prop := ∀ c ∈ cs, Text.isBlank c = true

/-- A text is a spelling with white space around the names and brackets in it; the spelling has none
there. -/
inductive Spaced : List Char → List Char → Prop
  | name {name before after : List Char} (hopen : '<' ∉ name) (htrimmed : Trimmed Text.isBlank name)
      (hbefore : Blank before) (hafter : Blank after) : Spaced name (before ++ name ++ after)
  | container {name item inner before between after : List Char} (hopen : '<' ∉ name)
      (htrimmed : Trimmed Text.isBlank name) (hname : name ≠ []) (hbefore : Blank before)
      (hbetween : Blank between) (hafter : Blank after) (hitem : Spaced item inner) :
      Spaced (name ++ '<' :: (item ++ ['>']))
        (before ++ (name ++ between ++ '<' :: (inner ++ ['>'])) ++ after)

theorem not_open_of_blank {cs : List Char} (h : Blank cs) : '<' ∉ cs :=
  fun hmem => absurd (h '<' hmem) (by decide)

/-! ## One level of a spelling -/

/-- What stands between brackets, in the container that the name before them stands for. -/
def contained (name spelling : String) (item : DataType) : Except TypeFault DataType :=
  match container? name with
  | some wrap => .ok (wrap item)
  | none => .error (.unknownContainer name spelling)

theorem contained_eq_ok {name spelling : String} {item t : DataType} :
    contained name spelling item = .ok t ↔ ∃ wrap, container? name = some wrap ∧ wrap item = t := by
  unfold contained
  cases container? name with
  | none => simp
  | some wrap => simp

section Levels

variable {s : Scope} {cs front back inner : List Char}

theorem resolveList_name (h : '<' ∉ Text.trimList Text.isBlank cs) :
    s.resolveList cs = s.named (String.ofList (Text.trimList Text.isBlank cs)) := by
  rw [resolveList_eq, Text.cutFirstList_eq_none.mpr h]

theorem resolveList_container
    (h : Text.trimList Text.isBlank cs = front ++ '<' :: (inner ++ ['>'])) (hfront : '<' ∉ front) :
    s.resolveList cs =
      s.resolveList inner >>= contained (String.ofList (Text.trimList Text.isBlank front))
        (String.ofList (Text.trimList Text.isBlank cs)) := by
  have hdrop : Text.dropSuffixList ['>'] (inner ++ ['>']) = some inner :=
    Text.dropSuffixList_eq_some_iff.mpr rfl
  rw [resolveList_eq, Text.cutFirstList_eq_some.mpr ⟨h, hfront⟩]
  simp only [hdrop]
  rfl

theorem resolveList_open (h : Text.trimList Text.isBlank cs = front ++ '<' :: back)
    (hfront : '<' ∉ front) (hback : ∀ inner, back ≠ inner ++ ['>']) :
    s.resolveList cs = .error (.malformed (String.ofList (Text.trimList Text.isBlank cs))) := by
  have hdrop : Text.dropSuffixList ['>'] back = none := by
    cases hdrop : Text.dropSuffixList ['>'] back with
    | none => rfl
    | some inner => exact absurd (Text.dropSuffixList_eq_some_iff.mp hdrop) (hback inner)
  rw [resolveList_eq, Text.cutFirstList_eq_some.mpr ⟨h, hfront⟩]
  simp only [hdrop]

end Levels

/-- A text is a name, a container or has a bracket that is not closed. -/
theorem cases_of_trimmed (cs : List Char) :
    '<' ∉ cs ∨ (∃ front inner, cs = front ++ '<' :: (inner ++ ['>']) ∧ '<' ∉ front) ∨
      ∃ front back, cs = front ++ '<' :: back ∧ '<' ∉ front ∧ ∀ inner, back ≠ inner ++ ['>'] := by
  cases hcut : Text.cutFirstList '<' cs with
  | none => exact Or.inl (Text.cutFirstList_eq_none.mp hcut)
  | some p =>
      obtain ⟨front, back⟩ := p
      obtain ⟨hcs, hfront⟩ := Text.cutFirstList_eq_some.mp hcut
      by_cases hclosed : ∃ inner, back = inner ++ ['>']
      · obtain ⟨inner, rfl⟩ := hclosed
        exact Or.inr (Or.inl ⟨front, inner, hcs, hfront⟩)
      · exact Or.inr (Or.inr ⟨front, back, hcs, hfront, fun inner h => hclosed ⟨inner, h⟩⟩)

/-! ## Names -/

/-- The name alone stands for the declaration: it is not built in, and the module and its imports, in
order, have no declaration of this name before that one. -/
structure Scope.FindsAlone (s : Scope) (r : SymbolRef) : Prop where
  void : r.name ≠ "void"
  primitive : Primitive.ofName? r.name = none
  first : (s.module :: s.imports).find? (fun m => (s.symbols m r.name).isSome) = some r.module

/-- How a declaration may be written: after its module, or alone if that is enough. -/
structure Scope.Writes (s : Scope) (r : SymbolRef) (text : String) : Prop where
  bracket : '<' ∉ text.toList
  dot : '.' ∉ r.name.toList
  found : text = r.qualifiedName ∨ text = r.name ∧ s.FindsAlone r

theorem ofName?_eq_some {name : String} {p : Primitive} :
    Primitive.ofName? name = some p ↔ name = p.name := by
  constructor
  · intro h
    unfold Primitive.ofName? at h
    have hname := List.find?_some h
    exact (of_decide_eq_true hname).symm
  · rintro rfl
    exact Primitive.ofName?_name p

theorem cutLast_qualifiedName {r : SymbolRef} (hdot : '.' ∉ r.name.toList) :
    Text.cutLast '.' r.qualifiedName = some (r.module, r.name) :=
  Text.cutLast_eq_some.mpr ⟨by simp [SymbolRef.qualifiedName], hdot⟩

theorem eq_qualifiedName_of_cutLast {name module last : String}
    (h : Text.cutLast '.' name = some (module, last)) :
    name = SymbolRef.qualifiedName ⟨module, last⟩ ∧ '.' ∉ last.toList := by
  obtain ⟨hname, hdot⟩ := Text.cutLast_eq_some.mp h
  refine ⟨?_, hdot⟩
  rw [← String.toList_inj, hname]
  simp [SymbolRef.qualifiedName]

/-- A name with a dot is none of the built-in ones. -/
theorem not_builtin_qualifiedName (r : SymbolRef) :
    r.qualifiedName ≠ "void" ∧ Primitive.ofName? r.qualifiedName = none := by
  have hdot : '.' ∈ r.qualifiedName.toList := by simp [SymbolRef.qualifiedName]
  constructor
  · intro h
    rw [h] at hdot
    exact absurd hdot (by decide)
  · cases h : Primitive.ofName? r.qualifiedName with
    | none => rfl
    | some p =>
        rw [ofName?_eq_some.mp h] at hdot
        cases p <;> exact absurd hdot (by decide)

section Names

variable {s : Scope} {name : String}

theorem lookup?_qualifiedName {r : SymbolRef} (hdot : '.' ∉ r.name.toList) :
    s.lookup? r.qualifiedName = (s.symbols r.module r.name).map (r.module, ·) := by
  unfold Scope.lookup?
  rw [cutLast_qualifiedName hdot]

/-- A name without a dot is the declaration in the first module that has one of this name. -/
theorem lookup?_alone (hdot : '.' ∉ name.toList) {module : String} {d : Declared} :
    s.lookup? name = some (module, d) ↔
      (s.module :: s.imports).find? (fun m => (s.symbols m name).isSome) = some module ∧
        s.symbols module name = some d := by
  unfold Scope.lookup?
  rw [Text.cutLast_eq_none.mpr hdot]
  dsimp only
  induction s.module :: s.imports with
  | nil => simp
  | cons m rest ih =>
      rw [List.findSome?_cons, List.find?_cons]
      cases hm : s.symbols m name with
      | none => simpa using ih
      | some e =>
          simp only [Option.map_some, Option.isSome_some, Option.some.injEq, Prod.mk.injEq]
          constructor
          · rintro ⟨rfl, rfl⟩
            exact ⟨rfl, hm⟩
          · rintro ⟨rfl, hd⟩
            exact ⟨rfl, Option.some.inj (hm.symm.trans hd)⟩

theorem afterLast_qualifiedName {r : SymbolRef} (hdot : '.' ∉ r.name.toList) :
    Text.afterLast '.' r.qualifiedName = r.name := by
  rw [Text.afterLast, cutLast_qualifiedName hdot]

theorem afterLast_alone (hdot : '.' ∉ name.toList) : Text.afterLast '.' name = name := by
  rw [Text.afterLast, Text.cutLast_eq_none.mpr hdot]

theorem named_of_lookup? (hvoid : name ≠ "void") (hprimitive : Primitive.ofName? name = none)
    {module : String} {d : Declared} (h : s.lookup? name = some (module, d)) :
    s.named name = .ok (d.type ⟨module, Text.afterLast '.' name⟩) := by
  unfold Scope.named
  rw [if_neg hvoid]
  simp only [hprimitive, h]

/-- A declaration is found under the names that it may be written with. -/
theorem named_of_writes {r : SymbolRef} {d : Declared} (hd : s.symbols r.module r.name = some d)
    (h : s.Writes r name) : s.named name = .ok (d.type r) := by
  rcases h.found with rfl | ⟨rfl, halone⟩
  · obtain ⟨hvoid, hprimitive⟩ := not_builtin_qualifiedName r
    have hfound : s.lookup? r.qualifiedName = some (r.module, d) := by
      rw [lookup?_qualifiedName h.dot, hd, Option.map_some]
    rw [named_of_lookup? hvoid hprimitive hfound, afterLast_qualifiedName h.dot]
  · have hfound : s.lookup? r.name = some (r.module, d) :=
      (lookup?_alone h.dot).mpr ⟨halone.first, hd⟩
    rw [named_of_lookup? halone.void halone.primitive hfound, afterLast_alone h.dot]

/-- What is found under a name that is not built in may be written so. -/
theorem writes_of_lookup? (hopen : '<' ∉ name.toList) (hvoid : name ≠ "void")
    (hprimitive : Primitive.ofName? name = none) {module : String} {d : Declared}
    (h : s.lookup? name = some (module, d)) :
    s.Writes ⟨module, Text.afterLast '.' name⟩ name := by
  cases hcut : Text.cutLast '.' name with
  | some p =>
      obtain ⟨front, last⟩ := p
      obtain ⟨rfl, hdot⟩ := eq_qualifiedName_of_cutLast hcut
      rw [lookup?_qualifiedName hdot] at h
      obtain ⟨e, -, heq⟩ := Option.map_eq_some_iff.mp h
      cases heq
      rw [afterLast_qualifiedName hdot]
      exact ⟨hopen, hdot, Or.inl rfl⟩
  | none =>
      have hdot := Text.cutLast_eq_none.mp hcut
      rw [afterLast_alone hdot]
      exact ⟨hopen, hdot, Or.inr ⟨rfl, hvoid, hprimitive, ((lookup?_alone hdot).mp h).1⟩⟩

/-- A name stands for a built-in type or for a declaration that may be written so. -/
theorem cases_of_named (hopen : '<' ∉ name.toList) {t : DataType} (h : s.named name = .ok t) :
    (t = .void ∧ name = "void") ∨ (∃ p : Primitive, t = .primitive p ∧ name = p.name) ∨
      ∃ r, ∃ d : Declared, t = d.type r ∧ s.Writes r name := by
  by_cases hvoid : name = "void"
  · rw [Scope.named, if_pos hvoid] at h
    cases h
    exact Or.inl ⟨rfl, hvoid⟩
  cases hprimitive : Primitive.ofName? name with
  | some p =>
      rw [Scope.named, if_neg hvoid, hprimitive] at h
      cases h
      exact Or.inr (Or.inl ⟨p, rfl, ofName?_eq_some.mp hprimitive⟩)
  | none =>
      cases hlookup : s.lookup? name with
      | none =>
          rw [Scope.named, if_neg hvoid, hprimitive] at h
          simp [hlookup] at h
      | some found =>
          obtain ⟨module, d⟩ := found
          rw [named_of_lookup? hvoid hprimitive hlookup] at h
          cases h
          exact Or.inr (Or.inr ⟨_, d, rfl, writes_of_lookup? hopen hvoid hprimitive hlookup⟩)

end Names

/-! ## Spellings that are read -/

theorem type_of_cover {symbols : Symbols} {t : DataType} (ht : symbols.Cover t) {r : SymbolRef}
    (hr : t.reference? = some r) : ∃ d : Declared, symbols r.module r.name = some d ∧ d.type r = t := by
  cases t with
  | enum | flag | struct | interface =>
      cases hr
      exact ⟨_, ht, rfl⟩
  | _ => cases hr

theorem spelling_type (d : Declared) (r : SymbolRef) (write : SymbolRef → String) :
    (d.type r).leaf? = some r ∧ (d.type r).spelling write = write r := by
  cases d with
  | enum flag => cases flag <;> exact ⟨rfl, rfl⟩
  | _ => exact ⟨rfl, rfl⟩

theorem cases_of_container? {name : String} {wrap : DataType → DataType}
    (h : container? name = some wrap) :
    (name = "list" ∧ wrap = .list) ∨ (name = "model" ∧ wrap = .model) ∨
      (name = "map" ∧ wrap = .map) := by
  unfold container? at h
  split at h
  · exact Or.inl ⟨‹_›, (Option.some.inj h).symm⟩
  · split at h
    · exact Or.inr (Or.inl ⟨‹_›, (Option.some.inj h).symm⟩)
    · split at h
      · exact Or.inr (Or.inr ⟨‹_›, (Option.some.inj h).symm⟩)
      · cases h

/-- A container is written with its name. -/
theorem spelling_container {name : String} {wrap : DataType → DataType}
    (h : container? name = some wrap) (t : DataType) (write : SymbolRef → String) :
    (wrap t).leaf? = t.leaf? ∧
      ((wrap t).spelling write).toList =
        name.toList ++ '<' :: ((t.spelling write).toList ++ ['>']) := by
  rcases cases_of_container? h with ⟨rfl, rfl⟩ | ⟨rfl, rfl⟩ | ⟨rfl, rfl⟩
  all_goals exact ⟨rfl, by simp [DataType.spelling]⟩

theorem not_open_container {name : String} {wrap : DataType → DataType}
    (h : container? name = some wrap) : '<' ∉ name.toList := by
  rcases cases_of_container? h with ⟨rfl, -⟩ | ⟨rfl, -⟩ | ⟨rfl, -⟩
  all_goals decide

section Reading

variable {s : Scope} {name item cs : List Char}

theorem resolveList_of_spaced_name (hopen : '<' ∉ name) (h : Spaced name cs) :
    s.resolveList cs = s.named (String.ofList name) := by
  cases h with
  | name _ htrimmed hbefore hafter =>
      have htrim := Text.trimList_append hbefore hafter htrimmed
      rw [resolveList_name (by rwa [htrim]), htrim]
  | container => simp at hopen

theorem trimmed_container (hname : name ≠ []) (htrimmed : Trimmed Text.isBlank name)
    (between inner : List Char) :
    Trimmed Text.isBlank (name ++ between ++ '<' :: (inner ++ ['>'])) := by
  refine Text.trimmed_append_cons ?_ (by decide) ?_
  · intro c hc
    obtain ⟨d, rest, rfl⟩ := List.exists_cons_of_ne_nil hname
    exact htrimmed.first c hc
  · intro c hc
    rw [List.getLast?_concat] at hc
    cases hc
    decide

/-- The brackets of a spelling stay its outermost ones when white space is added. -/
theorem resolveList_of_spaced_container (hopen : '<' ∉ name)
    (h : Spaced (name ++ '<' :: (item ++ ['>'])) cs) :
    ∃ inner, Spaced item inner ∧ ∀ t wrap, container? (String.ofList name) = some wrap →
      s.resolveList inner = .ok t → s.resolveList cs = .ok (wrap t) := by
  generalize htight : name ++ '<' :: (item ++ ['>']) = tight at h
  cases h with
  | name hnone =>
      rw [← htight] at hnone
      simp at hnone
  | @container name' item' inner before between after hopen' htrimmed hname hbefore hbetween hafter
      hitem =>
      -- neither name has a bracket, so the first one separates the same parts in both
      have hcut : some (name, item ++ ['>']) = some (name', item' ++ ['>']) := by
        rw [← Text.cutFirstList_append hopen, htight, Text.cutFirstList_append hopen']
      simp only [Option.some.injEq, Prod.mk.injEq, List.append_cancel_right_eq] at hcut
      obtain ⟨rfl, rfl⟩ := hcut
      refine ⟨inner, hitem, fun t wrap hwrap ht => ?_⟩
      have htrim := Text.trimList_append hbefore hafter
        (trimmed_container hname htrimmed between inner)
      have hfront : Text.trimList Text.isBlank ([] ++ name ++ between) = name :=
        Text.trimList_append (fun _ hc => absurd hc List.not_mem_nil) hbetween htrimmed
      have hnone : '<' ∉ name ++ between := by
        simp only [List.mem_append, not_or]
        exact ⟨hopen, not_open_of_blank hbetween⟩
      rw [List.nil_append] at hfront
      rw [resolveList_container htrim hnone, ht, hfront]
      exact contained_eq_ok.mpr ⟨wrap, hwrap, rfl⟩

/-- Every spelling of a type whose declarations may be written so stands for it, with any white
space around names and brackets. -/
theorem resolveList_of_spaced {write : SymbolRef → String} {t : DataType} {cs : List Char}
    (hcover : s.symbols.Cover t) (hwrites : ∀ r, t.leaf? = some r → s.Writes r (write r))
    (h : Spaced (t.spelling write).toList cs) : s.resolveList cs = .ok t := by
  -- a type comes down to one name inside its containers: both kinds of level once, for all types
  have declared {u : DataType} {r : SymbolRef} {cs : List Char} (hu : s.symbols.Cover u)
      (hr : u.reference? = some r) (hwrite : s.Writes r (write r))
      (h : Spaced (write r).toList cs) : s.resolveList cs = .ok u := by
    obtain ⟨d, hd, rfl⟩ := type_of_cover hu hr
    rw [resolveList_of_spaced_name hwrite.bracket h, String.ofList_toList,
      named_of_writes hd hwrite]
  have wrapped {name : String} {wrap : DataType → DataType} (hname : container? name = some wrap)
      {item : DataType} {cs : List Char} (h : Spaced ((wrap item).spelling write).toList cs)
      (ih : ∀ {inner}, Spaced (item.spelling write).toList inner →
        s.resolveList inner = .ok item) : s.resolveList cs = .ok (wrap item) := by
    rw [(spelling_container hname item write).2] at h
    obtain ⟨inner, hinner, hread⟩ := resolveList_of_spaced_container (not_open_container hname) h
    exact hread item wrap (by rwa [String.ofList_toList]) (ih hinner)
  induction t generalizing cs with
  | void =>
      have hopen : '<' ∉ "void".toList := by decide
      exact resolveList_of_spaced_name hopen h
  | primitive p =>
      have hopen : '<' ∉ p.name.toList := by cases p <;> decide
      have hnamed : s.named p.name = .ok (.primitive p) := by cases p <;> rfl
      rw [resolveList_of_spaced_name hopen h, String.ofList_toList, hnamed]
  | enum r | flag r | struct r | interface r => exact declared hcover rfl (hwrites r rfl) h
  | list t ih => exact wrapped (show container? "list" = _ from rfl) h (ih hcover hwrites)
  | model t ih => exact wrapped (show container? "model" = _ from rfl) h (ih hcover hwrites)
  | map t ih => exact wrapped (show container? "map" = _ from rfl) h (ih hcover hwrites)

/-- Whatever a name stands for, it is a spelling of that type. -/
theorem spelling_of_named {name : String} (hopen : '<' ∉ name.toList) {t : DataType}
    (h : s.named name = .ok t) :
    ∃ write : SymbolRef → String, (∀ r, t.leaf? = some r → s.Writes r (write r)) ∧
      t.spelling write = name := by
  refine ⟨fun _ => name, ?_⟩
  rcases cases_of_named hopen h with ⟨rfl, rfl⟩ | ⟨p, rfl, rfl⟩ | ⟨r, d, rfl, hwrites⟩
  · exact ⟨fun _ hr => absurd hr (Option.some_ne_none _).symm, rfl⟩
  · exact ⟨fun _ hr => absurd hr (Option.some_ne_none _).symm, rfl⟩
  · obtain ⟨hleaf, hspelling⟩ := spelling_type d r fun _ => name
    refine ⟨?_, hspelling⟩
    intro r' hr'
    rw [hleaf] at hr'
    cases hr'
    exact hwrites

/-- The name of a container may have white space around it, as may the whole. -/
theorem spaced_container_of_trimList {front before after inner : List Char}
    (hfront : '<' ∉ front) (hname : Text.trimList Text.isBlank front ≠ [])
    (hbefore : Blank before) (hafter : Blank after) (hitem : Spaced item inner) :
    Spaced (Text.trimList Text.isBlank front ++ '<' :: (item ++ ['>']))
      (before ++ (front ++ '<' :: (inner ++ ['>'])) ++ after) := by
  -- what is trimmed off the name on its left is more white space before the whole
  obtain ⟨left, right, heq, hleft, hright⟩ := Text.exists_around_trimList Text.isBlank front
  have htrimmed := Text.trimmed_trimList Text.isBlank front
  generalize Text.trimList Text.isBlank front = name at heq hname htrimmed ⊢
  subst heq
  have hopen : '<' ∉ name := by
    intro hmem
    simp [hmem] at hfront
  have hbefore' : Blank (before ++ left) := by
    intro c hc
    exact (List.mem_append.mp hc).elim (hbefore c) (hleft c)
  have h := Spaced.container hopen htrimmed hname hbefore' hright hafter hitem
  simpa using h

/-- Whatever a text stands for, it is a spelling of that type with white space. -/
theorem spaced_of_resolveList {t : DataType} (h : s.resolveList cs = .ok t) :
    ∃ write : SymbolRef → String, (∀ r, t.leaf? = some r → s.Writes r (write r)) ∧
      Spaced (t.spelling write).toList cs := by
  -- what stands between the outermost brackets is shorter than the text
  induction hn : cs.length using Nat.strongRecOn generalizing cs t with
  | ind n ih =>
    obtain ⟨before, after, hcs, hbefore, hafter⟩ := Text.exists_around_trimList Text.isBlank cs
    rcases cases_of_trimmed (Text.trimList Text.isBlank cs) with
      hopen | ⟨front, inner, htext, hfront⟩ | ⟨front, back, htext, hfront, hback⟩
    · rw [resolveList_name hopen] at h
      obtain ⟨write, hwrites, hspelling⟩ := spelling_of_named (by rwa [String.toList_ofList]) h
      refine ⟨write, hwrites, ?_⟩
      have hspaced :=
        Spaced.name hopen (Text.trimmed_trimList Text.isBlank cs) hbefore hafter
      rwa [← hcs, ← String.toList_ofList (l := Text.trimList Text.isBlank cs), ← hspelling]
        at hspaced
    · rw [resolveList_container htext hfront] at h
      obtain ⟨item, hitem, h⟩ := bind_eq_ok.mp h
      have hlength : inner.length < n := by
        have htrim := length_trimList_le Text.isBlank cs
        rw [htext, List.length_append, List.length_cons, List.length_append] at htrim
        omega
      obtain ⟨write, hwrites, hinner⟩ := ih inner.length hlength hitem rfl
      obtain ⟨wrap, hwrap, rfl⟩ := contained_eq_ok.mp h
      obtain ⟨hleaf, hspelling⟩ := spelling_container hwrap item write
      refine ⟨write, by rwa [hleaf], ?_⟩
      have hname : Text.trimList Text.isBlank front ≠ [] := by
        intro hnil
        rw [hnil] at hwrap
        cases hwrap
      have hspaced := spaced_container_of_trimList hfront hname hbefore hafter hinner
      rwa [← htext, ← hcs, ← String.toList_ofList (l := Text.trimList Text.isBlank front),
        ← hspelling] at hspaced
    · rw [resolveList_open htext hfront hback] at h
      cases h

/-- A text is a spelling of a type whose references are declared, with white space around the names
and brackets in it. -/
def Scope.Spells (s : Scope) (t : DataType) (cs : List Char) : Prop :=
  s.symbols.Cover t ∧ ∃ write : SymbolRef → String,
    (∀ r, t.leaf? = some r → s.Writes r (write r)) ∧ Spaced (t.spelling write).toList cs

/-- A text stands for the types that it is a spelling of. -/
theorem resolveList_eq_ok {t : DataType} : s.resolveList cs = .ok t ↔ s.Spells t cs := by
  constructor
  · intro h
    exact ⟨cover_of_resolveList h, spaced_of_resolveList h⟩
  · rintro ⟨hcover, write, hwrites, hspaced⟩
    exact resolveList_of_spaced hcover hwrites hspaced

end Reading

/-! ## Names without marks -/

/-- Neither the module nor the name of a declaration has an opening bracket or white space at its
ends, and its name has no dot. -/
structure Plain (r : SymbolRef) : Prop where
  bracket : '<' ∉ r.module.toList ∧ '<' ∉ r.name.toList
  dot : '.' ∉ r.name.toList
  trimmed : Trimmed Text.isBlank r.module.toList ∧ Trimmed Text.isBlank r.name.toList

theorem Plain.writes {r : SymbolRef} (h : Plain r) (s : Scope) : s.Writes r r.qualifiedName where
  bracket := by simp [SymbolRef.qualifiedName, h.bracket]
  dot := h.dot
  found := Or.inl rfl

theorem Plain.trimmed_qualifiedName {r : SymbolRef} (h : Plain r) :
    Trimmed Text.isBlank r.qualifiedName.toList := by
  have hparts : r.qualifiedName.toList = r.module.toList ++ '.' :: r.name.toList := by
    simp [SymbolRef.qualifiedName]
  rw [hparts]
  exact Text.trimmed_append_cons h.trimmed.1.first (by decide) h.trimmed.2.last

/-- A type is a spelling of itself. -/
theorem spaced_spelling {t : DataType} (h : ∀ r, t.leaf? = some r → Plain r) :
    Spaced (t.spelling SymbolRef.qualifiedName).toList
      (t.spelling SymbolRef.qualifiedName).toList := by
  have hblank : Blank [] := fun _ hc => absurd hc List.not_mem_nil
  have alone {name : List Char} (hopen : '<' ∉ name) (htrimmed : Trimmed Text.isBlank name) :
      Spaced name name := by
    have hspaced := Spaced.name hopen htrimmed hblank hblank
    simpa using hspaced
  have wrapped {name : String} {wrap : DataType → DataType} (hname : container? name = some wrap)
      {item : DataType} (ih : Spaced (item.spelling SymbolRef.qualifiedName).toList
        (item.spelling SymbolRef.qualifiedName).toList) :
      Spaced ((wrap item).spelling SymbolRef.qualifiedName).toList
        ((wrap item).spelling SymbolRef.qualifiedName).toList := by
    rw [(spelling_container hname item _).2]
    have hopen := not_open_container hname
    have hends : Trimmed Text.isBlank name.toList ∧ name.toList ≠ [] := by
      rcases cases_of_container? hname with ⟨rfl, -⟩ | ⟨rfl, -⟩ | ⟨rfl, -⟩
      all_goals exact ⟨Text.trimmed_of_all (by decide) (by decide), by decide⟩
    have hspaced := Spaced.container hopen hends.1 hends.2 hblank hblank hblank ih
    simpa using hspaced
  induction t with
  | void => exact alone (by decide) (Text.trimmed_of_all (by decide) (by decide))
  | primitive p =>
      cases p <;> exact alone (by decide) (Text.trimmed_of_all (by decide) (by decide))
  | enum r | flag r | struct r | interface r =>
      have hr := h r rfl
      exact alone (hr.writes ⟨fun _ _ => none, "", []⟩).bracket hr.trimmed_qualifiedName
  | list t ih => exact wrapped (show container? "list" = _ from rfl) (ih h)
  | model t ih => exact wrapped (show container? "model" = _ from rfl) (ih h)
  | map t ih => exact wrapped (show container? "map" = _ from rfl) (ih h)

/-! ## The depth of a spelling -/

/-- The type that a spelling stands for, with at most so many spellings inside one another. -/
def Scope.resolveWithin (s : Scope) : Nat → List Char → Option (Except TypeFault DataType)
  | 0, _ => none
  | depth + 1, cs =>
      let spelling := Text.trimList Text.isBlank cs
      match Text.cutFirstList '<' spelling with
      | none => some (s.named (String.ofList spelling))
      | some (front, back) =>
          match Text.dropSuffixList ['>'] back with
          | none => some (.error (.malformed (String.ofList spelling)))
          | some inner =>
              (s.resolveWithin depth inner).map fun read =>
                read >>= contained (String.ofList (Text.trimList Text.isBlank front))
                  (String.ofList spelling)

/-- No spelling goes deeper than it has opening brackets. -/
theorem resolveWithin_of_count (s : Scope) {depth : Nat} :
    ∀ {cs : List Char}, cs.count '<' < depth → s.resolveWithin depth cs = some (s.resolveList cs) := by
  induction depth with
  | zero =>
      intro cs h
      exact absurd h (Nat.not_lt_zero _)
  | succ depth ih =>
      intro cs h
      rw [resolveList_eq, Scope.resolveWithin]
      obtain ⟨before, after, hcs, -, -⟩ := Text.exists_around_trimList Text.isBlank cs
      cases hcut : Text.cutFirstList '<' (Text.trimList Text.isBlank cs) with
      | none => rfl
      | some p =>
          obtain ⟨front, back⟩ := p
          cases hdrop : Text.dropSuffixList ['>'] back with
          | none => simp only [hdrop]
          | some inner =>
              -- the bracket that was cut at does not stand between the brackets
              have hcount : inner.count '<' < depth := by
                obtain ⟨htext, -⟩ := Text.cutFirstList_eq_some.mp hcut
                rw [Text.dropSuffixList_eq_some_iff.mp hdrop] at htext
                rw [hcs, htext] at h
                simp only [List.count_append, List.count_cons_self] at h
                omega
              simp only [hdrop, ih hcount, Option.map_some]
              rfl

/-! ## Every text -/

/-- Types round-trip through their spellings, whatever is declared: a type whose references are
declared is read back from its spelling, with any white space around the names and brackets; a text
that is read is such a spelling, in which a declaration may stand without its module if that is
enough to find it; every other text is refused for its form, for a container or for a name; and no
text is read deeper than it has opening brackets. -/
theorem Reading.type_spelling (r : Reading) :
    (∀ t, r.scope.symbols.Cover t → (∀ x, t.leaf? = some x → Plain x) →
      r.type (t.spelling SymbolRef.qualifiedName) = .ok t ∧
        ∀ text : String, Spaced (t.spelling SymbolRef.qualifiedName).toList text.toList →
          r.type text = .ok t) ∧
    (∀ text t, r.type text = .ok t ↔ r.scope.Spells t text.toList) ∧
    (∀ text : String, (∀ t, ¬ r.scope.Spells t text.toList) →
      (∃ part, r.type text = .error (r.origin.flaw (.malformedType part) part)) ∨
        (∃ name part, r.type text = .error (r.origin.flaw (.unknownContainer name) part)) ∨
          ∃ name, r.type text = .error (r.origin.unknownType name r.scope.module)) ∧
    ∀ text : String,
      r.scope.resolveWithin (text.toList.count '<' + 1) text.toList =
        some (r.scope.resolve text) := by
  have hread : ∀ text t, r.type text = .ok t ↔ r.scope.Spells t text.toList := by
    intro text t
    rw [type_eq, mapError_eq_ok]
    exact resolveList_eq_ok
  refine ⟨?_, hread, ?_, ?_⟩
  · intro t hcover hplain
    have hwrites : ∀ x, t.leaf? = some x → r.scope.Writes x x.qualifiedName :=
      fun x hx => (hplain x hx).writes r.scope
    have hspells : ∀ text : String, Spaced (t.spelling SymbolRef.qualifiedName).toList text.toList →
        r.type text = .ok t :=
      fun text hspaced => (hread text t).mpr ⟨hcover, _, hwrites, hspaced⟩
    exact ⟨hspells _ (spaced_spelling hplain), hspells⟩
  · intro text hnone
    rw [type_eq]
    cases hresolve : r.scope.resolve text with
    | ok t => exact absurd (resolveList_eq_ok.mp hresolve) (hnone t)
    | error fault =>
        cases fault with
        | malformed part => exact Or.inl ⟨part, rfl⟩
        | unknownContainer name part => exact Or.inr (Or.inl ⟨name, part, rfl⟩)
        | unknown name => exact Or.inr (Or.inr ⟨name, rfl⟩)
  · intro text
    exact resolveWithin_of_count r.scope (Nat.lt_succ_self _)

namespace Sample

/-- The first of the documents that refer to one another, as its types are read. -/
def shopReading : Reading :=
  ⟨⟨symbols (documents.map (·.document)), "shop", ["units"]⟩, shop.origin⟩

/-- Lists of structs, under their names. -/
def itemLists : DataType := .map (.list (.struct ⟨"shop", "Item"⟩))

end Sample

theorem type_spelling_itemLists :
    Sample.itemLists.spelling SymbolRef.qualifiedName = "map<list<shop.Item>>" ∧
      Sample.shopReading.type "map<list<shop.Item>>" = .ok Sample.itemLists := by
  have hcover : Sample.shopReading.scope.symbols.Cover Sample.itemLists :=
    show Sample.shopReading.scope.symbols "shop" "Item" = some .struct by decide +kernel
  have hplain : ∀ x, Sample.itemLists.leaf? = some x → Plain x := by
    intro x hx
    cases hx
    refine ⟨⟨by decide, by decide⟩, by decide, ?_, ?_⟩
    · exact Text.trimmed_of_all (by decide) (by decide)
    · exact Text.trimmed_of_all (by decide) (by decide)
  have hspelling : Sample.itemLists.spelling SymbolRef.qualifiedName = "map<list<shop.Item>>" := by
    decide +kernel
  refine ⟨hspelling, ?_⟩
  rw [← hspelling]
  exact (Sample.shopReading.type_spelling.1 Sample.itemLists hcover hplain).1

end Stencil.Document
