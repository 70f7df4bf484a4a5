import Stencil.Files.Tree
import Stencil.Proofs.Text.Cut

/-!
# Components of composed paths

A path that is read from another one has the components of that one first, and a path
that ends in a name has the components of what lies above it and that name.
-/

namespace Stencil.Text

/-! ## Pieces of composed texts -/

theorem toList_slash : "/".toList = ['/'] := by decide

/-- Pieces that are joined with the separator are the pieces of the text. -/
theorem split_intercalate {ps : List String} (hne : ps ≠ []) (hps : ∀ p ∈ ps, '/' ∉ p.toList) :
    split '/' (String.intercalate "/" ps) = ps := by
  have hlists : ∀ cs ∈ ps.map String.toList, '/' ∉ cs := by
    intro cs hcs
    obtain ⟨p, hp, rfl⟩ := List.mem_map.mp hcs
    exact hps p hp
  rw [split, pieces_eq_splitOn, String.toList_intercalate, toList_slash,
    List.splitOn_intercalate '/' hlists (by simpa using hne), List.map_map]
  simp

end Stencil.Text

namespace Stencil.Files.Path

open Text (split)

/-! ## Components of pieces -/

/-- The components of the pieces of a path. -/
def componentsOf : List String → List Component
  | [] => []
  | first :: rest =>
      (if first = "" ∧ rest ≠ [] then [.root]
        else if first = "." then [.current]
        else (component? first).toList) ++ rest.filterMap component?

theorem isAbsolute_iff {path first : String} {rest : List String}
    (h : split '/' path = first :: rest) : isAbsolute path = true ↔ first = "" ∧ rest ≠ [] := by
  unfold split at h
  unfold isAbsolute
  cases hlist : path.toList with
  | nil =>
      rw [hlist] at h
      cases h
      simp
  | cons c cs =>
      rw [hlist, Text.pieces] at h
      by_cases hc : c = '/'
      · rw [if_pos hc, List.map_cons] at h
        cases h
        have hne : Text.pieces '/' cs ≠ [] := by simp [Text.pieces_eq_splitOn]
        simp [hc, hne]
      · rw [if_neg hc] at h
        have hfirst : first ≠ "" := by
          split at h <;> cases h <;> simp
        simp [hc, hfirst]

theorem components_eq (path : String) : components path = componentsOf (split '/' path) := by
  unfold components componentsOf
  cases hsplit : split '/' path with
  | nil => rfl
  | cons first rest => simp only [isAbsolute_iff hsplit]

/-- Pieces behind others add the components that they have alone. -/
theorem componentsOf_append {ps : List String} (hne : ps ≠ []) (hempty : ps ≠ [""])
    (qs : List String) : componentsOf (ps ++ qs) = componentsOf ps ++ qs.filterMap component? := by
  cases ps with
  | nil => exact absurd rfl hne
  | cons first rest =>
      have hroot : (first = "" ∧ rest ++ qs ≠ []) ↔ (first = "" ∧ rest ≠ []) := by
        constructor
        · rintro ⟨rfl, -⟩
          exact ⟨rfl, fun hrest => hempty (by rw [hrest])⟩
        · rintro ⟨hfirst, hrest⟩
          exact ⟨hfirst, by simp [hrest]⟩
      simp only [List.cons_append, componentsOf, hroot, List.filterMap_append, List.append_assoc]

/-- An empty piece at the end of pieces gives way to others. -/
theorem componentsOf_append_slash {ps qs : List String} (hps : ps ≠ []) (hqs : qs ≠ []) :
    componentsOf (ps ++ qs) = componentsOf (ps ++ [""]) ++ qs.filterMap component? := by
  cases ps with
  | nil => exact absurd rfl hps
  | cons first rest =>
      have hsilent : component? "" = none := by decide
      simp [componentsOf, hqs, hsilent]

/-! ## Paths read from others -/

theorem join_eq {base path : String} (hpath : isAbsolute path = false) (hbase : base ≠ "") :
    (∃ front, base = front ++ "/" ∧ join base path = front ++ "/" ++ path) ∨
      join base path = base ++ "/" ++ path := by
  unfold join
  rw [hpath, if_neg Bool.false_ne_true]
  by_cases hlast : base.toList.getLast? = some '/'
  · left
    obtain ⟨front, hfront⟩ := List.getLast?_eq_some_iff.mp hlast
    have hsplit : base = String.ofList front ++ "/" := by
      rw [← String.toList_inj, hfront]
      simp [String.toList_append]
    refine ⟨String.ofList front, hsplit, ?_⟩
    rw [if_pos (by simp [hlast]), ← hsplit]
  · right
    rw [if_neg (by simp [hlast, String.isEmpty_iff, hbase])]

/-- A path that is read from another one adds the components of its pieces. -/
theorem components_join {base path : String} (hpath : isAbsolute path = false) (hbase : base ≠ "") :
    components (join base path) = components base ++ (split '/' path).filterMap component? := by
  have hne := Text.split_ne_nil '/' path
  rw [components_eq, components_eq]
  rcases join_eq hpath hbase with ⟨front, rfl, hjoin⟩ | hjoin
  · have hfront : split '/' (front ++ "/") = split '/' front ++ [""] := by
      have happend := Text.split_append Text.toList_slash front ""
      rwa [String.append_empty] at happend
    rw [hjoin, Text.split_append Text.toList_slash, hfront]
    exact componentsOf_append_slash (Text.split_ne_nil '/' front) hne
  · have hempty : split '/' base ≠ [""] := by
      intro hsplit
      have hpieces : Text.pieces '/' base.toList = [[]] := by
        simpa [split, List.map_eq_singleton_iff] using hsplit
      have hlist : ['/'].intercalate (base.toList.splitOn '/') = base.toList :=
        List.intercalate_splitOn '/'
      rw [← Text.pieces_eq_splitOn, hpieces] at hlist
      exact hbase (String.toList_eq_nil_iff.mp (by simpa using hlist.symm))
    rw [hjoin, Text.split_append Text.toList_slash]
    exact componentsOf_append (Text.split_ne_nil '/' base) hempty _

/-! ## Names -/

/-- Whether a text is a piece of a path that stands for itself. -/
structure IsName (s : String) : Prop where
  component : component? s = some (.name s)
  separator : '/' ∉ s.toList

instance (s : String) : Decidable (IsName s) :=
  decidable_of_iff (component? s = some (.name s) ∧ '/' ∉ s.toList)
    ⟨fun h => ⟨h.1, h.2⟩, fun h => ⟨h.component, h.separator⟩⟩

theorem eq_of_component? {piece s : String} (h : component? piece = some (.name s)) :
    piece = s := by
  unfold component? at h
  split at h
  · cases h
  · split at h
    · cases h
    · cases h
      rfl

theorem isName_of_component? {path piece s : String} (hpiece : piece ∈ split '/' path)
    (h : component? piece = some (.name s)) : IsName s := by
  obtain rfl := eq_of_component? h
  exact ⟨h, Text.not_mem_of_mem_split hpiece⟩

/-- A component of a path comes from one of its pieces, unless it is the first one. -/
theorem mem_componentsOf {ps : List String} {c : Component} (h : c ∈ componentsOf ps) :
    c = .root ∨ c = .current ∨ ∃ piece ∈ ps, component? piece = some c := by
  cases ps with
  | nil => cases h
  | cons first rest =>
      rcases List.mem_append.mp h with hfront | hrest
      · split at hfront
        · exact Or.inl (List.mem_singleton.mp hfront)
        · split at hfront
          · exact Or.inr (Or.inl (List.mem_singleton.mp hfront))
          · exact Or.inr (Or.inr ⟨first, List.mem_cons_self, Option.mem_toList.mp hfront⟩)
      · obtain ⟨piece, hpiece, hc⟩ := List.mem_filterMap.mp hrest
        exact Or.inr (Or.inr ⟨piece, List.mem_cons_of_mem first hpiece, hc⟩)

/-- The names in a path are names. -/
theorem isName_of_mem_components {path s : String} (h : .name s ∈ components path) :
    IsName s := by
  rw [components_eq] at h
  rcases mem_componentsOf h with hroot | hcurrent | ⟨piece, hpiece, hs⟩
  · cases hroot
  · cases hcurrent
  · exact isName_of_component? hpiece hs

theorem IsName.split {s : String} (h : IsName s) : Text.split '/' s = [s] :=
  Text.split_of_not_mem h.separator

theorem IsName.isAbsolute {s : String} (h : IsName s) : isAbsolute s = false := by
  rw [Bool.eq_false_iff]
  intro habsolute
  exact absurd ((isAbsolute_iff h.split).mp habsolute).2 (by simp)

/-- A name in a directory is one more component. -/
theorem components_join_name {base s : String} (h : IsName s) (hbase : base ≠ "") :
    components (join base s) = components base ++ [.name s] := by
  rw [components_join h.isAbsolute hbase, h.split]
  simp [h.component]

theorem eq_of_component?_parent {piece : String} (h : component? piece = some .parent) :
    piece = ".." := by
  unfold component? at h
  split at h
  · cases h
  · split at h
    · assumption
    · cases h

/-- Pieces that do not turn back are names. -/
theorem name_of_mem_pieces {ps : List String} (h : ".." ∉ ps) :
    ∀ c ∈ ps.filterMap component?, ∃ s, c = .name s := by
  intro c hc
  obtain ⟨piece, hpiece, hcomponent⟩ := List.mem_filterMap.mp hc
  unfold component? at hcomponent
  split at hcomponent
  · cases hcomponent
  · split at hcomponent
    · rename_i hdots
      exact absurd (hdots ▸ hpiece) h
    · exact ⟨piece, (Option.some.inj hcomponent).symm⟩

/-- A path without two dots has no component that turns back. -/
theorem not_parent_of_split {path : String} (h : ".." ∉ split '/' path) :
    .parent ∉ components path := by
  intro hmem
  rw [components_eq] at hmem
  rcases mem_componentsOf hmem with hroot | hcurrent | ⟨piece, hpiece, hparent⟩
  · cases hroot
  · cases hcurrent
  · exact h (eq_of_component?_parent hparent ▸ hpiece)

/-! ## What a path ends in -/

/-- A path ends as its last piece does. -/
theorem endsInDirectory_eq {path last : String} {before : List String}
    (h : split '/' path = before ++ [last]) :
    Tree.endsInDirectory path = (last.isEmpty || last = "." || last = "..") := by
  unfold Tree.endsInDirectory
  rw [h, List.reverse_append]
  rfl

theorem exists_split_eq (path : String) : ∃ before last, split '/' path = before ++ [last] :=
  ⟨(split '/' path).dropLast, (split '/' path).getLast (Text.split_ne_nil '/' path),
    (List.dropLast_concat_getLast (Text.split_ne_nil '/' path)).symm⟩

/-- A path that is read from another one ends as it does alone. -/
theorem endsInDirectory_join {base path : String} (hpath : isAbsolute path = false)
    (hbase : base ≠ "") : Tree.endsInDirectory (join base path) = Tree.endsInDirectory path := by
  obtain ⟨before, last, hsplit⟩ := exists_split_eq path
  rw [endsInDirectory_eq hsplit]
  rcases join_eq hpath hbase with ⟨front, -, hjoin⟩ | hjoin
  · have hpieces : split '/' (join base path) = (split '/' front ++ before) ++ [last] := by
      rw [hjoin, Text.split_append Text.toList_slash, hsplit, List.append_assoc]
    exact endsInDirectory_eq hpieces
  · have hpieces : split '/' (join base path) = (split '/' base ++ before) ++ [last] := by
      rw [hjoin, Text.split_append Text.toList_slash, hsplit, List.append_assoc]
    exact endsInDirectory_eq hpieces

theorem IsName.endsInDirectory {s : String} (h : IsName s) : Tree.endsInDirectory s = false := by
  have hcomponent := h.component
  have hpieces : Text.split '/' s = [] ++ [s] := h.split
  rw [endsInDirectory_eq hpieces]
  unfold component? at hcomponent
  split at hcomponent
  · cases hcomponent
  · split at hcomponent
    · cases hcomponent
    · simp_all

/-- A path that does not end in a directory ends in a name. -/
theorem component?_of_end {path last : String} {before : List String}
    (hsplit : split '/' path = before ++ [last]) (hend : Tree.endsInDirectory path = false) :
    component? last = some (.name last) := by
  rw [endsInDirectory_eq hsplit] at hend
  simp only [Bool.or_eq_false_iff, decide_eq_false_iff_not] at hend
  obtain ⟨⟨hempty, hdot⟩, hdots⟩ := hend
  unfold component?
  simp [hempty, hdot, hdots]

/-! ## What lies above -/

/-- Only pieces that count for nothing are dropped. -/
theorem exists_dropSilent {ps : List String} (hne : ps ≠ []) :
    dropSilent ps ≠ [] ∧ ∃ silent, ps = silent ++ dropSilent ps ∧
      silent.filterMap component? = [] := by
  fun_induction dropSilent ps with
  | case1 => exact absurd rfl hne
  | case2 first => exact ⟨List.cons_ne_nil first [], [], rfl, rfl⟩
  | case3 p rest hrest hsilent ih =>
      obtain ⟨hdropped, silent, heq, hnone⟩ := ih hrest
      refine ⟨hdropped, p :: silent, by rw [List.cons_append, ← heq], ?_⟩
      rw [List.filterMap_cons, component?, if_pos hsilent]
      exact hnone
  | case4 p rest hrest hloud => exact ⟨List.cons_ne_nil p rest, [], rfl, rfl⟩

/-- Pieces behind those of a path add the components that they have alone. -/
theorem componentsOf_ofPieces {ps qs : List String} (hne : ps ≠ [])
    (hps : ∀ p ∈ ps, '/' ∉ p.toList) (hqs : qs ≠ []) :
    componentsOf (ps.reverse ++ qs) =
      components (ofPieces ps) ++ qs.filterMap component? := by
  unfold ofPieces
  split
  · rename_i hroot
    have hslash : components "/" = componentsOf ([""] ++ [""]) := by decide
    rw [hroot, hslash]
    exact componentsOf_append_slash (List.cons_ne_nil "" []) hqs
  · rename_i hroot
    have hreverse : ps.reverse ≠ [] := by simpa using hne
    rw [components_eq, Text.split_intercalate hreverse fun p hp => hps p (List.mem_reverse.mp hp)]
    exact componentsOf_append hreverse hroot qs

/-- Silent pieces before a name do not matter. -/
theorem componentsOf_concat {before : List String} {last : String} (hne : before ≠ [])
    (hpieces : ∀ q ∈ before, '/' ∉ q.toList) (hlast : component? last = some (.name last)) :
    componentsOf (before ++ [last]) =
      components (ofPieces (dropSilent before.reverse)) ++ [.name last] := by
  obtain ⟨hdropped, silent, heq, hnone⟩ :=
    exists_dropSilent fun hnil => hne (List.reverse_eq_nil_iff.mp hnil)
  have hkept : ∀ q ∈ dropSilent before.reverse, '/' ∉ q.toList := by
    intro q hq
    have hmem : q ∈ before.reverse := by
      rw [heq]
      exact List.mem_append_right silent hq
    exact hpieces q (List.mem_reverse.mp hmem)
  have hbefore : before = (dropSilent before.reverse).reverse ++ silent.reverse := by
    rw [← List.reverse_append, ← heq, List.reverse_reverse]
  have hsilent : silent.reverse.filterMap component? = [] := by
    rw [List.filterMap_reverse, hnone]
    rfl
  have hlater : silent.reverse ++ [last] ≠ [] := by simp
  conv => lhs; rw [hbefore]
  rw [List.append_assoc, componentsOf_ofPieces hdropped hkept hlater, List.filterMap_append,
    hsilent]
  simp [hlast]

/-- A path that ends in a name has the components of what lies above it and that name. -/
theorem components_of_parent? {path above : String} (h : parent? path = some above)
    (hend : Tree.endsInDirectory path = false) :
    ∃ s, components path = components above ++ [.name s] := by
  obtain ⟨before, last, hsplit⟩ := exists_split_eq path
  have hlast := component?_of_end hsplit hend
  refine ⟨last, ?_⟩
  have hloud : (last.isEmpty || last = ".") = false := by
    rw [endsInDirectory_eq hsplit, Bool.or_eq_false_iff] at hend
    exact hend.1
  have hkept : dropSilent (last :: before.reverse) = last :: before.reverse := by
    cases before.reverse <;> simp_all [dropSilent]
  unfold parent? at h
  split at h
  · cases h
  rw [hsplit, List.reverse_append, List.reverse_singleton, List.singleton_append, hkept] at h
  rw [components_eq path, hsplit]
  by_cases hbefore : before = []
  · subst hbefore
    have hnonempty : last.isEmpty = false := (Bool.or_eq_false_iff.mp hloud).1
    have hdot : last ≠ "." := by simpa using (Bool.or_eq_false_iff.mp hloud).2
    rw [List.reverse_nil] at h
    simp only [hnonempty, Bool.false_eq_true, if_false, Option.some.injEq] at h
    subst h
    have hnone : components "" = [] := by decide
    simp [componentsOf, hnone, hlast, hdot]
  · have hdropped : dropSilent before.reverse ≠ [] :=
      (exists_dropSilent fun hnil => hbefore (List.reverse_eq_nil_iff.mp hnil)).1
    have habove : above = ofPieces (dropSilent before.reverse) := by
      cases hreverse : before.reverse with
      | nil => exact absurd (List.reverse_eq_nil_iff.mp hreverse) hbefore
      | cons p ps =>
          rw [hreverse] at h hdropped
          dsimp only at h
          split at h
          · rename_i hnil
            exact absurd hnil hdropped
          · exact (Option.some.inj h).symm
    rw [habove, componentsOf_concat hbefore (fun q hq => ?_) hlast]
    refine Text.not_mem_of_mem_split (s := path) ?_
    rw [hsplit]
    exact List.mem_append_left _ hq

end Stencil.Files.Path
