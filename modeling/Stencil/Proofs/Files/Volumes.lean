import Stencil.Files.Volume
import Stencil.Proofs.Files.FileNames
import Stencil.Proofs.Files.Listing
import Stencil.Proofs.Files.Outputs
import Stencil.Proofs.Text.Utf8

/-!
# What a directory lists

A directory lists the names of all that stands in it, also the names that are no texts.  A name is
cut into stem and extension as its bytes are, and what is read of it has no separator.
-/

namespace Stencil.Files

/-! ## Names and their bytes -/

namespace FileName

/-- Bytes are cut at their last dot, unless that is the first of them. -/
theorem cutBytes_eq_some {bytes stem ext : List UInt8} :
    cutBytes bytes = (stem, some ext) ↔
      stem ≠ [] ∧ bytes = stem ++ 0x2E :: ext ∧ 0x2E ∉ ext := by
  rw [← Text.cutLastList_eq_some, cutBytes]
  cases Text.cutLastList 0x2E bytes with
  | none => simp
  | some parts =>
      obtain ⟨a, b⟩ := parts
      cases a with
      | nil =>
          simp only [List.isEmpty_nil, if_true, Prod.mk.injEq, reduceCtorEq, and_false, false_iff,
            not_and, Option.some.injEq]
          rintro hne rfl
          exact absurd rfl hne
      | cons c a =>
          simp only [List.isEmpty_cons, Bool.false_eq_true, if_false, Prod.mk.injEq,
            Option.some.injEq]
          constructor
          · rintro ⟨rfl, rfl⟩
            exact ⟨List.cons_ne_nil c a, rfl, rfl⟩
          · exact fun h => h.2

/-- The bytes of a name that is a text are cut where the text is. -/
theorem cutName?_eq {s : String} (h : Path.IsName s) :
    (Path.cutName? s).map (fun (stem, ext) => (Text.utf8 stem, ext.map Text.utf8)) =
      some (cutBytes (Text.utf8 s)) := by
  rw [Path.cutName?, Path.fileName?_name h, Option.map_some, Option.map_some, cutBytes,
    Text.cutLastList_utf8]
  cases Text.cutLast '.' s with
  | none => rfl
  | some parts =>
      obtain ⟨stem, ext⟩ := parts
      have hempty : (Text.utf8 stem).isEmpty = stem.isEmpty := by
        rw [Bool.eq_iff_iff, List.isEmpty_iff, String.isEmpty_iff]
        exact Text.utf8_injective.eq_iff (b := "")
      simp only [Option.map_some, hempty]
      split_ifs <;> rfl

/-- The stem and the extension of a name are told by its bytes, whether it is a text or not. -/
theorem cut_bytes {name : FileName} (h : ∀ s, name = .text s → Path.IsName s) (ext : String) :
    name.stem? = some (Text.ofBytes (cutBytes name.bytes).1) ∧
      (name.hasExtension ext = true ↔
        (cutBytes name.bytes).2 = some (Text.utf8 ext)) := by
  cases name with
  | broken name => exact ⟨rfl, decide_eq_true_iff⟩
  | text s =>
      obtain ⟨⟨stem, found⟩, hcut, hbytes⟩ := Option.map_eq_some_iff.mp (cutName?_eq (h s rfl))
      simp only [stem?, Path.stem?, hasExtension, Path.extension?, hcut, bytes, ← hbytes,
        Text.ofBytes_utf8, Option.map_some, Option.bind_some, true_and, decide_eq_true_eq]
      rw [← Option.map_some, (Option.map_injective Text.utf8_injective).eq_iff]

end FileName

/-! ## Listed entries -/

namespace Volume

variable {v : Volume} {directory : String} {l : Location} {name : FileName}

@[simp] theorem tree_ofTree (t : Tree) : (ofTree t).tree = t := rfl

@[simp] theorem get?_ofTree (t : Tree) (s : String) :
    (ofTree t).get? l (.text s) = t.get? (l ++ [s]) := rfl

@[simp] theorem get?_ofTree_broken (t : Tree) (s : BrokenName) :
    (ofTree t).get? l (.broken s) = none := rfl

theorem mem_names : name ∈ v.names l ↔ (v.get? l name).isSome := by
  unfold names
  rw [List.mem_append, List.mem_map, List.mem_filterMap]
  cases name with
  | text s => simp [get?, Tree.mem_names]
  | broken name =>
      rw [get?, List.lookup_isSome_iff]
      simp

theorem place_of_list? {names : List FileName} (h : v.list? directory = some names) :
    v.tree.place directory = .ok (.found (v.tree.location directory) .directory) ∧
      names = v.names (v.tree.location directory) := by
  unfold list? at h
  split at h
  · rename_i l hplace
    obtain rfl := Tree.location_of_found hplace
    exact ⟨hplace, (Option.some.inj h).symm⟩
  · cases h

/-- What is a file in a directory is told by the directory. -/
theorem isFile_iff (hv : v.tree.Proper) (hplace : v.tree.place directory = .ok (.found l .directory))
    (hname : (v.get? l name).isSome) :
    v.isFile directory name = true ↔ ∃ c, v.get? l name = some (.file c) := by
  cases name with
  | text s =>
      rw [isFile, Tree.isFile_iff, Tree.place_join hplace (hv.named l s hname)]
      obtain ⟨e, he⟩ := Option.isSome_iff_exists.mp hname
      simp [get?] at he ⊢
      simp [he]
  | broken name =>
      simp only [isFile, hplace]
      cases v.get? l (.broken name) with
      | none => simp
      | some e => cases e <;> simp

/-- The files that a directory lists are those that stand in it. -/
theorem listed_file_iff (hv : v.tree.Proper) :
    (name ∈ (v.list? directory).getD [] ∧ v.isFile directory name = true) ↔
      v.tree.place directory = .ok (.found (v.tree.location directory) .directory) ∧
        ∃ c, v.get? (v.tree.location directory) name = some (.file c) := by
  constructor
  · rintro ⟨hs, hfile⟩
    cases hlist : v.list? directory with
    | none => simp [hlist] at hs
    | some names =>
        obtain ⟨hplace, rfl⟩ := place_of_list? hlist
        rw [hlist, Option.getD_some, mem_names] at hs
        exact ⟨hplace, (isFile_iff hv hplace hs).mp hfile⟩
  · rintro ⟨hplace, c, hc⟩
    have hsome : (v.get? (v.tree.location directory) name).isSome := by simp [hc]
    refine ⟨?_, (isFile_iff hv hplace hsome).mpr ⟨c, hc⟩⟩
    simpa [list?, hplace, mem_names] using hsome

end Volume

end Stencil.Files
