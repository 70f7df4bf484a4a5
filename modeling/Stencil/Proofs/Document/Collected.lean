import Stencil.Document.Load
import Stencil.Proofs.Files.Listing
import Stencil.Proofs.Files.Outputs

/-!
# Collected documents

The documents that paths stand for are the same when other files are laid over a tree,
as long as none of these lies in a directory that is scanned.  New directories there
have no documents.
-/

namespace Stencil.Document

open Files
open Files.Tree (Overlay)
open Files.Path (join)

theorem find?_of_place {t : Files.Tree} {path : String} {l : Location} {e : Entry}
    (h : t.place path = .ok (.found l e)) : t.find? path = some e := by
  simp [Tree.find?, h]

theorem isDirectory_of_place {t : Files.Tree} {path : String} {l : Location} {e : Entry}
    (h : t.place path = .ok (.found l e)) : t.isDirectory path = decide (e = .directory) := by
  simp [Tree.isDirectory, find?_of_place h]

/-- Elements that give nothing may be left out. -/
theorem flatMap_eq_flatMap_filter {α β : Type} {p : α → Bool} {f g : α → List β} {xs : List α}
    (hout : ∀ x ∈ xs, p x = false → g x = []) (hin : ∀ x ∈ xs, p x = true → g x = f x) :
    xs.flatMap g = (xs.filter p).flatMap f := by
  induction xs with
  | nil => rfl
  | cons x rest ih =>
      have hrest := ih (fun y hy => hout y (List.mem_cons_of_mem x hy))
        (fun y hy => hin y (List.mem_cons_of_mem x hy))
      rw [List.flatMap_cons, List.filter_cons, hrest]
      cases hx : p x with
      | true => simp [hin x List.mem_cons_self hx]
      | false => simp [hout x List.mem_cons_self hx]

/-- What one name in a directory gives. -/
def scanName (t : Files.Tree) (depth : Nat) (directory s : String) : List String :=
  if t.isDirectory (join directory s) then scan t depth (join directory s)
  else if isDocument (join directory s) then [join directory s] else []

theorem scanName_of_directory {t : Files.Tree} {depth : Nat} {directory s : String} {l : Location}
    (h : t.place (join directory s) = .ok (.found l .directory)) :
    scanName t depth directory s = scan t depth (join directory s) := by
  unfold scanName
  rw [isDirectory_of_place h, decide_eq_true rfl, if_pos rfl]

theorem scanName_of_file {t : Files.Tree} {depth : Nat} {directory s : String} {l : Location}
    {c : Content} (h : t.place (join directory s) = .ok (.found l (.file c))) :
    scanName t depth directory s =
      if isDocument (join directory s) then [join directory s] else [] := by
  unfold scanName
  rw [isDirectory_of_place h, decide_eq_false (by simp), if_neg Bool.false_ne_true]

theorem scan_eq {t : Files.Tree} {directory : String} {l : Location}
    (h : t.place directory = .ok (.found l .directory)) (depth : Nat) :
    scan t (depth + 1) directory = (t.names l).flatMap (scanName t depth directory) := by
  have hlist : t.list? directory = some (t.names l) := by simp [Tree.list?, h]
  rw [scan, hlist, Option.getD_some, List.flatMap_map]
  rfl

section Scans

variable {t u : Files.Tree} {at_ : Location → Prop} {base : Location}

theorem place_of_name (hu : u.Proper) {directory s : String} {l : Location} {e : Entry}
    (hplace : u.place directory = .ok (.found l .directory)) (hs : u.get? (l ++ [s]) = some e) :
    u.place (join directory s) = .ok (.found (l ++ [s]) e) := by
  rw [Tree.place_join hplace (hu.named l s (by simp [hs])), hs]

variable (h : Overlay at_ t u) (hbase : ∀ m, at_ m → ¬ base <+: m)

include h hbase

/-- What is new in a directory and is no file is a directory. -/
theorem directory_of_new {l : Location} {s : String} (hl : base <+: l) (hs : s ∈ u.names l)
    (hnew : t.get? (l ++ [s]) = none) : u.get? (l ++ [s]) = some .directory := by
  have hsome := Tree.mem_names.mp hs
  rcases h.get? (l ++ [s]) with hsame | ⟨hat, -, -⟩ | ⟨-, hdir⟩
  · rw [hsame, hnew] at hsome
    cases hsome
  · exact absurd (hl.trans (List.prefix_append l [s])) (hbase _ hat)
  · exact hdir

variable (ht : t.Proper) (hu : u.Proper)

include ht hu

/-- A new directory has no documents. -/
theorem scan_of_new (depth : Nat) :
    ∀ {directory : String} {l : Location}, base <+: l → t.get? l = none →
      u.place directory = .ok (.found l .directory) → scan u depth directory = [] := by
  induction depth with
  | zero =>
      intro directory l _ _ _
      rfl
  | succ depth ih =>
      intro directory l hl hnew hplace
      rw [scan_eq hplace, List.flatMap_eq_nil_iff]
      intro s hs
      have hnone : t.get? (l ++ [s]) = none := by
        cases hget : t.get? (l ++ [s]) with
        | none => rfl
        | some e =>
            rw [ht.above l s (by simp [hget])] at hnew
            cases hnew
      have hjoined := place_of_name hu hplace (directory_of_new h hbase hl hs hnone)
      rw [scanName_of_directory hjoined]
      exact ih (hl.trans (List.prefix_append l [s])) hnone hjoined

/-- A directory has the documents that it had. -/
theorem scan_overlay (depth : Nat) :
    ∀ {other : Nat} {directory : String} {l : Location}, base <+: l →
      t.place directory = .ok (.found l .directory) →
      (∀ m, (t.get? m).isSome → m.length < depth + l.length) →
      (∀ m, (u.get? m).isSome → m.length < other + l.length) →
      scan u other directory = scan t depth directory := by
  induction depth with
  | zero =>
      intro other directory l _ hplace hdepth _
      have := hdepth l (by simp [Tree.get?_of_found hplace])
      omega
  | succ depth ih =>
      intro other directory l hl hplace hdepth hother
      have hplaced := h.place_directory hplace
      cases other with
      | zero =>
          have := hother l (by simp [Tree.get?_of_found hplaced])
          omega
      | succ other =>
          rw [scan_eq hplace, scan_eq hplaced, h.names l]
          refine flatMap_eq_flatMap_filter (fun s hs hnew => ?_) fun s hs hold => ?_
          · have hnone : t.get? (l ++ [s]) = none := by simpa using hnew
            have hjoined := place_of_name hu hplaced (directory_of_new h hbase hl hs hnone)
            rw [scanName_of_directory hjoined]
            exact scan_of_new h hbase ht hu other (hl.trans (List.prefix_append l [s])) hnone
              hjoined
          · obtain ⟨e, he⟩ := Option.isSome_iff_exists.mp hold
            have hbelow := place_of_name ht hplace he
            have hlength : (l ++ [s]).length = l.length + 1 := by simp
            cases e with
            | directory =>
                have habove := h.place_directory hbelow
                rw [scanName_of_directory habove, scanName_of_directory hbelow]
                refine ih (hl.trans (List.prefix_append l [s])) hbelow (fun m hm => ?_)
                  fun m hm => ?_
                · have := hdepth m hm
                  omega
                · have := hother m hm
                  omega
            | file c =>
                obtain ⟨c', habove, -⟩ := h.place_file hbelow
                rw [scanName_of_file habove, scanName_of_file hbelow]

end Scans

/-! ## Paths -/

/-- A path stands for the documents that it stood for, if these can be read and no other file lies
in a directory that is scanned. -/
theorem collect_overlay {t u : Files.Tree} {at_ : Location → Prop} (h : Overlay at_ t u)
    (ht : t.Proper) (hu : u.Proper) {path : String}
    (hscanned : t.isDirectory path = true → ∀ m, at_ m → ¬ t.location path <+: m)
    (hread : ∀ p ∈ collect t path, ∃ s, t.readText p = .ok s) :
    collect u path = collect t path := by
  unfold collect at hread ⊢
  cases hdirectory : t.isDirectory path with
  | true =>
      have hplace := Tree.place_of_isDirectory hdirectory
      have hplaced := h.place_directory hplace
      have habove : u.isDirectory path = true := by simp [isDirectory_of_place hplaced]
      rw [if_pos rfl, if_pos habove,
        scan_overlay h (hscanned hdirectory) ht hu _ (List.prefix_refl _) hplace
          (fun m hm => ?_) fun m hm => ?_]
      · have := ht.length_le hm
        omega
      · have := hu.length_le hm
        omega
  | false =>
      rw [hdirectory, if_neg Bool.false_ne_true] at hread
      obtain ⟨s, hs⟩ := hread path List.mem_cons_self
      obtain ⟨l, hplace⟩ := Tree.exists_place_of_readText hs
      obtain ⟨c', habove, -⟩ := h.place_file hplace
      rw [if_neg Bool.false_ne_true,
        if_neg (by simp [isDirectory_of_place habove])]

end Stencil.Document
