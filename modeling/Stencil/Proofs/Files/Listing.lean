import Mathlib.Data.List.Induction
import Mathlib.Data.List.Nodup
import Mathlib.Data.List.Perm.Subperm
import Mathlib.Data.List.Sort
import Stencil.Proofs.Files.Overlay
import Stencil.Proofs.Sorted

/-!
# Listed directories

A directory lists the names in it in order.  Below a tree that lies over it, a directory
lists those of the names that were there, in the same order.
-/

namespace Stencil

namespace Files.Tree

variable {t u : Tree} {l : Location}

/-! ## Names -/

theorem isSome_get?_iff (hl : l ≠ []) : (t.get? l).isSome ↔ ∃ e, (l, e) ∈ t.entries := by
  unfold get?
  rw [if_neg (by simpa using hl), List.lookup_isSome_iff]
  constructor
  · rintro ⟨⟨m, e⟩, hmem, heq⟩
    obtain rfl : l = m := by simpa using heq
    exact ⟨e, hmem⟩
  · rintro ⟨e, hmem⟩
    exact ⟨(l, e), hmem, by simp⟩

/-- A directory lists the names of what stands in it. -/
theorem mem_names {s : String} : s ∈ t.names l ↔ (t.get? (l ++ [s])).isSome := by
  rw [isSome_get?_iff (by simp), names, mem_sortTexts, List.mem_filterMap]
  constructor
  · rintro ⟨⟨m, e⟩, hmem, hname⟩
    dsimp only at hname
    split at hname
    · rename_i hin
      obtain ⟨front, rfl⟩ := List.getLast?_eq_some_iff.mp hname
      have hfront : front = l := by
        have htake := hin.2
        rwa [List.take_left' (by simpa using hin.1)] at htake
      exact ⟨e, hfront ▸ hmem⟩
    · cases hname
  · rintro ⟨e, hmem⟩
    exact ⟨(l ++ [s], e), hmem, by simp⟩

theorem pairwise_names (t : Tree) (l : Location) : (t.names l).Pairwise (· < ·) :=
  pairwise_sortTexts _

/-- The names in a directory are those that are there above and were there. -/
theorem Overlay.names {at_ : Location → Prop} (h : Overlay at_ t u) (l : Location) :
    t.names l = (u.names l).filter fun s => (t.get? (l ++ [s])).isSome := by
  refine (pairwise_names t l).eq_of_mem_iff ((pairwise_names u l).filter _) fun s => ?_
  rw [List.mem_filter, mem_names, mem_names]
  constructor
  · intro hs
    obtain ⟨e, he⟩ := Option.isSome_iff_exists.mp hs
    obtain ⟨e', he'⟩ := h.exists_entry he
    exact ⟨by simp [he'], hs⟩
  · exact fun hs => hs.2

/-! ## Depth -/

/-- What lies above something is a directory. -/
theorem Rooted.directory_above (ht : t.Rooted) {below : Location} (hne : below ≠ [])
    (h : (t.get? (l ++ below)).isSome) : t.get? l = some .directory := by
  induction below using List.reverseRecOn with
  | nil => exact absurd rfl hne
  | append_singleton front s ih =>
      rw [← List.append_assoc] at h
      have hdir := ht.above (l ++ front) s h
      cases front with
      | nil => simpa using hdir
      | cons a rest => exact ih (List.cons_ne_nil a rest) (by simp [hdir])

/-- Nothing lies deeper than there are entries. -/
theorem Rooted.length_le (ht : t.Rooted) (h : (t.get? l).isSome) :
    l.length ≤ t.entries.length := by
  let prefixes := (List.range l.length).map fun n => l.take (n + 1)
  have hlengths : ∀ n ∈ List.range l.length, (l.take (n + 1)).length = n + 1 := by
    intro n hn
    rw [List.length_take]
    have := List.mem_range.mp hn
    omega
  have hnodup : prefixes.Nodup := by
    refine List.Nodup.map_on (fun n hn m hm heq => ?_) List.nodup_range
    have hlength := congrArg List.length heq
    rw [hlengths n hn, hlengths m hm] at hlength
    omega
  have hsubset : prefixes ⊆ t.entries.map Prod.fst := by
    intro m hm
    obtain ⟨n, hn, rfl⟩ := List.mem_map.mp hm
    have hne : l.take (n + 1) ≠ [] := by
      intro hnil
      have hlength := hlengths n hn
      rw [hnil] at hlength
      cases hlength
    have hsome : (t.get? (l.take (n + 1))).isSome := by
      by_cases hall : l.drop (n + 1) = []
      · have hsame := List.take_append_drop (n + 1) l
        rw [hall, List.append_nil] at hsame
        rwa [hsame]
      · have hdir : t.get? (l.take (n + 1)) = some .directory :=
          ht.directory_above hall (by rwa [List.take_append_drop])
        simp [hdir]
    obtain ⟨e, he⟩ := (isSome_get?_iff hne).mp hsome
    exact List.mem_map.mpr ⟨_, he, rfl⟩
  have hle := (List.subperm_of_subset hnodup hsubset).length_le
  simpa [prefixes] using hle

end Files.Tree

end Stencil
