import Stencil.Proofs.Distinct
import Stencil.Proofs.Json.Members

/-!
# Members that are set in turn

The keys that are there keep their places, and new ones follow in the order in which they
come first.  Under each key stands the value that was set last.
-/

namespace Stencil.Members

/-- The members with each of some pairs set in turn. -/
def setAll (pairs ms : Members) : Members := pairs.foldl (fun ms p => set p.1 p.2 ms) ms

theorem ofPairs_eq_setAll (pairs : Members) : ofPairs pairs = setAll pairs [] := rfl

theorem setAll_concat (pairs ms : Members) (p : String × Json) :
    setAll (pairs ++ [p]) ms = set p.1 p.2 (setAll pairs ms) := by
  simp [setAll]

theorem keys_setAll (pairs ms : Members) :
    keys (setAll pairs ms) = keys ms ++ (distinct (keys pairs)).filter (· ∉ keys ms) := by
  induction pairs using List.reverseRec with
  | nil => exact (List.append_nil _).symm
  | append_singleton pairs p ih =>
      have hkeys : keys (pairs ++ [p]) = keys pairs ++ [p.1] := by simp [keys]
      rw [setAll_concat, keys_set, ih, hkeys]
      by_cases hthere : p.1 ∈ keys pairs
      · rw [distinct_repeated hthere, if_pos]
        by_cases hms : p.1 ∈ keys ms <;> simp [hms, hthere]
      · rw [distinct_fresh hthere, List.filter_append]
        by_cases hms : p.1 ∈ keys ms
        · rw [if_pos (List.mem_append_left _ hms)]
          simp [hms]
        · rw [if_neg (by simp [hms, hthere])]
          simp [hms]

/-- The last pair with a key supplies its value, and the members do if there is none. -/
theorem get?_setAll (key : String) (pairs ms : Members) :
    get? key (setAll pairs ms) = (get? key pairs.reverse).or (get? key ms) := by
  induction pairs using List.reverseRec with
  | nil => rfl
  | append_singleton pairs p ih =>
      rw [setAll_concat, List.reverse_append, List.reverse_singleton, List.singleton_append]
      by_cases hkey : p.1 = key
      · subst hkey
        simp [get?_set_self, get?]
      · rw [get?_set_ne _ _ (Ne.symm hkey), ih]
        simp [get?, hkey]

theorem mem_keys_reverse {key : String} {pairs : Members} :
    key ∈ keys pairs.reverse ↔ key ∈ keys pairs := by
  simp [keys]

theorem get?_setAll_of_not_mem {key : String} {pairs : Members} (h : key ∉ keys pairs)
    (ms : Members) : get? key (setAll pairs ms) = get? key ms := by
  have hnone : get? key pairs.reverse = none :=
    get?_eq_none_iff.mpr fun hmem => h (mem_keys_reverse.mp hmem)
  rw [get?_setAll, hnone, Option.none_or]

/-- A key that is set has one of the values with which it is set. -/
theorem exists_pair_of_setAll {key : String} {pairs : Members} (h : key ∈ keys pairs)
    (ms : Members) : ∃ value, (key, value) ∈ pairs ∧ get? key (setAll pairs ms) = some value := by
  obtain ⟨value, hvalue⟩ := mem_keys_iff.mp (mem_keys_reverse.mpr h)
  refine ⟨value, List.mem_reverse.mp (mem_of_get? hvalue), ?_⟩
  rw [get?_setAll, hvalue, Option.some_or]

/-- A key that does not come again keeps the value with which it is set. -/
theorem get?_setAll_of_last {key : String} {value : Json} {front back : Members}
    (h : key ∉ keys back) (ms : Members) :
    get? key (setAll (front ++ (key, value) :: back) ms) = some value := by
  have hsplit : setAll (front ++ (key, value) :: back) ms =
      setAll back (set key value (setAll front ms)) := by
    simp [setAll]
  rw [hsplit, get?_setAll_of_not_mem h, get?_set_self]

end Stencil.Members
