import Mathlib.Data.List.Induction
import Mathlib.Data.List.Nodup
import Stencil.Json.Value

/-!
# Members of an object

Setting a member gives its key the new value, in the old place if the key was there
and at the end otherwise.  All other members stay where they are.
-/

namespace Stencil.Members

/-! ## Keys -/

@[simp]
theorem keys_nil : keys [] = [] := rfl

@[simp]
theorem keys_cons (key : String) (value : Json) (rest : Members) :
    keys ((key, value) :: rest) = key :: keys rest := rfl

theorem get?_eq_none_iff {key : String} {ms : Members} : get? key ms = none ↔ key ∉ keys ms := by
  induction ms with
  | nil => simp [get?]
  | cons p rest ih =>
      obtain ⟨k, v⟩ := p
      by_cases hk : k = key
      · simp [get?, hk]
      · simp [get?, hk, ih, Ne.symm hk]

theorem mem_keys_iff {key : String} {ms : Members} :
    key ∈ keys ms ↔ ∃ value, get? key ms = some value := by
  rw [← Option.ne_none_iff_exists', Ne, get?_eq_none_iff, not_not]

theorem keys_set (key : String) (value : Json) (ms : Members) :
    keys (set key value ms) = if key ∈ keys ms then keys ms else keys ms ++ [key] := by
  induction ms with
  | nil => simp [set]
  | cons p rest ih =>
      obtain ⟨k, v⟩ := p
      by_cases hk : k = key
      · simp [set, hk]
      · by_cases hmem : key ∈ keys rest
        · simp [set, hk, ih, hmem]
        · simp [set, hk, ih, hmem, Ne.symm hk]

/-- The keys that are there keep their order; a new one comes last. -/
theorem keys_prefix_set (key : String) (value : Json) (ms : Members) :
    keys ms <+: keys (set key value ms) := by
  rw [keys_set]
  split
  · exact List.prefix_rfl
  · exact List.prefix_append _ _

theorem nodup_keys_set {key : String} {value : Json} {ms : Members} (h : (keys ms).Nodup) :
    (keys (set key value ms)).Nodup := by
  rw [keys_set]
  split
  · exact h
  · next hkey =>
      refine List.nodup_append.mpr ⟨h, List.nodup_singleton key, ?_⟩
      intro x hx y hy heq
      rw [List.mem_singleton.mp hy] at heq
      exact hkey (heq ▸ hx)

/-! ## Members that a change leaves alone -/

/-- Setting the value that is there changes nothing. -/
theorem set_eq_self {key : String} {value : Json} {ms : Members}
    (h : get? key ms = some value) : set key value ms = ms := by
  induction ms with
  | nil => cases h
  | cons p rest ih =>
      obtain ⟨k, v⟩ := p
      by_cases hk : k = key
      · have hv : v = value := by simpa [get?, hk] using h
        simp [set, hk, hv]
      · have hrest : get? key rest = some value := by simpa [get?, hk] using h
        simp [set, hk, ih hrest]

/-- The members with other keys than these, in order. -/
def without (names : List String) (ms : Members) : Members := ms.filter (·.1 ∉ names)

theorem without_set {names : List String} {key : String} (hkey : key ∈ names) (value : Json)
    (ms : Members) : without names (set key value ms) = without names ms := by
  unfold without
  induction ms with
  | nil => simp [set, hkey]
  | cons p rest ih =>
      obtain ⟨k, v⟩ := p
      by_cases hk : k = key
      · subst hk
        simp [set, hkey]
      · rw [set, if_neg hk, List.filter_cons, ih, List.filter_cons]

/-! ## Members and their keys -/

theorem mem_of_get? {key : String} {value : Json} {ms : Members} (h : get? key ms = some value) :
    (key, value) ∈ ms := by
  induction ms with
  | nil => cases h
  | cons p rest ih =>
      obtain ⟨k, v⟩ := p
      by_cases hk : k = key
      · have hv : v = value := by simpa [get?, hk] using h
        rw [hk, hv]
        exact List.mem_cons_self
      · have hrest : get? key rest = some value := by simpa [get?, hk] using h
        exact List.mem_cons_of_mem _ (ih hrest)

/-- A member is found under its key if the key stands nowhere else. -/
theorem get?_of_mem {key : String} {value : Json} {ms : Members} (hnodup : (keys ms).Nodup)
    (h : (key, value) ∈ ms) : get? key ms = some value := by
  induction ms with
  | nil => cases h
  | cons p rest ih =>
      obtain ⟨k, v⟩ := p
      obtain ⟨hk, hrest⟩ := List.nodup_cons.mp hnodup
      rcases List.mem_cons.mp h with heq | hmem
      · cases heq
        simp [get?]
      · have hmemKey : key ∈ keys rest := List.mem_map.mpr ⟨(key, value), hmem, rfl⟩
        have hother : k ≠ key := fun heq => hk (heq ▸ hmemKey)
        simp [get?, hother, ih hrest hmem]

/-- Members with the same keys in the same order, each once, are known from their values. -/
theorem eq_of_get? : ∀ {ms ns : Members}, keys ms = keys ns → (keys ms).Nodup →
    (∀ key, get? key ms = get? key ns) → ms = ns
  | [], [], _, _, _ => rfl
  | (k, v) :: rest, (l, w) :: others, hkeys, hnodup, h => by
      obtain ⟨rfl, hrest⟩ := List.cons.inj hkeys
      obtain ⟨hk, hnodup⟩ := List.nodup_cons.mp hnodup
      have hhead := h k
      simp only [get?, if_true, Option.some.injEq] at hhead
      have htail : rest = others := by
        refine eq_of_get? hrest hnodup fun key => ?_
        by_cases hkey : k = key
        · -- the first key stands in neither tail
          subst hkey
          have hother : k ∉ keys others := by
            unfold keys
            rw [← hrest]
            exact hk
          rw [get?_eq_none_iff.mpr hk, get?_eq_none_iff.mpr hother]
        · have hother := h key
          simpa only [get?, if_neg hkey] using hother
      rw [hhead, htail]

theorem mem_set {key : String} {value : Json} {ms : Members} {p : String × Json}
    (h : p ∈ set key value ms) : p = (key, value) ∨ p ∈ ms := by
  induction ms with
  | nil => exact Or.inl (List.mem_singleton.mp h)
  | cons q rest ih =>
      obtain ⟨k, v⟩ := q
      by_cases hk : k = key
      · rw [set, if_pos hk, hk] at h
        rcases List.mem_cons.mp h with hp | hp
        · exact Or.inl hp
        · exact Or.inr (List.mem_cons_of_mem _ hp)
      · rw [set, if_neg hk] at h
        rcases List.mem_cons.mp h with hp | hp
        · exact Or.inr (hp ▸ List.mem_cons_self)
        · exact (ih hp).imp_right (List.mem_cons_of_mem _)

/-- Members that are set in turn have distinct keys, and each comes from one of the pairs. -/
theorem ofPairs_spec (pairs : List (String × Json)) :
    (keys (ofPairs pairs)).Nodup ∧ ∀ p ∈ ofPairs pairs, p ∈ pairs := by
  unfold ofPairs
  induction pairs using List.reverseRec with
  | nil => exact ⟨List.nodup_nil, fun p hp => hp⟩
  | append_singleton pairs q ih =>
      rw [List.foldl_append]
      refine ⟨nodup_keys_set ih.1, fun p hp => ?_⟩
      rcases mem_set hp with rfl | hp
      · exact List.mem_append_right pairs List.mem_cons_self
      · exact List.mem_append_left [q] (ih.2 p hp)

end Stencil.Members
