import Stencil.Model.Tags
import Stencil.Proofs.Json.Members

/-!
# Merged mappings

What it means that a mapping is merged into another one, said without the order in
which the members are visited: for every key by itself, and for the mappings under
a key in the same way again.
-/

namespace Stencil

/-- A mapping in which no key stands twice, and none in a mapping that it holds. -/
inductive Members.Distinct : Members → Prop
  | intro {ms : Members} (keys : (Members.keys ms).Nodup)
      (nested : ∀ key inner, (key, Json.object inner) ∈ ms → Distinct inner) : Distinct ms

theorem Members.Distinct.nodup_keys {ms : Members} (h : ms.Distinct) : ms.keys.Nodup := by
  cases h with
  | intro hkeys _ => exact hkeys

/-- A mapping with one member has no key twice if a mapping under its key has none. -/
theorem Members.distinct_singleton {key : String} {value : Json}
    (h : ∀ inner, value = .object inner → Members.Distinct inner) :
    Members.Distinct [(key, value)] := by
  refine .intro (List.nodup_singleton key) fun k inner hmem => ?_
  obtain ⟨-, hinner⟩ := Prod.mk.inj (List.mem_singleton.mp hmem)
  exact h inner hinner.symm

namespace Model

mutual
/-- The value for a key that has a new value: two mappings are merged, and otherwise the new value
takes the place of the old one. -/
inductive MergedValue : Option Json → Json → Json → Prop
  | mappings {old new result : Members} (h : Merged old new result) :
      MergedValue (some (.object old)) (.object new) (.object result)
  | replaced {old : Option Json} {new : Json}
      (h : ∀ a b, old = some (.object a) → new ≠ .object b) : MergedValue old new new

/-- A mapping with new members merged into it: the old keys come first, in their order, and then the
keys that are new, in theirs.  A key without a new value keeps its old one. -/
inductive Merged : Members → Members → Members → Prop
  | intro {old new result : Members}
      (keys : result.keys = old.keys ++ new.keys.filter (· ∉ old.keys))
      (kept : ∀ key, key ∉ new.keys → result.get? key = old.get? key)
      (merged : ∀ key value r, new.get? key = some value → result.get? key = some r →
        MergedValue (old.get? key) value r) : Merged old new result
end

/-! ## Merging member by member -/

section Merging

variable {new : Members} (h : new.keys.Nodup)
include h

/-- A member that is merged is not met again, so it is merged into the value that was there first. -/
theorem get?_mergeMembers (key : String) (old : Members) :
    (Tags.mergeMembers old new).get? key =
      match new.get? key with
      | none => old.get? key
      | some value => some (Tags.mergeValue (old.get? key) value) := by
  induction new generalizing old with
  | nil => rfl
  | cons p rest ih =>
      obtain ⟨k, v⟩ := p
      obtain ⟨hk, hrest⟩ := List.nodup_cons.mp h
      have hstep : Tags.mergeMembers old ((k, v) :: rest) =
          Tags.mergeMembers (old.set k (Tags.mergeValue (old.get? k) v)) rest := rfl
      rw [hstep, ih hrest]
      by_cases hkey : k = key
      -- the key does not come again, so what was merged here stays
      · subst hkey
        have hnone : Members.get? k rest = none := Members.get?_eq_none_iff.mpr hk
        simp [Members.get?, hnone, Members.get?_set_self]
      · simp only [Members.get?, if_neg hkey, Members.get?_set_ne _ _ (Ne.symm hkey)]

theorem keys_mergeMembers (old : Members) :
    (Tags.mergeMembers old new).keys = old.keys ++ new.keys.filter (· ∉ old.keys) := by
  induction new generalizing old with
  | nil => exact (List.append_nil _).symm
  | cons p rest ih =>
      obtain ⟨k, v⟩ := p
      obtain ⟨hk, hrest⟩ := List.nodup_cons.mp h
      have hstep : Tags.mergeMembers old ((k, v) :: rest) =
          Tags.mergeMembers (old.set k (Tags.mergeValue (old.get? k) v)) rest := rfl
      rw [hstep, ih hrest, Members.keys_set]
      by_cases hkey : k ∈ old.keys
      · simp [hkey]
      -- the key was added at the end, and those that follow are not it
      · have hother : ∀ key ∈ Members.keys rest, key ≠ k := fun key hmem heq => hk (heq ▸ hmem)
        have hfilter : (Members.keys rest).filter (· ∉ old.keys ++ [k]) =
            (Members.keys rest).filter (· ∉ old.keys) :=
          List.filter_congr fun key hmem => by simp [hother key hmem]
        rw [if_neg hkey, hfilter]
        simp [hkey]

end Merging

/-- Merging member by member gives the merged mapping.  The induction follows the mappings inside the
new one, of which each is merged into an old one under its key, if there is one. -/
theorem merged_mergeMembers {new : Members} (h : new.Distinct) (old : Members) :
    Merged old new (Tags.mergeMembers old new) := by
  induction h generalizing old with
  | @intro new hkeys _ ih =>
      refine .intro (keys_mergeMembers hkeys old) ?_ ?_
      · intro key hkey
        rw [get?_mergeMembers hkeys, Members.get?_eq_none_iff.mpr hkey]
      · intro key value r hvalue hr
        rw [get?_mergeMembers hkeys, hvalue] at hr
        cases hr
        cases value with
        | object inner =>
            cases hold : old.get? key with
            | none => exact .replaced (fun a b ha => nomatch ha)
            | some there =>
                cases there with
                | object a => exact .mappings (ih key inner (Members.mem_of_get? hvalue) a)
                | _ => exact .replaced (fun a b ha => nomatch ha)
        | _ => exact .replaced (fun a b _ hb => nomatch hb)

theorem nodup_keys_merged {old new result : Members} (hold : old.keys.Nodup)
    (hnew : new.keys.Nodup) (h : result.keys = old.keys ++ new.keys.filter (· ∉ old.keys)) :
    result.keys.Nodup := by
  rw [h]
  refine List.nodup_append.mpr ⟨hold, hnew.filter _, ?_⟩
  rintro key hkey other hother rfl
  exact of_decide_eq_true (List.mem_filter.mp hother).2 hkey

/-- A merged mapping is the only one: its keys are told in their order, and for each the value. -/
theorem Merged.eq_mergeMembers {new : Members} (hnew : new.Distinct) :
    ∀ {old result : Members}, old.Distinct → Merged old new result →
      result = Tags.mergeMembers old new := by
  induction hnew with
  | @intro new hkeys hnested ih =>
      rintro old result (⟨hold, hinside⟩) (⟨hresult, hkept, hmerged⟩)
      have hsame : result.keys = (Tags.mergeMembers old new).keys :=
        hresult.trans (keys_mergeMembers hkeys old).symm
      refine Members.eq_of_get? hsame (nodup_keys_merged hold hkeys hresult) fun key => ?_
      rw [get?_mergeMembers hkeys]
      by_cases hkey : key ∈ new.keys
      · obtain ⟨value, hvalue⟩ := Members.mem_keys_iff.mp hkey
        have hthere : key ∈ result.keys := by
          rw [hresult, List.mem_append, List.mem_filter]
          by_cases holdKey : key ∈ old.keys <;> simp [holdKey, hkey]
        obtain ⟨r, hr⟩ := Members.mem_keys_iff.mp hthere
        have hm := hmerged key value r hvalue hr
        rw [hvalue, hr]
        generalize hbefore : old.get? key = before at hm
        cases hm with
        | @mappings a b c hinner =>
            have hdistinct : Members.Distinct a := hinside key a (Members.mem_of_get? hbefore)
            rw [ih key b (Members.mem_of_get? hvalue) hdistinct hinner]
            rfl
        | replaced h =>
            cases value with
            | object b =>
                cases before with
                | none => rfl
                | some there =>
                    cases there with
                    | object a => exact absurd rfl (h a b rfl)
                    | _ => rfl
            | _ => rfl
      · rw [hkept key hkey, Members.get?_eq_none_iff.mpr hkey]

end Model

end Stencil
