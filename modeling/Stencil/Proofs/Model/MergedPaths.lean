import Mathlib.Data.List.Infix
import Stencil.Proofs.Model.Merge

/-!
# Paths in merged mappings

Two mappings part on a path where they do not both hold a mapping any more.  From there on a
merged mapping agrees with the new one, or with the old one where the new one has nothing.
Merging once more changes nothing.
-/

namespace Stencil.Model

open Tags (follow mergeMembers mergeValue)

/-- The mapping that members hold at a path; at the empty path it is they themselves. -/
def mappingAt? : Members → List String → Option Members
  | ms, [] => some ms
  | ms, key :: rest =>
      match ms.get? key with
      | some (.object inner) => mappingAt? inner rest
      | _ => none

/-- Whether two mappings both hold a mapping at a path. -/
def Common (a b : Members) (path : List String) : Prop :=
  (mappingAt? a path).isSome ∧ (mappingAt? b path).isSome

/-- Two mappings part on a path behind the longest proper prefix at which both hold a mapping, with
the key that follows. -/
structure Parting (a b : Members) (path before : List String) (key : String) : Prop where
  follows : ∃ rest, path = before ++ key :: rest
  common : Common a b before
  longest : ∀ q, q <+: path → q ≠ path → Common a b q → q <+: before

instance (a b : Members) (path : List String) : Decidable (Common a b path) :=
  inferInstanceAs (Decidable (_ ∧ _))

theorem parting_iff {a b : Members} {path before : List String} {key : String} :
    Parting a b path before key ↔
      before ++ [key] <+: path ∧ Common a b before ∧
        ∀ q ∈ path.inits, q ≠ path → Common a b q → q <+: before := by
  constructor
  · rintro ⟨⟨rest, rfl⟩, hcommon, hlongest⟩
    exact ⟨⟨rest, List.append_assoc ..⟩, hcommon,
      fun q hq => hlongest q ((List.mem_inits ..).mp hq)⟩
  · rintro ⟨⟨rest, rfl⟩, hcommon, hlongest⟩
    exact ⟨⟨rest, List.append_assoc ..⟩, hcommon,
      fun q hq => hlongest q ((List.mem_inits ..).mpr hq)⟩

instance (a b : Members) (path before : List String) (key : String) :
    Decidable (Parting a b path before key) :=
  decidable_of_iff _ parting_iff.symm

/-! ## Following paths -/

section Paths

variable {a b ms inner : Members} {key : String} {path rest : List String}

theorem mappingAt?_cons (h : ms.get? key = some (.object inner)) :
    mappingAt? ms (key :: rest) = mappingAt? inner rest := by
  simp only [mappingAt?, h]

theorem exists_of_mappingAt?_cons (h : (mappingAt? ms (key :: rest)).isSome) :
    ∃ inner, ms.get? key = some (.object inner) := by
  unfold mappingAt? at h
  split at h
  · rename_i inner hget
    exact ⟨inner, hget⟩
  · cases h

theorem follow_cons_cons {next : String} (h : ms.get? key = some (.object inner)) :
    follow ms (key :: next :: rest) = follow inner (next :: rest) := by
  simp only [follow, h]

/-- A path tells no more of a mapping than what is under its first key. -/
theorem follow_congr (h : a.get? key = b.get? key) :
    follow a (key :: rest) = follow b (key :: rest) := by
  cases rest with
  | nil => exact h
  | cons next rest => simp only [follow, h]

theorem follow_append (h : mappingAt? ms path = some inner) :
    follow ms (path ++ key :: rest) = follow inner (key :: rest) := by
  induction path generalizing ms with
  | nil =>
      cases h
      rfl
  | cons k path ih =>
      obtain ⟨there, hthere⟩ := exists_of_mappingAt?_cons (by rw [h]; rfl)
      rw [mappingAt?_cons hthere] at h
      rw [← ih h]
      cases path <;> exact follow_cons_cons hthere

theorem mappingAt?_append (h : mappingAt? ms path = some inner) :
    mappingAt? ms (path ++ rest) = mappingAt? inner rest := by
  induction path generalizing ms with
  | nil =>
      cases h
      rfl
  | cons k path ih =>
      obtain ⟨there, hthere⟩ := exists_of_mappingAt?_cons (by rw [h]; rfl)
      rw [mappingAt?_cons hthere] at h
      rw [List.cons_append, mappingAt?_cons hthere]
      exact ih h

/-- A mapping at a path is the value at its end. -/
theorem follow_of_mappingAt? (hne : path ≠ []) (h : mappingAt? ms path = some inner) :
    follow ms path = some (.object inner) := by
  induction path generalizing ms with
  | nil => exact absurd rfl hne
  | cons k path ih =>
      obtain ⟨there, hthere⟩ := exists_of_mappingAt?_cons (by rw [h]; rfl)
      rw [mappingAt?_cons hthere] at h
      cases path with
      | nil =>
          cases h
          exact hthere
      | cons next path =>
          rw [follow_cons_cons hthere]
          exact ih (List.cons_ne_nil next path) h

theorem follow_eq_none (h : ms.get? key = none) : follow ms (key :: rest) = none := by
  cases rest with
  | nil => exact h
  | cons next rest => simp only [follow, h]

theorem distinct_mappingAt? (h : ms.Distinct) (hpath : mappingAt? ms path = some inner) :
    inner.Distinct := by
  induction path generalizing ms with
  | nil =>
      cases hpath
      exact h
  | cons k path ih =>
      obtain ⟨there, hthere⟩ := exists_of_mappingAt?_cons (by rw [hpath]; rfl)
      rw [mappingAt?_cons hthere] at hpath
      cases h with
      | intro _ hnested => exact ih (hnested k there (Members.mem_of_get? hthere)) hpath

theorem common_cons :
    Common a b (key :: path) ↔
      ∃ x y, a.get? key = some (.object x) ∧ b.get? key = some (.object y) ∧ Common x y path := by
  constructor
  · rintro ⟨ha, hb⟩
    obtain ⟨x, hx⟩ := exists_of_mappingAt?_cons ha
    obtain ⟨y, hy⟩ := exists_of_mappingAt?_cons hb
    rw [mappingAt?_cons hx] at ha
    rw [mappingAt?_cons hy] at hb
    exact ⟨x, y, hx, hy, ha, hb⟩
  · rintro ⟨x, y, hx, hy, hcommon⟩
    rw [Common, mappingAt?_cons hx, mappingAt?_cons hy]
    exact hcommon

/-- On every path that is not empty two mappings part somewhere. -/
theorem exists_parting (hpath : path ≠ []) : ∃ before key, Parting a b path before key := by
  induction path generalizing a b with
  | nil => exact absurd rfl hpath
  | cons k rest ih =>
      by_cases hgoes : rest ≠ [] ∧
          ∃ x y, a.get? k = some (.object x) ∧ b.get? k = some (.object y)
      -- what both hold under the first key parts on the rest of the path
      · obtain ⟨hrest, x, y, hx, hy⟩ := hgoes
        obtain ⟨before, key, ⟨last, hfollows⟩, hcommon, hlongest⟩ := ih (a := x) (b := y) hrest
        refine ⟨k :: before, key, ⟨last, by rw [hfollows]; rfl⟩,
          common_cons.mpr ⟨x, y, hx, hy, hcommon⟩, fun q hprefix hne hq => ?_⟩
        rcases List.prefix_cons_iff.mp hprefix with rfl | ⟨r, rfl, hr⟩
        · exact List.nil_prefix
        · obtain ⟨x', y', hx', hy', hcommon'⟩ := common_cons.mp hq
          obtain ⟨rfl, rfl⟩ : x = x' ∧ y = y' := by
            rw [hx] at hx'
            rw [hy] at hy'
            exact ⟨Json.object.inj (Option.some.inj hx'), Json.object.inj (Option.some.inj hy')⟩
          have hner : r ≠ rest := fun heq => hne (by rw [heq])
          exact (List.prefix_cons_inj k).mpr (hlongest r hr hner hcommon')
      · refine ⟨[], k, ⟨rest, rfl⟩, ⟨rfl, rfl⟩, fun q hprefix hne hq => ?_⟩
        rcases List.prefix_cons_iff.mp hprefix with rfl | ⟨r, rfl, hr⟩
        · exact List.nil_prefix
        · obtain ⟨x, y, hx, hy, -⟩ := common_cons.mp hq
          refine absurd ⟨?_, x, y, hx, hy⟩ hgoes
          rintro rfl
          exact hne (by rw [List.prefix_nil.mp hr])

end Paths

/-! ## The merged mapping on a path -/

/-- Unless both are mappings, the new value takes the place of the old one. -/
theorem mergeValue_of_not {old : Option Json} {new : Json}
    (h : ∀ c d, old = some (.object c) → new ≠ .object d) : mergeValue old new = new := by
  cases new with
  | object d =>
      cases old with
      | none => rfl
      | some there =>
          cases there with
          | object c => exact absurd rfl (h c d rfl)
          | _ => rfl
  | _ => rfl

section Merging

variable {a b x y : Members} {path before : List String} {key : String} (h : b.Distinct)
include h

/-- What is merged is merged in the same way wherever both hold a mapping. -/
theorem mappingAt?_mergeMembers (hx : mappingAt? a path = some x)
    (hy : mappingAt? b path = some y) :
    mappingAt? (mergeMembers a b) path = some (mergeMembers x y) := by
  induction path generalizing a b with
  | nil =>
      cases hx
      cases hy
      rfl
  | cons k path ih =>
      obtain ⟨old, hold⟩ := exists_of_mappingAt?_cons (by rw [hx]; rfl)
      obtain ⟨new, hnew⟩ := exists_of_mappingAt?_cons (by rw [hy]; rfl)
      have hmerged : (mergeMembers a b).get? k = some (.object (mergeMembers old new)) := by
        rw [get?_mergeMembers h.nodup_keys, hold, hnew]
        rfl
      rw [mappingAt?_cons hold] at hx
      rw [mappingAt?_cons hnew] at hy
      rw [mappingAt?_cons hmerged]
      cases h with
      | intro _ hnested => exact ih (hnested k new (Members.mem_of_get? hnew)) hx hy

/-- Where two mappings part, the key that follows decides what the path tells of the merged one. -/
theorem follow_mergeMembers (hparting : Parting a b path before key) :
    (follow b (before ++ [key]) = none →
      follow (mergeMembers a b) path = follow a path) ∧
    (follow b (before ++ [key]) ≠ none → ¬ Common a b (before ++ [key]) →
      follow (mergeMembers a b) path = follow b path) ∧
    (Common a b (before ++ [key]) →
      path = before ++ [key] ∧ ∃ inner, follow (mergeMembers a b) path = some (.object inner)) := by
  obtain ⟨⟨rest, rfl⟩, ⟨hx, hy⟩, hlongest⟩ := hparting
  obtain ⟨x, hx⟩ := Option.isSome_iff_exists.mp hx
  obtain ⟨y, hy⟩ := Option.isSome_iff_exists.mp hy
  have hget := get?_mergeMembers (distinct_mappingAt? h hy).nodup_keys key x
  have hentry : follow b (before ++ [key]) = y.get? key := follow_append hy
  have hcommon : Common a b (before ++ [key]) ↔ Common x y [key] := by
    rw [Common, mappingAt?_append hx, mappingAt?_append hy, Common]
  have hmerged : follow (mergeMembers a b) (before ++ key :: rest) =
      follow (mergeMembers x y) (key :: rest) := follow_append (mappingAt?_mergeMembers h hx hy)
  refine ⟨fun hnone => ?_, fun hsome hnot => ?_, fun hboth => ?_⟩
  · rw [hentry] at hnone
    rw [hnone] at hget
    rw [hmerged, follow_append hx]
    exact follow_congr hget
  · obtain ⟨value, hvalue⟩ := Option.ne_none_iff_exists'.mp (hentry ▸ hsome)
    have hreplaced : mergeValue (x.get? key) value = value := by
      refine mergeValue_of_not fun c d hc hd => hnot (hcommon.mpr ?_)
      exact common_cons.mpr ⟨c, d, hc, hvalue.trans (congrArg some hd), rfl, rfl⟩
    rw [hvalue] at hget
    dsimp only at hget
    rw [hreplaced, ← hvalue] at hget
    rw [hmerged, follow_append hy]
    exact follow_congr hget
  -- a path that goes on would have its parting further on
  · have hend : rest = [] := by
      by_contra hne
      have hprefix : before ++ [key] <+: before ++ key :: rest :=
        List.prefix_append_right_inj before |>.mpr ⟨rest, rfl⟩
      have hproper : before ++ [key] ≠ before ++ key :: rest := fun heq =>
        hne (List.cons.inj (List.append_cancel_left heq)).2.symm
      have hlength := (hlongest _ hprefix hproper hboth).length_le
      rw [List.length_append, List.length_singleton] at hlength
      omega
    subst hend
    obtain ⟨c, d, hc, hd, -⟩ := common_cons.mp (hcommon.mp hboth)
    rw [hc, hd] at hget
    exact ⟨rfl, mergeMembers c d, hmerged.trans hget⟩

/-- What the new mapping holds at the end of a path, other than a mapping, is there afterwards. -/
theorem follow_mergeMembers_leaf {value : Json} (hvalue : follow b path = some value)
    (hleaf : ∀ inner, value ≠ .object inner) : follow (mergeMembers a b) path = some value := by
  have hpath : path ≠ [] := by
    rintro rfl
    cases hvalue
  obtain ⟨before, key, hparting⟩ := exists_parting (a := a) (b := b) hpath
  obtain ⟨-, hnew, hboth⟩ := follow_mergeMembers h hparting
  by_cases hcommon : Common a b (before ++ [key])
  -- the new mapping would hold a mapping at the end of the path
  · obtain ⟨hend, -⟩ := hboth hcommon
    obtain ⟨inner, hinner⟩ := Option.isSome_iff_exists.mp hcommon.2
    rw [hend, follow_of_mappingAt? (by simp) hinner] at hvalue
    exact absurd (Option.some.inj hvalue).symm (hleaf inner)
  · refine (hnew (fun hnone => ?_) hcommon).trans hvalue
    obtain ⟨⟨rest, rfl⟩, ⟨-, hy⟩, -⟩ := hparting
    obtain ⟨y, hy⟩ := Option.isSome_iff_exists.mp hy
    rw [follow_append hy] at hnone hvalue
    rw [follow_eq_none hnone] at hvalue
    cases hvalue

/-- Where both hold a mapping, the old keys come first and then the new ones, each in their
order. -/
theorem keys_mappingAt? (hx : mappingAt? a path = some x) (hy : mappingAt? b path = some y) :
    ∃ merged, mappingAt? (mergeMembers a b) path = some merged ∧
      merged.keys = x.keys ++ y.keys.filter (· ∉ x.keys) :=
  ⟨_, mappingAt?_mergeMembers h hx hy, keys_mergeMembers (distinct_mappingAt? h hy).nodup_keys x⟩

end Merging

/-! ## Merging again -/

/-- Merging changes nothing if all that is merged is there. -/
theorem mergeMembers_eq_self {a b : Members}
    (h : ∀ p ∈ b, ∃ value, a.get? p.1 = some value ∧ mergeValue (some value) p.2 = value) :
    mergeMembers a b = a := by
  induction b with
  | nil => rfl
  | cons p rest ih =>
      obtain ⟨k, v⟩ := p
      obtain ⟨value, hget, hsame⟩ := h (k, v) List.mem_cons_self
      have hstep : mergeMembers a ((k, v) :: rest) =
          mergeMembers (a.set k (mergeValue (a.get? k) v)) rest := rfl
      rw [hstep, hget, hsame, Members.set_eq_self hget]
      exact ih fun p hp => h p (List.mem_cons_of_mem _ hp)

theorem mergeMembers_self {b : Members} (h : b.Distinct) : mergeMembers b b = b := by
  induction h with
  | @intro b hkeys _ ih =>
      refine mergeMembers_eq_self fun p hp => ⟨p.2, Members.get?_of_mem hkeys hp, ?_⟩
      obtain ⟨key, value⟩ := p
      cases value with
      | object inner => exact congrArg Json.object (ih key inner hp)
      | _ => rfl

theorem mergeMembers_again {b : Members} (h : b.Distinct) (a : Members) :
    mergeMembers (mergeMembers a b) b = mergeMembers a b := by
  induction h generalizing a with
  | @intro b hkeys hnested ih =>
      refine mergeMembers_eq_self fun p hp => ?_
      obtain ⟨key, value⟩ := p
      have hget := get?_mergeMembers hkeys key a
      rw [Members.get?_of_mem hkeys hp] at hget
      refine ⟨_, hget, ?_⟩
      cases value with
      | object new =>
          cases hold : a.get? key with
          | some there =>
              cases there with
              | object old => exact congrArg Json.object (ih key new hp old)
              | _ => exact congrArg Json.object (mergeMembers_self (hnested key new hp))
          | none => exact congrArg Json.object (mergeMembers_self (hnested key new hp))
      | _ => rfl

/-- Tags with a mapping merged into them are told path by path.  Every path that is not empty has a
place where the tags and the mapping part, that is the longest proper prefix at which both hold a
mapping, and the key that follows.  What the path leads to is what it was in the tags if the
mapping has nothing there, and what it is in the mapping if they do not both hold one there;
otherwise it ends there, with a mapping.  So every value of the mapping that is none itself stays.
Where both hold a mapping the keys of the tags come first, and a second merge changes nothing. -/
theorem merge_by_paths (t : Tags) {new : Members} (h : new.Distinct) :
    (∀ path ≠ [], ∃ before key, Parting t.members new path before key) ∧
    (∀ path before key, Parting t.members new path before key →
      (follow new (before ++ [key]) = none →
        follow (t.merge new).members path = follow t.members path) ∧
      (follow new (before ++ [key]) ≠ none → ¬ Common t.members new (before ++ [key]) →
        follow (t.merge new).members path = follow new path) ∧
      (Common t.members new (before ++ [key]) →
        path = before ++ [key] ∧
          ∃ inner, follow (t.merge new).members path = some (.object inner))) ∧
    (∀ path value, follow new path = some value → (∀ inner, value ≠ .object inner) →
      follow (t.merge new).members path = some value) ∧
    (∀ path x y, mappingAt? t.members path = some x → mappingAt? new path = some y →
      ∃ merged, mappingAt? (t.merge new).members path = some merged ∧
        merged.keys = x.keys ++ y.keys.filter (· ∉ x.keys)) ∧
    (t.merge new).merge new = t.merge new :=
  ⟨fun _ hpath => exists_parting hpath, fun _ _ _ hparting => follow_mergeMembers h hparting,
    fun _ _ hvalue hleaf => follow_mergeMembers_leaf h hvalue hleaf,
    fun _ _ _ hx hy => keys_mappingAt? h hx hy,
    congrArg Tags.mk (mergeMembers_again h t.members)⟩

namespace Sample

/-- Tags with one mapping in them, and a mapping in that. -/
def spoken : Tags :=
  ⟨[("config", .object [("plain", .bool true), ("nested", .object [("x", .int 1)]),
      ("getter", .object [("name", .string "text")])]),
    ("note", .string "kept")]⟩

/-- A mapping that has a mapping for a value, a value for a mapping, and new keys. -/
def respoken : Members :=
  [("fresh", .null),
    ("config", .object [("later", .int 2), ("getter", .string "words"),
      ("nested", .object [("y", .int 3)]), ("plain", .object [("z", .bool false)])])]

theorem distinct_respoken : respoken.Distinct := by
  have hplain : ∀ (key : String) (value : Json), (∀ inner, value ≠ .object inner) →
      Members.Distinct [(key, value)] := fun key value hvalue =>
    Members.distinct_singleton fun inner hinner => absurd hinner (hvalue inner)
  refine .intro (by decide) fun key inner hmem => ?_
  simp only [respoken, List.mem_cons, Prod.mk.injEq, List.not_mem_nil, or_false, reduceCtorEq,
    and_false, false_or, Json.object.injEq] at hmem
  obtain ⟨-, rfl⟩ := hmem
  refine .intro (by decide) fun key inner hmem => ?_
  simp only [List.mem_cons, Prod.mk.injEq, List.not_mem_nil, or_false, reduceCtorEq,
    and_false, false_or, Json.object.injEq] at hmem
  rcases hmem with ⟨-, rfl⟩ | ⟨-, rfl⟩
  · exact hplain _ _ (by simp)
  · exact hplain _ _ (by simp)

end Sample

theorem merge_by_paths_respoken :
    Sample.respoken.Distinct ∧
    (follow (Sample.spoken.merge Sample.respoken).members ["config", "nested", "x"] =
        some (.int 1) ∧
      follow (Sample.spoken.merge Sample.respoken).members ["config", "getter", "name"] = none ∧
      (∃ inner, follow (Sample.spoken.merge Sample.respoken).members ["config", "nested"] =
        some (.object inner)) ∧
      follow (Sample.spoken.merge Sample.respoken).members ["config", "plain", "z"] =
        some (.bool false)) ∧
    (∃ merged, mappingAt? (Sample.spoken.merge Sample.respoken).members ["config"] = some merged ∧
      merged.keys = ["plain", "nested", "getter", "later"]) ∧
    (Sample.spoken.merge Sample.respoken).merge Sample.respoken =
      Sample.spoken.merge Sample.respoken := by
  obtain ⟨-, hpaths, hleaves, hkeys, hagain⟩ :=
    merge_by_paths Sample.spoken Sample.distinct_respoken
  have hkept := (hpaths ["config", "nested", "x"] ["config", "nested"] "x" (by decide)).1
    (by decide)
  have hgone := (hpaths ["config", "getter", "name"] ["config"] "getter" (by decide)).2.1
    (by decide) (by decide)
  have hboth := (hpaths ["config", "nested"] ["config"] "nested" (by decide)).2.2 (by decide)
  have hleaf := hleaves ["config", "plain", "z"] (.bool false) (by decide) (by simp)
  exact ⟨Sample.distinct_respoken, ⟨hkept, hgone, hboth.2, hleaf⟩,
    hkeys ["config"] _ _ rfl rfl, hagain⟩

end Stencil.Model
