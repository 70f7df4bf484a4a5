import Stencil.Proofs.Model.MergedPaths
import Stencil.Proofs.Text.Cut

/-!
# Laws of tags

Tags are read in three ways: the mapping of a namespace, the value under a key of a
namespace, and the value at the end of a dotted path.  A change of one value is seen under
its key and nowhere else, making sure of a namespace is not seen under any key, and a path
tells what its parts tell one after the other.  After any changes, what stands under a key
has come from the changes of this key alone.
-/

namespace Stencil.Model

open Tags (follow mergeMembers mergeValue)

namespace Tags

/-! ## One change -/

section OneChange

variable (t : Tags) (space key : String) (value : Json)

theorem space?_mk_set (ms inner : Members) (other : String) :
    (Tags.mk (ms.set space (.object inner))).space? other =
      if other = space then some inner else (Tags.mk ms).space? other := by
  unfold space?
  by_cases h : other = space
  · rw [if_pos h, h, Members.get?_set_self]
    rfl
  · rw [if_neg h, Members.get?_set_ne _ _ h]

theorem space?_ensure (other : String) :
    (t.ensure space).space? other =
      if other = space then some (t.spaceOrEmpty space) else t.space? other :=
  space?_mk_set space t.members (t.spaceOrEmpty space) other

theorem space?_set (other : String) :
    (t.set space key value).space? other =
      if other = space then some ((t.spaceOrEmpty space).set key value) else t.space? other :=
  space?_mk_set space t.members ((t.spaceOrEmpty space).set key value) other

/-- A namespace that holds no mapping has no more keys than an empty one. -/
theorem get?_spaceOrEmpty : (t.spaceOrEmpty space).get? key = t.get? space key := by
  unfold spaceOrEmpty get?
  cases t.space? space <;> rfl

theorem get?_ensure (other : String) : (t.ensure space).get? other key = t.get? other key := by
  rw [get?, space?_ensure]
  by_cases h : other = space
  · rw [if_pos h, Option.bind_some, get?_spaceOrEmpty, h]
  · rw [if_neg h]
    rfl

/-- Setting a value changes what is read under its key, also if the namespace held no mapping. -/
theorem get?_set (other k : String) :
    (t.set space key value).get? other k =
      if other = space ∧ k = key then some value else t.get? other k := by
  rw [get?, space?_set]
  by_cases h : other = space
  · rw [if_pos h, Option.bind_some]
    by_cases hk : k = key
    · rw [if_pos ⟨h, hk⟩, hk, Members.get?_set_self]
    · rw [if_neg fun both => hk both.2, Members.get?_set_ne _ _ hk, get?_spaceOrEmpty, h]
  · rw [if_neg h, if_neg fun both => h both.1]
    rfl

theorem ensure_ensure : (t.ensure space).ensure space = t.ensure space := by
  have hspace : (t.ensure space).spaceOrEmpty space = t.spaceOrEmpty space := by
    rw [spaceOrEmpty, space?_ensure, if_pos rfl]
    rfl
  show Tags.mk _ = _
  rw [hspace]
  exact congrArg Tags.mk (Members.set_eq_self (Members.get?_set_self ..))

theorem keys_ensure :
    (t.ensure space).members.keys =
      if space ∈ t.members.keys then t.members.keys else t.members.keys ++ [space] :=
  Members.keys_set ..

end OneChange

/-! ## Paths -/

section Paths

variable {ms : Members} {path rest : List String} {key : String}

/-- The mapping at a path is the value there, if it is one. -/
theorem mappingAt?_eq (hpath : path ≠ []) :
    mappingAt? ms path = (follow ms path).bind Json.members? := by
  induction path generalizing ms with
  | nil => exact absurd rfl hpath
  | cons k path ih =>
      cases path with
      | nil =>
          show _ = (ms.get? k).bind Json.members?
          cases hget : ms.get? k with
          | none => simp [mappingAt?, hget]
          | some value => cases value <;> simp [mappingAt?, hget, Json.members?]
      | cons next path =>
          cases hget : ms.get? k with
          | none => simp [mappingAt?, follow, hget]
          | some value =>
              cases value with
              | object inner =>
                  rw [mappingAt?_cons hget, follow_cons_cons hget]
                  exact ih (List.cons_ne_nil next path)
              | _ => simp [mappingAt?, follow, hget]

/-- Nothing is at the end of a path that goes on where no mapping is. -/
theorem follow_append_eq_none (h : mappingAt? ms path = none) :
    follow ms (path ++ key :: rest) = none := by
  induction path generalizing ms with
  | nil => cases h
  | cons k path ih =>
      obtain ⟨next, tail, htail⟩ : ∃ next tail, path ++ key :: rest = next :: tail :=
        List.exists_cons_of_ne_nil (by simp)
      cases hget : ms.get? k with
      | none => exact follow_eq_none hget
      | some value =>
          cases value with
          | object inner =>
              rw [mappingAt?_cons hget] at h
              rw [List.cons_append, htail, follow_cons_cons hget, ← htail]
              exact ih h
          | _ => simp [htail, follow, hget]

theorem follow_append_eq :
    follow ms (path ++ key :: rest) =
      (mappingAt? ms path).bind fun inner => follow inner (key :: rest) := by
  cases hmapping : mappingAt? ms path with
  | none => exact follow_append_eq_none hmapping
  | some inner => exact follow_append hmapping

end Paths

section DottedPaths

variable (t : Tags) (path : String)

/-- A dotted path tells what its second part tells of the mapping to which its first part leads. -/
theorem lookup?_dotted (rest : String) :
    t.lookup? (path ++ "." ++ rest) =
      ((t.lookup? path).bind Json.members?).bind fun ms => (Tags.mk ms).lookup? rest := by
  have hdot : ".".toList = ['.'] := by decide
  obtain ⟨key, keys, hrest⟩ : ∃ key keys, Text.split '.' rest = key :: keys :=
    List.exists_cons_of_ne_nil (Text.split_ne_nil '.' rest)
  unfold lookup?
  rw [Text.split_append hdot, hrest, follow_append_eq, mappingAt?_eq (Text.split_ne_nil '.' path)]

theorem lookup?_of_not_mem {key : String} (hkey : '.' ∉ key.toList) :
    t.lookup? key = t.members.get? key := by
  rw [lookup?, Text.split_of_not_mem hkey]
  rfl

theorem lookup?_dotted_key {key : String} (hkey : '.' ∉ key.toList) :
    t.lookup? (path ++ "." ++ key) =
      ((t.lookup? path).bind Json.members?).bind (Members.get? key) := by
  rw [lookup?_dotted]
  exact Option.bind_congr fun ms _ => lookup?_of_not_mem ⟨ms⟩ hkey

/-- The path of a namespace and a key leads to the value under that key. -/
theorem lookup?_eq_get? {space key : String} (hspace : '.' ∉ space.toList)
    (hkey : '.' ∉ key.toList) : t.lookup? (space ++ "." ++ key) = t.get? space key := by
  rw [lookup?_dotted_key t space hkey, lookup?_of_not_mem t hspace]
  rfl

variable {t path}

/-- A path that leads somewhere does so through mappings. -/
theorem exists_mapping_of_lookup? {rest : String} (h : (t.lookup? (path ++ "." ++ rest)).isSome) :
    ∃ ms, t.lookup? path = some (.object ms) := by
  rw [lookup?_dotted] at h
  obtain ⟨value, hvalue⟩ := Option.isSome_iff_exists.mp h
  obtain ⟨ms, hms, -⟩ := Option.bind_eq_some_iff.mp hvalue
  obtain ⟨there, hthere, hmembers⟩ := Option.bind_eq_some_iff.mp hms
  cases there <;> cases hmembers
  exact ⟨ms, hthere⟩

/-- A path leads somewhere exactly if it does so through mappings up to its last key, and this key is
in the last of them. -/
theorem isSome_lookup?_dotted {key : String} (hkey : '.' ∉ key.toList) :
    (t.lookup? (path ++ "." ++ key)).isSome ↔
      (∀ front rest, path ++ "." ++ key = front ++ "." ++ rest →
        ∃ ms, t.lookup? front = some (.object ms)) ∧
      ∃ ms : Members, t.lookup? path = some (.object ms) ∧ key ∈ ms.keys := by
  constructor
  · intro h
    obtain ⟨ms, hms⟩ := exists_mapping_of_lookup? h
    refine ⟨fun front rest heq => exists_mapping_of_lookup? (heq ▸ h), ms, hms, ?_⟩
    rw [lookup?_dotted_key t path hkey, hms] at h
    exact Members.mem_keys_iff.mpr (Option.isSome_iff_exists.mp h)
  · rintro ⟨-, ms, hms, hmem⟩
    rw [lookup?_dotted_key t path hkey, hms]
    exact Option.isSome_iff_exists.mpr (Members.mem_keys_iff.mp hmem)

end DottedPaths

/-! ## Changes in turn -/

/-- A change of tags. -/
inductive Change where
  | set (space key : String) (value : Json)
  | ensure (space : String)
  | merge (other : Members)

/-- The tags after a change. -/
def Change.apply : Change → Tags → Tags
  | .set space key value, t => t.set space key value
  | .ensure space, t => t.ensure space
  | .merge other, t => t.merge other

/-- The tags after changes in turn. -/
def after (t : Tags) (changes : List Change) : Tags := changes.foldl (fun t c => c.apply t) t

theorem nodup_keys_mergeMembers {old : Members} (h : old.keys.Nodup) (new : Members) :
    (mergeMembers old new).keys.Nodup := by
  induction new generalizing old with
  | nil => exact h
  | cons p rest ih =>
      obtain ⟨k, v⟩ := p
      show (mergeMembers (old.set k (mergeValue (old.get? k) v)) rest).keys.Nodup
      exact ih (Members.nodup_keys_set h)

theorem nodup_keys_apply {t : Tags} (h : t.members.keys.Nodup) (c : Change) :
    (c.apply t).members.keys.Nodup := by
  cases c with
  | set space key value => exact Members.nodup_keys_set h
  | ensure space => exact Members.nodup_keys_set h
  | merge other => exact nodup_keys_mergeMembers h other

theorem nodup_keys_after (changes : List Change) :
    ∀ {t : Tags}, t.members.keys.Nodup → (t.after changes).members.keys.Nodup := by
  induction changes with
  | nil => exact fun h => h
  | cons c rest ih => exact fun h => ih (nodup_keys_apply h c)

/-- What a change makes of the value under one key, told without the others.  A merged mapping that
has something else than a mapping for the namespace takes all its keys away. -/
def Change.effect (space key : String) : Change → Option Json → Option Json
  | .set s k value, old => if space = s ∧ key = k then some value else old
  | .ensure _, old => old
  | .merge other, old =>
      match other.get? space with
      | none => old
      | some (.object inner) => ((Members.get? key inner).map (mergeValue old)).or old
      | some _ => none

/-- The mappings that a change merges have no key twice. -/
def Change.Distinct : Change → Prop
  | .merge other => other.Distinct
  | .set .. | .ensure _ => True

theorem get?_mergeMembers_eq {new : Members} (h : new.keys.Nodup) (key : String) (old : Members) :
    (mergeMembers old new).get? key =
      ((new.get? key).map (mergeValue (old.get? key))).or (old.get? key) := by
  rw [get?_mergeMembers h]
  cases new.get? key <;> rfl

theorem get?_merge (t : Tags) {other : Members} (h : other.Distinct) (space key : String) :
    (t.merge other).get? space key = (Change.merge other).effect space key (t.get? space key) := by
  have hget := get?_mergeMembers_eq h.nodup_keys space t.members
  unfold get? space? merge
  simp only [Change.effect]
  rw [hget]
  cases hnew : other.get? space with
  | none => rfl
  | some value =>
      cases value with
      | object inner =>
          have hinner : (Members.keys inner).Nodup := by
            cases h with
            | intro _ hnested => exact (hnested space inner (Members.mem_of_get? hnew)).nodup_keys
          -- a mapping that takes the place of something else brings the keys that it has
          have hreplaced : Members.get? key inner =
              ((Members.get? key inner).map (mergeValue none)).or none := by
            cases Members.get? key inner with
            | none => rfl
            | some value => simp [mergeValue_of_not]
          cases hold : t.members.get? space with
          | none => exact hreplaced
          | some there =>
              cases there with
              | object a => exact get?_mergeMembers_eq hinner key a
              | _ => exact hreplaced
      | _ => rfl

theorem get?_apply (t : Tags) {c : Change} (h : c.Distinct) (space key : String) :
    (c.apply t).get? space key = c.effect space key (t.get? space key) := by
  cases c with
  | set s k value => exact get?_set t s k value space key
  | ensure s => exact get?_ensure t s key space
  | merge other => exact get?_merge t h space key

/-- After any changes, what is read under a key is what they have made of this key, one after the
other. -/
theorem get?_after (space key : String) (changes : List Change) (h : ∀ c ∈ changes, c.Distinct) :
    ∀ t : Tags, (t.after changes).get? space key =
      changes.foldl (fun old c => c.effect space key old) (t.get? space key) := by
  induction changes with
  | nil => exact fun t => rfl
  | cons c rest ih =>
      intro t
      obtain ⟨hc, hrest⟩ := List.forall_mem_cons.mp h
      rw [List.foldl_cons, ← get?_apply t hc]
      exact ih hrest (c.apply t)

/-! ## The laws -/

/-- The laws that changes of tags and their three readings obey. -/
structure Lawful (t : Tags) : Prop where
  set : ∀ space key value other k, (t.set space key value).get? other k =
    if other = space ∧ k = key then some value else t.get? other k
  ensure : ∀ space other key, (t.ensure space).get? other key = t.get? other key
  again : ∀ space, (t.ensure space).ensure space = t.ensure space
  order : ∀ space, (t.ensure space).members.keys =
    if space ∈ t.members.keys then t.members.keys else t.members.keys ++ [space]
  present : ∀ space, ((t.ensure space).space? space).isSome
  pair : ∀ space key : String, '.' ∉ space.toList → '.' ∉ key.toList →
    t.lookup? (space ++ "." ++ key) = t.get? space key
  path : ∀ path key : String, '.' ∉ key.toList →
    ((t.lookup? (path ++ "." ++ key)).isSome ↔
      (∀ front rest, path ++ "." ++ key = front ++ "." ++ rest →
        ∃ ms, t.lookup? front = some (.object ms)) ∧
      ∃ ms : Members, t.lookup? path = some (.object ms) ∧ key ∈ ms.keys)

theorem lawful (t : Tags) : t.Lawful where
  set := t.get?_set
  ensure space other key := t.get?_ensure space key other
  again := t.ensure_ensure
  order := t.keys_ensure
  present space := by simp [space?_ensure]
  pair _ _ hspace hkey := t.lookup?_eq_get? hspace hkey
  path _ _ hkey := isSome_lookup?_dotted hkey

/-- Whatever changes led to them, tags obey the laws.  A value that is set is read under its key, and
under every other key what was read before, also if the namespace held no mapping.  Making sure of
a namespace is seen under no key, leaves the namespaces in their order, is done once and for all, and
gives the namespace a mapping.  A namespace and a key are read alike in one go and as a path, and
a longer path leads somewhere exactly if it does so through mappings up to its last key, and this
key is in the last of them.  No namespace is there twice if none was, and what is read under a key is
what the changes have made of this key, one after the other. -/
theorem lawful_after (start : Tags) (changes : List Change) :
    (start.after changes).Lawful ∧
    (start.members.keys.Nodup → (start.after changes).members.keys.Nodup) ∧
    ((∀ c ∈ changes, c.Distinct) → ∀ space key, (start.after changes).get? space key =
      changes.foldl (fun old c => c.effect space key old) (start.get? space key)) :=
  ⟨lawful (start.after changes), nodup_keys_after changes,
    fun h space key => get?_after space key changes h start⟩

namespace Sample

/-- Tags in which a namespace holds no mapping. -/
def flagged : Tags := ⟨[("config", .bool true), ("note", .object [("kept", .int 1)])]⟩

/-- A nested mapping is merged, and a value is set where no mapping was. -/
def renamings : List Change :=
  [.merge [("qml", .object [("item", .object [("name", .string "Echo")])])],
    .set "config" "kind" .null, .ensure "later"]

theorem distinct_renamings : ∀ c ∈ renamings, c.Distinct := by
  have hitem : Members.Distinct [("item", .object [("name", .string "Echo")])] :=
    Members.distinct_singleton fun inner hinner =>
      Json.object.inj hinner ▸ Members.distinct_singleton (by simp)
  have hqml : Members.Distinct
      [("qml", .object [("item", .object [("name", .string "Echo")])])] :=
    Members.distinct_singleton fun inner hinner => Json.object.inj hinner ▸ hitem
  simp [renamings, Change.Distinct, hqml]

end Sample

theorem lawful_after_renamings :
    (Sample.flagged.after Sample.renamings).lookup? ("config" ++ "." ++ "kind") =
      (Sample.flagged.after Sample.renamings).get? "config" "kind" ∧
    (Sample.flagged.after Sample.renamings).get? "config" "kind" = some .null ∧
    (Sample.flagged.after Sample.renamings).members.keys = ["config", "note", "qml", "later"] ∧
    (Sample.flagged.after Sample.renamings).members.keys.Nodup ∧
    ∃ ms, (Sample.flagged.after Sample.renamings).lookup? "qml.item" = some (.object ms) := by
  obtain ⟨hlawful, hnodup, hread⟩ := lawful_after Sample.flagged Sample.renamings
  have hpath := (hlawful.path "qml.item" "name" (by decide)).mp (by decide +kernel)
  refine ⟨hlawful.pair "config" "kind" (by decide) (by decide), ?_, by decide,
    hnodup (by decide), hpath.1 "qml.item" "name" rfl⟩
  rw [hread Sample.distinct_renamings]
  decide

end Tags

end Stencil.Model
