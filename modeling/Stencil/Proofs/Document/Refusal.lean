import Stencil.Proofs.Document.Written

/-!
# What documents are refused for

A document is refused for its types as soon as one of their names is declared
nowhere.  What kind of declaration a name stands for makes no difference, so two
tables that know the same names refuse the same documents, with the same errors.
-/

namespace Stencil.Document

/-! ## Names and spellings -/

/-- Both tables know the same names, though not always as the same kind. -/
def Symbols.SameNames (a b : Symbols) : Prop :=
  ∀ module name, (a module name).isSome = (b module name).isSome

/-- The same view on other names. -/
def Scope.withSymbols (s : Scope) (b : Symbols) : Scope := { s with symbols := b }

/-- The same view of a document on other names. -/
def Reading.withSymbols (r : Reading) (b : Symbols) : Reading :=
  { r with scope := r.scope.withSymbols b }

variable {s : Scope} {b : Symbols}

theorem isSome_lookup?_withSymbols (h : s.symbols.SameNames b) (spelling : String) :
    ((s.withSymbols b).lookup? spelling).isSome = (s.lookup? spelling).isSome := by
  unfold Scope.lookup?
  cases Text.cutLast '.' spelling with
  | some p => simp only [Option.isSome_map, Scope.withSymbols, h p.1 p.2]
  | none =>
      simp only [List.isSome_findSome?, Option.isSome_map, Scope.withSymbols]
      have hnames : (fun module => (b module spelling).isSome) =
          fun module => (s.symbols module spelling).isSome := by
        funext module
        exact (h module spelling).symm
      rw [hnames]

theorem failure?_named (h : s.symbols.SameNames b) (name : String) :
    failure? ((s.withSymbols b).named name) = failure? (s.named name) := by
  have hlookup := isSome_lookup?_withSymbols h name
  unfold Scope.named
  by_cases hvoid : name = "void"
  · rw [if_pos hvoid, if_pos hvoid]
  · rw [if_neg hvoid, if_neg hvoid]
    cases Model.Primitive.ofName? name with
    | some p => rfl
    | none =>
        cases hleft : (s.withSymbols b).lookup? name with
        | none =>
            rw [hleft] at hlookup
            rw [Option.isSome_eq_false_iff.mp hlookup.symm |> Option.isNone_iff_eq_none.mp]
        | some p =>
            rw [hleft] at hlookup
            obtain ⟨q, hq⟩ := Option.isSome_iff_exists.mp hlookup.symm
            rw [hq]
            rfl

/-- One level of a spelling, cut at its brackets. -/
theorem resolveList_eq (s : Scope) (cs : List Char) :
    s.resolveList cs =
      match Text.cutFirstList '<' (Text.trimList Text.isBlank cs) with
      | none => s.named (String.ofList (Text.trimList Text.isBlank cs))
      | some (front, back) =>
          match Text.dropSuffixList ['>'] back with
          | none => .error (.malformed (String.ofList (Text.trimList Text.isBlank cs)))
          | some inner =>
              s.resolveList inner >>= fun item =>
                match container? (String.ofList (Text.trimList Text.isBlank front)) with
                | some wrap => .ok (wrap item)
                | none =>
                    .error (.unknownContainer (String.ofList (Text.trimList Text.isBlank front))
                      (String.ofList (Text.trimList Text.isBlank cs))) := by
  rw [Scope.resolveList]
  split
  · rename_i hcut
    rw [hcut]
  · rename_i front back hcut
    rw [hcut]
    split
    · rename_i hdrop
      simp only [hdrop]
    · rename_i inner hdrop
      simp only [hdrop]
      cases s.resolveList inner <;> rfl

/-- What stands between the brackets is shorter than the spelling. -/
theorem length_inner_lt {cs front back inner : List Char}
    (hcut : Text.cutFirstList '<' (Text.trimList Text.isBlank cs) = some (front, back))
    (hdrop : Text.dropSuffixList ['>'] back = some inner) : inner.length < cs.length := by
  have htrim := length_trimList_le Text.isBlank cs
  have hparts := length_cutFirstList hcut
  have hback := congrArg List.length (Text.dropSuffixList_eq_some_iff.1 hdrop)
  simp only [List.length_append, List.length_cons, List.length_nil] at hback
  omega

theorem failure?_resolveList (h : s.symbols.SameNames b) (cs : List Char) :
    failure? ((s.withSymbols b).resolveList cs) = failure? (s.resolveList cs) := by
  induction hn : cs.length using Nat.strongRecOn generalizing cs with
  | ind n ih =>
    rw [resolveList_eq s cs, resolveList_eq (s.withSymbols b) cs]
    cases hcut : Text.cutFirstList '<' (Text.trimList Text.isBlank cs) with
    | none => exact failure?_named h _
    | some p =>
        obtain ⟨front, back⟩ := p
        cases hdrop : Text.dropSuffixList ['>'] back with
        | none => simp only [hdrop]
        | some inner =>
            simp only [hdrop]
            -- the container is looked up only after its item, so the item fails first
            have hinner := ih inner.length (hn ▸ length_inner_lt hcut hdrop) inner rfl
            refine failure?_bind_congr hinner ?_
            intro item item' _ _
            cases container? (String.ofList (Text.trimList Text.isBlank front)) <;> rfl

/-! ## Declarations and documents -/

variable {r : Reading}

/-- The error that a fault in a spelling is, with its place in the document. -/
def Reading.fault (r : Reading) : TypeFault → Error
  | .malformed spelling => r.origin.flaw (.malformedType spelling) spelling
  | .unknownContainer name spelling => r.origin.flaw (.unknownContainer name) spelling
  | .unknown name => r.origin.unknownType name r.scope.module

theorem type_eq (r : Reading) (spelling : String) :
    r.type spelling = (r.scope.resolve spelling).mapError r.fault := by
  unfold Reading.type
  cases r.scope.resolve spelling with
  | ok t => rfl
  | error fault => cases fault <;> rfl

theorem failure?_type (h : r.scope.symbols.SameNames b) (spelling : String) :
    failure? ((r.withSymbols b).type spelling) = failure? (r.type spelling) := by
  rw [type_eq, type_eq, failure?_mapError, failure?_mapError]
  exact congrArg (Option.map r.fault) (failure?_resolveList h spelling.toList)

/-- Whether and why a document is refused depends on the declared names alone. -/
theorem failure?_contents_withSymbols (h : s.symbols.SameNames b) (source : Source) :
    failure? (contents (s.withSymbols b) source) = failure? (contents s source) := by
  let r : Reading := ⟨s, source.origin⟩
  have htypes : ∀ spelling,
      failure? ((r.withSymbols b).type spelling) = failure? (r.type spelling) := failure?_type h
  rw [failure?_contents, failure?_contents]
  exact congrArg (source.document.spellings.findSome? ·) (funext htypes)

end Stencil.Document
