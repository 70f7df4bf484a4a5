import Stencil.Proofs.Fallible
import Stencil.Proofs.Text.Cut
import Stencil.Spelling.Names

/-!
# Lines of comments

A comment is its body between an opening and a closing mark, and its lines are those of the
body without the spaces and asterisks in front of them.  The opening marks are tried one after
another, the longer ones first.  They can overlap the closing mark in one way only: what opens
with `/*` and closes at once opens with `/**` as well.
-/

namespace Stencil

/-! ## Lines and affixes of a text -/

namespace Text

theorem infix_intercalate {sep p : List Char} {ps : List (List Char)} (h : p ∈ ps) :
    p <:+: sep.intercalate ps := by
  induction ps with
  | nil => cases h
  | cons q rest ih =>
      cases rest with
      | nil =>
          obtain rfl := List.mem_singleton.mp h
          simp only [List.intercalate_singleton, List.infix_rfl]
      | cons r others =>
          rw [List.intercalate_cons_cons]
          rcases List.mem_cons.mp h with rfl | h
          · rw [List.append_assoc]
            exact (List.prefix_append ..).isInfix
          · exact (ih h).trans (List.suffix_append ..).isInfix

theorem infix_of_mem_pieces {sep : Char} {cs p : List Char} (h : p ∈ pieces sep cs) :
    p <:+: cs := by
  rw [pieces_eq_splitOn] at h
  have hjoined : [sep].intercalate (cs.splitOn sep) = cs := List.intercalate_splitOn sep
  rw [← hjoined]
  exact infix_intercalate h

theorem isPrefix_dropReturn (cs : List Char) : dropReturn cs <+: cs := by
  unfold dropReturn
  split
  · rename_i rest hrest
    have hcs : cs = rest.reverse ++ ['\r'] := by simpa using congrArg List.reverse hrest
    rw [hcs]
    exact List.prefix_append ..
  · exact List.prefix_rfl

/-- A line stands somewhere in its text. -/
theorem infix_of_mem_lineList {cs l : List Char} (h : l ∈ lineList cs) : l <:+: cs := by
  have hbody : ∀ l ∈ (pieces '\n' cs).dropLast.map dropReturn, l <:+: cs := by
    intro l hl
    obtain ⟨p, hp, rfl⟩ := List.mem_map.mp hl
    exact (isPrefix_dropReturn p).isInfix.trans
      (infix_of_mem_pieces (List.dropLast_subset _ hp))
  unfold lineList at h
  dsimp only at h
  split at h
  · exact hbody l h
  · exact hbody l h
  · rename_i last _ hlast
    rcases List.mem_append.mp h with h | h
    · exact hbody l h
    · rw [List.mem_singleton.mp h]
      exact infix_of_mem_pieces (List.mem_of_getLast? hlast)

theorem infix_of_mem_lines {s line : String} (h : line ∈ lines s) : line.toList <:+: s.toList := by
  obtain ⟨l, hl, rfl⟩ := List.mem_map.mp h
  rw [String.toList_ofList]
  exact infix_of_mem_lineList hl

theorem dropPrefix_append (start s : String) : dropPrefix start (start ++ s) = some s := by
  have hlist : dropPrefixList start.toList (start ++ s).toList = some s.toList := by
    rw [dropPrefixList_eq_some_iff, String.toList_append]
  rw [dropPrefix, hlist, Option.map_some, String.ofList_toList]

theorem dropSuffix_append (ending s : String) : dropSuffix ending (s ++ ending) = some s := by
  have hlist : dropSuffixList ending.toList (s ++ ending).toList = some s.toList := by
    rw [dropSuffixList_eq_some_iff, String.toList_append]
  rw [dropSuffix, hlist, Option.map_some, String.ofList_toList]

end Text

/-! ## The body of a comment -/

namespace Spelling

/-- Spaces and asterisks may stand in front of a line of a comment. -/
def IsMargin (c : Char) : Prop := c = ' ' ∨ c = '*'

instance (c : Char) : Decidable (IsMargin c) := inferInstanceAs (Decidable (_ ∨ _))

/-- What is left of a line without all spaces and asterisks in front of it. -/
def Unindented (line rest : String) : Prop :=
  (∃ margin, line.toList = margin ++ rest.toList ∧ ∀ c ∈ margin, IsMargin c) ∧
    ∀ c ∈ rest.toList.head?, ¬ IsMargin c

/-- The line without the spaces and asterisks in front of it. -/
def unindent (line : String) : String :=
  String.ofList (line.toList.dropWhile fun c => c = ' ' || c = '*')

/-- The lines of a comment with a body: those of the body, each without what stands in front of it.
None of them closes the comment, and an empty body has none. -/
structure LinesOf (body : String) (ls : List String) : Prop where
  unindented : List.Forall₂ Unindented (Text.lines body) ls
  unclosed : ∀ l ∈ ls, ¬ ['*', '/'] <:+: l.toList
  empty : body = "" → ls = []

section Comments

variable {mark body : String}

/-- An opening mark is found if no longer one stands there. -/
theorem findSome?_commentMarks (hmark : mark ∈ commentMarks) (rest : String)
    (hopen : mark = "/*" → ∀ c ∈ rest.toList.head?, c ≠ '*' ∧ c ≠ '!') :
    commentMarks.findSome? (Text.dropPrefix · (mark ++ rest)) = some rest := by
  have hfound : Text.dropPrefix mark (mark ++ rest) = some rest := Text.dropPrefix_append mark rest
  have hcases : mark = "/**" ∨ mark = "/*!" ∨ mark = "/*" := by simpa [commentMarks] using hmark
  rcases hcases with rfl | rfl | rfl
  · simp [commentMarks, hfound]
  · have hlong : Text.dropPrefix "/**" ("/*!" ++ rest) = none := by
      simp [Text.dropPrefix, Text.dropPrefixList, String.toList_append]
    simp [commentMarks, hlong, hfound]
  · -- the third character of a longer mark would be the first one of the rest
    have hlong : ∀ c, c = '*' ∨ c = '!' →
        Text.dropPrefixList ['/', '*', c] ("/*" ++ rest).toList = none := by
      intro c hc
      cases hrest : rest.toList with
      | nil => simp [Text.dropPrefixList, String.toList_append, hrest]
      | cons d ds =>
          have hd := hopen rfl d (by simp [hrest])
          have hne : c ≠ d := by
            rintro rfl
            exact hc.elim hd.1 hd.2
          simp [Text.dropPrefixList, String.toList_append, hrest, hne]
    have hstars : Text.dropPrefix "/**" ("/*" ++ rest) = none := by
      simpa [Text.dropPrefix] using hlong '*' (.inl rfl)
    have hbang : Text.dropPrefix "/*!" ("/*" ++ rest) = none := by
      simpa [Text.dropPrefix] using hlong '!' (.inr rfl)
    simp [commentMarks, hstars, hbang, hfound]

/-- A comment whose opening mark is found has the lines of its body. -/
theorem commentText_eq (hmark : mark ∈ commentMarks)
    (hopen : mark = "/*" → ∀ c ∈ (body ++ "*/").toList.head?, c ≠ '*' ∧ c ≠ '!') :
    commentText (mark ++ body ++ "*/") =
      .ok ((Text.lines body).map unindent) := by
  have hfound := findSome?_commentMarks hmark (body ++ "*/") hopen
  have hnonempty : (mark ++ body ++ "*/").isEmpty = false := by
    simp [String.isEmpty_iff, Bool.eq_false_iff]
  rw [String.append_assoc] at hnonempty ⊢
  simp only [commentText, hnonempty, hfound, Text.dropSuffix_append, Option.getD_some,
    Bool.false_eq_true, if_false]
  rfl

theorem unindented_unindent (line : String) : Unindented line (unindent line) := by
  rw [Unindented, unindent, String.toList_ofList]
  refine ⟨⟨line.toList.takeWhile fun c => c = ' ' || c = '*', ?_, ?_⟩, ?_⟩
  · exact List.takeWhile_append_dropWhile.symm
  · intro c hc
    simpa [IsMargin] using List.mem_takeWhile_imp hc
  · intro c hc
    simpa [IsMargin] using Text.head?_dropWhile line.toList c hc

theorem Unindented.suffix {line rest : String} (h : Unindented line rest) :
    rest.toList <:+ line.toList := by
  obtain ⟨⟨margin, hline, -⟩, -⟩ := h
  rw [hline]
  exact List.suffix_append ..

/-- Lines that come from the lines of a body close the comment only if the body does. -/
theorem unclosed_of_unindented {ls : List String}
    (h : List.Forall₂ Unindented (Text.lines body) ls) (hclose : ¬ ['*', '/'] <:+: body.toList) :
    ∀ l ∈ ls, ¬ ['*', '/'] <:+: l.toList := by
  intro l hl hmarks
  obtain ⟨line, hline, hrest⟩ := exists_left_of_forall₂ h hl
  exact hclose (hmarks.trans (hrest.suffix.isInfix.trans (Text.infix_of_mem_lines hline)))

/-- A comment of an opening mark, a body that does not close it, and the closing mark has the lines
of the body, unless it is `/**/`: this opens with `/**`, and the slash of its closing mark is left
as a line.  What opens with `/*` here opens with no longer mark because of its body. -/
theorem comment_lines_iff (hmark : mark ∈ commentMarks) (hclose : ¬ ['*', '/'] <:+: body.toList)
    (hopen : mark = "/*" → ∀ c ∈ body.toList.head?, c ≠ '*' ∧ c ≠ '!') :
    ((∃ ls, commentText (mark ++ body ++ "*/") = .ok ls ∧ LinesOf body ls) ↔
      ¬ (mark = "/*" ∧ body = "")) ∧
    (mark = "/*" ∧ body = "" → commentText (mark ++ body ++ "*/") = .ok ["/"]) := by
  have hoverlap : mark = "/*" ∧ body = "" → commentText (mark ++ body ++ "*/") = .ok ["/"] := by
    rintro ⟨rfl, rfl⟩
    decide
  refine ⟨⟨?_, fun h => ?_⟩, hoverlap⟩
  · rintro ⟨ls, hls, hlines⟩ h
    rw [hoverlap h, hlines.empty h.2] at hls
    cases hls
  · have hrest : mark = "/*" → ∀ c ∈ (body ++ "*/").toList.head?, c ≠ '*' ∧ c ≠ '!' := by
      intro hshort c hc
      have hbody : body.toList ≠ [] := by
        intro hnil
        exact h ⟨hshort, String.toList_eq_nil_iff.mp hnil⟩
      rw [String.toList_append, List.head?_append] at hc
      cases hhead : body.toList.head? with
      | none => exact absurd (List.head?_eq_none_iff.mp hhead) hbody
      | some d =>
          rw [hhead] at hc
          cases hc
          exact hopen hshort c hhead
    have hunindented : List.Forall₂ Unindented (Text.lines body)
        ((Text.lines body).map unindent) :=
      List.forall₂_map_right_iff.mpr (List.forall₂_same.mpr fun line _ => unindented_unindent line)
    refine ⟨_, commentText_eq hmark hrest, hunindented, ?_, ?_⟩
    · exact unclosed_of_unindented hunindented hclose
    · rintro rfl
      rfl

theorem comment_lines_iff_starred :
    ∃ ls, commentText ("/**" ++ " speed\r\n ** in knots *" ++ "*/") = .ok ls ∧
      LinesOf " speed\r\n ** in knots *" ls ∧ ls = ["speed", "in knots *"] := by
  have hclose : ¬ ['*', '/'] <:+: " speed\r\n ** in knots *".toList := by
    intro hmarks
    -- there is no slash in the body at all
    exact absurd (hmarks.subset (List.mem_cons_of_mem '*' List.mem_cons_self)) (by decide)
  have hmark : "/**" ∈ commentMarks := by decide
  obtain ⟨ls, hls, hlines⟩ := (comment_lines_iff hmark hclose (by decide)).1.mpr (by decide)
  have heq : commentText ("/**" ++ " speed\r\n ** in knots *" ++ "*/") =
      .ok ["speed", "in knots *"] := by decide
  exact ⟨ls, hls, hlines, Except.ok.inj (hls.symm.trans heq)⟩

/-- The comment `/**/` of the mark `/*` and no body has a line. -/
theorem not_comment_lines :
    ¬ ∃ ls, commentText ("/*" ++ "" ++ "*/") = .ok ls ∧ LinesOf "" ls := by
  rintro ⟨ls, hls, hlines⟩
  rw [hlines.empty rfl] at hls
  exact absurd hls (by decide)

end Comments

end Spelling

end Stencil
