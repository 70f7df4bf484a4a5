import Stencil.Proofs.Template.Warnings
import Stencil.Template.Engine

/-!
# Templates without tags

A template without tags prints its text.  It looks up neither variables nor other
templates, so that nothing around it matters to what it prints.
-/

namespace Stencil.Template

open Report (Reporter)

/-- The text that a statement prints if it does nothing else. -/
def Stmt.plain? : Stmt → Option String
  | .data s | .placed _ (.data s) => some s
  | _ => none

/-- Whether a template has no tags. -/
def Source.isPlain (source : Source) : Bool := source.body.all fun s => s.plain?.isSome

/-- What the texts of a template come to. -/
def Source.plainText (source : Source) : String :=
  (source.body.filterMap Stmt.plain?).foldl (· ++ ·) ""

/-- Whether a text is a template without tags. -/
def isPlain (name text : String) : Bool := (Source.ofText? name text).toOption.any Source.isPlain

theorem exists_source_of_isPlain {name text : String} (h : isPlain name text = true) :
    ∃ source, Source.ofText? name text = .ok source ∧ source.isPlain = true := by
  unfold isPlain at h
  cases hsource : Source.ofText? name text with
  | error e => simp [hsource, Except.toOption] at h
  | ok source => exact ⟨source, rfl, by simpa [hsource, Except.toOption] using h⟩

namespace Run

variable {stmts : List Stmt} {source : Source}

/-- Statements that are texts are printed one after the other, and only the line moves. -/
theorem runAll_of_plain (h : stmts.all (fun s => s.plain?.isSome) = true) :
    ∀ m : Machine, ∃ line, ∀ again env, runAll again stmts env m =
      (.ok (), { m with
        line, out := (stmts.filterMap Stmt.plain?).foldl (· ++ ·) m.out }) := by
  induction stmts with
  | nil =>
      intro m
      refine ⟨m.line, fun again env => ?_⟩
      rw [runAll]
      rfl
  | cons s rest ih =>
      intro m
      simp only [List.all_cons, Bool.and_eq_true] at h
      obtain ⟨hs, hrest⟩ := h
      obtain ⟨text, htext⟩ := Option.isSome_iff_exists.mp hs
      unfold Stmt.plain? at htext
      split at htext
      · cases htext
        obtain ⟨line, hline⟩ := ih hrest { m with out := m.out ++ text }
        refine ⟨line, fun again env => ?_⟩
        rw [runAll, runStmt]
        exact hline again env
      · cases htext
        rename_i place
        obtain ⟨line, hline⟩ := ih hrest { m with line := place, out := m.out ++ text }
        refine ⟨line, fun again env => ?_⟩
        rw [runAll, runStmt, runStmt]
        exact hline again env
      · cases htext

/-- Texts inherit from no template. -/
theorem runLevels_of_plain (n : Nat) (h : stmts.all (fun s => s.plain?.isSome) = true)
    (m : Machine) : ∃ line, ∀ env, runLevels (n + 1) stmts env m =
      (.ok (), { m with
        line, out := (stmts.filterMap Stmt.plain?).foldl (· ++ ·) m.out }) := by
  obtain ⟨line, hrun⟩ := runAll_of_plain h { m with parent := none }
  refine ⟨line, fun env => ?_⟩
  rw [runLevels]
  change (runAll (runLevels n) stmts >>= _) env { m with parent := none } = _
  rw [bind_eq, hrun]
  rfl

/-- A template without tags renders to its text, whatever is around it. -/
theorem renderSource_of_plain (h : source.isPlain = true) (bindings : List (String × Value))
    (m : Machine) : ∃ next : Machine, next.cache = m.cache ∧
      ∀ env, renderSource source bindings env m = (.ok source.plainText, next) := by
  let start : Machine :=
    { m with
      heap := {}, frames := [{ base := .context bindings }], outerDepth := 0,
      template := source.name, line := 1, escape := escapes source.name,
      blocks := blocksOf source, block := none, chain := [], discard := false,
      parent := none, arguments := [], out := "" }
  obtain ⟨line, hrun⟩ := runLevels_of_plain 999 h start
  refine ⟨{ start with line, out := source.plainText }, rfl, fun env => ?_⟩
  unfold renderSource
  change (runLevels levelLimit source.body >>= _) env start = _
  rw [bind_eq, show levelLimit = 999 + 1 from rfl, hrun]
  rfl

/-- A template is taken from those that have been read, or else is read from its file. -/
theorem template?_eq (name : String) (env : Env) (m : Machine) :
    template? name env m =
      match m.cache.lookup name with
      | some source => (.ok (some source), m)
      | none =>
          match sourceText? env name with
          | .error p => (.error ⟨p, []⟩, m)
          | .ok none => (.ok none, m)
          | .ok (some text) =>
              match Source.ofText? name text with
              | .error (f, line) => (.error ⟨.unreadable f, [⟨name, some line⟩]⟩, m)
              | .ok source =>
                  (.ok (some source), { m with cache := m.cache ++ [(name, source)] }) := by
  unfold template?
  rw [bind_eq]
  change (match m.cache.lookup name with
    | some source => _
    | none => _ : Run (Option Source)) env m = _
  cases m.cache.lookup name with
  | some source => rfl
  | none =>
      change (match sourceText? env name with
        | .error p => _
        | .ok none => _
        | .ok (some text) => _ : Run (Option Source)) env m = _
      rcases sourceText? env name with p | text?
      · rfl
      · cases text? with
        | none => rfl
        | some text =>
            dsimp only
            rcases Source.ofText? name text with ⟨f, line⟩ | source <;> rfl

end Run

end Stencil.Template
