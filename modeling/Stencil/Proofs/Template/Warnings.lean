import Stencil.Template.Render

/-!
# Templates only warn

Whatever a template does, all that it leaves in the reports of a run are warnings: the
active templates, the source file and what was logged before stay as they are.  This
holds of a template that fails as well.

A step of a template is composed of smaller steps, and only one of them touches the
reports.  The lemmas about compositions come first; after them every function of the
interpreter has its lemma.
-/

namespace Stencil.Report

/-- The reports are those from before, with warnings added. -/
def Reporter.Warned (before after : Reporter) : Prop :=
  ∃ notes : List (Option String × String),
    after = notes.foldl (fun r note => r.warnAt note.1 note.2) before

namespace Reporter

theorem Warned.refl (r : Reporter) : r.Warned r := ⟨[], rfl⟩

theorem Warned.trans {r s t : Reporter} (h : r.Warned s) (h' : s.Warned t) : r.Warned t := by
  obtain ⟨notes, rfl⟩ := h
  obtain ⟨more, rfl⟩ := h'
  exact ⟨notes ++ more, by rw [List.foldl_append]⟩

theorem warned_warnAt (place : Option String) (message : String) (r : Reporter) :
    r.Warned (r.warnAt place message) :=
  ⟨[(place, message)], rfl⟩

/-- Warnings leave the active templates as they are. -/
theorem Warned.frames {r s : Reporter} (h : r.Warned s) : s.frames = r.frames := by
  obtain ⟨notes, rfl⟩ := h
  induction notes generalizing r with
  | nil => rfl
  | cons note rest ih => exact ih.trans rfl

/-- Warnings do not depend on what the active templates are, apart from their places. -/
theorem Warned.withFrames {r s : Reporter} (h : r.Warned s) (frames : List Frame) :
    Reporter.Warned { r with frames } { s with frames } := by
  obtain ⟨notes, rfl⟩ := h
  refine ⟨notes, ?_⟩
  induction notes generalizing r with
  | nil => rfl
  | cons note rest ih => exact ih

end Reporter

end Stencil.Report

namespace Stencil.Template

open Report (Reporter)

namespace Run

/-- A step that goes on from another one starts with what that one has left, unless that failed. -/
theorem bind_eq {α β : Type} (x : Run α) (f : α → Run β) (env : Env) (m : Machine) :
    (x >>= f) env m = match x env m with
      | (.ok a, next) => f a env next
      | (.error e, next) => (.error e, next) := by
  change ExceptT.bindCont (fun a => f a env) (x env m).1 (x env m).2 = _
  rcases x env m with ⟨r, next⟩
  cases r <;> rfl

/-- All that a step leaves in the reports are warnings, also when it fails. -/
def OnlyWarns {α : Type} (act : Run α) : Prop :=
  ∀ (env : Env) (m : Machine), m.reporter.Warned (act env m).2.reporter

namespace OnlyWarns

variable {α β : Type}

/-! ## Compositions -/

section Compositions

theorem pure (a : α) : OnlyWarns (pure a : Run α) := fun _ m => .refl m.reporter

theorem get : OnlyWarns (get : Run Machine) := fun _ m => .refl m.reporter

theorem read : OnlyWarns (read : Run Env) := fun _ m => .refl m.reporter

theorem throw (e : Fault) : OnlyWarns (throw e : Run α) :=
  fun _ m => .refl m.reporter

theorem modify {f : Machine → Machine} (h : ∀ m, (f m).reporter = m.reporter) :
    OnlyWarns (modify f : Run Unit) := by
  intro env m
  change m.reporter.Warned (f m).reporter
  rw [h]
  exact .refl _

theorem bind {x : Run α} {f : α → Run β} (hx : OnlyWarns x) (hf : ∀ a, OnlyWarns (f a)) :
    OnlyWarns (x >>= f) := by
  intro env m
  have hfirst := hx env m
  rw [bind_eq]
  rcases hx : x env m with ⟨r, next⟩
  rw [hx] at hfirst
  cases r with
  | error e => exact hfirst
  | ok a => exact hfirst.trans (hf a env next)

theorem map {x : Run α} (f : α → β) (hx : OnlyWarns x) : OnlyWarns (f <$> x) :=
  .bind hx fun a => .pure (f a)

theorem ite {c : Prop} [Decidable c] {x y : Run α} (hx : OnlyWarns x) (hy : OnlyWarns y) :
    OnlyWarns (if c then x else y) := by
  split
  · exact hx
  · exact hy

/-- A step after a check that may stop it. -/
theorem guarded {c : Prop} [Decidable c] {stop : Run PUnit} {k : PUnit → Run α}
    (hstop : OnlyWarns stop) (hk : ∀ u, OnlyWarns (k u)) :
    OnlyWarns (if c then stop >>= k else k ⟨⟩) :=
  ite (bind hstop hk) (hk ⟨⟩)

theorem mapM {f : α → Run β} {xs : List α} (hf : ∀ a ∈ xs, OnlyWarns (f a)) :
    OnlyWarns (xs.mapM f) := by
  induction xs with
  | nil => exact pure []
  | cons x xs ih =>
      rw [List.mapM_cons]
      exact .bind (hf x List.mem_cons_self) fun _ =>
        .bind (ih fun a ha => hf a (List.mem_cons_of_mem x ha)) fun _ => .pure _

theorem forM {f : α → Run PUnit} (hf : ∀ a, OnlyWarns (f a)) (xs : List α) :
    OnlyWarns (xs.forM f) := by
  induction xs with
  | nil => exact pure _
  | cons x xs ih => exact (hf x).bind fun _ => ih

theorem foldlM {f : β → α → Run β} (hf : ∀ b a, OnlyWarns (f b a)) (xs : List α) :
    ∀ b, OnlyWarns (xs.foldlM f b) := by
  induction xs with
  | nil => exact pure
  | cons x xs ih =>
      intro b
      rw [List.foldlM_cons]
      exact (hf b x).bind ih

theorem filterM {f : α → Run Bool} (hf : ∀ a, OnlyWarns (f a)) (xs : List α) :
    OnlyWarns (xs.filterM f) := by
  -- the items that have been kept are collected in reverse
  have haux : ∀ kept, OnlyWarns (xs.filterAuxM f kept) := by
    induction xs with
    | nil => exact pure
    | cons x xs ih => exact fun kept => (hf x).bind fun b => ih _
  exact (haux []).bind fun kept => pure kept.reverse

/-- A step that goes on from a state which it has set itself. -/
theorem getSet {f : Machine → Machine} (h : ∀ m, (f m).reporter = m.reporter)
    {k : Machine → Run α} (hk : ∀ m, OnlyWarns (k m)) :
    OnlyWarns (MonadState.get >>= fun m => set (f m) >>= fun _ => k m) := by
  intro env m
  have hlast := hk m env (f m)
  rw [h] at hlast
  exact hlast

end Compositions

/-! ## Places and faults -/

theorem here : OnlyWarns here := .bind .get fun _ => .pure _

theorem raise (p : Problem) : OnlyWarns (raise p : Run α) := .bind .here fun _ => .throw _

theorem lift (r : Except Problem α) : OnlyWarns (lift r) := by
  cases r with
  | ok a => exact .pure a
  | error p => exact .raise p

theorem world : OnlyWarns world := .bind .read fun _ => .bind .get fun _ => .pure _

theorem goto (line : Nat) : OnlyWarns (goto line) := by
  unfold Run.goto
  exact .modify fun _ => rfl

theorem restoring {restore : Machine → Machine → Machine}
    (h : ∀ before m, (restore before m).reporter = m.reporter) {act : Run α}
    (hact : OnlyWarns act) : OnlyWarns (restoring restore act) :=
  .bind .get fun before => .bind hact fun _ => .bind (.modify (h before)) fun _ => .pure _

theorem located {act : Run α} (hact : OnlyWarns act) : OnlyWarns (located act) := by
  intro env m
  have hwarned := hact env m
  unfold Run.located
  rcases hrun : act env m with ⟨r, after⟩
  rw [hrun] at hwarned
  cases r <;> exact hwarned

theorem through {place : Report.Frame} {act : Run α} (hact : OnlyWarns act) :
    OnlyWarns (through place act) := by
  intro env m
  have hwarned := hact env m
  unfold Run.through
  rcases hrun : act env m with ⟨r, after⟩
  rw [hrun] at hwarned
  cases r <;> exact hwarned

/-! ## Output -/

theorem print (s : String) : OnlyWarns (print s) := by
  unfold Run.print
  exact .modify fun _ => rfl

theorem capture {act : Run Unit} (hact : OnlyWarns act) : OnlyWarns (capture act) := by
  unfold Run.capture
  exact .bind .get fun _ => .bind (.modify fun _ => rfl) fun _ => .bind hact fun _ =>
    .bind .get fun _ => .bind (.modify fun _ => rfl) fun _ => .pure _

theorem discarding {act : Run α} (hact : OnlyWarns act) : OnlyWarns (discarding act) := by
  unfold Run.discarding
  refine .restoring ?_ (.bind (.modify fun _ => rfl) fun _ => hact)
  exact fun _ _ => rfl

theorem printedValue (s : String) : OnlyWarns (printedValue s) := .bind .get fun _ => .pure _

theorem emit (v : Value) : OnlyWarns (emit v) := .bind .world fun _ => .bind .get fun _ => .print _

/-! ## Frames -/

theorem checkDepth : OnlyWarns checkDepth := by
  unfold Run.checkDepth
  exact .bind .get fun _ => .ite (.raise _) (.pure _)

theorem push (f : Frame) : OnlyWarns (push f) := by
  unfold Run.push
  exact .bind .checkDepth fun _ => .modify fun _ => rfl

theorem pop : OnlyWarns pop := by
  unfold Run.pop
  refine .getSet ?_ fun m => .pure (m.frames.head?.getD {})
  exact fun _ => rfl

theorem inFrame {f : Frame} {act : Run α} (hact : OnlyWarns act) : OnlyWarns (inFrame f act) :=
  .bind (.push f) fun _ => .bind hact fun _ => .bind .pop fun _ => .pure _

theorem modifyFrame (f : Frame → Frame) : OnlyWarns (modifyFrame f) := by
  unfold Run.modifyFrame
  refine .modify fun m => ?_
  cases m.frames <;> rfl

theorem apart {act : Run α} (hact : OnlyWarns act) : OnlyWarns (apart act) :=
  .bind .get fun _ => .bind (.modifyFrame _) fun _ => .bind hact fun _ =>
    .bind (.modifyFrame _) fun _ => .pure _

theorem ground : OnlyWarns ground := .bind .get fun _ => .pure _

theorem modifyAround (id : Nat) (f : List (String × Value) → List (String × Value)) :
    OnlyWarns (modifyAround id f) := by
  unfold Run.modifyAround
  exact .modify fun _ => rfl

theorem store (name : String) (v : Value) : OnlyWarns (store name v) := by
  unfold Run.store
  refine .bind .get fun m => ?_
  split
  · exact .bind (.modifyAround _ _) fun _ => .modifyFrame _
  · exact .modifyFrame _

theorem load? (name : String) : OnlyWarns (load? name) := by
  unfold Run.load?
  refine .bind .get fun m => ?_
  split
  · exact .pure _
  · exact .bind .read fun _ => .pure _

theorem aroundHere : OnlyWarns aroundHere := by
  unfold Run.aroundHere
  refine .bind .get fun m => ?_
  split
  · exact .pure _
  · exact .bind .get fun _ => .bind (.modify fun _ => rfl) fun _ => .bind (.modifyFrame _) fun _ =>
      .pure _

theorem enclose (id : Nat) (name : String) : OnlyWarns (enclose id name) := by
  unfold Run.enclose
  exact .bind .get fun _ => .ite (.bind (.load? name) fun _ => .modifyAround _ _) (.pure _)

/-! ## Other templates -/

theorem template? (name : String) : OnlyWarns (template? name) := by
  unfold Run.template?
  refine .bind .get fun m => ?_
  split
  · exact .pure _
  · refine .bind .read fun env => ?_
    split
    · exact .throw _
    · exact .pure _
    · split
      · exact .throw _
      · exact .bind (.modify fun _ => rfl) fun _ => .pure _

theorem modifyBlock (name : String) (f : BlockStack → BlockStack) :
    OnlyWarns (modifyBlock name f) := by
  unfold Run.modifyBlock
  exact .modify fun _ => rfl

/-! ## Filters and tests -/

theorem applyTest (name : String) (v : Value) (as : Arguments) :
    OnlyWarns (applyTest name v as) := by
  unfold Template.applyTest
  refine .bind .world fun w => .bind .read fun env => ?_
  split
  · exact .map _ (.lift _)
  · exact .raise _

theorem namedTest? (i : Nat) (as : Arguments) : OnlyWarns (namedTest? i as) := by
  unfold Template.namedTest?
  refine .bind .world fun w => .bind (.lift _) fun name => ?_
  split
  · exact .pure _
  · exact .ite (.pure _) (.raise _)

theorem chosen (keep : Bool) {key : Value → Run Value} (hkey : ∀ v, OnlyWarns (key v))
    (test : Option (String × Arguments)) (items : List Value) :
    OnlyWarns (chosen keep key test items) := by
  refine .filterM (fun item => .bind (hkey item) fun v => ?_) items
  dsimp only
  split
  · exact .bind (.pure _) fun _ => .bind .world fun _ => .pure _
  · exact .bind (.applyTest _ _ _) fun _ => .bind .world fun _ => .pure _

theorem chooseItems (keep : Bool) (v : Value) (as : Arguments) :
    OnlyWarns (chooseItems keep v as) :=
  .bind (.namedTest? 0 as) fun test => .bind .world fun _ => .bind (.lift _) fun items =>
    .bind (.chosen keep (fun _ => .pure _) test items) fun _ => .pure _

theorem chooseByAttribute (keep : Bool) (v : Value) (as : Arguments) :
    OnlyWarns (chooseByAttribute keep v as) :=
  .bind .world fun _ => .bind (.lift _) fun _ => .bind (.namedTest? 1 as) fun test =>
    .bind .world fun _ => .bind (.lift _) fun items =>
      .bind (.chosen keep (fun _ => .bind .world fun _ => .lift _) test items) fun _ => .pure _

theorem mappedAttribute (path other item : Value) : OnlyWarns (mappedAttribute path other item) := by
  unfold Template.mappedAttribute
  refine .bind .world fun w => ?_
  dsimp only
  split
  · exact .pure _
  · exact .pure _
  · exact .raise _
  · exact .pure _

theorem mapAttribute (path v : Value) (as : Arguments) : OnlyWarns (mapAttribute path v as) :=
  .bind (.lift _) fun _ => .bind (.lift _) fun _ => .bind .world fun _ => .bind (.lift _) fun _ =>
    .bind (.mapM fun item _ => .mappedAttribute path _ item) fun _ => .pure _

theorem applyFilterWith {inner : String → Value → Run Value}
    (hinner : ∀ name v, OnlyWarns (inner name v)) (name : String) (v : Value) (as : Arguments) :
    OnlyWarns (applyFilterWith inner name v as) := by
  unfold Template.applyFilterWith
  refine .bind .read fun env => .bind .world fun w => ?_
  split
  · exact .lift _
  · split
    · exact .chooseItems _ _ _
    · exact .chooseItems _ _ _
    · exact .chooseByAttribute _ _ _
    · exact .chooseByAttribute _ _ _
    · exact .mapAttribute _ _ _
    · exact .bind .read fun env => .guarded (.raise _) fun _ => .bind .world fun _ =>
        .bind (.lift _) fun items => .bind (.mapM fun item _ => hinner _ item) fun _ => .pure _
    · exact .raise _
    · exact .raise _
    · exact .raise _

theorem applyFilter (args : List Value) :
    ∀ (name : String) (v : Value) (named : Option (List (String × Value))),
      OnlyWarns (applyFilter name v named args) := by
  induction args with
  | nil => exact fun name v named => .applyFilterWith (fun _ _ => .pure _) name v _
  | cons arg rest ih =>
      exact fun name v named => .applyFilterWith (fun inner item => ih inner item none) name v _

/-! ## Calls -/

section Calls

variable {again : Runner} (hagain : ∀ body, OnlyWarns (again body))

include hagain in
theorem callRoutine (r : Routine) (around : Option Nat) (as : Arguments) :
    OnlyWarns (callRoutine again r around as) := by
  unfold Template.callRoutine
  refine .bind (.lift _) fun bound => .bind .ground fun ground => .bind ?_ fun _ => .printedValue _
  refine .restoring ?_ (.bind (.modify fun _ => rfl) fun _ => .bind .checkDepth fun _ =>
    .capture (hagain _))
  exact fun _ _ => rfl

theorem warn (message : String) : OnlyWarns (warn message) := by
  -- the one step that reports anything
  refine .bind (fun env m => ?_) fun _ => .pure _
  exact Reporter.warned_warnAt (some m.template) message m.reporter

theorem callBuiltin (f : Builtin) (as : Arguments) : OnlyWarns (callBuiltin f as) := by
  unfold Template.callBuiltin
  refine .bind .world fun w => ?_
  have hmessage : OnlyWarns (do
      let text ← Run.lift (as.text w 0)
      Run.lift (as.atMost 1)
      Pure.pure text) := .bind (.lift _) fun _ => .bind (.lift _) fun _ => .pure _
  cases f with
  | range => exact .lift _
  | makeMap => exact .bind (.lift _) fun _ => .pure _
  | makeNamespace =>
      exact .bind (.lift _) fun _ => .bind .get fun _ => .bind (.modify fun _ => rfl) fun _ => .pure _
  | debug =>
      dsimp only
      split <;> exact .pure _
  | fail => exact .bind hmessage fun _ => .raise _
  -- a warning and a notice about a filter
  | _ => exact .bind hmessage fun _ => .warn _

include hagain in
theorem callValue (f : Value) (as : Arguments) : OnlyWarns (callValue again f as) := by
  unfold Template.callValue
  split
  · exact .callRoutine hagain _ _ as
  · exact .callBuiltin _ as
  · exact .raise _
  · exact .raise _

include hagain in
theorem callMethod (v : Value) (name : String) (as : Arguments) :
    OnlyWarns (callMethod again v name as) := by
  unfold Template.callMethod
  refine .bind .world fun w => ?_
  split
  · exact .bind (.modify fun _ => rfl) fun _ => .pure _
  · exact .ite (.bind (.raise _) fun _ => .pure _) (.pure _)
  · exact .raise _
  · exact .raise _
  · split
    · exact .callValue hagain _ as
    · exact .raise _

include hagain in
theorem superBlock : OnlyWarns (superBlock again) := by
  unfold Template.superBlock
  refine .bind .get fun m => .bind .here fun place => ?_
  split
  · split
    · split
      · refine .bind (.restoring ?_ (.bind (.modifyBlock _ _) fun _ =>
          .bind (.modify fun _ => rfl) fun _ => .capture (.inFrame (.through (hagain _)))))
          fun _ => .bind (.modifyBlock _ _) fun _ => .printedValue _
        exact fun _ _ => rfl
      · exact .raise _
    · exact .raise _
  · exact .raise _

include hagain in
theorem renderBlock (name : String) : OnlyWarns (renderBlock again name) := by
  unfold Template.renderBlock
  refine .bind .get fun m => ?_
  split
  · split
    · refine .restoring ?_ (.bind (.push _) fun _ => .bind (.modify fun _ => rfl) fun _ =>
        .bind (hagain _) fun _ => .bind .pop fun _ => .pure _)
      exact fun _ _ => rfl
    · exact .raise _
  · exact .raise _

include hagain in
theorem recurse (items : Value) : OnlyWarns (recurse again items) := by
  unfold Template.recurse
  refine .bind .get fun m => ?_
  split
  · split
    · refine .bind (.restoring ?_ (.capture (.inFrame (hagain _)))) fun _ => .printedValue _
      exact fun _ _ => rfl
    · exact .raise _
  · exact .raise _

include hagain in
theorem callName (name : String) (as : Arguments) : OnlyWarns (callName again name as) := by
  unfold Template.callName
  split
  · exact .ite (.superBlock hagain) (.raise _)
  · split
    · exact .recurse hagain _
    · exact .raise _
  · refine .bind (.load? _) fun found => ?_
    split
    · exact .callValue hagain _ as
    · exact .raise _

end Calls

/-! ## Expressions -/

theorem gatherArgs (args : List Arg) {values : Run (List PlacedValue)}
    {names : Run (List NamedValue)} (hvalues : OnlyWarns values) (hnames : OnlyWarns names) :
    OnlyWarns (gatherArgs args values names) := by
  unfold Template.gatherArgs
  refine .bind hvalues fun placed => .bind .get fun m => .bind hnames fun passed => ?_
  refine .guarded (.goto _) fun _ => ?_
  dsimp only
  refine .ite (.bind (.pure _) fun _ => ?_)
    (.bind .world fun _ => .bind (.map _ (.lift _)) fun _ => ?_)
  all_goals exact .bind .world fun _ => .bind (.lift _) fun _ => .pure _

theorem readPairs {keys values : List (Run Value)} (hkeys : ∀ key ∈ keys, OnlyWarns key)
    (hvalues : ∀ value ∈ values, OnlyWarns value) : OnlyWarns (readPairs keys values) := by
  unfold Template.readPairs
  refine .mapM fun pair hpair => ?_
  obtain ⟨hkey, hvalue⟩ := List.of_mem_zip hpair
  exact .bind (hkeys _ hkey) fun _ => .bind (hvalues _ hvalue) fun _ => .pure _

theorem holdChain {rest : List (BinaryOp × Run Value)} (hrest : ∀ next ∈ rest, OnlyWarns next.2) :
    ∀ left, OnlyWarns (holdChain left rest) := by
  induction rest with
  | nil => exact fun left => .pure true
  | cons next rest ih =>
      intro left
      have hlater := ih fun next hnext => hrest next (List.mem_cons_of_mem _ hnext)
      exact .bind (hrest next List.mem_cons_self) fun right => .bind .world fun _ =>
        .bind (.lift _) fun _ => .bind .world fun _ => .ite (hlater right) (.pure _)

mutual
theorem eval {again : Runner} (hagain : ∀ body, OnlyWarns (again body)) :
    ∀ e : Expr, OnlyWarns (eval again e)
  | .placed line e => by
      rw [Template.eval]
      refine .bind (.goto line) fun _ => ?_
      split
      · exact .pure _
      · exact eval hagain e
  | .var name => by
      rw [Template.eval]
      exact .bind (.load? name) fun _ => .pure _
  | .const c => by
      rw [Template.eval]
      exact .pure _
  | .list items => by
      rw [Template.eval]
      exact .bind (.mapM (evals hagain items)) fun _ => .pure _
  | .map keys values => by
      rw [Template.eval]
      exact .bind (.readPairs (evals hagain keys) (evals hagain values)) fun _ =>
        .bind .world fun _ => .pure _
  | .unary .not e => by
      rw [Template.eval]
      exact .bind (eval hagain e) fun _ => .bind .world fun _ => .pure _
  | .unary .negate e => by
      rw [Template.eval]
      refine .bind .get fun _ => .bind (eval hagain e) fun v => ?_
      split
      · exact .pure _
      · exact .bind (.goto _) fun _ => .raise _
  | .chain first ops rest => by
      rw [Template.eval]
      have hrest : ∀ next ∈ ops.zip (Template.evals again rest), OnlyWarns next.2 :=
        fun next hnext => evals hagain rest next.2 (List.of_mem_zip hnext).2
      exact .bind .get fun _ => .bind (eval hagain first) fun _ => .bind (.holdChain hrest _) fun _ =>
        .bind (.goto _) fun _ => .pure _
  | .filter name e args => by
      rw [Template.eval]
      exact .bind (eval hagain e) fun _ =>
        .bind (.gatherArgs args (evalValues hagain args) (evalNames hagain args)) fun _ =>
          .applyFilter _ _ _ _
  | .choose test yes no => by
      rw [Template.eval]
      exact .bind .get fun _ => .bind (eval hagain test) fun _ => .bind .world fun _ =>
        .ite (.bind (eval hagain yes) fun _ => .bind (.goto _) fun _ => .pure _)
          (.bind (evalOption hagain _ no) fun _ => .bind (.goto _) fun _ => .pure _)
  | .test name e args => by
      rw [Template.eval]
      exact .bind (eval hagain e) fun _ =>
        .bind (.gatherArgs args (evalValues hagain args) (evalNames hagain args)) fun _ =>
          .bind (.applyTest _ _ _) fun _ => .pure _
  | .attribute e name => by
      rw [Template.eval]
      exact .bind (eval hagain e) fun _ => .bind .world fun _ => .lift _
  | .item e key => by
      rw [Template.eval]
      exact .bind (eval hagain e) fun _ => .bind (eval hagain key) fun _ => .bind .world fun _ =>
        .lift _
  | .slice e start stop step => by
      rw [Template.eval]
      exact .bind (eval hagain e) fun _ => .bind (evalOption hagain _ start) fun _ =>
        .bind (evalOption hagain _ stop) fun _ => .bind (evalOption hagain _ step) fun _ => .lift _
  | .call f args => by
      rw [Template.eval]
      exact .bind (eval hagain f) fun _ =>
        .bind (.gatherArgs args (evalValues hagain args) (evalNames hagain args)) fun _ =>
          .callValue hagain _ _
  | .callName name args => by
      rw [Template.eval]
      exact .bind (.gatherArgs args (evalValues hagain args) (evalNames hagain args)) fun _ =>
        .callName hagain _ _
  | .callMethod e name args => by
      rw [Template.eval]
      exact .bind (eval hagain e) fun _ =>
        .bind (.gatherArgs args (evalValues hagain args) (evalNames hagain args)) fun _ =>
          .callMethod hagain _ _ _
  | .ownBlock name => by
      rw [Template.eval]
      exact .bind (.capture (.renderBlock hagain name)) fun _ => .printedValue _
  | .binary op l r => by
      cases op with
      | and =>
          rw [Template.eval]
          exact .bind .get fun _ => .bind (eval hagain l) fun _ => .bind .world fun _ =>
            .ite (.bind (eval hagain r) fun _ => .bind (.goto _) fun _ => .pure _)
              (.bind (.pure _) fun _ => .bind (.goto _) fun _ => .pure _)
      | or =>
          rw [Template.eval]
          exact .bind .get fun _ => .bind (eval hagain l) fun _ => .bind .world fun _ =>
            .ite (.bind (.pure _) fun _ => .bind (.goto _) fun _ => .pure _)
              (.bind (eval hagain r) fun _ => .bind (.goto _) fun _ => .pure _)
      | _ =>
          rw [Template.eval]
          · exact .bind (eval hagain l) fun _ => .bind (eval hagain r) fun _ => .bind .world fun _ =>
              .lift _
          all_goals simp

theorem evals {again : Runner} (hagain : ∀ body, OnlyWarns (again body)) :
    ∀ es : List Expr, ∀ act ∈ evals again es, OnlyWarns act
  | [], act, hact => by
      rw [Template.evals] at hact
      cases hact
  | e :: rest, act, hact => by
      rw [Template.evals] at hact
      rcases List.mem_cons.mp hact with rfl | hact
      · exact eval hagain e
      · exact evals hagain rest act hact

theorem evalOption {again : Runner} (hagain : ∀ body, OnlyWarns (again body)) (other : Value) :
    ∀ e : Option Expr, OnlyWarns (evalOption again other e)
  | none => by
      rw [Template.evalOption]
      exact .pure _
  | some e => by
      rw [Template.evalOption]
      exact eval hagain e

theorem evalValues {again : Runner} (hagain : ∀ body, OnlyWarns (again body)) :
    ∀ args : List Arg, OnlyWarns (evalValues again args)
  | [] => by
      rw [Template.evalValues]
      exact .pure _
  | .value e :: rest => by
      rw [Template.evalValues]
      exact .bind (eval hagain e) fun _ => .bind (evalValues hagain rest) fun _ => .pure _
  | .spread e :: rest => by
      rw [Template.evalValues]
      exact .bind (eval hagain e) fun _ => .bind (evalValues hagain rest) fun _ => .pure _
  | .named _ _ :: rest => by
      rw [Template.evalValues]
      exact evalValues hagain rest
      all_goals simp
  | .spreadNamed _ :: rest => by
      rw [Template.evalValues]
      exact evalValues hagain rest
      all_goals simp

theorem evalNames {again : Runner} (hagain : ∀ body, OnlyWarns (again body)) :
    ∀ args : List Arg, OnlyWarns (evalNames again args)
  | [] => by
      rw [Template.evalNames]
      exact .pure _
  | .named _ e :: rest => by
      rw [Template.evalNames]
      exact .bind (eval hagain e) fun _ => .bind (evalNames hagain rest) fun _ => .pure _
  | .spreadNamed e :: rest => by
      rw [Template.evalNames]
      exact .bind (eval hagain e) fun _ => .bind (evalNames hagain rest) fun _ => .pure _
  | .value _ :: rest => by
      rw [Template.evalNames]
      exact evalNames hagain rest
      all_goals simp
  | .spread _ :: rest => by
      rw [Template.evalNames]
      exact evalNames hagain rest
      all_goals simp
end

/-! ## Statements -/

theorem assignAttribute (base : String) (path : List String) (name : String) (v : Value) :
    OnlyWarns (assignAttribute base path name v) := by
  unfold Template.assignAttribute
  refine .bind (.load? base) fun start =>
    .bind (.foldlM (fun _ _ => .bind .world fun _ => .lift _) path _) fun object => ?_
  split
  · exact .modify fun _ => rfl
  · exact .raise _

mutual
theorem assign (v : Value) : ∀ t : Target, OnlyWarns (assign v t)
  | .placed line t => by
      rw [Template.assign]
      exact .bind (.goto line) fun _ => assign v t
  | .name s => by
      rw [Template.assign]
      exact .store s v
  | .attribute base path name => by
      rw [Template.assign]
      exact .assignAttribute base path name v
  | .unpack targets => by
      rw [Template.assign]
      refine .bind .world fun w => ?_
      split
      · exact assignItems _ _ _ targets
      · exact assignItems _ _ _ targets
      · exact .raise _

theorem assignItems (expected : Nat) (all : List Value) :
    ∀ (items : List Value) (targets : List Target),
      OnlyWarns (assignItems expected all items targets)
  | v :: rest, t :: targets => by
      rw [Template.assignItems]
      exact .guarded (.raise _) fun _ =>
        .bind (assign v t) fun _ => assignItems expected all rest targets
  | [], [] => by
      rw [Template.assignItems]
      exact .pure _
  | [], _ :: _ => by
      rw [Template.assignItems]
      · exact .raise _
      all_goals simp
  | _ :: _, [] => by
      rw [Template.assignItems]
      · exact .raise _
      all_goals simp
end

theorem defineRoutine (name : String) (params captures : List String) (usesCaller : Bool)
    (body : List Stmt) : OnlyWarns (defineRoutine name params captures usesCaller body) := by
  unfold Template.defineRoutine
  exact .bind .get fun _ => .ite (.bind .get fun _ => .pure _)
    (.bind .aroundHere fun _ => .bind (.forM (.enclose _) _) fun _ => .pure _)

theorem firstTemplate (choices : List Value) : OnlyWarns (firstTemplate choices) := by
  induction choices with
  | nil => exact .pure none
  | cons v rest ih =>
      unfold Template.firstTemplate
      split
      · refine .bind (.located (.template? _)) fun found => ?_
        split
        · exact .pure _
        · exact ih
      · exact .raise _

theorem inheritFrom (v : Value) : OnlyWarns (inheritFrom v) := by
  unfold Template.inheritFrom
  refine .bind .get fun m => ?_
  refine .guarded (.raise _) fun _ => ?_
  split
  · refine .guarded (.raise _) fun _ => .bind (.located (.template? _)) fun found => ?_
    split
    · exact .modify fun _ => rfl
    · exact .raise _
  · exact .raise _

theorem openLoop (items : List Value) (sized : Bool) (stmt : Option Stmt) :
    OnlyWarns (openLoop items sized stmt) := by
  unfold Template.openLoop
  refine .getSet ?_ fun m => .pure m.heap.loops.size
  exact fun _ => rfl

theorem moveLoop (id index : Nat) : OnlyWarns (moveLoop id index) := by
  unfold Template.moveLoop
  exact .modify fun _ => rfl

section Statements

variable {again : Runner} (hagain : ∀ body, OnlyWarns (again body))

include hagain

theorem evalApart (e : Expr) : OnlyWarns (evalApart again e) := by
  unfold Template.evalApart
  exact .bind .get fun _ => .bind (.eval hagain e) fun _ => .bind (.goto _) fun _ => .pure _

theorem applyCalls (calls : List FilterCall) (v : Value) :
    OnlyWarns (applyCalls again calls v) := by
  unfold Template.applyCalls Template.evalArgs
  refine .foldlM (fun v call => ?_) calls v
  exact .bind (.goto _) fun _ =>
    .bind (.gatherArgs call.args (.evalValues hagain _) (.evalNames hagain _)) fun _ =>
      .applyFilter _ _ _ _

theorem insertTemplate (v : Value) (ignoreMissing : Bool) :
    OnlyWarns (insertTemplate again v ignoreMissing) := by
  unfold Template.insertTemplate
  refine .bind .world fun w => .bind .here fun place => .bind (.firstTemplate _) fun found => ?_
  split
  · refine .restoring ?_ (.bind (.modify fun _ => rfl) fun _ => .bind .checkDepth fun _ =>
      .apart (.through (hagain _)))
    exact fun _ _ => rfl
  · split
    · exact .pure _
    · exact .pure _
    · exact .raise _
    · exact .raise _

end Statements

mutual
theorem runStmt {again : Runner} (hagain : ∀ body, OnlyWarns (again body)) :
    ∀ stmt : Stmt, OnlyWarns (runStmt again stmt)
  | .placed line s => by
      rw [Template.runStmt]
      exact .bind (.goto line) fun _ => runStmt hagain s
  | .data s => by
      rw [Template.runStmt]
      exact .print s
  | .emit e => by
      rw [Template.runStmt]
      exact .bind (.eval hagain e) fun _ => .emit _
  | .choose test yes no => by
      rw [Template.runStmt]
      exact .bind (.eval hagain test) fun _ => .bind .world fun _ =>
        .ite (runAll hagain yes) (runAll hagain no)
  | .assign target value => by
      rw [Template.runStmt]
      exact .bind (.eval hagain value) fun _ => .assign _ target
  | .assignBlock target filters body => by
      rw [Template.runStmt]
      exact .bind (.capture (runAll hagain body)) fun _ => .bind (.printedValue _) fun _ =>
        .bind (.applyCalls hagain filters _) fun _ => .assign _ target
  | .escaping mode body => by
      rw [Template.runStmt]
      refine .bind (.eval hagain mode) fun _ => .bind .world fun _ => .bind (.lift _) fun _ =>
        .restoring ?_ (.bind (.modify fun _ => rfl) fun _ => runAll hagain body)
      exact fun _ _ => rfl
  | .filtered filters body => by
      rw [Template.runStmt]
      exact .bind (.capture (runAll hagain body)) fun _ => .bind (.printedValue _) fun _ =>
        .bind (.applyCalls hagain filters _) fun _ => .emit _
  | .block name required _ => by
      rw [Template.runStmt]
      exact .bind .get fun _ => .ite
        (.guarded (.raise _) fun _ => .renderBlock hagain name) (.pure _)
  | .inherit source => by
      rw [Template.runStmt]
      exact .bind (.evalApart hagain source) fun _ => .inheritFrom _
  | .insert source ignoreMissing => by
      rw [Template.runStmt]
      exact .bind (.evalApart hagain source) fun _ => .insertTemplate hagain _ ignoreMissing
  | .importAll source target => by
      rw [Template.runStmt]
      exact .bind (.push _) fun _ => .bind (.evalApart hagain source) fun _ =>
        .bind (.capture (.insertTemplate hagain _ false)) fun _ => .bind .pop fun _ =>
          .assign _ target
  | .run e => by
      rw [Template.runStmt]
      exact .bind (.eval hagain e) fun _ => .pure _
  | .routine name params captures usesCaller body => by
      rw [Template.runStmt]
      exact .bind (.defineRoutine _ _ _ _ _) fun _ => .store name _
  | .callBlock call params captures usesCaller body => by
      rw [Template.runStmt]
      exact .bind (.defineRoutine _ _ _ _ _) fun _ =>
        .bind (.inFrame (.eval hagain call)) fun _ => .emit _
  | .scope targets values body => by
      rw [Template.runStmt]
      refine .bind (.push _) fun _ => .bind (.forM ?_ _) fun _ =>
        .bind (runAll hagain body) fun _ => .bind .pop fun _ => .pure _
      exact fun pair => .bind (.eval hagain pair.2) fun _ => .assign _ pair.1
  | .importNames source names => by
      rw [Template.runStmt]
      refine .bind (.discarding ?_) fun values => .forM ?_ _
      · refine .bind (.push _) fun _ => .bind (.evalApart hagain source) fun _ =>
          .bind (.insertTemplate hagain _ false) fun _ => .bind (.mapM ?_) fun _ =>
            .bind .pop fun _ => .pure _
        exact fun pair _ => .bind (.load? pair.1) fun _ => .pure _
      · exact fun pair => .store pair.1 pair.2
  | .param name default => by
      rw [Template.runStmt]
      refine .bind .get fun m => ?_
      dsimp only
      split
      · exact .bind (.evalOption hagain _ default) fun _ => .store name _
      · exact .bind (.pure _) fun _ => .store name _
  | .loop target items only recursive body otherwise => by
      rw [Template.runStmt]
      refine .bind (.eval hagain items) fun v => .bind .world fun _ => .bind (.lift _) fun all => ?_
      have hloop : ∀ kept, OnlyWarns (do
          let id ← Template.openLoop kept (v.isSized || only.isSome)
            (if recursive then some (.loop target (.var itemsName) none recursive body []) else none)
          Run.inFrame { loop := some id } <| kept.zipIdx.forM fun (item, index) => do
            Template.moveLoop id index
            Template.assign item target
            Template.runAll again body
          if kept.isEmpty then Template.runAll again otherwise) := by
        intro kept
        refine .bind (.openLoop _ _ _) fun id => .bind (.inFrame (.forM ?_ _)) fun _ =>
          .ite (runAll hagain otherwise) (.pure _)
        exact fun item => .bind (.moveLoop id item.2) fun _ => .bind (.assign item.1 target) fun _ =>
          runAll hagain body
      dsimp only
      split
      · exact .bind (.pure _) hloop
      · refine .bind (.inFrame (.filterM ?_ all)) hloop
        exact fun item => .bind (.assign item target) fun _ => .bind (.eval hagain _) fun _ =>
          .bind .world fun _ => .pure _

theorem runAll {again : Runner} (hagain : ∀ body, OnlyWarns (again body)) :
    ∀ stmts : List Stmt, OnlyWarns (runAll again stmts)
  | [] => by
      rw [Template.runAll]
      exact .pure _
  | s :: rest => by
      rw [Template.runAll]
      exact .bind (runStmt hagain s) fun _ => runAll hagain rest
end

theorem runLevels (levels : Nat) : ∀ stmts, OnlyWarns (runLevels levels stmts) := by
  induction levels with
  | zero => exact fun stmts => .raise .nestingLimit
  | succ n ih =>
      intro stmts
      unfold Template.runLevels
      refine .bind .get fun _ => .bind (.modify fun _ => rfl) fun _ => .bind (.runAll ih stmts) fun _ =>
        .bind .get fun m => ?_
      dsimp only
      split
      · exact .modify fun _ => rfl
      · exact .bind (.modify fun _ => rfl) fun _ => .bind (ih _) fun _ => .modify fun _ => rfl

/-- Rendering a template leaves nothing but warnings in the reports, whether it succeeds or fails. -/
theorem renderSource (source : Source) (bindings : List (String × Value)) :
    OnlyWarns (renderSource source bindings) := by
  unfold Template.renderSource
  exact .bind (.modify fun _ => rfl) fun _ => .bind (.runLevels _ _) fun _ => .bind .get fun _ =>
    .pure _

end OnlyWarns
end Run
end Stencil.Template
