import Stencil.Decimal.Read
import Stencil.Proofs.Spelling.Conforming
import Stencil.Proofs.Text.Cut

/-!
# Texts in string literals

A text stands between `u"` and `"_s` in the generated code, where the escape rules of string
literals with 16-bit units apply.  The initializer of a text is faithful if its literal ends
where it should and is read back as the units of the text.  A text that is written into a
`string` has its backslashes doubled; one that is written into a `var` stands there as it is.
-/

namespace Stencil.Spelling

open Model (Symbol)

/-! ## Reading a literal -/

/-- The 16-bit units of a code point, two of them above the first plane. -/
def unitsOf (code : Nat) : List Nat :=
  if code < 0x10000 then [code]
  else [0xd800 + (code - 0x10000) / 0x400, 0xdc00 + (code - 0x10000) % 0x400]

/-- The 16-bit units of a text. -/
def textUnits (cs : List Char) : List Nat := cs.flatMap fun c => unitsOf c.toNat

@[simp]
theorem textUnits_nil : textUnits [] = [] := rfl

@[simp]
theorem textUnits_cons (c : Char) (cs : List Char) :
    textUnits (c :: cs) = unitsOf c.toNat ++ textUnits cs := by
  simp [textUnits]

@[simp]
theorem textUnits_append (cs ds : List Char) :
    textUnits (cs ++ ds) = textUnits cs ++ textUnits ds := by
  simp [textUnits]

/-- A character that ends a line of code. -/
def breaksLine (c : Char) : Bool := c = '\n' || c = '\r'

/-- The letters that make an escape of two characters, with the unit it stands for. -/
def shortEscapes : List (Char × Nat) :=
  [('\'', 39), ('"', 34), ('?', 63), ('\\', 92), ('a', 7), ('b', 8), ('f', 12), ('n', 10),
    ('r', 13), ('t', 9), ('v', 11)]

/-- Where a reader stands between the quotes of a literal. -/
inductive Place where
  | text
  /-- Behind a backslash. -/
  | escape
  /-- Behind octal digits; so many more may follow. -/
  | octal (value more : Nat)
  /-- Behind `\x` and the hexadecimal digits that are there already. -/
  | hex (value : Option Nat)
  /-- Behind `\u` or `\U`; so many digits are to come. -/
  | universal (value missing : Nat)
  deriving DecidableEq, Repr

/-- What a character does: it closes the literal or leads on, after the units that are complete
with it. -/
inductive Move where
  | close (units : List Nat)
  | lead (units : List Nat) (next : Place)
  deriving DecidableEq, Repr

/-- A character of the text itself, after units that are complete before it. -/
def textMove (units : List Nat) (c : Char) : Option Move :=
  if c = '"' then some (.close units)
  else if c = '\\' then some (.lead units .escape)
  else if breaksLine c then none
  else some (.lead (units ++ unitsOf c.toNat) .text)

/-- A character behind a backslash. -/
def escapeMove (c : Char) : Option Move :=
  match shortEscapes.lookup c with
  | some unit => some (.lead [unit] .text)
  | none =>
      if c = 'x' then some (.lead [] (.hex none))
      else if c = 'u' then some (.lead [] (.universal 0 4))
      else if c = 'U' then some (.lead [] (.universal 0 8))
      else (Decimal.digitValue? 8 c).map fun d => .lead [] (.octal d 2)

/-- A character behind octal digits, of which there are at most three. -/
def octalMove (value more : Nat) (c : Char) : Option Move :=
  match more, Decimal.digitValue? 8 c with
  | more + 1, some d => some (.lead [] (.octal (value * 8 + d) more))
  | _, _ => textMove [value] c

/-- A character behind `\x`, where at least one digit has to stand; all digits together make a unit.
-/
def hexMove (value : Option Nat) (c : Char) : Option Move :=
  match value, Decimal.digitValue? 16 c with
  | some value, some d => some (.lead [] (.hex (some (value * 16 + d))))
  | none, some d => some (.lead [] (.hex (some d)))
  | some value, none => if value < 0x10000 then textMove [value] c else none
  | none, none => none

/-- A digit behind `\u` or `\U`; the last one completes a code point, which is no half of a pair. -/
def universalMove (value missing : Nat) (c : Char) : Option Move :=
  match Decimal.digitValue? 16 c with
  | none => none
  | some d =>
      let code := value * 16 + d
      if 1 < missing then some (.lead [] (.universal code (missing - 1)))
      else if code < 0xd800 ∨ 0xe000 ≤ code ∧ code < 0x110000 then some (.lead (unitsOf code) .text)
      else none

/-- The move of the next character, if a literal may go on with it. -/
def Place.move : Place → Char → Option Move
  | .text => textMove []
  | .escape => escapeMove
  | .octal value more => octalMove value more
  | .hex value => hexMove value
  | .universal value missing => universalMove value missing

/-- The units of a literal that is read on from a place, and what follows its closing quote. -/
def readLiteral : Place → List Char → Option (List Nat × List Char)
  | _, [] => none
  | p, c :: rest =>
      match p.move c with
      | none => none
      | some (.close units) => some (units, rest)
      | some (.lead units next) =>
          (readLiteral next rest).map (Prod.map (units ++ ·) id)

example : readLiteral .text "a\\x41\\101\\u00e4\\n\"_s".toList =
    some ([97, 65, 65, 228, 10], "_s".toList) := by decide

/-- Whether a body has no double quote but behind a backslash that escapes it, and no line break. -/
def isSealed : List Char → Bool
  | [] => true
  | '\\' :: c :: rest => !breaksLine c && isSealed rest
  | c :: rest => c ≠ '"' && !breaksLine c && isSealed rest

/-- A body of a literal that stands for a text: the literal ends at the quote behind the body,
whatever follows, and its units are those of the text. -/
structure Faithful (body text : String) : Prop where
  closed : isSealed body.toList = true
  reads : ∀ rest, readLiteral .text (body.toList ++ '"' :: rest) =
    some (textUnits text.toList, rest)

/-! ## An escape is longer than what it stands for -/

theorem length_unitsOf (code : Nat) :
    0 < (unitsOf code).length ∧ (unitsOf code).length ≤ 2 := by
  unfold unitsOf
  split <;> simp

/-- The units that an escape may still give beyond those of the characters to come. -/
def Place.owed : Place → Nat
  | .text | .escape => 0
  | .octal .. | .hex _ | .universal .. => 1

/-- The units that a move gives, those that it leaves owed and the closing quote. -/
def Move.size : Move → Nat
  | .close units => units.length + 1
  | .lead units next => units.length + next.owed

theorem size_textMove {units : List Nat} {c : Char} {move : Move}
    (h : textMove units c = some move) :
    move.size ≤ units.length + (unitsOf c.toNat).length := by
  have hc := (length_unitsOf c.toNat).1
  unfold textMove at h
  split_ifs at h <;> cases h
  · simp only [Move.size]
    omega
  · simp only [Move.size, Place.owed]
    omega
  · simp [Move.size, Place.owed]

theorem size_escapeMove {c : Char} {move : Move} (h : escapeMove c = some move) :
    move.size ≤ (unitsOf c.toNat).length := by
  have hc := (length_unitsOf c.toNat).1
  suffices hone : move.size = 1 by omega
  unfold escapeMove at h
  split at h
  · cases h
    rfl
  · split_ifs at h
    · cases h
      rfl
    · cases h
      rfl
    · cases h
      rfl
    · obtain ⟨d, -, hd⟩ := Option.map_eq_some_iff.mp h
      cases hd
      rfl

theorem size_octalMove {value more : Nat} {c : Char} {move : Move}
    (h : octalMove value more c = some move) :
    move.size ≤ 1 + (unitsOf c.toNat).length := by
  unfold octalMove at h
  split at h
  · cases h
    simp [Move.size, Place.owed]
  · exact size_textMove h

theorem size_hexMove {value : Option Nat} {c : Char} {move : Move}
    (h : hexMove value c = some move) : move.size ≤ 1 + (unitsOf c.toNat).length := by
  unfold hexMove at h
  split at h
  · cases h
    simp [Move.size, Place.owed]
  · cases h
    simp [Move.size, Place.owed]
  · split_ifs at h
    exact size_textMove h
  · cases h

theorem size_universalMove {value missing : Nat} {c : Char} {move : Move}
    (h : universalMove value missing c = some move) :
    move.size ≤ 1 + (unitsOf c.toNat).length := by
  have hc := (length_unitsOf c.toNat).1
  unfold universalMove at h
  split at h
  · cases h
  · rename_i d _
    dsimp only at h
    split_ifs at h <;> cases h
    · simp [Move.size, Place.owed]
    · have hcode := (length_unitsOf (value * 16 + d)).2
      simp only [Move.size, Place.owed]
      omega

/-- No move gives more than was owed before it and the character itself. -/
theorem size_move {p : Place} {c : Char} {move : Move} (h : p.move c = some move) :
    move.size ≤ p.owed + (unitsOf c.toNat).length := by
  cases p with
  | text => exact size_textMove h
  | escape => simpa [Place.owed] using size_escapeMove h
  | octal value more => exact size_octalMove h
  | hex value => exact size_hexMove h
  | universal value missing => exact size_universalMove h

/-- The units of a text that is read, with the closing quote and what follows it. -/
theorem length_readLiteral {p : Place} {cs rest : List Char} {units : List Nat}
    (h : readLiteral p cs = some (units, rest)) :
    units.length + 1 + (textUnits rest).length ≤ p.owed + (textUnits cs).length := by
  induction cs generalizing p units with
  | nil => cases h
  | cons c cs ih =>
      rw [textUnits_cons, List.length_append]
      unfold readLiteral at h
      split at h
      · cases h
      · rename_i us hmove
        cases h
        have hsize := size_move hmove
        simp only [Move.size] at hsize
        omega
      · rename_i us next hmove
        obtain ⟨⟨others, after⟩, hothers, heq⟩ := Option.map_eq_some_iff.mp h
        cases heq
        have hsize := size_move hmove
        have hrest := ih hothers
        simp only [Move.size] at hsize
        rw [List.length_append]
        omega

/-! ## Bodies that are read back -/

theorem readLiteral_lead {p next : Place} {c : Char} {units : List Nat}
    (h : p.move c = some (.lead units next)) (cs : List Char) :
    readLiteral p (c :: cs) = (readLiteral next cs).map (Prod.map (units ++ ·) id) := by
  rw [readLiteral, h]

/-- A character that may stand in a literal as it is, a backslash apart. -/
def MayStand (c : Char) : Prop := c ≠ '"' ∧ breaksLine c = false

instance (c : Char) : Decidable (MayStand c) := inferInstanceAs (Decidable (_ ∧ _))

theorem readLiteral_plain {c : Char} (hc : MayStand c) (hback : c ≠ '\\') (cs : List Char) :
    readLiteral .text (c :: cs) =
      (readLiteral .text cs).map (Prod.map (unitsOf c.toNat ++ ·) id) := by
  refine readLiteral_lead ?_ cs
  simp [Place.move, textMove, hc.1, hc.2, hback]

/-- Two backslashes are read as one. -/
theorem readLiteral_backslashes (cs : List Char) :
    readLiteral .text ('\\' :: '\\' :: cs) =
      (readLiteral .text cs).map (Prod.map (unitsOf '\\'.toNat ++ ·) id) := by
  have hfirst : Place.text.move '\\' = some (.lead [] .escape) := by decide
  have hsecond : Place.escape.move '\\' = some (.lead (unitsOf '\\'.toNat) .text) := by decide
  rw [readLiteral_lead hfirst, readLiteral_lead hsecond, Option.map_map]
  rfl

/-- A double quote ends the literal early, and a line break breaks it off. -/
theorem readLiteral_ne_of_not_mayStand {c : Char} (h : ¬ MayStand c) (body rest : List Char)
    (units : List Nat) : readLiteral .text (c :: (body ++ '"' :: rest)) ≠ some (units, rest) := by
  intro hread
  by_cases hquote : c = '"'
  · subst hquote
    have hmove : Place.text.move '"' = some (.close []) := by decide
    rw [readLiteral, hmove] at hread
    -- what is left is longer than `rest` by the closing quote
    have hlength := congrArg List.length (Prod.mk.inj (Option.some.inj hread)).2
    rw [List.length_append, List.length_cons] at hlength
    omega
  · have hbreak : breaksLine c = true := by
      by_contra hfalse
      exact h ⟨hquote, Bool.eq_false_iff.mpr hfalse⟩
    have hback : c ≠ '\\' := by
      rintro rfl
      exact absurd hbreak (by decide)
    rw [readLiteral] at hread
    simp [Place.move, textMove, hquote, hback, hbreak] at hread

/-- A character that starts an escape is not read as what it is: the escape gives less than it
takes. -/
theorem readLiteral_backslash_ne (cs rest : List Char) :
    readLiteral .text ('\\' :: cs ++ '"' :: rest) ≠ some (textUnits ('\\' :: cs), rest) := by
  intro h
  have hfirst : Place.text.move '\\' = some (.lead [] .escape) := by decide
  rw [List.cons_append, readLiteral_lead hfirst] at h
  obtain ⟨⟨others, after⟩, hothers, heq⟩ := Option.map_eq_some_iff.mp h
  obtain ⟨hunits, rfl⟩ := Prod.mk.inj heq
  -- the backslash gives no unit, so the characters behind it would have to give one more
  have hshort := length_readLiteral hothers
  have hlong := congrArg List.length hunits
  have hquote : (unitsOf '"'.toNat).length = 1 := by decide
  have hback : (unitsOf '\\'.toNat).length = 1 := by decide
  simp only [textUnits_append, textUnits_cons, List.length_append, List.nil_append, Place.owed,
    hquote, hback, id_eq] at hshort hlong
  omega

/-- The body in which every character is written in some way.  If the characters that are `Good` are
read as they are, and no text that starts with another is, the bodies that are read back are those
of the texts with `Good` characters only. -/
theorem readsBack_iff {write : Char → List Char} {Good : Char → Prop}
    (hgood : ∀ c cs, Good c → readLiteral .text (write c ++ cs) =
      (readLiteral .text cs).map (Prod.map (unitsOf c.toNat ++ ·) id))
    (hbad : ∀ c cs rest, ¬ Good c →
      readLiteral .text ((c :: cs).flatMap write ++ '"' :: rest) ≠
        some (textUnits (c :: cs), rest)) (cs : List Char) :
    (∀ rest, readLiteral .text (cs.flatMap write ++ '"' :: rest) = some (textUnits cs, rest)) ↔
      ∀ c ∈ cs, Good c := by
  induction cs with
  | nil => exact iff_of_true (fun rest => rfl) (by simp)
  | cons c cs ih =>
      by_cases hc : Good c
      · rw [List.forall_mem_cons, ← ih]
        simp only [List.flatMap_cons, List.append_assoc, hgood c _ hc, hc, true_and]
        refine forall_congr' fun rest => ?_
        rw [textUnits_cons]
        cases readLiteral .text (cs.flatMap write ++ '"' :: rest) <;> simp [Prod.ext_iff]
      · exact iff_of_false (fun h => hbad c cs [] hc (h [])) fun h => hc (h c List.mem_cons_self)

/-! ## Initializers -/

/-- A character of a text for a `string`. -/
def doubleBackslash (c : Char) : List Char := if c = '\\' then ['\\', '\\'] else [c]

theorem replace_backslash (text : String) :
    Text.replace "\\" "\\\\" text = String.ofList (text.toList.flatMap doubleBackslash) := by
  unfold Text.replace
  exact congrArg String.ofList (Text.replaceList_singleton _ _ (Nat.le_succ _))

theorem readLiteral_doubleBackslash {c : Char} (hc : MayStand c) (cs : List Char) :
    readLiteral .text (doubleBackslash c ++ cs) =
      (readLiteral .text cs).map (Prod.map (unitsOf c.toNat ++ ·) id) := by
  unfold doubleBackslash
  split_ifs with hback
  · subst hback
    exact readLiteral_backslashes cs
  · exact readLiteral_plain hc hback cs

theorem isSealed_doubleBackslash {c : Char} (hc : MayStand c) (cs : List Char) :
    isSealed (doubleBackslash c ++ cs) = isSealed cs := by
  unfold doubleBackslash
  split_ifs with hback
  · rfl
  · simp [isSealed, hback, hc.1, hc.2]

theorem readLiteral_doubled_ne {c : Char} (hc : ¬ MayStand c) (cs rest : List Char) :
    readLiteral .text ((c :: cs).flatMap doubleBackslash ++ '"' :: rest) ≠
      some (textUnits (c :: cs), rest) := by
  have hback : c ≠ '\\' := by
    rintro rfl
    exact hc (by decide)
  rw [List.flatMap_cons, doubleBackslash, if_neg hback, List.append_assoc, List.singleton_append]
  exact readLiteral_ne_of_not_mayStand hc _ rest _

theorem readLiteral_self_ne {c : Char} (hc : ¬ (MayStand c ∧ c ≠ '\\')) (cs rest : List Char) :
    readLiteral .text ((c :: cs).flatMap (fun c => [c]) ++ '"' :: rest) ≠
      some (textUnits (c :: cs), rest) := by
  rw [List.flatMap_singleton']
  by_cases hback : c = '\\'
  · subst hback
    exact readLiteral_backslash_ne cs rest
  · have hstand : ¬ MayStand c := fun h => hc ⟨h, hback⟩
    exact readLiteral_ne_of_not_mayStand hstand cs rest _

theorem isSealed_flatMap {write : Char → List Char} {cs : List Char}
    (h : ∀ c ∈ cs, ∀ ds, isSealed (write c ++ ds) = isSealed ds) :
    isSealed (cs.flatMap write) = true := by
  induction cs with
  | nil => rfl
  | cons c cs ih =>
      rw [List.flatMap_cons, h c List.mem_cons_self]
      exact ih fun d hd => h d (List.mem_cons_of_mem c hd)

theorem doubleBackslash_injective {cs ds : List Char}
    (h : cs.flatMap doubleBackslash = ds.flatMap doubleBackslash) : cs = ds := by
  induction cs generalizing ds with
  | nil =>
      cases ds with
      | nil => rfl
      | cons d ds => by_cases hd : d = '\\' <;> simp [doubleBackslash, hd] at h
  | cons c cs ih =>
      cases ds with
      | nil => by_cases hc : c = '\\' <;> simp [doubleBackslash, hc] at h
      | cons d ds =>
          by_cases hc : c = '\\'
          · by_cases hd : d = '\\'
            · simp only [doubleBackslash, hc, hd, List.flatMap_cons, if_true] at h
              rw [hc, hd, ih (List.append_cancel_left h)]
            · simp [doubleBackslash, hc, hd, Ne.symm hd] at h
          · by_cases hd : d = '\\'
            · simp [doubleBackslash, hc, hd] at h
            · simp only [doubleBackslash, hc, hd, List.flatMap_cons, if_false,
                List.singleton_append, List.cons.injEq] at h
              rw [h.1, ih h.2]

/-- The body of a text in the literal for a `string`. -/
def stringBody (text : String) : String := String.ofList (text.toList.flatMap doubleBackslash)

theorem faithful_stringBody_iff (text : String) :
    Faithful (stringBody text) text ↔ ∀ c ∈ text.toList, MayStand c := by
  have hreads := readsBack_iff (fun c cs hc => readLiteral_doubleBackslash hc cs)
    (fun c cs rest hc => readLiteral_doubled_ne hc cs rest) text.toList
  constructor
  · intro h
    refine hreads.mp fun rest => ?_
    have hrest := h.reads rest
    rwa [stringBody, String.toList_ofList] at hrest
  · intro h
    rw [stringBody]
    constructor
    · rw [String.toList_ofList]
      exact isSealed_flatMap fun c hc => isSealed_doubleBackslash (h c hc)
    · rw [String.toList_ofList]
      exact hreads.mpr h

theorem faithful_self_iff (text : String) :
    Faithful text text ↔ ∀ c ∈ text.toList, MayStand c ∧ c ≠ '\\' := by
  have hreads := readsBack_iff (fun c cs hc => readLiteral_plain hc.1 hc.2 cs)
    (fun c cs rest hc => readLiteral_self_ne hc cs rest) text.toList
  rw [List.flatMap_singleton'] at hreads
  constructor
  · intro h
    exact hreads.mp h.reads
  · intro h
    refine ⟨?_, hreads.mpr h⟩
    have hsealed : isSealed (text.toList.flatMap fun c => [c]) = true :=
      isSealed_flatMap fun c hc ds => by
        obtain ⟨⟨hquote, hbreak⟩, hback⟩ := h c hc
        simp [isSealed, hquote, hbreak, hback]
    rwa [List.flatMap_singleton'] at hsealed

theorem defaultValue_string {x : Mapper} {s : Symbol} (ht : s.type = .primitive .string)
    (text : String) :
    x.defaultValue s (.string text) = .ok ("u\"" ++ stringBody text ++ "\"_s") := by
  unfold Mapper.defaultValue Mapper.scalarLiteral
  rw [ht]
  exact congrArg (fun body => Except.ok ("u\"" ++ body ++ "\"_s")) (replace_backslash text)

theorem defaultValue_var {x : Mapper} {s : Symbol} (ht : s.type = .primitive .var)
    (text : String) :
    x.defaultValue s (.string text) = .ok ("QVariant(u\"" ++ text ++ "\"_s)") := by
  unfold Mapper.defaultValue Mapper.scalarLiteral
  rw [ht]

/-- A text between two others can be told from the whole. -/
theorem between_injective {front back a b : String}
    (h : front ++ a ++ back = front ++ b ++ back) : a = b := by
  have hlist := congrArg String.toList h
  simp only [String.toList_append, List.append_assoc, List.append_cancel_left_eq,
    List.append_cancel_right_eq] at hlist
  exact String.toList_injective hlist

/-- The initializer of a text for a `string` is faithful exactly if no double quote and no line
break is in the text, and that for a `var` if also no backslash is.  In any case the initializers of
different texts differ. -/
theorem text_literal_faithful_iff (x : Mapper) (s : Symbol) (text : String) :
    (s.type = .primitive .string → ∃ body,
      x.defaultValue s (.string text) = .ok ("u\"" ++ body ++ "\"_s") ∧
      (Faithful body text ↔ ∀ c ∈ text.toList, MayStand c)) ∧
    (s.type = .primitive .var → ∃ body,
      x.defaultValue s (.string text) = .ok ("QVariant(u\"" ++ body ++ "\"_s)") ∧
      (Faithful body text ↔ ∀ c ∈ text.toList, MayStand c ∧ c ≠ '\\')) ∧
    (s.type = .primitive .string ∨ s.type = .primitive .var → ∀ other,
      x.defaultValue s (.string text) = x.defaultValue s (.string other) → text = other) := by
  refine ⟨fun ht => ?_, fun ht => ?_, ?_⟩
  · exact ⟨stringBody text, defaultValue_string ht text, faithful_stringBody_iff text⟩
  · exact ⟨text, defaultValue_var ht text, faithful_self_iff text⟩
  · rintro (ht | ht) other h
    · rw [defaultValue_string ht, defaultValue_string ht] at h
      have hbody := between_injective (Except.ok.inj h)
      have hlist := congrArg String.toList hbody
      rw [stringBody, stringBody, String.toList_ofList, String.toList_ofList] at hlist
      exact String.toList_injective (doubleBackslash_injective hlist)
    · rw [defaultValue_var ht, defaultValue_var ht] at h
      exact between_injective (Except.ok.inj h)

/-- A property that takes a text. -/
def Sample.label : Model.Property where
  name := "label"
  type := .primitive .string

theorem text_literal_faithful_iff_path :
    let x : Mapper := ⟨Sample.boardSystem, ""⟩
    let s : Symbol := .ofProperty Sample.boardModule Sample.board Sample.label
    ∃ body, x.defaultValue s (.string "C:\\tmp") = .ok ("u\"" ++ body ++ "\"_s") ∧
      Faithful body "C:\\tmp" := by
  intro x s
  obtain ⟨body, hbody, hfaithful⟩ := (text_literal_faithful_iff x s "C:\\tmp").1 rfl
  exact ⟨body, hbody, hfaithful.mpr (by simp [MayStand, breaksLine])⟩

/-- A property that takes any value. -/
def Sample.note : Model.Property where
  name := "note"
  type := .primitive .var

/-- Texts that have no faithful initializer: the quote in one ends the literal early, and the
backslash in the other is read as part of a tab. -/
theorem not_faithful_literal :
    let x : Mapper := ⟨Sample.boardSystem, ""⟩
    (¬ ∃ body, x.defaultValue (.ofProperty Sample.boardModule Sample.board Sample.label)
        (.string "say \"hi\"") = .ok ("u\"" ++ body ++ "\"_s") ∧
      Faithful body "say \"hi\"") ∧
    ¬ ∃ body, x.defaultValue (.ofProperty Sample.boardModule Sample.board Sample.note)
        (.string "C:\\tmp") = .ok ("QVariant(u\"" ++ body ++ "\"_s)") ∧
      Faithful body "C:\\tmp" := by
  intro x
  constructor
  · rintro ⟨body, hbody, hfaithful⟩
    rw [defaultValue_string rfl] at hbody
    rw [← between_injective (Except.ok.inj hbody), faithful_stringBody_iff] at hfaithful
    exact absurd (hfaithful '"' (by simp)) (by decide)
  · rintro ⟨body, hbody, hfaithful⟩
    rw [defaultValue_var rfl] at hbody
    rw [← between_injective (Except.ok.inj hbody), faithful_self_iff] at hfaithful
    exact absurd (hfaithful '\\' (by simp)) (by decide)

end Stencil.Spelling
