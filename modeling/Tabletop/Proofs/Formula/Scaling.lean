import Mathlib
import Tabletop.Proofs.Formula.CritDice
import Tabletop.Proofs.Formula.MoreDice
/-!
# Scaled formulas

The text of a scaled formula is put together from the text of the base and from the printed dice
that are added. If it is read, it is read as the base with these dice, whatever the base looks like:
as one term with the first one of the base, or with a plus behind the base. What is printed may be
out of what can be read, as counts and constants are multiplied, and then nothing is read. So more
steps never give fewer dice.
-/

namespace Tabletop

/-! ## Altered formulas are printed -/

theorem Term.mem_nested_self (t : Term) : t ∈ t.nested := by
  cases t with
  | _ => exact List.mem_cons_self

theorem Term.printed_number {n : Int} (range : isInteger64 n = true) : (Term.number n).Printed := by
  by_cases least : n = leastConstant
  · exact ⟨range, Or.inr (Or.inl (least ▸ rfl))⟩
  · exact ⟨range, Or.inl least⟩

theorem Term.printed_dice {d : DiceTerm} (range : (Term.dice d).InRange) (faces : 0 < d.faces) :
    (Term.dice d).Printed := by
  rcases Nat.lt_or_ge maxDice d.number with crowded | few
  · exact ⟨range, Or.inr (Or.inr ⟨d, rfl, crowded⟩)⟩
  · exact ⟨range, Or.inl ⟨few, faces⟩⟩

theorem isInteger64_clampInteger (n : Int) : isInteger64 (clampInteger n) = true := by
  rw [isInteger64_iff]
  unfold clampInteger
  omega

section

variable {b : Bindings} {multiply add : Nat} {numeric : Bool}

/-- Counts and constants stay in their ranges, but not in what can be read. -/
theorem Term.printed_alter {t : Term} (h : t.Replaced b) :
    (t.alter multiply add numeric).Printed := by
  cases t with
  | dice d =>
    obtain ⟨⟨-, inside⟩, ⟨-, faces⟩ | ⟨least, -⟩⟩ := h
    · exact printed_dice ⟨Nat.min_le_left _ _, inside⟩ faces
    · cases least
  | number n =>
    cases numeric with
    | true => exact printed_number (isInteger64_clampInteger _)
    | false => exact h.printed
  | group inner =>
    have sound := h.printed.sound (by rintro _ ⟨⟩) (by rintro _ ⟨⟩)
    exact ⟨trivial, Or.inl ((Formula.alternates_alter inner).trans sound)⟩
  | _ => exact h.printed

theorem Formula.printed_alter {f : Formula} (h : ∀ t ∈ nested f, t.Replaced b) :
    ∀ t ∈ nested (alter multiply add numeric f), t.Printed := by
  intro t mem
  obtain ⟨v, origin, rfl | rfl⟩ := origin_of_alter f mem
  · exact (h _ origin).printed
  · exact Term.printed_alter (h v origin)

end

namespace Formula

open Text (isBlank skipBlank trimChars)
open Grammar

/-! ## Nothing is trimmed from what is printed -/

theorem endsVisibly_countChars (n : Nat) : EndsVisibly (countChars n) :=
  Digits.endsVisibly (numeral_countChars (Nat.le_refl n)).digits

theorem endsVisibly_chars {t : Term} (operand : t.isOperand = true) (printed : t.Printed) :
    EndsVisibly t.chars := by
  have closed (w : List Char) : EndsVisibly (w ++ [')']) := ⟨w, ')', rfl, by decide⟩
  cases t with
  | dice d =>
    have sides := (endsVisibly_countChars d.faces).cons 'd'
    exact (sides.append _).modified (areModifiers_chars printed.1.2.2)
  | number n =>
    rw [Term.chars, integerChars]
    split
    · exact (endsVisibly_countChars n.natAbs).cons '-'
    · exact endsVisibly_countChars n.natAbs
  | «variable» path =>
    obtain ⟨written, chars⟩ := printed.sound (by rintro _ ⟨⟩) (by rintro _ ⟨⟩)
    exact (endsVisibly_of_paths (mt String.toList_eq_nil_iff.1 written) chars).cons '@'
  | group inner => exact (closed _).cons '('
  | call function argument => exact ((closed _).cons '(').append _
  | operator op => cases operand

theorem startsVisibly_chars {t : Term} (operand : t.isOperand = true) :
    ∃ c w, t.chars = c :: w ∧ isBlank c = false := by
  have counted (n : Nat) : ∃ c w, countChars n = c :: w ∧ isBlank c = false := by
    have digits := (numeral_countChars (Nat.le_refl n)).digits
    obtain ⟨c, w, text⟩ := List.exists_cons_of_ne_nil digits.written
    have digit := digits.all c (text ▸ List.mem_cons_self)
    exact ⟨c, w, text, isBlank_eq_false_of_isPathChar (isPathChar_of_isDigit digit)⟩
  cases t with
  | dice d =>
    obtain ⟨c, w, text, visible⟩ := counted d.number
    rw [Term.chars, DiceTerm.chars, text, List.append_assoc]
    exact ⟨c, _, rfl, visible⟩
  | number n =>
    rw [Term.chars, integerChars]
    split
    · exact ⟨'-', _, rfl, by decide⟩
    · exact counted n.natAbs
  | «variable» path => exact ⟨'@', _, rfl, by decide⟩
  | group inner => exact ⟨'(', _, rfl, by decide⟩
  | call function argument =>
    obtain ⟨c, cs, name, -, letters⟩ := name_letters function
    rw [Term.chars, name]
    have letter := isPathChar_of_isAlpha (letters c List.mem_cons_self)
    exact ⟨c, _, rfl, isBlank_eq_false_of_isPathChar letter⟩
  | operator op => cases operand

/-- A visible ending stays one with more operands printed behind it. -/
theorem EndsVisibly.printed {u : List Char} (visible : EndsVisibly u) (ts : List Term)
    (continuing : continues ts = true) (printed : ∀ t ∈ nested ts, t.Printed) :
    EndsVisibly (u ++ chars ts) := by
  match ts, visible with
  | [], visible => rwa [chars, List.append_nil]
  | .operator op :: t :: ts, _ =>
    obtain ⟨operand, more⟩ := Bool.and_eq_true_iff.1 continuing
    obtain ⟨-, printed⟩ := List.forall_mem_append.1 printed
    obtain ⟨first, others⟩ := List.forall_mem_append.1 printed
    have here := endsVisibly_chars operand (first t t.mem_nested_self)
    have last := (here.printed ts more others).append (Term.operator op).chars
    exact last.append u

theorem endsVisibly_of_alternates {f : Formula} (alternating : alternates f = true)
    (printed : ∀ t ∈ nested f, t.Printed) : EndsVisibly (chars f) := by
  match f with
  | t :: ts =>
    obtain ⟨operand, more⟩ := Bool.and_eq_true_iff.1 alternating
    obtain ⟨first, others⟩ := List.forall_mem_append.1 printed
    exact (endsVisibly_chars operand (first t t.mem_nested_self)).printed ts more others

/-- There are no blanks around what is printed. -/
theorem trimChars_chars {f : Formula} (alternating : alternates f = true)
    (printed : ∀ t ∈ nested f, t.Printed) : trimChars (chars f) = chars f := by
  have blanks : Blanks [] := List.forall_mem_nil _
  have trimmed :=
    trimChars_of_endsVisibly (endsVisibly_of_alternates alternating printed) blanks blanks
  rw [List.nil_append, List.append_nil] at trimmed
  rw [trimmed]
  match f with
  | t :: ts =>
    obtain ⟨operand, -⟩ := Bool.and_eq_true_iff.1 alternating
    obtain ⟨c, w, text, visible⟩ := startsVisibly_chars operand
    rw [chars, text, List.cons_append, skipBlank_cons visible]

/-! ## What is printed behind a text -/

theorem readsOnly_more_append {w rest left : List Char} {ts us : List Term} (h : IsMore w ts)
    (ends : Ends rest) (behind : ReadsOnly (readMore rest) us left) :
    ReadsOnly (readMore (w ++ rest)) (ts ++ us) left := by
  match h, behind with
  | .nil, behind => exact behind
  | @IsMore.cons b w v op t ts blanks operand more, behind =>
    have found : skipBlank (b ++ op.symbol :: (w ++ v) ++ rest) =
        op.symbol :: (w ++ (v ++ rest)) := by
      rw [List.append_assoc, skipBlank_append blanks, List.cons_append,
        skipBlank_cons (isBlank_symbol op), List.append_assoc]
    obtain ⟨shorter, eq⟩ := readMore_of_operator found
    rw [eq]
    refine (ReadsOnly.of_reads (readOperand_reads operand (ends_of_isMore more ends))).bind
      fun _ => ?_
    exact (readsOnly_more_append more ends behind).bind fun _ => .of_reads ⟨_, rfl⟩

/-- A text of a formula with operators and operands behind it, where something is read of those. -/
theorem readsOnly_append {w rest left : List Char} {f : Formula} {us : List Term}
    (h : IsFormula w f) (ends : Ends rest) (behind : ReadsOnly (readMore rest) us left) :
    ReadsOnly (readFormula (w ++ rest)) (f ++ us) left := by
  obtain ⟨first, more⟩ := h
  rw [List.append_assoc, readFormula]
  refine (ReadsOnly.of_reads (readOperand_reads first (ends_of_isMore more ends))).bind fun _ => ?_
  exact (readsOnly_more_append more ends behind).bind fun _ => .of_reads ⟨_, rfl⟩

/-- A formula that is printed behind a text with a plus is read as itself, if the whole is read. -/
theorem eq_of_parse_compose_render {base : String} {f g whole : Formula}
    (parsed : parse base = .ok f) (alternating : alternates g = true)
    (printed : ∀ t ∈ nested g, t.Printed) (h : parse (compose [base, render g]) = .ok whole) :
    whole = f ++ .operator .add :: g := by
  have derived := isFormula_trimChars parsed
  have continuing : continues (.operator .add :: g) = true := by
    cases g with
    | nil => cases alternating
    | cons t ts => exact alternating
  have added := readsOnly_more (.operator .add :: g) continuing
    (List.forall_mem_append.2 ⟨List.forall_mem_singleton.2 ⟨trivial, Or.inl trivial⟩, printed⟩)
    (stops_of_blanks (List.forall_mem_nil _))
  have ends : Ends ([] : List Char) := nofun
  have ends := ends_chars (.operator .add :: g) continuing ends
  rw [List.append_nil] at added ends
  have written : (compose [base, render g]).toList =
      trimChars base.toList ++ chars (.operator .add :: g) := by
    have kept : trimChars (render g).toList = chars g := by
      rw [render, String.toList_ofList, trimChars_chars alternating printed]
    have shown : chars g ≠ [] := by
      obtain ⟨v, c, text, -⟩ := endsVisibly_of_alternates alternating printed
      exact text ▸ List.append_ne_nil_of_right_ne_nil v (List.cons_ne_nil c [])
    simp [compose, kept, ne_nil_of_isFormula derived, shown, chars, Term.chars, Operator.symbol,
      List.intercalate]
  rw [parse, written] at h
  exact (readsOnly_append derived ends added).readAll h

end Formula

/-! ## The formula of a scaled text -/

namespace Scaling

open Formula

/-- The formula `f` with the dice of `e`, `steps` times, in its first term, if `e` is nothing but
dice of the kind of that term. -/
def merged? (steps : Nat) (f e : Formula) : Option Formula :=
  match f, e with
  | .dice first :: terms, [.dice extra] =>
    if first.sameKind extra then
      some (.dice { first with number := first.number + steps * extra.number } :: terms)
    else none
  | _, _ => none

/-- The formula `f` with `steps` times `e` behind it. -/
def appended (steps : Nat) (f e : Formula) : Formula :=
  f ++ .operator .add :: alter steps 0 true e

/-- The formula `f` grown by `steps` times `e`. -/
def grown (steps : Nat) (f e : Formula) : Formula :=
  (merged? steps f e).getD (appended steps f e)

theorem merged?_eq_some_iff {steps : Nat} {f e merged : Formula} :
    merged? steps f e = some merged ↔ ∃ first terms extra, f = .dice first :: terms ∧
      e = [.dice extra] ∧ first.sameKind extra = true ∧
      merged = .dice { first with number := first.number + steps * extra.number } :: terms := by
  constructor
  · intro h
    unfold merged? at h
    split at h
    · next first terms extra =>
      rw [Option.ite_none_right_eq_some] at h
      obtain ⟨same, made⟩ := h
      cases made
      exact ⟨first, terms, extra, rfl, rfl, same, rfl⟩
    · cases h
  · rintro ⟨first, terms, extra, rfl, rfl, same, rfl⟩
    exact if_pos same

theorem combine?_eq_some_iff {f combined : Formula} {extra : DiceTerm} :
    combine? f extra = some combined ↔ ∃ first terms, f = .dice first :: terms ∧
      first.sameKind extra = true ∧ combined =
        .dice { first with number := min maxCount (first.number + extra.number) } :: terms := by
  constructor
  · intro h
    unfold combine? at h
    split at h
    · next first terms =>
      rw [Option.ite_none_right_eq_some] at h
      obtain ⟨same, made⟩ := h
      cases made
      exact ⟨first, terms, rfl, same, rfl⟩
    · cases h
  · rintro ⟨first, terms, rfl, same, rfl⟩
    exact if_pos same

theorem eq_of_alter_dice {multiply add : Nat} {numeric : Bool} {e : Formula} {altered : DiceTerm}
    (h : alter multiply add numeric e = [.dice altered]) :
    ∃ extra, e = [.dice extra] ∧ altered = extra.altered multiply add := by
  match e with
  | [.dice extra] =>
    cases h
    exact ⟨extra, rfl, rfl⟩

/-- A text that is scaled: either the first term of the base has the dice, and the count stops at
the greatest one, or they are printed behind the base. -/
theorem scale_cases {base scaling text : String} {steps : Nat} {b : Bindings}
    (positive : 0 < steps) (scaled : scale base scaling steps b = .ok text) :
    ∃ f source e, parse base = .ok f ∧
      parse (if Text.blank scaling then base else scaling) = .ok source ∧
      substitute b source = .ok e ∧
      ((∃ first terms extra, f = .dice first :: terms ∧ e = [.dice extra] ∧
        first.sameKind extra = true ∧ text = render (.dice { first with
          number := min maxCount (first.number + (extra.altered steps 0).number) } :: terms)) ∨
      merged? steps f e = none ∧ text = compose [base, render (alter steps 0 true e)]) := by
  rw [scale, if_neg (Nat.ne_of_gt positive)] at scaled
  obtain ⟨source, read, scaled⟩ := bind_eq_ok_iff.1 scaled
  obtain ⟨e, resolved, scaled⟩ := bind_eq_ok_iff.1 scaled
  obtain ⟨f, parsed, scaled⟩ := bind_eq_ok_iff.1 scaled
  refine ⟨f, source, e, parsed, read, resolved, ?_⟩
  split at scaled
  · next altered single =>
    obtain ⟨extra, rfl, rfl⟩ := eq_of_alter_dice single
    split at scaled
    · next combined found =>
      cases scaled
      obtain ⟨first, terms, rfl, same, rfl⟩ := combine?_eq_some_iff.1 found
      exact Or.inl ⟨first, terms, extra, rfl, rfl, same, rfl⟩
    · next found =>
      cases scaled
      refine Or.inr ⟨Option.eq_none_iff_forall_ne_some.2 fun merged some => ?_, rfl⟩
      obtain ⟨first, terms, _, rfl, single, same, -⟩ := merged?_eq_some_iff.1 some
      cases single
      cases found.symm.trans (combine?_eq_some_iff.2 ⟨first, terms, rfl, same, rfl⟩)
  · next other =>
    cases scaled
    refine Or.inr ⟨Option.eq_none_iff_forall_ne_some.2 fun merged some => ?_, rfl⟩
    obtain ⟨_, _, extra, -, rfl, -, -⟩ := merged?_eq_some_iff.1 some
    exact other _ rfl

/-- The text of a base with more dice in its first term is read as nothing else. -/
theorem eq_of_parse_combined {base : String} {first : DiceTerm} {terms : List Term} {number : Nat}
    {g : Formula} (parsed : parse base = .ok (.dice first :: terms))
    (h : parse (render (.dice { first with number := min maxCount number } :: terms)) = .ok g) :
    number ≤ maxDice ∧ g = .dice { first with number } :: terms := by
  obtain ⟨alternating, sound⟩ := sound_of_parse parsed
  obtain ⟨⟨⟨-, faces⟩, -, inside⟩, others⟩ := List.forall_mem_cons.1 sound
  have read := eq_of_parse_render (f := .dice { first with number := min maxCount number } :: terms)
    alternating (List.forall_mem_cons.2
      ⟨Term.printed_dice ⟨Nat.min_le_left _ _, inside⟩ faces,
        fun t mem => ⟨(others t mem).2, Or.inl (others t mem).1⟩⟩) h
  subst read
  obtain ⟨⟨⟨few, -⟩, -⟩, -⟩ := List.forall_mem_cons.1 (sound_of_parse h).2
  have few : min maxCount number ≤ maxDice := few
  have count : min maxCount number = number := by
    unfold maxCount maxDice at *
    omega
  rw [count] at few ⊢
  exact ⟨few, rfl⟩

theorem eq_grown_of_parse {base scaling text : String} {steps : Nat} {b : Bindings} {g : Formula}
    (positive : 0 < steps) (scaled : scale base scaling steps b = .ok text)
    (read : parse text = .ok g) :
    ∃ f source e, parse base = .ok f ∧
      parse (if Text.blank scaling then base else scaling) = .ok source ∧
      substitute b source = .ok e ∧ g = grown steps f e := by
  obtain ⟨f, source, e, parsed, found, resolved, combined | ⟨apart, rfl⟩⟩ :=
    scale_cases positive scaled
  · refine ⟨f, source, e, parsed, found, resolved, ?_⟩
    obtain ⟨first, terms, extra, rfl, rfl, same, rfl⟩ := combined
    obtain ⟨few, rfl⟩ := eq_of_parse_combined parsed read
    have count : (extra.altered steps 0).number = steps * extra.number := by
      unfold DiceTerm.altered maxCount maxDice at *
      simp only [Nat.add_zero, Nat.mul_comm extra.number] at *
      omega
    rw [count, grown, merged?_eq_some_iff.2 ⟨first, terms, extra, rfl, rfl, same, rfl⟩]
    rfl
  · refine ⟨f, source, e, parsed, found, resolved, ?_⟩
    obtain ⟨alternating, inside⟩ := replaced_of_parse found resolved
    rw [grown, apart]
    exact eq_of_parse_compose_render parsed ((alternates_alter e).trans alternating)
      (printed_alter inside) read

/-! ## How many dice there are -/

theorem diceCount_append (f g : Formula) : diceCount (f ++ g) = diceCount f + diceCount g := by
  induction f with
  | nil => exact (Nat.zero_add _).symm
  | cons t ts ih => rw [List.cons_append, diceCount, diceCount, ih, Nat.add_assoc]

theorem sumOf_alteredAt_mono {fewer more : Nat} (h : fewer ≤ more) (add : Nat)
    (placed : List (Bool × DiceTerm)) :
    sumOf ((placed.map (alteredAt fewer add)).map (·.number)) ≤
      sumOf ((placed.map (alteredAt more add)).map (·.number)) := by
  induction placed with
  | nil => exact Nat.le_refl _
  | cons p placed ih =>
    refine Nat.add_le_add ?_ ih
    unfold alteredAt
    split
    · exact Nat.le_refl _
    · have product := Nat.mul_le_mul_left p.2.number h
      simp only [DiceTerm.altered]
      omega

/-- Greater multiples have no fewer dice, though counts stop at the greatest one. -/
theorem diceCount_alter_mono {fewer more : Nat} (h : fewer ≤ more) (add : Nat) (numeric : Bool)
    (f : Formula) :
    diceCount (alter fewer add numeric f) ≤ diceCount (alter more add numeric f) := by
  rw [diceCount_eq, diceCount_eq, diceTerms_alter, diceTerms_alter]
  exact sumOf_alteredAt_mono h add _

/-- Whether the dice are in the first term does not depend on how many they are. -/
theorem grown_cases (f e : Formula) :
    (∃ (first extra : DiceTerm) (terms : List Term), f = .dice first :: terms ∧
      ∀ steps, grown steps f e =
        .dice { first with number := first.number + steps * extra.number } :: terms) ∨
    ∀ steps, grown steps f e = appended steps f e := by
  by_cases some : ∃ merged, merged? 0 f e = some merged
  · obtain ⟨merged, some⟩ := some
    obtain ⟨first, terms, extra, rfl, rfl, same, -⟩ := merged?_eq_some_iff.1 some
    refine Or.inl ⟨first, extra, terms, rfl, fun steps => ?_⟩
    rw [grown, merged?_eq_some_iff.2 ⟨first, terms, extra, rfl, rfl, same, rfl⟩]
    rfl
  · refine Or.inr fun steps => ?_
    have none : merged? steps f e = none := by
      refine Option.eq_none_iff_forall_ne_some.2 fun merged made => some ?_
      obtain ⟨first, terms, extra, rfl, rfl, same, -⟩ := merged?_eq_some_iff.1 made
      exact ⟨_, merged?_eq_some_iff.2 ⟨first, terms, extra, rfl, rfl, same, rfl⟩⟩
    rw [grown, none]
    rfl

theorem diceCount_le_grown (steps : Nat) (f e : Formula) :
    diceCount f ≤ diceCount (grown steps f e) := by
  obtain ⟨first, extra, terms, rfl, merges⟩ | appends := grown_cases f e
  · rw [merges]
    exact Nat.add_le_add_right (Nat.le_add_right _ _) _
  · rw [appends, appended, diceCount_append]
    exact Nat.le_add_right _ _

theorem diceCount_grown_mono {fewer more : Nat} (h : fewer ≤ more) (f e : Formula) :
    diceCount (grown fewer f e) ≤ diceCount (grown more f e) := by
  obtain ⟨first, extra, terms, rfl, merges⟩ | appends := grown_cases f e
  · rw [merges, merges]
    have product := Nat.mul_le_mul_right extra.number h
    exact Nat.add_le_add_right (Nat.add_le_add_left product _) _
  · rw [appends, appends, appended, appended, diceCount_append, diceCount_append]
    exact Nat.add_le_add_left
      (Nat.add_le_add_left (diceCount_alter_mono h 0 true e) _) _

/-- A scaled text that is read at all is read as the base grown by the formula that it is scaled by,
which is the base itself if the text of that is blank. So more steps never give fewer dice, and the
base without any step has no more than with some. -/
theorem scale_reads_grown (base scaling : String) (b : Bindings) :
    (∀ steps text g, 0 < steps → scale base scaling steps b = .ok text → parse text = .ok g →
      ∃ f source e, parse base = .ok f ∧
        parse (if Text.blank scaling then base else scaling) = .ok source ∧
        substitute b source = .ok e ∧ g = grown steps f e) ∧
    ∀ fewer more text text' g g', fewer ≤ more → scale base scaling fewer b = .ok text →
      scale base scaling more b = .ok text' → parse text = .ok g → parse text' = .ok g' →
      diceCount g ≤ diceCount g' := by
  refine ⟨fun steps text g positive => eq_grown_of_parse positive, ?_⟩
  intro fewer more text text' g g' h scaled scaled' read read'
  rcases Nat.eq_zero_or_pos more with rfl | positive'
  · obtain rfl := Nat.le_zero.1 h
    cases scaled.symm.trans scaled'
    cases read.symm.trans read'
    exact Nat.le_refl _
  obtain ⟨f, source, e, parsed, found, resolved, rfl⟩ := eq_grown_of_parse positive' scaled' read'
  rcases Nat.eq_zero_or_pos fewer with rfl | positive
  · cases scaled
    cases read.symm.trans parsed
    exact diceCount_le_grown more _ e
  · obtain ⟨f', source', e', parsed', found', resolved', rfl⟩ :=
      eq_grown_of_parse positive scaled read
    cases parsed.symm.trans parsed'
    cases found.symm.trans found'
    cases resolved.symm.trans resolved'
    exact diceCount_grown_mono h f e

/-- `8d6 + @mod` -/
def fireball : Formula := [.dice ⟨8, 6, []⟩, .operator .add, .variable "mod"]

/-- Two slots up the first term has two more dice, and dice with other faces stand behind it. -/
theorem fireball_grows :
    scale "8d6 + @mod" "1d6" 2 ∅ = .ok "10d6 + @mod" ∧
    parse "10d6 + @mod" = .ok (grown 2 fireball [.dice ⟨1, 6, []⟩]) ∧
    scale "8d6 + @mod" "1d8" 2 ∅ = .ok "8d6 + @mod + 2d8" ∧
    parse "8d6 + @mod + 2d8" = .ok (grown 2 fireball [.dice ⟨1, 8, []⟩]) ∧
    diceCount fireball ≤ diceCount (grown 2 fireball [.dice ⟨1, 8, []⟩]) := by
  have base : parse "8d6 + @mod" = .ok fireball := by cbv
  have sixes : parse "1d6" = .ok [.dice ⟨1, 6, []⟩] := by cbv
  have eights : parse "1d8" = .ok [.dice ⟨1, 8, []⟩] := by cbv
  have merged : scale "8d6 + @mod" "1d6" 2 ∅ = .ok "10d6 + @mod" := by cbv
  have added : scale "8d6 + @mod" "1d8" 2 ∅ = .ok "8d6 + @mod + 2d8" := by cbv
  have read : parse "10d6 + @mod" = .ok (.dice ⟨10, 6, []⟩ :: fireball.tail) := by cbv
  have read' : parse "8d6 + @mod + 2d8" =
      .ok (fireball ++ [.operator .add, .dice ⟨2, 8, []⟩]) := by cbv
  obtain ⟨f, source, e, parsed, found, resolved, merges⟩ :=
    (scale_reads_grown "8d6 + @mod" "1d6" ∅).1 2 _ _ (by decide) merged read
  cases base.symm.trans parsed
  cases sixes.symm.trans found
  cases resolved
  obtain ⟨grows, counts⟩ := scale_reads_grown "8d6 + @mod" "1d8" ∅
  obtain ⟨f', source', e', parsed', found', resolved', appends⟩ :=
    grows 2 _ _ (by decide) added read'
  cases base.symm.trans parsed'
  cases eights.symm.trans found'
  cases resolved'
  have more := counts 0 2 _ _ _ _ (by decide) rfl added base read'
  rw [appends] at read' more
  exact ⟨merged, merges ▸ read, added, read', more⟩

end Scaling

end Tabletop
