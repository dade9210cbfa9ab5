import Mathlib
import Tabletop.Formula.Substitution
import Tabletop.Proofs.Formula.RoundTrip
/-!
# Texts that are put together

A text of a formula ends with a visible character once the blanks behind it are gone, and blanks
before it change nothing. So a text that is trimmed is read as before, and trimmed texts with a plus
between them are read as their formulas with a plus between them: the plus is written with a blank
behind it, and blanks may stand before any operand.
-/

namespace Tabletop.Formula

open Text (isBlank skipBlank trimChars)
open Grammar

/-! ## The last character -/

/-- A text whose last character is visible. -/
def EndsVisibly (w : List Char) : Prop := ∃ v c, w = v ++ [c] ∧ isBlank c = false

theorem EndsVisibly.append {v : List Char} (h : EndsVisibly v) (w : List Char) :
    EndsVisibly (w ++ v) := by
  obtain ⟨u, c, rfl, visible⟩ := h
  exact ⟨w ++ u, c, (List.append_assoc _ _ _).symm, visible⟩

theorem EndsVisibly.cons {v : List Char} (h : EndsVisibly v) (c : Char) : EndsVisibly (c :: v) :=
  h.append [c]

theorem endsVisibly_of_paths {w : List Char} (written : w ≠ [])
    (chars : ∀ c ∈ w, isPathChar c = true) : EndsVisibly w :=
  ⟨w.dropLast, w.getLast written, (List.dropLast_append_getLast written).symm,
    isBlank_eq_false_of_isPathChar (chars _ (List.getLast_mem written))⟩

theorem Digits.endsVisibly {w : List Char} (h : Digits w) : EndsVisibly w :=
  endsVisibly_of_paths h.written fun c mem => isPathChar_of_isDigit (h.all c mem)

theorem endsVisibly_of_isModifier {w : List Char} {m : DieModifier} (h : IsModifier w m) :
    EndsVisibly w := by
  have keeps {v : List Char} {n : Nat} (count : KeepCount v n) {c : Char}
      (letter : isPathChar c = true) : EndsVisibly (c :: v) := by
    refine endsVisibly_of_paths (List.cons_ne_nil _ _) (List.forall_mem_cons.2 ⟨letter, ?_⟩)
    exact fun d mem => isPathChar_of_isDigit (digits_of_keepCount count d mem)
  cases h with
  | rerollBelow count => exact (Digits.endsVisibly count.digits).append ['r', '<']
  | keepHighest count => exact (keeps count (by decide)).cons 'k'
  | keepLowest count => exact (keeps count (by decide)).cons 'k'
  | keep count => exact keeps count (by decide)
  | minimum count => exact (Digits.endsVisibly count.digits).append ['m', 'i', 'n']

/-- A visible ending stays one with modifiers behind it. -/
theorem EndsVisibly.modified {u w : List Char} {ms : List DieModifier} (visible : EndsVisibly u)
    (h : AreModifiers w ms) : EndsVisibly (u ++ w) := by
  induction h generalizing u with
  | nil => rwa [List.append_nil]
  | @cons w v m ms first _ ih =>
    rw [← List.append_assoc]
    exact ih ((endsVisibly_of_isModifier first).append u)

theorem endsVisibly_of_isPrimary {w : List Char} {t : Term} (h : IsPrimary w t) :
    EndsVisibly w := by
  have closed (v : List Char) : EndsVisibly (v ++ [')']) := ⟨v, ')', rfl, by decide⟩
  cases h with
  | number numeral => exact Digits.endsVisibly numeral.digits
  | @dice count sides v d number faces ms _ _ sided _ modified =>
    have last : EndsVisibly (sides ++ v) := (Digits.endsVisibly sided.digits).modified modified
    exact (last.cons d).append count
  | path written chars => exact (endsVisibly_of_paths written chars).cons '@'
  | @group w b _ _ _ => exact ((closed b).append w).cons '('
  | @call name b w b' _ _ _ _ _ _ => exact ((((closed b').append w).cons '(').append b).append name

theorem endsVisibly_of_isOperand {w : List Char} {t : Term} (h : IsOperand w t) :
    EndsVisibly w := by
  cases h with
  | plain _ _ primary => exact (endsVisibly_of_isPrimary primary).append _
  | constant _ _ primary => exact (endsVisibly_of_isPrimary primary).append _
  | subtracted _ _ primary _ => exact (endsVisibly_of_isPrimary primary).append _

/-- A visible ending stays one with more operands behind it. -/
theorem EndsVisibly.more {u w : List Char} {ts : List Term} (visible : EndsVisibly u)
    (h : IsMore w ts) : EndsVisibly (u ++ w) := by
  match visible, h with
  | visible, .nil => rwa [List.append_nil]
  | _, @IsMore.cons b w v op _ _ _ operand more =>
    have last : EndsVisibly (w ++ v) := (endsVisibly_of_isOperand operand).more more
    exact ((last.cons op.symbol).append b).append u

theorem endsVisibly_of_isFormula {w : List Char} {f : Formula} (h : IsFormula w f) :
    EndsVisibly w := by
  obtain ⟨first, more⟩ := h
  exact (endsVisibly_of_isOperand first).more more

/-! ## Trimmed texts -/

theorem skipBlank_append_cons (w : List Char) {c : Char} (visible : isBlank c = false)
    (rest : List Char) : skipBlank (w ++ c :: rest) = skipBlank w ++ c :: rest := by
  induction w with
  | nil => exact skipBlank_cons visible rest
  | cons d w ih =>
    rw [List.cons_append, skipBlank, skipBlank]
    split
    · exact ih
    · rfl

theorem trimChars_of_endsVisibly {w b b' : List Char} (h : EndsVisibly w) (blanks : Blanks b)
    (blanks' : Blanks b') : trimChars (b ++ (w ++ b')) = skipBlank w := by
  obtain ⟨v, c, rfl, visible⟩ := h
  rw [trimChars, skipBlank_append blanks, List.append_assoc, List.singleton_append,
    skipBlank_append_cons v visible, skipBlank_append_cons v visible, List.reverse_append,
    List.reverse_cons, List.append_assoc,
    skipBlank_append fun d mem => blanks' d (List.mem_reverse.1 mem), List.singleton_append,
    skipBlank_cons visible, List.reverse_cons, List.reverse_reverse]

/-- Blanks before an operand belong to its signs, and leave the number of minus signs as it is. -/
theorem isOperand_skipBlank {w : List Char} {t : Term} (h : IsOperand w t) (rest : List Char) :
    ∃ v, IsOperand v t ∧ skipBlank (w ++ rest) = v ++ rest := by
  have shorter {signs v : List Char} {u : Term} (signed : Signs signs) (primary : IsPrimary v u) :
      Signs (skipBlank signs) ∧ (Negates (skipBlank signs) ↔ Negates signs) ∧
        skipBlank (signs ++ v ++ rest) = skipBlank signs ++ v ++ rest := by
    obtain ⟨b, blanks, whole⟩ := exists_blanks signs
    obtain ⟨c, v, rfl, started⟩ := exists_head_of_isPrimary primary
    have visible : isBlank c = false := by
      rw [isEnd, Bool.or_eq_false_iff, Bool.or_eq_false_iff] at started
      exact started.1.1
    refine ⟨fun d mem => signed d ?_, ?_, ?_⟩
    · rw [whole]
      exact List.mem_append_right b mem
    · have unsigned : b.count '-' = 0 :=
        List.count_eq_zero.2 fun mem => ne_minus_of_isBlank (blanks _ mem) rfl
      unfold Negates
      conv_rhs => rw [whole, List.count_append, unsigned, Nat.zero_add]
    · rw [List.append_assoc, List.cons_append, skipBlank_append_cons signs visible,
        List.append_assoc, List.cons_append]
  cases h with
  | plain signed even primary =>
    obtain ⟨signed, negates, skipped⟩ := shorter signed primary
    exact ⟨_, .plain signed (mt negates.1 even) primary, skipped⟩
  | constant signed odd primary =>
    obtain ⟨signed, negates, skipped⟩ := shorter signed primary
    exact ⟨_, .constant signed (negates.2 odd) primary, skipped⟩
  | subtracted signed odd primary other =>
    obtain ⟨signed, negates, skipped⟩ := shorter signed primary
    exact ⟨_, .subtracted signed (negates.2 odd) primary other, skipped⟩

theorem isFormula_skipBlank {w : List Char} {f : Formula} (h : IsFormula w f) :
    IsFormula (skipBlank w) f := by
  obtain ⟨first, more⟩ := h
  obtain ⟨v, operand, skipped⟩ := isOperand_skipBlank first _
  rw [skipped]
  exact .intro operand more

/-- What is left of a text of a formula without the blanks around it is in the grammar. -/
theorem isFormula_trimChars {text : List Char} {f : Formula} (h : readAll text = .ok f) :
    IsFormula (trimChars text) f := by
  obtain ⟨b, w, b', rfl, blanks, derived, blanks'⟩ := isText_of_readAll h
  rw [trimChars_of_endsVisibly (endsVisibly_of_isFormula derived) blanks blanks']
  exact isFormula_skipBlank derived

theorem readAll_of_isFormula {w : List Char} {f : Formula} (h : IsFormula w f) :
    readAll w = .ok f :=
  readAll_of_isText
    ⟨[], w, [], (List.append_nil w).symm, List.forall_mem_nil _, h, List.forall_mem_nil _⟩

/-! ## Texts with a plus between them -/

/-- Formulas with a plus between each two. -/
def sum (fs : List Formula) : Formula := [Term.operator .add].intercalate fs

theorem sum_singleton (f : Formula) : sum [f] = f := List.intercalate_singleton

theorem sum_cons_cons (f g : Formula) (fs : List Formula) :
    sum (f :: g :: fs) = f ++ .operator .add :: sum (g :: fs) := by
  simp [sum, List.intercalate_cons_cons]

theorem sum_append_singleton {fs : List Formula} (some : fs ≠ []) (g : Formula) :
    sum (fs ++ [g]) = sum fs ++ .operator .add :: g := by
  match fs with
  | [f] => rw [List.singleton_append, sum_cons_cons, sum_singleton, sum_singleton]
  | f :: f' :: fs =>
    have behind := sum_append_singleton (List.cons_ne_nil f' fs) g
    rw [List.cons_append] at behind
    rw [List.cons_append, List.cons_append, sum_cons_cons, sum_cons_cons, behind,
      List.append_assoc, List.cons_append]

theorem isMore_append {w v : List Char} {ts us : List Term} (h : IsMore w ts) (h' : IsMore v us) :
    IsMore (w ++ v) (ts ++ us) := by
  match h, h' with
  | .nil, h' => exact h'
  | @IsMore.cons b w₁ w₂ op t ts blanks operand more, h' =>
    have behind : IsMore (b ++ op.symbol :: (w₁ ++ (w₂ ++ v))) (.operator op :: t :: (ts ++ us)) :=
      .cons blanks operand (isMore_append more h')
    simpa only [List.append_assoc, List.cons_append] using behind

theorem isFormula_add {w v : List Char} {f g : Formula} (h : IsFormula w f) (h' : IsFormula v g) :
    IsFormula (w ++ (' ' :: '+' :: ' ' :: v)) (f ++ .operator .add :: g) := by
  obtain ⟨first, more⟩ := h
  rcases h' with @⟨w', v', t, ts, operand, others⟩
  have blank : Blanks [' '] := List.forall_mem_singleton.2 (by decide)
  have added : IsMore ([' '] ++ Operator.add.symbol :: (' ' :: w' ++ v'))
      (.operator .add :: t :: ts) := .cons blank (isOperand_blank_cons operand) others
  rw [List.append_assoc]
  exact .intro first (isMore_append more added)

theorem isFormula_intercalate {ws : List (List Char)} {fs : List Formula}
    (h : List.Forall₂ IsFormula ws fs) (written : ws ≠ []) :
    IsFormula ([' ', '+', ' '].intercalate ws) (sum fs) := by
  match h with
  | .nil => exact absurd rfl written
  | .cons first .nil =>
    rw [List.intercalate_singleton, sum_singleton]
    exact first
  | .cons first (.cons second rest) =>
    rw [List.intercalate_cons_cons, sum_cons_cons, List.append_assoc]
    exact isFormula_add first (isFormula_intercalate (.cons second rest) (List.cons_ne_nil _ _))

theorem ne_nil_of_isFormula {w : List Char} {f : Formula} (h : IsFormula w f) : w ≠ [] := by
  obtain ⟨v, c, rfl, -⟩ := endsVisibly_of_isFormula h
  exact List.append_ne_nil_of_right_ne_nil v (List.cons_ne_nil c [])

theorem filter_of_isFormula {ws : List (List Char)} {fs : List Formula}
    (h : List.Forall₂ IsFormula ws fs) : ws.filter (fun w => !w.isEmpty) = ws := by
  induction h with
  | nil => rfl
  | cons first _ ih =>
    rw [List.filter_cons_of_pos (by simpa using ne_nil_of_isFormula first), ih]

/-- Texts that are put together are read as their formulas with a plus between each two. -/
theorem parse_compose {parts : List String} {fs : List Formula}
    (parsed : List.Forall₂ (fun part f => parse part = .ok f) parts fs) (written : parts ≠ []) :
    parse (compose parts) = .ok (sum fs) := by
  have derived : List.Forall₂ IsFormula (parts.map fun part => trimChars part.toList) fs :=
    List.forall₂_map_left_iff.2 (parsed.imp fun _ _ => isFormula_trimChars)
  rw [parse, compose, String.toList_ofList, filter_of_isFormula derived]
  exact readAll_of_isFormula (isFormula_intercalate derived (mt List.map_eq_nil_iff.1 written))

theorem parse_variable {path : String} (sound : (Term.variable path).Sound) :
    parse ("@" ++ path) = .ok [.variable path] := by
  have operand := isOperand_chars (.variable path) rfl
    (List.forall_mem_singleton.2 ⟨sound, trivial⟩)
  have read := readAll_of_isFormula (.intro operand .nil)
  rw [List.append_nil] at read
  rw [parse, String.toList_append]
  exact read

/-! ## Integers -/

theorem signed_digits_of_readInteger? {text : List Char} {n : Int}
    (h : readInteger? text = some n) :
    ∃ signs w, text = signs ++ w ∧ Signs signs ∧ Digits w ∧
      n = if Negates signs then -(digitsValue w : Int) else digitsValue w := by
  have counted {limit : Nat} {w : List Char} {z : Int} (digits : w.all Char.isDigit = true)
      (count : (do let m ← countUpTo? limit w; return (m : Int)) = some z) :
      Digits w ∧ z = digitsValue w := by
    obtain ⟨m, found, made⟩ := Option.bind_eq_some_iff.1 count
    cases made
    have numeral := (countUpTo?_eq_some_iff (List.all_eq_true.1 digits)).1 found
    exact ⟨numeral.digits, congrArg Int.ofNat numeral.value.symm⟩
  unfold readInteger? at h
  split at h
  next negative w found =>
    have signs_before : ∃ signs, text = signs ++ w ∧ Signs signs ∧
        (Negates signs ↔ negative = true) := by
      split at found
      · cases found
        exact ⟨['-'], rfl, List.forall_mem_singleton.2 (Or.inr (Or.inr rfl)), by decide⟩
      · cases found
        exact ⟨['+'], rfl, List.forall_mem_singleton.2 (Or.inr (Or.inl rfl)), by decide⟩
      · cases found
        exact ⟨[], rfl, List.forall_mem_nil _, by decide⟩
    obtain ⟨signs, whole, signed, parity⟩ := signs_before
    split at h
    · next digits =>
      refine ⟨signs, w, whole, signed, ?_⟩
      simp only [parity]
      split at h
      · next odd =>
        obtain ⟨z, count, rfl⟩ := Option.map_eq_some_iff.1 h
        obtain ⟨written, rfl⟩ := counted digits count
        exact ⟨written, (if_pos odd).symm⟩
      · next even =>
        obtain ⟨z, count, rfl⟩ := Option.map_eq_some_iff.1 h
        obtain ⟨written, rfl⟩ := counted digits count
        exact ⟨written, (if_neg even).symm⟩
    · cases h

/-- The constant of a text that is read is in range. -/
theorem numeral_of_readAll {signs w : List Char} (signed : Signs signs) (digits : Digits w)
    {f : Formula} (h : readAll (signs ++ w) = .ok f) :
    Numeral maxConstant w (digitsValue w) := by
  obtain ⟨c, w, rfl⟩ := List.exists_cons_of_ne_nil digits.written
  obtain ⟨digit, others⟩ := List.forall_mem_cons.1 digits.all
  have started := isEnd_eq_false_of_isPathChar (isPathChar_of_isDigit digit)
  have ended : ∀ d ∈ ([] : List Char).head?, d.isDigit = false := nofun
  obtain ⟨taken, left⟩ := takeWhile_append_of_stop others ended
  rw [List.append_nil] at taken left
  rcases readAll_cases (signs ++ c :: w) with ⟨-, eq⟩ | ⟨stop, -, eq⟩ | ⟨f', rest, reads, -⟩
  · cases h.symm.trans eq
  · cases h.symm.trans eq
  · rw [readFormula] at reads
    obtain ⟨first, operand, -⟩ := reads.of_bind
    rw [readOperand_reads_iff, readSigns_skipBlank,
      readSigns_append signed false started] at operand
    obtain ⟨u, primary, -⟩ := operand
    rw [readPrimary, if_pos digit, readNumber] at primary
    simp only [taken, left, startsDice, Bool.false_eq_true, if_false] at primary
    cases count : countUpTo? maxConstant (c :: w) with
    | some n =>
      have numeral := (countUpTo?_eq_some_iff digits.all).1 count
      rwa [numeral.value]
    | none =>
      rw [count] at primary
      obtain ⟨shorter, eq⟩ := primary
      cases eq

/-- A text that spells an integer is read as nothing else. The least integer is spelled by a text
that is not read, because its constant is out of range without the sign. -/
theorem eq_number_of_readInteger? {text : List Char} {n : Int} {f : Formula}
    (spelled : readInteger? text = some n) (h : readAll text = .ok f) : f = [.number n] := by
  obtain ⟨signs, w, rfl, signed, digits, rfl⟩ := signed_digits_of_readInteger? spelled
  have numeral := numeral_of_readAll signed digits h
  have operand := isOperand_of_signs signed (.number numeral)
  have read := readAll_of_isFormula (.intro operand .nil)
  rw [List.append_nil, h] at read
  cases read
  by_cases odd : Negates signs
  · rw [if_pos odd, if_pos odd]
    rfl
  · rw [if_neg odd, if_neg odd]

end Tabletop.Formula
