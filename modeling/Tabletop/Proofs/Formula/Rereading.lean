import Mathlib
import Tabletop.Proofs.Dice.Parentheses
import Tabletop.Proofs.Formula.Composition
import Tabletop.Proofs.NameMap
/-!
# Reading what was printed

The text of a formula whose variables are replaced is read as this formula, or not at all. What
cannot be read is the least integer: a variable can be bound to it, but its text is a minus sign and
a constant that is out of range. Everything else that a variable can be bound to is read again. Dice
that are too many for one term are not read either, when a formula is put together with them.
-/

namespace Tabletop

/-- The integer that a variable can be bound to, though no formula can be read with it. -/
def leastConstant : Int := -maxConstant - 1

/-- What a term is that a text can stand for or that no text is read as, the terms in it aside. -/
def Term.Printed (t : Term) : Prop :=
  t.InRange ∧ (t.Sound ∨ t = .number leastConstant ∨ ∃ d, t = .dice d ∧ maxDice < d.number)

/-- Only constants and dice can be out of what is read. -/
theorem Term.Printed.sound {t : Term} (h : t.Printed) (other : ∀ n, t ≠ .number n)
    (other' : ∀ d, t ≠ .dice d) : t.Sound := by
  obtain ⟨-, sound | least | ⟨d, same, -⟩⟩ := h
  · exact sound
  · exact absurd least (other _)
  · exact absurd same (other' d)

namespace Formula

open Text (isBlank skipBlank Scanned)
open Grammar

variable {α β : Type} {m n : Nat}

/-- Reading gives the value and leaves the rest, if it succeeds. -/
def ReadsOnly (x : Except Stop (Scanned α n)) (value : α) (rest : List Char) : Prop :=
  ∀ value' rest', Reads x value' rest' → value' = value ∧ rest' = rest

namespace ReadsOnly

variable {x : Except Stop (Scanned α m)} {value : α} {rest : List Char}

theorem of_reads (h : Reads x value rest) : ReadsOnly x value rest := by
  rintro value' rest' ⟨shorter', eq'⟩
  obtain ⟨shorter, rfl⟩ := h
  cases eq'
  exact ⟨rfl, rfl⟩

theorem bind {f : Scanned α m → Except Stop (Scanned β n)} {value' : β} {rest' : List Char}
    (first : ReadsOnly x value rest)
    (second : ∀ shorter, ReadsOnly (f ⟨value, rest, shorter⟩) value' rest') :
    ReadsOnly (x >>= f) value' rest' := by
  intro other left h
  obtain ⟨⟨v, r, shorter⟩, here, behind⟩ := h.of_bind
  obtain ⟨rfl, rfl⟩ := first v r here
  exact second shorter other left behind

end ReadsOnly

/-- A blank before an operand changes nothing. -/
theorem ReadsOnly.blank {w rest : List Char} {t : Term} (h : ReadsOnly (readOperand w) t rest) :
    ReadsOnly (readOperand (' ' :: w)) t rest := by
  intro u rest' read
  have skipped : readSigns false (' ' :: w) = readSigns false w := by
    rw [readSigns, if_pos (by decide)]
  rw [readOperand_reads_iff, skipped, ← readOperand_reads_iff] at read
  exact h u rest' read

theorem countUpTo?_of_lt {w : List Char} {limit number : Nat} (numeral : Numeral number w number)
    (great : limit < number) : countUpTo? limit w = none := by
  rw [countUpTo?, numeral.value, decide_eq_false (Nat.not_le.2 great), Bool.and_false,
    if_neg Bool.false_ne_true]

/-- A constant that is too great is not read. -/
theorem not_reads_number {c : Char} {w rest : List Char} {number : Nat}
    (numeral : Numeral number (c :: w) number) (great : maxConstant < number) (ends : Ends rest)
    (t : Term) (left : List Char) : ¬Reads (readPrimary (c :: (w ++ rest))) t left := by
  have digits := (List.forall_mem_cons.1 numeral.digits.all).2
  obtain ⟨taken, dropped⟩ := takeWhile_append_of_stop digits ends.not_isDigit
  rw [readPrimary, if_pos (numeral.digits.all c List.mem_cons_self), readNumber]
  simp only [taken, dropped, if_neg (startsDice_of_ends ends), countUpTo?_of_lt numeral great]
  rintro ⟨shorter, eq⟩
  cases eq

/-- Dice that are too many are not read. -/
theorem not_reads_dice {c : Char} {w sides : List Char} {number : Nat}
    (numeral : Numeral number (c :: w) number) (great : maxDice < number) (sided : Digits sides)
    (behind : List Char) (t : Term) (left : List Char) :
    ¬Reads (readPrimary (c :: (w ++ 'd' :: (sides ++ behind)))) t left := by
  have digits := (List.forall_mem_cons.1 numeral.digits.all).2
  have stop : ∀ d ∈ ('d' :: (sides ++ behind)).head?, d.isDigit = false := by
    rintro _ ⟨⟩
    decide
  obtain ⟨taken, dropped⟩ := takeWhile_append_of_stop digits stop
  rw [readPrimary, if_pos (numeral.digits.all c List.mem_cons_self), readNumber]
  simp only [taken, dropped, if_pos (startsDice_of_letter (Or.inl rfl) sided behind),
    countUpTo?_of_lt numeral great]
  rintro ⟨shorter, eq⟩
  cases eq

theorem readsOnly_leastConstant {rest : List Char} (ends : Ends rest) :
    ReadsOnly (readOperand (integerChars leastConstant ++ rest)) (.number leastConstant) rest := by
  intro t left read
  have numeral := numeral_countChars (Nat.le_refl leastConstant.natAbs)
  have written : integerChars leastConstant = '-' :: countChars leastConstant.natAbs :=
    if_pos (by decide)
  rw [written] at read
  obtain ⟨c, w, digits⟩ := List.exists_cons_of_ne_nil numeral.digits.written
  rw [digits] at numeral read
  have started := isEnd_eq_false_of_isPathChar
    (isPathChar_of_isDigit (numeral.digits.all c List.mem_cons_self))
  have signed : Signs ['-'] := List.forall_mem_singleton.2 (Or.inr (Or.inr rfl))
  have skipped := readSigns_append signed false started (w ++ rest)
  rw [List.singleton_append] at skipped
  rw [readOperand_reads_iff, List.cons_append, List.cons_append, skipped] at read
  obtain ⟨u, primary, -⟩ := read
  exact absurd primary (not_reads_number numeral (by decide) ends u left)

theorem readSigns_of_visible {c : Char} (started : isEnd c = false) (text : List Char) :
    readSigns false (c :: text) = (false, c :: text) :=
  readSigns_append (List.forall_mem_nil _) false started text

theorem readsOnly_operand {c : Char} {text rest : List Char} {t : Term} (started : isEnd c = false)
    (h : ReadsOnly (readPrimary (c :: text)) t rest) :
    ReadsOnly (readOperand (c :: text)) t rest := by
  intro u rest' read
  rw [readOperand_reads_iff, readSigns_of_visible started] at read
  obtain ⟨_, primary, rfl⟩ := read
  exact h _ rest' primary

theorem readsOnly_crowd {d : DiceTerm} (crowded : maxDice < d.number) (rest : List Char) :
    ReadsOnly (readOperand (d.chars ++ rest)) (.dice d) rest := by
  have numeral := numeral_countChars (Nat.le_refl d.number)
  have sided := (numeral_countChars (Nat.le_refl d.faces)).digits
  obtain ⟨c, w, digits⟩ := List.exists_cons_of_ne_nil numeral.digits.written
  rw [digits] at numeral
  have started := isEnd_eq_false_of_isPathChar
    (isPathChar_of_isDigit (numeral.digits.all c List.mem_cons_self))
  rw [DiceTerm.chars, digits, List.append_assoc, List.append_assoc, List.cons_append,
    List.cons_append]
  refine readsOnly_operand started fun t left read => ?_
  exact absurd read (not_reads_dice numeral crowded sided _ t left)

/-- A formula up to the parenthesis that closes it, as one of a group or of a function. -/
theorem ReadsOnly.closed {text rest : List Char} {f : Formula} {t : Term}
    {close : ∀ (inner : Scanned Formula text.length), Scanned Unit inner.rest.length →
      Scanned Term n}
    (inner : ReadsOnly (readFormula text) f (')' :: rest))
    (made : ∀ shorter shorter', (close ⟨f, ')' :: rest, shorter⟩ ⟨(), rest, shorter'⟩).value = t ∧
      (close ⟨f, ')' :: rest, shorter⟩ ⟨(), rest, shorter'⟩).rest = rest) :
    ReadsOnly (do
      let inner ← readFormula text
      let paren ← expect ')' inner.rest
      return close inner paren) t rest := by
  refine inner.bind fun shorter => ?_
  refine (ReadsOnly.of_reads (expect_reads (by decide) (List.forall_mem_nil _) rest)).bind
    fun shorter' => ?_
  rintro u left ⟨_, eq⟩
  obtain ⟨value, remains⟩ := made shorter shorter'
  have same := Except.ok.inj eq
  rw [same] at value remains
  exact ⟨value, remains⟩

theorem stops_close (rest : List Char) :
    Stops (')' :: rest) ∧ skipBlank (')' :: rest) = ')' :: rest :=
  stops_of_close (b := []) (List.forall_mem_nil _) rest

theorem ends_chars (ts : List Term) (continuing : continues ts = true) {rest : List Char}
    (ends : Ends rest) : Ends (chars ts ++ rest) := by
  match ts with
  | [] => exact ends
  | .operator op :: t :: ts =>
    rintro _ ⟨⟩
    decide

-- By recursion on the formula, as its text is printed. What is sound is read, and the least integer
-- and dice that are too many are where reading ends.
mutual

theorem readsOnly_term (t : Term) (operand : t.isOperand = true)
    (printed : ∀ u ∈ t.nested, u.Printed) {rest : List Char} (ends : Ends rest) :
    ReadsOnly (readOperand (t.chars ++ rest)) t rest := by
  have whole (sound : t.Sound) (range : t.InRange) (alone : t.nested = [t]) :
      ReadsOnly (readOperand (t.chars ++ rest)) t rest := by
    refine .of_reads (readOperand_reads (isOperand_chars t operand ?_) ends)
    rw [alone]
    exact List.forall_mem_singleton.2 ⟨sound, range⟩
  match t with
  | .dice d =>
    obtain ⟨range, sound | least | ⟨_, same, crowded⟩⟩ := printed _ List.mem_cons_self
    · exact whole sound range rfl
    · cases least
    · cases same
      exact readsOnly_crowd crowded rest
  | .number n =>
    obtain ⟨range, sound | least | ⟨_, same, -⟩⟩ := printed _ List.mem_cons_self
    · exact whole sound range rfl
    · cases least
      exact readsOnly_leastConstant ends
    · cases same
  | .variable path =>
    have here := printed _ List.mem_cons_self
    exact whole (here.sound nofun nofun) here.1 rfl
  | .group inner =>
    obtain ⟨here, deeper⟩ := List.forall_mem_cons.1 printed
    obtain ⟨stops, found⟩ := stops_close rest
    have formula := readsOnly_formula inner (here.sound nofun nofun) deeper stops
    rw [found] at formula
    have text : (Term.group inner).chars ++ rest = '(' :: (chars inner ++ ')' :: rest) := by
      simp only [Term.chars, List.cons_append, List.append_assoc, List.nil_append]
    rw [text]
    refine readsOnly_operand (by decide) ?_
    rw [readPrimary_group]
    exact formula.closed fun _ _ => ⟨rfl, rfl⟩
  | .call function argument =>
    obtain ⟨here, deeper⟩ := List.forall_mem_cons.1 printed
    obtain ⟨stops, found⟩ := stops_close rest
    have formula := readsOnly_formula argument (here.sound nofun nofun) deeper stops
    rw [found] at formula
    have named : function.name.toList.map Char.toLower = function.name.toList := by
      cases function <;> rfl
    obtain ⟨c, cs, name, other, other', letters⟩ := letters_of_named named
    obtain ⟨letter, letters⟩ := List.forall_mem_cons.1 letters
    have named : (c :: cs).map Char.toLower = function.name.toList := name ▸ named
    have text : (Term.call function argument).chars ++ rest =
        c :: (cs ++ ([] ++ '(' :: (chars argument ++ ')' :: rest))) := by
      simp only [Term.chars, name, List.cons_append, List.append_assoc, List.nil_append]
    rw [text]
    refine readsOnly_operand (isEnd_eq_false_of_isPathChar (isPathChar_of_isAlpha letter)) ?_
    rw [readPrimary_call letter _ (startsDice_of_ne other other' _)]
    refine (ReadsOnly.of_reads (readFunctionName_reads named letters
      (List.forall_mem_nil _) _)).bind fun _ => ?_
    exact formula.closed fun _ _ => ⟨rfl, rfl⟩
  | .operator op => cases operand

theorem readsOnly_formula (f : List Term) (alternating : alternates f = true)
    (printed : ∀ t ∈ nested f, t.Printed) {rest : List Char} (stops : Stops rest) :
    ReadsOnly (readFormula (chars f ++ rest)) f (skipBlank rest) := by
  match f with
  | [] => cases alternating
  | t :: ts =>
    obtain ⟨operand, continuing⟩ := Bool.and_eq_true_iff.1 alternating
    obtain ⟨first, others⟩ := List.forall_mem_append.1 printed
    rw [chars, List.append_assoc, readFormula]
    refine (readsOnly_term t operand first (ends_chars ts continuing stops.1)).bind fun _ => ?_
    exact (readsOnly_more ts continuing others stops).bind fun _ => .of_reads ⟨_, rfl⟩

theorem readsOnly_more (ts : List Term) (continuing : continues ts = true)
    (printed : ∀ t ∈ nested ts, t.Printed) {rest : List Char} (stops : Stops rest) :
    ReadsOnly (readMore (chars ts ++ rest)) ts (skipBlank rest) := by
  match ts with
  | [] =>
    refine .of_reads (readMore_of_stop fun c tail found => stops.2 c ?_)
    exact found ▸ rfl
  | .operator op :: t :: ts =>
    obtain ⟨operand, continuing⟩ := Bool.and_eq_true_iff.1 continuing
    obtain ⟨-, printed⟩ := List.forall_mem_append.1 printed
    obtain ⟨first, others⟩ := List.forall_mem_append.1 printed
    have found : skipBlank (chars (.operator op :: t :: ts) ++ rest) =
        op.symbol :: (' ' :: (t.chars ++ (chars ts ++ rest))) := by
      simp only [chars, Term.chars, List.cons_append, List.append_assoc, List.nil_append]
      rw [skipBlank, if_pos (by decide), skipBlank_cons (isBlank_symbol op)]
    obtain ⟨shorter, eq⟩ := readMore_of_operator found
    rw [eq]
    refine (readsOnly_term t operand first (ends_chars ts continuing stops.1)).blank.bind
      fun _ => ?_
    exact (readsOnly_more ts continuing others stops).bind fun _ => .of_reads ⟨_, rfl⟩

end

theorem reads_of_skipBlank {text rest : List Char} {f : Formula}
    (h : Reads (readFormula (skipBlank text)) f rest) : Reads (readFormula text) f rest := by
  rw [readFormula] at h ⊢
  obtain ⟨first, operand, h⟩ := h.of_bind
  obtain ⟨more, operators, shorter, eq⟩ := h.of_bind
  cases eq
  rw [readOperand_reads_iff, readSigns_skipBlank, ← readOperand_reads_iff] at operand
  exact operand.bind fun _ => operators.bind fun _ => ⟨_, rfl⟩

/-- A text of which nothing else is read is read as nothing else. -/
theorem ReadsOnly.readAll {text rest : List Char} {f g : Formula}
    (only : ReadsOnly (readFormula text) f rest) (h : readAll text = .ok g) : g = f := by
  rcases readAll_cases text with
    ⟨-, eq⟩ | ⟨stop, -, eq⟩ | ⟨g', left, reads, ⟨-, eq⟩ | ⟨_, _, -, eq⟩⟩
  · cases h.symm.trans eq
  · cases h.symm.trans eq
  · cases h.symm.trans eq
    exact (only g left (reads_of_skipBlank reads)).1
  · cases h.symm.trans eq

/-- What is printed is read as itself, if it is read. -/
theorem eq_of_parse_render {f g : Formula} (alternating : alternates f = true)
    (printed : ∀ t ∈ nested f, t.Printed) (h : parse (render f) = .ok g) : g = f := by
  have only := readsOnly_formula f alternating printed (stops_of_blanks (List.forall_mem_nil _))
  rw [List.append_nil] at only
  rw [parse, render, String.toList_ofList] at h
  exact only.readAll h

/-! ## Formulas that can be read -/

theorem parse_render_of_sound {f : Formula} (alternating : alternates f = true)
    (sound : ∀ t ∈ nested f, t.Sound ∧ t.InRange) : parse (render f) = .ok f := by
  rw [parse, render, String.toList_ofList]
  exact readAll_of_isFormula (isFormula_chars f alternating sound)

theorem sound_of_parse {text : String} {f : Formula} (parsed : parse text = .ok f) :
    alternates f = true ∧ ∀ t ∈ nested f, t.Sound ∧ t.InRange := by
  obtain ⟨_, _, _, -, -, derived, -⟩ := isText_of_readAll parsed
  exact sound_of_isFormula derived

/-! ## Formulas with their variables replaced -/

theorem isInteger64_of_readInteger? {text : List Char} {z : Int} (h : readInteger? text = some z) :
    isInteger64 z = true := by
  have counted {limit : Nat} {w : List Char} {k : Int}
      (count : (do let m ← countUpTo? limit w; return (m : Int)) = some k) : 0 ≤ k ∧ k ≤ limit := by
    obtain ⟨m, found, made⟩ := Option.bind_eq_some_iff.1 count
    cases made
    rw [countUpTo?, Option.ite_none_right_eq_some, Bool.and_eq_true, decide_eq_true_eq] at found
    obtain ⟨⟨-, bound⟩, same⟩ := found
    cases same
    exact ⟨Int.natCast_nonneg _, Int.ofNat_le.2 bound⟩
  unfold readInteger? at h
  simp only [isInteger64, Bool.and_eq_true, decide_eq_true_eq]
  split at h
  all_goals
    rw [Option.ite_none_right_eq_some] at h
    obtain ⟨-, h⟩ := h
    split at h
    all_goals
      obtain ⟨k, count, rfl⟩ := Option.map_eq_some_iff.1 h
      have bound := counted count
      omega

end Formula

/-- What a term of a formula is, whose variables were replaced by what is bound to them: it is
sound, or it is the least integer and a variable is bound to that. -/
def Term.Replaced (b : Bindings) (t : Term) : Prop :=
  t.InRange ∧
    (t.Sound ∨ t = .number leastConstant ∧ ∃ path, b.formula path = .ok [.number leastConstant])

/-- No variable is bound to the least integer. -/
def Bindings.AvoidsLeast (b : Bindings) : Prop :=
  ∀ path, b.formula path ≠ .ok [.number leastConstant]

/-- It is enough to look at the paths that are bound. -/
theorem Bindings.avoidsLeast_iff {b : Bindings} :
    b.AvoidsLeast ↔ ∀ entry ∈ b.entries, b.formula entry.1 ≠ .ok [.number leastConstant] := by
  refine ⟨fun h entry _ => h entry.1, fun h path bound => ?_⟩
  cases found : b.get? path with
  | none =>
    rw [formula, found] at bound
    cases bound
  | some text => exact h (path, text) (NameMap.mem_of_get? found) bound

instance (b : Bindings) : Decidable b.AvoidsLeast :=
  decidable_of_iff _ Bindings.avoidsLeast_iff.symm

theorem Bindings.empty_avoidsLeast : (∅ : Bindings).AvoidsLeast := by
  intro path bound
  cases bound

theorem Term.Replaced.printed {b : Bindings} {t : Term} (h : t.Replaced b) : t.Printed :=
  ⟨h.1, h.2.imp_right fun least => Or.inl least.1⟩

section

variable {b : Bindings}

theorem Bindings.replaced_formula {path : String} {f : Formula} (h : b.formula path = .ok f) :
    Formula.alternates f = true ∧ ∀ t ∈ Formula.nested f, t.Replaced b := by
  refine ⟨(b.evaluable_formula h).alternating, ?_⟩
  have bound := h
  unfold Bindings.formula at h
  split at h
  · cases h
    have zero := Formula.sound_natCast (Nat.zero_le maxConstant)
    exact List.forall_mem_singleton.2 ⟨zero.2, Or.inl zero.1⟩
  · split at h
    · next z spelled =>
      cases h
      refine List.forall_mem_singleton.2 ⟨Formula.isInteger64_of_readInteger? spelled, ?_⟩
      by_cases least : z = leastConstant
      · subst least
        exact Or.inr ⟨rfl, path, bound⟩
      · exact Or.inl least
    · obtain ⟨_, _, _, -, -, derived, -⟩ := Formula.isText_of_readAll h
      intro t mem
      obtain ⟨sound, range⟩ := (Formula.sound_of_isFormula derived).2 t mem
      exact ⟨range, Or.inl sound⟩

theorem Formula.isOperand_spliced {f : Formula} (h : alternates f = true) :
    f.spliced.isOperand = true := by
  match f with
  | [t] => exact (Bool.and_eq_true_iff.1 h).1
  | t :: u :: ts => rfl

theorem Formula.replaced_spliced {f : Formula} (alternating : alternates f = true)
    (inside : ∀ t ∈ nested f, t.Replaced b) : ∀ t ∈ f.spliced.nested, t.Replaced b := by
  match f with
  | [t] =>
    rw [nested, nested, List.append_nil] at inside
    exact inside
  | t :: u :: ts => exact List.forall_mem_cons.2 ⟨⟨trivial, Or.inl alternating⟩, inside⟩

theorem Term.isOperand_of_substitute {t u : Term} (h : t.substitute b = .ok u) :
    u.isOperand = t.isOperand := by
  match t with
  | .variable path =>
    rw [Term.substitute_variable] at h
    obtain ⟨f, bound, made⟩ := bind_eq_ok_iff.1 h
    cases made
    exact Formula.isOperand_spliced (b.evaluable_formula bound).alternating
  | .group inner =>
    obtain ⟨inner', -, made⟩ := bind_eq_ok_iff.1 h
    cases made
    rfl
  | .call function argument =>
    obtain ⟨argument', -, made⟩ := bind_eq_ok_iff.1 h
    cases made
    rfl
  | .dice _ | .number _ | .operator _ =>
    cases h
    rfl

namespace Formula

theorem substitute_cons {t : Term} {ts us : List Term} (h : substitute b (t :: ts) = .ok us) :
    ∃ v vs, t.substitute b = .ok v ∧ substitute b ts = .ok vs ∧ us = v :: vs := by
  obtain ⟨v, first, h⟩ := bind_eq_ok_iff.1 h
  obtain ⟨vs, rest, made⟩ := bind_eq_ok_iff.1 h
  cases made
  exact ⟨v, vs, first, rest, rfl⟩

theorem continues_of_substitute (ts : List Term) {us : List Term}
    (h : substitute b ts = .ok us) (continuing : continues ts = true) : continues us = true := by
  match ts with
  | [] =>
    cases h
    rfl
  | .operator op :: t :: ts =>
    obtain ⟨_, _, first, behind, rfl⟩ := substitute_cons h
    obtain ⟨u, us, second, rest, rfl⟩ := substitute_cons behind
    cases first
    obtain ⟨operand, more⟩ := Bool.and_eq_true_iff.1 continuing
    rw [continues, Term.isOperand_of_substitute second, operand,
      continues_of_substitute ts rest more]
    rfl

theorem alternates_of_substitute {f g : List Term} (h : substitute b f = .ok g)
    (alternating : alternates f = true) : alternates g = true := by
  cases f with
  | nil => cases alternating
  | cons t ts =>
    obtain ⟨u, us, first, rest, rfl⟩ := substitute_cons h
    obtain ⟨operand, continuing⟩ := Bool.and_eq_true_iff.1 alternating
    rw [alternates, Term.isOperand_of_substitute first, operand,
      continues_of_substitute ts rest continuing]
    rfl

end Formula

mutual

theorem Term.replaced_of_substitute (t : Term) {u : Term} (h : t.substitute b = .ok u)
    (inside : ∀ v ∈ t.nested, v.Replaced b) : ∀ v ∈ u.nested, v.Replaced b := by
  match t with
  | .variable path =>
    rw [Term.substitute_variable] at h
    obtain ⟨f, bound, made⟩ := bind_eq_ok_iff.1 h
    cases made
    obtain ⟨alternating, deeper⟩ := b.replaced_formula bound
    exact Formula.replaced_spliced alternating deeper
  | .group inner =>
    obtain ⟨inner', resolved, made⟩ := bind_eq_ok_iff.1 h
    cases made
    obtain ⟨⟨-, alternating | ⟨least, -⟩⟩, deeper⟩ := List.forall_mem_cons.1 inside
    · exact List.forall_mem_cons.2
        ⟨⟨trivial, Or.inl (Formula.alternates_of_substitute resolved alternating)⟩,
          Formula.replaced_of_substitute inner resolved deeper⟩
    · cases least
  | .call function argument =>
    obtain ⟨argument', resolved, made⟩ := bind_eq_ok_iff.1 h
    cases made
    obtain ⟨⟨-, alternating | ⟨least, -⟩⟩, deeper⟩ := List.forall_mem_cons.1 inside
    · exact List.forall_mem_cons.2
        ⟨⟨trivial, Or.inl (Formula.alternates_of_substitute resolved alternating)⟩,
          Formula.replaced_of_substitute argument resolved deeper⟩
    · cases least
  | .dice _ | .number _ | .operator _ =>
    cases h
    exact inside

theorem Formula.replaced_of_substitute (f : List Term) {g : List Term}
    (h : Formula.substitute b f = .ok g) (inside : ∀ v ∈ Formula.nested f, v.Replaced b) :
    ∀ v ∈ Formula.nested g, v.Replaced b := by
  match f with
  | [] =>
    cases h
    exact inside
  | t :: ts =>
    obtain ⟨u, us, first, rest, rfl⟩ := Formula.substitute_cons h
    obtain ⟨here, behind⟩ := List.forall_mem_append.1 inside
    exact List.forall_mem_append.2 ⟨t.replaced_of_substitute first here,
      Formula.replaced_of_substitute ts rest behind⟩

end

namespace Formula

/-- A text that is read gives a formula that can be printed once its variables are replaced. -/
theorem replaced_of_parse {text : String} {f g : Formula} (parsed : parse text = .ok f)
    (h : substitute b f = .ok g) : alternates g = true ∧ ∀ t ∈ nested g, t.Replaced b := by
  obtain ⟨alternating, sound⟩ := sound_of_parse parsed
  refine ⟨alternates_of_substitute h alternating, replaced_of_substitute f h fun t mem => ?_⟩
  exact ⟨(sound t mem).2, Or.inl (sound t mem).1⟩

/-- The text of a formula with its variables replaced is read as nothing else. -/
theorem eq_of_parse_substituted {text : String} {f g g' : Formula} (parsed : parse text = .ok f)
    (h : substitute b f = .ok g) (reread : parse (render g) = .ok g') : g' = g := by
  obtain ⟨alternating, inside⟩ := replaced_of_parse parsed h
  exact eq_of_parse_render alternating (fun t mem => (inside t mem).printed) reread

/-- The text of a formula with its variables replaced is read again, unless a variable is bound to
the least integer. -/
theorem parse_substituted {text : String} {f g : Formula} (parsed : parse text = .ok f)
    (h : substitute b f = .ok g) (bounded : b.AvoidsLeast) : parse (render g) = .ok g := by
  obtain ⟨alternating, inside⟩ := replaced_of_parse parsed h
  refine parse_render_of_sound alternating fun t mem => ?_
  obtain ⟨range, sound | ⟨-, path, bound⟩⟩ := inside t mem
  · exact ⟨sound, range⟩
  · exact absurd bound (bounded path)

end Formula

end

/-! ## Variables that are replaced by zero -/

mutual

theorem Term.substitute_again (t : Term) {u : Term} (h : t.substitute ∅ = .ok u) :
    u.substitute ∅ = .ok u := by
  match t with
  | .group inner =>
    obtain ⟨inner', resolved, made⟩ := bind_eq_ok_iff.1 h
    cases made
    exact bind_eq_ok_iff.2 ⟨inner', Formula.substitute_again inner resolved, rfl⟩
  | .call function argument =>
    obtain ⟨argument', resolved, made⟩ := bind_eq_ok_iff.1 h
    cases made
    exact bind_eq_ok_iff.2 ⟨argument', Formula.substitute_again argument resolved, rfl⟩
  | .dice _ | .number _ | .variable _ | .operator _ =>
    cases h
    rfl

/-- No variable is left of a formula where nothing is bound to them. -/
theorem Formula.substitute_again (f : List Term) {g : List Term}
    (h : Formula.substitute ∅ f = .ok g) : Formula.substitute ∅ g = .ok g := by
  match f with
  | [] =>
    cases h
    rfl
  | t :: ts =>
    obtain ⟨u, us, first, rest, rfl⟩ := Formula.substitute_cons h
    refine bind_eq_ok_iff.2 ⟨u, t.substitute_again first, ?_⟩
    exact bind_eq_ok_iff.2 ⟨us, Formula.substitute_again ts rest, rfl⟩

end

end Tabletop
