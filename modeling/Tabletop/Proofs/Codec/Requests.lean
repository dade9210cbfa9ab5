import Mathlib.Logic.Function.Defs
import Tabletop.Codec.Request
/-!
# Requests survive being written

A decoder inverts an encoder if it reads each written value back, wherever the document comes from.
Optional values and lists keep that, and a record has it if each of its fields does: the fields are
looked up by their names, and none is left out, so that no default stands in for a written value.
-/

namespace Tabletop

namespace Decode

variable {α β : Type}

/-! ## Values -/

/-- The decoder reads each value back from its document. No value is written as null, which would
be read as no value where one is optional. -/
structure Inverts (f : Decoder α) (g : α → Document) : Prop where
  reads : ∀ dialect a, f dialect (g a) = some a
  notNull : ∀ a, g a ≠ .null

variable {f : Decoder α} {g : α → Document}

theorem Inverts.injective (h : Inverts f g) : Function.Injective g := by
  intro a b same
  have read := h.reads .json a
  rw [same, h.reads] at read
  exact (Option.some.inj read).symm

theorem Inverts.reads_ofOption (h : Inverts f g) (dialect : Dialect) (a : Option α) :
    option f dialect (.ofOption g a) = some a := by
  cases a with
  | none => rfl
  | some a =>
    have read : option f dialect (g a) = (f dialect (g a)).map some := by
      have present := h.notNull a
      cases written : g a with
      | null => exact absurd written present
      | _ => rfl
    exact read.trans (congrArg (Option.map some) (h.reads dialect a))

theorem Inverts.ofList (h : Inverts f g) : Inverts (list f) (.ofList g) := by
  refine ⟨fun dialect as => ?_, fun as => by rintro ⟨⟩⟩
  change (as.map g).mapM (f dialect) = some as
  induction as with
  | nil => rfl
  | cons a as ih =>
    rw [List.map_cons, List.mapM_cons, h.reads, ih]
    rfl

theorem inverts_string : Inverts string .string := ⟨fun _ _ => rfl, fun _ => by rintro ⟨⟩⟩

theorem inverts_bool : Inverts bool .bool := ⟨fun _ _ => rfl, fun _ => by rintro ⟨⟩⟩

theorem natUpTo_ofNat {greatest n : Nat} (within : n ≤ greatest) (dialect : Dialect) :
    natUpTo greatest dialect (.ofNat n) = some n := by
  have inside : (decide ((0 : Int) ≤ n) && decide ((n : Int) ≤ greatest)) = true := by
    rw [Bool.and_eq_true, decide_eq_true_eq, decide_eq_true_eq]
    omega
  change Option.map Int.toNat (if _ then some (n : Int) else none) = some n
  rw [if_pos inside]
  rfl

theorem inverts_word32 : Inverts word32 .ofWord32 := by
  refine ⟨fun dialect w => ?_, fun _ => by rintro ⟨⟩⟩
  have within : w.toNat ≤ maxCount := Nat.le_of_lt_succ w.toNat_lt
  change (natUpTo maxCount dialect (.ofNat w.toNat)).map UInt32.ofNat = some w
  rw [natUpTo_ofNat within, Option.map_some, UInt32.ofNat_toNat]

theorem inverts_word64 : Inverts word64 .ofWord64 := by
  refine ⟨fun dialect w => ?_, fun _ => by rintro ⟨⟩⟩
  have within : w.toNat ≤ maxIndex := Nat.le_of_lt_succ w.toNat_lt
  change (natUpTo maxIndex dialect (.ofNat w.toNat)).map UInt64.ofNat = some w
  rw [natUpTo_ofNat within, Option.map_some, UInt64.ofNat_toNat]

/-- A choice without data is read from its name. -/
theorem inverts_choice {ofName? : String → Option α} (name : α → String)
    (named : ∀ a, ofName? (name a) = some a) : Inverts (choice ofName?) (.string ∘ name) := by
  refine ⟨fun dialect a => ?_, fun _ => by rintro ⟨⟩⟩
  change (ofName? (name a)).bind (fun a => some a) = some a
  rw [named a]
  rfl

theorem inverts_ability : Inverts ability Ability.toDocument :=
  inverts_choice Ability.key fun a => by cases a <;> rfl

theorem inverts_critOverride : Inverts critOverride CritOverride.toDocument := by
  constructor
  · intro dialect c
    cases c <;> rfl
  · intro c
    cases c <;> rintro ⟨⟩

theorem inverts_rollState : Inverts rollState RollState.toDocument := by
  constructor
  · intro dialect s
    cases s <;> rfl
  · intro s
    cases s <;> rintro ⟨⟩

/-- The three forms of a selector are an integer, an array and a string. -/
theorem inverts_damageSelector : Inverts damageSelector DamageSelector.toDocument := by
  constructor
  · intro dialect s
    cases s with
    | index i => exact congrArg (Option.map _) (inverts_word64.reads dialect i)
    | indices list => exact congrArg (Option.map _) (inverts_word64.ofList.reads dialect list)
    | all => rfl
  · intro s
    cases s <;> rintro ⟨⟩

/-! ## Records -/

variable {entries : List (String × Document)} {name : String}

/-- The reader takes a value from entries, wherever they come from. -/
def Yields (r : Reading α) (entries : List (String × Document)) (a : α) : Prop :=
  ∀ dialect, r dialect (.named entries) = some (a, .named entries)

theorem yields_pure (a : α) : Yields (pure a) entries a := fun _ => rfl

theorem Yields.bind {r : Reading α} {next : α → Reading β} {a : α} {b : β}
    (first : Yields r entries a) (rest : Yields (next a) entries b) :
    Yields (r >>= next) entries b := by
  intro dialect
  change (r dialect (.named entries)).bind (fun p => next p.1 dialect p.2) = _
  rw [first dialect]
  exact rest dialect

theorem yields_nextField {d : Document} (there : Document.lookup? name entries = some d) :
    Yields (nextField name) entries (some d) := by
  intro dialect
  change some (Document.lookup? name entries, Fields.named entries) = _
  rw [there]

theorem yields_reading {d : Document} {a : α} (read : ∀ dialect, f dialect d = some a) :
    Yields (reading f d) entries a := by
  intro dialect
  change (f dialect d).map _ = _
  rw [read dialect]
  rfl

theorem Inverts.yields_required (h : Inverts f g) {a : α}
    (there : Document.lookup? name entries = some (g a)) :
    Yields (required name f) entries a :=
  (yields_nextField there).bind (yields_reading fun dialect => h.reads dialect a)

theorem Inverts.yields_withDefault (h : Inverts f g) {a default : α}
    (there : Document.lookup? name entries = some (g a)) :
    Yields (withDefault name f default) entries a :=
  (yields_nextField there).bind (yields_reading fun dialect => h.reads dialect a)

theorem Inverts.yields_optional (h : Inverts f g) {a : Option α}
    (there : Document.lookup? name entries = some (.ofOption g a)) :
    Yields (optional name f) entries a :=
  (yields_nextField there).bind (yields_reading fun dialect => h.reads_ofOption dialect a)

/-- A tagged record is read back if the reader of its kind takes the value from its entries. -/
theorem taggedRecord_object {tag kind : String} {ofName? : String → Option (Reading α)}
    {r : Reading α} {a : α} (known : ofName? kind = some r)
    (yields : Yields r ((tag, .string kind) :: entries) a) (dialect : Dialect) :
    taggedRecord tag ofName? dialect (.object ((tag, .string kind) :: entries)) = some a := by
  have tagged : Document.lookup? tag ((tag, .string kind) :: entries) = some (.string kind) :=
    if_pos rfl
  simp only [taggedRecord, Document.entries?, Option.bind_eq_bind, Option.bind_some, tagged, known]
  change (r .tagged (.named ((tag, .string kind) :: entries))).map _ = some a
  rw [yields]
  rfl

/-! ## Requests -/

/-- The entries of a request. -/
abbrev entriesOf (r : RollRequest) : List (String × Document) :=
  ("kind", .string r.name) :: r.fields

theorem yields_attackArgs (a : AttackArgs) : Yields attackArgs (entriesOf (.attack a)) a :=
  (inverts_word32.yields_optional rfl).bind <| (inverts_word32.yields_optional rfl).bind <|
    (inverts_string.yields_optional rfl).bind <| (inverts_bool.yields_withDefault rfl).bind <|
    (inverts_word32.yields_optional rfl).bind <| yields_pure a

theorem yields_checkArgs (a : CheckArgs) : Yields checkArgs (entriesOf (.check a)) a :=
  (inverts_word32.yields_optional rfl).bind <| (inverts_word32.yields_optional rfl).bind <|
    (inverts_string.yields_optional rfl).bind <| (inverts_bool.yields_withDefault rfl).bind <|
    (inverts_word32.yields_optional rfl).bind <| (inverts_string.yields_optional rfl).bind <|
    yields_pure a

theorem yields_damageArgs (a : DamageArgs) : Yields damageArgs (entriesOf (.damage a)) a :=
  (inverts_damageSelector.yields_withDefault rfl).bind <|
    (inverts_bool.yields_withDefault rfl).bind <|
    (inverts_critOverride.yields_withDefault rfl).bind <|
    (inverts_string.yields_optional rfl).bind <| yields_pure a

theorem yields_saveDcArgs (a : SaveDcArgs) : Yields saveDcArgs (entriesOf (.saveDc a)) a :=
  (inverts_ability.yields_optional rfl).bind <| (inverts_word32.yields_optional rfl).bind <|
    yields_pure a

theorem yields_customArgs (a : CustomArgs) : Yields customArgs (entriesOf (.custom a)) a :=
  (inverts_string.yields_optional rfl).bind <| (inverts_string.yields_withDefault rfl).bind <|
    (inverts_word32.yields_withDefault rfl).bind <| (inverts_rollState.yields_optional rfl).bind <|
    yields_pure a

/-- Each kind has its reader, which takes the request from its entries. -/
theorem exists_requestFields (r : RollRequest) :
    ∃ reader, requestFields? r.name = some reader ∧ Yields reader (entriesOf r) r := by
  cases r with
  | attack a => exact ⟨_, rfl, (yields_attackArgs a).bind (yields_pure _)⟩
  | check a => exact ⟨_, rfl, (yields_checkArgs a).bind (yields_pure _)⟩
  | damage a => exact ⟨_, rfl, (yields_damageArgs a).bind (yields_pure _)⟩
  | saveDc a => exact ⟨_, rfl, (yields_saveDcArgs a).bind (yields_pure _)⟩
  | other => exact ⟨_, rfl, yields_pure _⟩
  | custom a => exact ⟨_, rfl, (yields_customArgs a).bind (yields_pure _)⟩
  | text t => exact ⟨_, rfl, (inverts_string.yields_required rfl).bind (yields_pure _)⟩
  | flavor t => exact ⟨_, rfl, (inverts_string.yields_optional rfl).bind (yields_pure _)⟩
  | description => exact ⟨_, rfl, yields_pure _⟩
  | critExtra i => exact ⟨_, rfl, (inverts_word64.yields_optional rfl).bind (yields_pure _)⟩

theorem inverts_rollRequest : Inverts rollRequest RollRequest.toDocument := by
  refine ⟨fun dialect r => ?_, fun r => by rintro ⟨⟩⟩
  obtain ⟨reader, known, yields⟩ := exists_requestFields r
  exact taggedRecord_object known yields dialect

end Decode

open Decode (rollRequest inverts_rollRequest)

/-- A program of requests is read back as it was written, whatever its kinds and arguments are. A
request that was read from any document at all, with fields left out, in an array or with other
entries between its own, is the same when it is written and read again. No two requests, and no two
programs, have the same document. -/
theorem requests_read_back :
    (∀ dialect (rs : List RollRequest),
        Decode.list rollRequest dialect (.ofList RollRequest.toDocument rs) = some rs) ∧
      (∀ dialect d r, rollRequest dialect d = some r →
        ∀ dialect', rollRequest dialect' r.toDocument = some r) ∧
      Function.Injective RollRequest.toDocument ∧
      Function.Injective (Document.ofList RollRequest.toDocument) := by
  refine ⟨inverts_rollRequest.ofList.reads, fun dialect d r _ dialect' => ?_,
    inverts_rollRequest.injective, inverts_rollRequest.ofList.injective⟩
  exact inverts_rollRequest.reads dialect' r

/-- Damage of the lines 0 and 2, with an entry that no field asks for; what is not there gets its
default. -/
def briefDamage : Document :=
  .object [("index", .array [.integer 0, .integer 2]), ("note", .string "both"),
    ("kind", .string "damage")]

theorem briefDamage_reads_back :
    ∃ r, rollRequest .json briefDamage = some r ∧ r = .damage { index := .indices [0, 2] } ∧
      rollRequest .json r.toDocument = some r ∧
      r.toDocument = .object [("kind", .string "damage"),
        ("index", .array [.integer 0, .integer 2]), ("versatile", .bool false),
        ("crit", .string "auto"), ("context", .null)] := by
  have read : rollRequest .json briefDamage = some (.damage { index := .indices [0, 2] }) := rfl
  exact ⟨_, read, rfl, requests_read_back.2.1 .json briefDamage _ read .json, rfl⟩

end Tabletop
