import QualityGate.Toml.Value
/-!
## Texts that are read as values

What a text is read as does not depend on where it stands, as long as something follows that ends a
value. `ReadsTo` says so about one text; the layouts of a document are read over any text of this kind.
-/

namespace QualityGate.Toml

variable {rest : Input}

/-! ### What follows a value -/

/-- The characters that may follow a value. -/
def endMarks : List Char := [' ', '\t', '\n', '\r', '#', ',', ']', '\x7d']

/-- **The end of a value**: nothing follows, or a character that no value goes on with. -/
def Ends (rest : Input) : Prop :=
  ∀ c ∈ rest.head?, c ∈ endMarks

theorem Ends.head (h : Ends rest) {q : Char → Bool} (hq : endMarks.all q = true) :
    ∀ c ∈ rest.head?, q c = true :=
  fun c hc => List.all_eq_true.mp hq c (h c hc)

theorem ends_comma (rest : Input) : Ends (',' :: rest) := by
  rintro c ⟨⟩
  decide

/-! ### Replies -/

/-- **A reading that leaves room for another one.** -/
def Reply.IsTentative {α : Type} (r : Reply α) : Prop :=
  ∃ place complaint, r = .tentative place complaint

theorem Reply.IsTentative.andThen {α β : Type} {r : Reply α} (h : r.IsTentative)
    (f : α → Input → Reply β) : (r.andThen f).IsTentative := by
  obtain ⟨place, complaint, rfl⟩ := h
  exact ⟨place, complaint, rfl⟩

theorem Reply.IsTentative.labelled {α : Type} {r : Reply α} (h : r.IsTentative) (name : String) :
    (r.labelled name).IsTentative := by
  obtain ⟨place, complaint, rfl⟩ := h
  exact ⟨place, _, rfl⟩

theorem Reply.IsTentative.orElse {α : Type} {r : Reply α} (h : r.IsTentative)
    (other : Unit → Reply α) : r.orElse other = other () := by
  obtain ⟨place, complaint, rfl⟩ := h
  rfl

/-- **A reply that gives no value**, for good or with room for another reading. -/
def Reply.IsRefusal {α : Type} (r : Reply α) : Prop :=
  ∃ place complaint, r.commit = .committed place complaint

theorem Reply.IsRefusal.andThen {α β : Type} {r : Reply α} (h : r.IsRefusal)
    (f : α → Input → Reply β) : (r.andThen f).IsRefusal := by
  obtain ⟨place, complaint, h⟩ := h
  cases r with
  | ok => cases h
  | tentative place complaint => exact ⟨place, complaint, rfl⟩
  | committed place complaint => exact ⟨place, complaint, rfl⟩

/-! ### Values -/

/-- **A text that is read as a value**, wherever it stands and whatever ends it, as long as values may nest
at least `levels` deep. `R` tells what it is read as, or that it is refused. -/
structure ReadsTo (levels : Nat) (v : List Char) (R : Option Item → Prop) : Prop where
  head : ∃ c cs, v = c :: cs ∧ isSpace c = false
  reads {depth : Nat} (hdepth : levels ≤ depth) {rest : Input} (h : Ends rest) :
    (∃ item, value depth (v ++ rest) = .ok item rest ∧ R (some item)) ∨
      ((value depth (v ++ rest)).IsRefusal ∧ R none)

/-- **A text that is read as a value in any case**, and as one of which `P` holds. -/
def ReadsAs (levels : Nat) (v : List Char) (P : Item → Prop) : Prop :=
  ReadsTo levels v fun read => ∃ item, read = some item ∧ P item

section ReadsAs

variable {levels depth : Nat} {v : List Char} {P : Item → Prop}

/-- What is read wherever a value may stand is read as a value. -/
theorem readsAs_of_value (hhead : ∃ c cs, v = c :: cs ∧ isSpace c = false)
    (h : ∀ depth, levels ≤ depth → ∀ rest, Ends rest →
      ∃ item, value depth (v ++ rest) = .ok item rest ∧ P item) : ReadsAs levels v P := by
  refine ⟨hhead, fun {depth} hdepth {rest} hrest => Or.inl ?_⟩
  obtain ⟨item, hread, hitem⟩ := h depth hdepth rest hrest
  exact ⟨item, hread, item, rfl, hitem⟩

theorem ReadsAs.value_append (h : ReadsAs levels v P) (hdepth : levels ≤ depth) (hrest : Ends rest) :
    ∃ item, value depth (v ++ rest) = .ok item rest ∧ P item := by
  rcases h.reads hdepth hrest with ⟨item, hread, _, ⟨rfl⟩, hitem⟩ | ⟨-, _, ⟨⟩, -⟩
  exact ⟨item, hread, hitem⟩

/-- It may be read over more levels and as less. -/
theorem ReadsAs.mono {levels' : Nat} {Q : Item → Prop} (h : ReadsAs levels v P)
    (hlevels : levels ≤ levels') (hPQ : ∀ item, P item → Q item) : ReadsAs levels' v Q := by
  refine readsAs_of_value h.head fun depth hdepth rest hrest => ?_
  obtain ⟨item, hread, hitem⟩ := h.value_append (Nat.le_trans hlevels hdepth) hrest
  exact ⟨item, hread, hPQ item hitem⟩

end ReadsAs

/-- The word of a boolean. -/
def booleanText (b : Bool) : List Char :=
  (if b then "true" else "false").toList

/-- **A boolean is read by its word.** -/
theorem readsAs_boolean (b : Bool) :
    ReadsAs 0 (booleanText b) fun item => ∃ span, item = .scalar (.boolean b) span := by
  refine readsAs_of_value (by cases b <;> exact ⟨_, _, rfl, rfl⟩) fun depth _ rest _ => ?_
  cases b <;> cases depth <;> exact ⟨_, rfl, _, rfl⟩

end QualityGate.Toml
