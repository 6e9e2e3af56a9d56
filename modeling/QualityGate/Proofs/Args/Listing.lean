import QualityGate.Proofs.Args.Words
/-!
## The mode of a listing

A listing is one of check mode exactly if the flag stands among its arguments, wherever it stands.

* `step_list`: one argument of `list` gives the flag only if it is the flag.
* `readArgs_list`: so all of them together give it only if it is one of them.
* `parse_list`: the request that is made of them.

What is kept up on the way is `Progress.AwaitsValue`: nothing waits but an option with a value, which is
never the flag.
-/

namespace QualityGate.Args
open Text

variable {scope : Scope} {p q : Progress}

/-! ### The flag as an argument -/

/-- The flag of check mode as an argument. -/
def checkArg : Bytes := bytes Mode.checkFlag

theorem ofArg_checkArg : Token.ofArg checkArg = .long (bytes "check") none := by decide +kernel

/-! ### What waits -/

/-- **What waits is an option with a value**, if anything does. -/
def Progress.AwaitsValue (p : Progress) : Prop :=
  p.pending = .nothing ∨
    ∃ s, s.takesValue = true ∧ (p.pending = .awaiting s ∨ ∃ v, p.pending = .value s v)

/-- The flag of check mode as it is given. -/
abbrev checkGiven : Given := .flag .check

/-- **Reading has come from one state to another** over arguments of which one is the flag or none is. -/
structure Leads (p q : Progress) (flagged : Prop) : Prop where
  awaits : q.AwaitsValue
  given : checkGiven ∈ q.given ↔ checkGiven ∈ p.given ∨ flagged

theorem Leads.refl (hp : p.AwaitsValue) : Leads p p False :=
  ⟨hp, (or_false _).symm.to_iff⟩

theorem Leads.trans {r : Progress} {a b : Prop} (hpq : Leads p q a) (hqr : Leads q r b) :
    Leads p r (a ∨ b) :=
  ⟨hqr.awaits, by rw [hqr.given, hpq.given, or_assoc]⟩

/-- What is taken in is given, and nothing else. -/
theorem leads_take {s : Switch} {g : Given} (h : p.take scope s g = .ok q) :
    Leads p q (g = checkGiven) := by
  rw [Progress.take] at h
  split at h
  · cases h
  · cases h
    exact ⟨Or.inl rfl, by rw [List.mem_append, List.mem_singleton, @eq_comm _ g]⟩

/-- The value of an option is not read as a flag. -/
theorem readValue_ne {s : Switch} (hs : s.takesValue = true) {v : Bytes} {g : Given}
    (h : readValue s v = .ok g) : g ≠ checkGiven := by
  rintro rfl
  cases s with
  | colour =>
    rw [readValue] at h
    cases hword : chooseWord Switch.colour.shown (ColourChoice.listed.map fun c => (c.word, c)) v <;>
      simp [hword, Except.map] at h
  | config =>
    rw [readValue] at h
    split at h <;> cases h
  | _ => cases hs

/-- A value gives another option than the flag. -/
theorem leads_takeValue {s : Switch} (hs : s.takesValue = true) {v : Bytes}
    (h : takeValue scope p s v = .ok q) : Leads p q False := by
  rw [takeValue] at h
  split at h
  · cases h
  · cases hread : readValue s v with
    | error f =>
      simp only [hread] at h
      cases h
    | ok g =>
      simp only [hread] at h
      have htaken := leads_take h
      rwa [eq_false (readValue_ne hs hread)] at htaken

/-- Taking in what waits gives no flag. -/
theorem leads_resolve (hp : p.AwaitsValue) (h : resolve scope p = .ok q) : Leads p q False := by
  rw [resolve] at h
  rcases hp with hnothing | ⟨s, hs, hwait | ⟨v, hvalue⟩⟩
  · rw [hnothing] at h
    cases h
    exact .refl (Or.inl hnothing)
  · rw [hwait] at h
    cases h
  · rw [hvalue] at h
    exact leads_takeValue hs h

/-! ### One argument -/

/-- An option without a value gives itself. -/
theorem leads_takeFlag (hp : p.AwaitsValue) {s : Switch} {long : Bool}
    (h : takeFlag scope p s long = .ok q) : Leads p q (s = .check) := by
  rw [takeFlag] at h
  split at h
  · cases h
  · rename_i mid hmid
    have hresolved := leads_resolve hp hmid
    split at h
    · cases h
    · cases h
    · simpa using hresolved.trans (leads_take h)

/-- The flag is the only long option that gives it. -/
theorem leads_takeLong (hp : p.AwaitsValue) {s : Switch} {value : Option Bytes}
    (h : takeLong scope p s value = .ok q) : Leads p q (s = .check ∧ value = none) := by
  unfold takeLong at h
  split at h
  · rename_i hs
    -- an option that takes a value is not the flag
    have hother : ¬(s = .check ∧ value = none) := by
      rintro ⟨rfl, -⟩
      cases hs
    split at h
    · cases h
    · rename_i mid hmid
      have hresolved := leads_resolve hp hmid
      rw [eq_false hother]
      split at h
      · simpa using hresolved.trans (leads_takeValue hs h)
      · cases h
        exact ⟨Or.inr ⟨s, hs, Or.inl rfl⟩, hresolved.given⟩
  · split at h
    · cases h
    · simpa using leads_takeFlag hp h

/-- The flag has no letter. -/
theorem leads_takeLetters (hp : p.AwaitsValue) {rest : Bytes} {cs : List Char}
    (h : takeLetters scope p rest cs = .ok q) : Leads p q False := by
  induction cs generalizing p with
  | nil =>
    rw [takeLetters] at h
    split at h
    · cases h
      exact .refl hp
    · cases h
  | cons c cs ih =>
    rw [takeLetters] at h
    split at h
    · cases h
    · rename_i s hs
      have hother : s ≠ .check := by
        rintro rfl
        rw [Scope.short?] at hs
        have hletter := List.find?_some hs
        rw [decide_eq_true_eq] at hletter
        cases hletter
      split at h
      · cases h
      · rename_i mid hmid
        have hfirst := leads_takeFlag hp hmid
        simpa [hother] using hfirst.trans (ih hfirst.awaits h)

/-- Where commands take no words, only an option that waits for its value takes one. -/
theorem leads_stepWord (hp : p.AwaitsValue) {arg : Bytes} {rest : List Bytes} {next : Advance}
    (h : stepWord .list p arg rest = .ok next) : ∃ q, next = .inl q ∧ Leads p q False := by
  rw [stepWord] at h
  split at h
  · rename_i s hwait
    cases h
    have hs : s.takesValue = true := by
      rcases hp with hnothing | ⟨t, ht, hwaiting | ⟨v, hvalue⟩⟩
      · rw [hnothing] at hwait
        cases hwait
      · rw [hwaiting] at hwait
        cases hwait
        exact ht
      · rw [hvalue] at hwait
        cases hwait
    exact ⟨_, rfl, Or.inr ⟨s, hs, Or.inr ⟨arg, rfl⟩⟩, (or_false _).symm.to_iff⟩
  · cases h

theorem ok_of_map_inl {x : Except Fault Progress} {next : Advance}
    (h : x.map (Sum.inl : Progress → Advance) = .ok next) : ∃ q, next = .inl q ∧ x = .ok q := by
  cases x with
  | error f => cases h
  | ok q =>
    cases h
    exact ⟨q, rfl, rfl⟩

/-- A long name of `list` is that of the flag, without a value, only as it is spelled out. -/
theorem check_iff_checkArg {arg : Bytes} {name : Bytes} {value : Option Bytes} {n : String}
    {s : Switch} (htoken : Token.ofArg arg = .long name value) (hname : decode? name = some n)
    (hs : Scope.list.long? n = some s) : s = .check ∧ value = none ↔ arg = checkArg := by
  constructor
  · rintro ⟨rfl, rfl⟩
    rw [Scope.long?] at hs
    have hcheck := List.find?_some hs
    rw [decide_eq_true_eq] at hcheck
    rw [decode?_eq_some_iff, ← hcheck] at hname
    rw [Token.eq_of_ofArg_long htoken, attachedValue, List.append_nil, hname]
    rfl
  · rintro rfl
    rw [ofArg_checkArg] at htoken
    cases htoken
    rw [decode?_bytes, Option.some.injEq] at hname
    rw [← hname] at hs
    have hcheck : Scope.list.long? "check" = some .check := by decide
    exact ⟨Option.some.inj (hs.symm.trans hcheck), rfl⟩

/-- **One argument of `list` gives the flag only if it is the flag.** -/
theorem step_list (hp : p.AwaitsValue) {arg : Bytes} {rest : List Bytes} {next : Advance}
    (hmark : Token.ofArg arg ≠ .endOfOptions) (h : step .list p arg rest = .ok next) :
    ∃ q, next = .inl q ∧ Leads p q (arg = checkArg) := by
  have hother {t : Token} (ht : Token.ofArg arg = t) (hne : t ≠ .long (bytes "check") none) :
      arg ≠ checkArg := by
    rintro rfl
    exact hne (ht.symm.trans ofArg_checkArg)
  unfold step at h
  -- only the form of the flag itself can give it: a long name without a value
  cases htoken : Token.ofArg arg with
  | endOfOptions => exact absurd htoken hmark
  | word =>
    rw [eq_false (hother htoken (by simp))]
    rw [htoken] at h
    exact leads_stepWord hp h
  | letters cs bad =>
    rw [eq_false (hother htoken (by simp))]
    rw [htoken] at h
    obtain ⟨q, hnext, htake⟩ := ok_of_map_inl h
    exact ⟨q, hnext, leads_takeLetters hp htake⟩
  | long name value =>
    rw [htoken] at h
    cases hname : decode? name with
    | none =>
      simp only [hname] at h
      cases h
    | some n =>
      simp only [hname, Option.map_some] at h
      cases hs : Scope.list.long? n with
      | none =>
        simp only [hs] at h
        cases h
      | some s =>
        simp only [hs] at h
        obtain ⟨q, hnext, htake⟩ := ok_of_map_inl h
        have hlong := leads_takeLong hp htake
        rw [check_iff_checkArg htoken hname hs] at hlong
        exact ⟨q, hnext, hlong⟩

/-- After the mark that ends the options `list` takes nothing. -/
theorem step_list_mark (hp : p.AwaitsValue) {arg : Bytes} {rest : List Bytes} {next : Advance}
    (hmark : Token.ofArg arg = .endOfOptions) (h : step .list p arg rest = .ok next) :
    rest = [] ∧ ∃ q, next = .inl q ∧ Leads p q False := by
  rw [step, hmark] at h
  cases rest with
  | nil =>
    cases hresolve : resolve .list p with
    | error f =>
      simp only [takeWords, hresolve] at h
      cases h
    | ok q =>
      simp only [takeWords, hresolve] at h
      cases h
      exact ⟨rfl, q, rfl, leads_resolve hp hresolve⟩
  | cons w ws => cases h

/-! ### All arguments -/

/-- The end of the reading gives no flag. -/
theorem given_finish (hp : p.AwaitsValue) {words : List Bytes} {r : Reading}
    (h : finish scope p words = .ok r) : checkGiven ∈ r.given ↔ checkGiven ∈ p.given := by
  rw [finish] at h
  split at h
  · rename_i q hq
    cases h
    exact (leads_resolve hp hq).given.trans (or_false _).to_iff
  · cases h

/-- **The arguments of `list` give the flag only if it is one of them.** -/
theorem readArgs_list (hp : p.AwaitsValue) {args : List Bytes} {r : Reading}
    (h : readArgs .list p args = .ok r) :
    checkGiven ∈ r.given ↔ checkGiven ∈ p.given ∨ checkArg ∈ args := by
  induction args generalizing p with
  | nil =>
    rw [given_finish hp h]
    simp
  | cons arg rest ih =>
    by_cases hmark : Token.ofArg arg = .endOfOptions
    · -- behind the mark nothing may follow, so the flag is neither the mark nor behind it
      have hne : checkArg ≠ arg := by
        rintro rfl
        rw [ofArg_checkArg] at hmark
        cases hmark
      rw [readArgs] at h
      split at h
      · cases h
      · rename_i words hstep
        obtain ⟨-, q, hq, -⟩ := step_list_mark hp hmark hstep
        cases hq
      · rename_i q hstep
        rw [if_pos hmark] at h
        obtain ⟨rfl, q, ⟨⟩, hlead⟩ := step_list_mark hp hmark hstep
        rw [given_finish hlead.awaits h, hlead.given]
        simp [hne]
    · rw [readArgs] at h
      split at h
      · cases h
      · rename_i words hstep
        obtain ⟨q, hq, -⟩ := step_list hp hmark hstep
        cases hq
      · rename_i q hstep
        rw [if_neg hmark] at h
        obtain ⟨q, ⟨⟩, hlead⟩ := step_list hp hmark hstep
        rw [ih hlead.awaits h, hlead.given, List.mem_cons, or_assoc, @eq_comm _ arg]

/-- **A listing is one of check mode exactly if the flag is one of its arguments.** -/
theorem parse_list {args : List Bytes} {r : Request} (h : parse (bytes "list" :: args) = .ok r) :
    r.effective = .list (decide (checkArg ∈ args)) := by
  have htopic : topicOf? (bytes "list") = some (.scope .list) := by decide +kernel
  rw [parse, htopic] at h
  simp only [parseScope] at h
  split at h
  · rename_i reading hread
    have hgiven := readArgs_list (Or.inl rfl) hread
    rw [requestOf] at h
    simp only [commandOf] at h
    cases h
    simp [Request.effective, hgiven]
  · cases h

end QualityGate.Args
