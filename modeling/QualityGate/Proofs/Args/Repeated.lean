import Mathlib.Data.List.Nodup
import QualityGate.Proofs.Args.Options
/-!
## A flag that is given again

A flag can be given once. How often it was given is counted over all spellings together, so a cluster of
two letters is a repetition as two arguments are.

* `readArgs_again`: a flag that is given twice or more is a fault, whatever follows.
* `heeds_readArgs`: one flag more changes nothing else. Either the flag comes again later, and the line
  that could be read without it is at fault, or the reading is the same with one flag more (`Gains`).
  What each step of the reader contributes to this is `Heeds`, which is closed under sequences of steps.
* `parse_verbose_times`: both for the flag that asks for more output, and what it makes of the request.
-/

namespace QualityGate.Args
open Text

variable {scope : Scope} {w s : Switch} {p p' q : Progress}

/-! ### Flags among what is given -/

theorem switch?_eq_some_iff (hw : w.takesValue = false) (g : Given) :
    g.switch? = some w ↔ g = .flag w := by
  cases g with
  | flag s => simp [Given.switch?]
  | shell s => simp [Given.switch?]
  | _ =>
    constructor
    · rintro ⟨⟩
      cases hw
    · rintro ⟨⟩

theorem has_iff (hw : w.takesValue = false) (p : Progress) : p.has w = true ↔ .flag w ∈ p.given := by
  simp [Progress.has, switch?_eq_some_iff hw]

/-- **What is given apart from a flag.** -/
def othersThan (w : Switch) (gs : List Given) : List Given :=
  gs.filter (· ≠ .flag w)

/-- Options that differ apart from a flag, which comes at most once, are different options. -/
theorem nodup_of_count_le_one (hw : w.takesValue = false) {gs : List Given}
    (hothers : ((othersThan w gs).map Given.switch?).Nodup) (hcount : gs.count (.flag w) ≤ 1) :
    (gs.map Given.switch?).Nodup := by
  induction gs with
  | nil => exact List.nodup_nil
  | cons g gs ih =>
    rw [List.map_cons, List.nodup_cons]
    by_cases hg : g = .flag w
    · subst hg
      rw [othersThan, List.filter_cons_of_neg (by simp)] at hothers
      rw [List.count_cons_self] at hcount
      -- this is the only time the flag comes, so none behind it is the same option
      refine ⟨fun hmem => ?_, ih hothers (by omega)⟩
      obtain ⟨g, hg, hswitch⟩ := List.mem_map.mp hmem
      rw [(switch?_eq_some_iff hw g).mp hswitch] at hg
      have hpos := List.count_pos_iff.mpr hg
      omega
    · rw [othersThan, List.filter_cons_of_pos (by simpa using hg), List.map_cons,
        List.nodup_cons] at hothers
      rw [List.count_cons_of_ne hg] at hcount
      refine ⟨fun hmem => ?_, ih hothers.2 hcount⟩
      obtain ⟨g', hg', hswitch⟩ := List.mem_map.mp hmem
      have hne : g' ≠ .flag w := by
        rintro rfl
        exact hg ((switch?_eq_some_iff hw g).mp hswitch.symm)
      exact hothers.1 (hswitch ▸ List.mem_map_of_mem (List.mem_filter.mpr ⟨hg', by simpa using hne⟩))

/-- The same for what is given in front. -/
theorem nodup_front (hw : w.takesValue = false) {front more : List Given}
    (hothers : ((othersThan w (front ++ more)).map Given.switch?).Nodup)
    (hcount : front.count (.flag w) ≤ 1) : (front.map Given.switch?).Nodup := by
  refine nodup_of_count_le_one hw (hothers.sublist ?_) hcount
  exact ((List.sublist_append_left _ _).filter _).map _

theorem count_append_singleton (w : Switch) (gs : List Given) (g : Given) :
    (gs ++ [g]).count (.flag w) = gs.count (.flag w) + if g = .flag w then 1 else 0 := by
  rw [List.count_append, List.count_singleton]
  simp

/-- A flag that was given at most once, and is given more than once with one flag more, is that flag and
was given before. -/
theorem eq_of_count_append {before : List Given} (hbefore : before.count (.flag w) ≤ 1)
    (hnext : ¬(before ++ [Given.flag s]).count (Given.flag w) ≤ 1) : s = w ∧ Given.flag w ∈ before := by
  rw [count_append_singleton] at hnext
  split at hnext
  · rename_i h
    exact ⟨by simpa using h, List.count_pos_iff.mp (by omega)⟩
  · exact absurd hbefore hnext

/-! ### Given twice -/

/-- A flag is taken in after what waits. -/
theorem takeFlag_eq_bind (hhelp : s ≠ .help) (hversion : s ≠ .version) (p : Progress) (long : Bool) :
    takeFlag scope p s long = (resolve scope p).bind fun p => p.take scope s (.flag s) := by
  unfold takeFlag
  cases s with
  | help => exact absurd rfl hhelp
  | version => exact absurd rfl hversion
  | _ => cases resolve scope p <;> rfl

/-- A fault about an argument ends the reading. -/
theorem readArgs_of_step_error {arg : Bytes} {rest : List Bytes} {f : Fault}
    (h : step scope p arg rest = .error f) : readArgs scope p (arg :: rest) = .error f := by
  rw [readArgs, h]

section Again

variable {before gs : List Given} (hw : w ∈ scope.flags)
include hw

theorem takeFlag_again (hp : HasGiven scope p before) (hmem : .flag w ∈ before) (long : Bool) :
    takeFlag scope p w long = .error (.repeated scope w) := by
  obtain ⟨-, hvalue, hhelp, hversion⟩ := mem_flags hw
  have hhas : ({ given := before } : Progress).has w = true := (has_iff hvalue _).mpr hmem
  rw [takeFlag_eq_bind hhelp hversion, hp, Except.bind, Progress.take, if_pos hhas]

/-- **A cluster in which a flag comes again** is a fault about that flag. -/
theorem takeLetters_again (hp : HasGiven scope p before) {cluster : List Switch}
    (hcluster : ∀ s ∈ cluster, s ∈ scope.flags ∧ s.short?.isSome = true)
    (hothers : ((othersThan w (before ++ cluster.map Given.flag)).map Given.switch?).Nodup)
    (hbefore : before.count (.flag w) ≤ 1)
    (hcount : ¬(before ++ cluster.map Given.flag).count (.flag w) ≤ 1) :
    takeLetters scope p [] (cluster.filterMap Switch.short?) = .error (.repeated scope w) := by
  induction cluster generalizing p before with
  | nil => exact absurd hbefore (by simpa using hcount)
  | cons s cluster ih =>
    obtain ⟨⟨hs, hletter⟩, hcluster⟩ := List.forall_mem_cons.mp hcluster
    obtain ⟨c, hc⟩ := Option.isSome_iff_exists.mp hletter
    rw [List.filterMap_cons_some hc, takeLetters, short?_of_mem (mem_flags hs).1 hc]
    rw [List.map_cons, List.append_cons] at hothers hcount
    -- the flag comes again with this letter, or the letter is taken in and the rest is read
    by_cases hnext : (before ++ [Given.flag s]).count (Given.flag w) ≤ 1
    · have hnew := not_mem_of_nodup rfl (nodup_front (mem_flags hw).2.1 hothers hnext)
      have hstart : HasGiven scope { given := before ++ [.flag s] } (before ++ [.flag s]) := rfl
      simp only [hp.takeFlag hs hnew false]
      exact ih hstart hcluster hothers hnext hcount
    · obtain ⟨rfl, hmem⟩ := eq_of_count_append hbefore hnext
      simp only [takeFlag_again hw hp hmem]

/-- **A flag that is given twice or more is a fault**, however that is written and whatever follows. -/
theorem readArgs_again {args : List Bytes} (h : Spelled scope gs args)
    (hp : HasGiven scope p before)
    (hothers : ((othersThan w (before ++ gs)).map Given.switch?).Nodup)
    (hbefore : before.count (.flag w) ≤ 1) (hcount : ¬(before ++ gs).count (.flag w) ≤ 1)
    (rest : List Bytes) : readArgs scope p (args ++ rest) = .error (.repeated scope w) := by
  have hw' := (mem_flags hw).2.1
  -- The flag comes again in this argument, or it was given at most once and the next ones are read.
  induction h generalizing p before with
  | nil => exact absurd hbefore (by simpa using hcount)
  | @long s hs gs args _ ih =>
    rw [List.append_cons] at hothers hcount
    rw [List.cons_append]
    by_cases hnext : (before ++ [Given.flag s]).count (Given.flag w) ≤ 1
    · have hnew := not_mem_of_nodup rfl (nodup_front hw' hothers hnext)
      rw [hp.long hs hnew]
      exact ih (p := { given := before ++ [.flag s] }) rfl hothers hnext hcount
    · obtain ⟨rfl, hmem⟩ := eq_of_count_append hbefore hnext
      apply readArgs_of_step_error
      rw [step, ofArg_longName]
      simp [long?_of_mem (mem_flags hw).1, takeLong, hw', takeFlag_again hw hp hmem, Except.map]
  | @letters cluster hne hcluster gs args _ ih =>
    rw [← List.append_assoc] at hothers hcount
    rw [List.cons_append]
    by_cases hnext : (before ++ cluster.map Given.flag).count (.flag w) ≤ 1
    · obtain ⟨q, hq, hone⟩ := hp.letters hne hcluster (nodup_front hw' hothers hnext)
      rw [hone]
      exact ih hq hothers hnext hcount
    · obtain ⟨htoken, hknown⟩ := ofArg_cluster hne hcluster
      have hfront : ((othersThan w (before ++ cluster.map Given.flag)).map Given.switch?).Nodup :=
        hothers.sublist (((List.sublist_append_left _ _).filter _).map _)
      apply readArgs_of_step_error
      rw [step, htoken]
      simp [hknown, takeLetters_again hw hp hcluster hfront hbefore hnext, Except.map]
  | colour choice attached _ ih =>
    rw [List.append_cons] at hothers hcount
    have hnext : (before ++ [Given.colour choice]).count (Given.flag w) ≤ 1 := by
      rwa [count_append_singleton, if_neg (by simp)]
    have hnew := not_mem_of_nodup (s := .colour) rfl (nodup_front hw' hothers hnext)
    obtain ⟨q, hq, hone⟩ := hp.value (Or.inl rfl) hnew (readValue_word choice) attached
      fun _ => by cases choice <;> rfl
    rw [List.append_assoc, ← ih hq hothers hnext hcount]
    exact hone _
  | @config path hne attached hplain gs args _ ih =>
    rw [List.append_cons] at hothers hcount
    have hnext : (before ++ [Given.config path]).count (Given.flag w) ≤ 1 := by
      rwa [count_append_singleton, if_neg (by simp)]
    have hnew := not_mem_of_nodup (s := .config) rfl (nodup_front hw' hothers hnext)
    obtain ⟨q, hq, hone⟩ := hp.value (Or.inr rfl) hnew (if_neg hne) attached hplain
    rw [List.append_assoc, ← ih hq hothers hnext hcount]
    exact hone _

end Again

/-! ### One flag more -/

/-- **A flag stands once more among what is given.** -/
def Gains (w : Switch) (gs gs' : List Given) : Prop :=
  ∃ before after, gs = before ++ after ∧ gs' = before ++ .flag w :: after

namespace Gains

variable {gs gs' : List Given}

theorem append (h : Gains w gs gs') (more : List Given) : Gains w (gs ++ more) (gs' ++ more) := by
  obtain ⟨before, after, rfl, rfl⟩ := h
  exact ⟨before, after ++ more, by simp, by simp⟩

theorem mem_iff (h : Gains w gs gs') (g : Given) : g ∈ gs' ↔ g = .flag w ∨ g ∈ gs := by
  obtain ⟨before, after, rfl, rfl⟩ := h
  simp only [List.mem_append, List.mem_cons]
  tauto

/-- What a look-up finds that passes over the flag. -/
theorem findSome?_eq {α : Type} (h : Gains w gs gs') {f : Given → Option α} (hf : f (.flag w) = none) :
    gs'.findSome? f = gs.findSome? f := by
  obtain ⟨before, after, rfl, rfl⟩ := h
  rw [List.findSome?_append, List.findSome?_append, List.findSome?_cons_of_isNone]
  rw [hf]
  rfl

end Gains

/-- What is given in full is what is given apart from a flag, with the flag once more. -/
theorem gains_of_count_eq_one {gs : List Given} (h : gs.count (.flag w) = 1) :
    Gains w (othersThan w gs) gs := by
  have hmem : Given.flag w ∈ gs := List.count_pos_iff.mp (by omega)
  obtain ⟨before, after, rfl⟩ := List.append_of_mem hmem
  rw [List.count_append, List.count_cons_self] at h
  have hbefore : .flag w ∉ before := List.count_eq_zero.mp (by omega)
  have hafter : .flag w ∉ after := List.count_eq_zero.mp (by omega)
  have hkeep {gs : List Given} (hgs : .flag w ∉ gs) : othersThan w gs = gs := by
    rw [othersThan, List.filter_eq_self]
    intro g hg
    simpa using fun hflag : g = .flag w => hgs (hflag ▸ hg)
  refine ⟨before, after, ?_, rfl⟩
  have hboth : othersThan w (before ++ .flag w :: after) = othersThan w before ++ othersThan w after := by
    simp [othersThan]
  rw [hboth, hkeep hbefore, hkeep hafter]

/-- **The same state with the flag given once more.** -/
structure Alike (w : Switch) (p p' : Progress) : Prop where
  gains : Gains w p.given p'.given
  pending : p'.pending = p.pending
  shellTaken : p'.shellTaken = p.shellTaken

/-- **The same, once what waits is taken in.** A value may wait in one of the states that was taken in
already in the other. -/
def Ahead (scope : Scope) (w : Switch) (p p' : Progress) : Prop :=
  Alike w p p' ∨
    ∃ q q', resolve scope p = .ok q ∧ resolve scope p' = .ok q' ∧ Alike w q q' ∧ .flag w ∉ q.given

/-- **How a step of the reader heeds a flag that is given once more**: what was given stays given, and
where the step succeeds without the flag, it either gives the flag itself, so with the flag given before
it is at fault, or succeeds as well. `R` relates the states before it, and `R'` the results. -/
structure Heeds {β : Type} (scope : Scope) (w : Switch) (R : Progress → Progress → Prop)
    (given : β → List Given) (R' : β → β → Prop) (f : Progress → Except Fault β) : Prop where
  grows : ∀ {p r}, f p = .ok r → .flag w ∈ p.given → .flag w ∈ given r
  follows : ∀ {p p' r}, R p p' → .flag w ∉ p.given → f p = .ok r →
    if .flag w ∈ given r then f p' = .error (.repeated scope w) else ∃ r', f p' = .ok r' ∧ R' r r'

theorem ok_of_bind_ok {α β : Type} {x : Except Fault α} {f : α → Except Fault β} {b : β}
    (h : x.bind f = .ok b) : ∃ a, x = .ok a ∧ f a = .ok b := by
  cases x with
  | error e => cases h
  | ok a => exact ⟨a, rfl, h⟩

namespace Heeds

variable {β : Type} {R R₁ : Progress → Progress → Prop} {given : β → List Given} {R' : β → β → Prop}

/-- **Steps one after the other** heed the flag as each of them does. -/
theorem bind {f : Progress → Except Fault Progress} {g : Progress → Except Fault β}
    (hf : Heeds scope w R Progress.given R₁ f) (hg : Heeds scope w R₁ given R' g) :
    Heeds scope w R given R' fun p => (f p).bind g where
  grows h hmem := by
    obtain ⟨q, hq, hr⟩ := ok_of_bind_ok h
    exact hg.grows hr (hf.grows hq hmem)
  follows hR hnew h := by
    obtain ⟨q, hq, hr⟩ := ok_of_bind_ok h
    have hfirst := hf.follows hR hnew hq
    by_cases hmem : .flag w ∈ q.given
    · rw [if_pos hmem] at hfirst
      rw [if_pos (hg.grows hr hmem), hfirst]
      rfl
    · rw [if_neg hmem] at hfirst
      obtain ⟨q', hq', hR₁⟩ := hfirst
      rw [hq']
      exact hg.follows hR₁ hmem hr

theorem ahead {f : Progress → Except Fault β} (h : Heeds scope w R given R' f)
    (hR : ∀ p p', R₁ p p' → R p p') : Heeds scope w R₁ given R' f where
  grows := h.grows
  follows hp := h.follows (hR _ _ hp)

/-- A step that never succeeds. -/
theorem of_error {f : Progress → Except Fault β} (h : ∀ p r, f p ≠ .ok r) :
    Heeds scope w R given R' f where
  grows hr := absurd hr (h _ _)
  follows _ _ hr := absurd hr (h _ _)

end Heeds

/-! ### One flag more in each step -/

theorem take_eq_ok_iff {g : Given} :
    p.take scope s g = .ok q ↔
      p.has s = false ∧ q = { p with given := p.given ++ [g], pending := .nothing } := by
  unfold Progress.take
  cases p.has s with
  | true => simp
  | false => simp [eq_comm]

theorem Alike.has_eq (h : Alike w p p') (s : Switch) : p'.has s = (decide (w = s) || p.has s) := by
  have hflag : (Given.flag w).switch? = some w := rfl
  rw [Bool.eq_iff_iff]
  simp [Progress.has, h.gains.mem_iff, hflag, or_and_right, exists_or]

theorem switch?_of_readValue {v : Bytes} {g : Given} (h : readValue s v = .ok g) :
    g.switch? = some s := by
  unfold readValue at h
  split at h
  · cases hword : chooseWord Switch.colour.shown (ColourChoice.listed.map fun c => (c.word, c)) v with
    | error f =>
      rw [hword] at h
      cases h
    | ok c =>
      rw [hword] at h
      cases h
      rfl
  · split at h
    · cases h
    · cases h
      rfl
  · cases h
    rfl

/-- **What taking in comes to** when it succeeds: nothing waits, or a value or a shell is read. -/
theorem resolve_cases (h : resolve scope p = .ok q) :
    (p.pending = .nothing ∧ q = p) ∨
      (∃ s v, p.pending = .value s v ∧ takeValue scope p s v = .ok q) ∨
      ∃ shell, q = { p with given := p.given ++ [.shell shell], pending := .nothing } ∧
        ∀ p', p'.pending = p.pending →
          resolve scope p' = .ok { p' with given := p'.given ++ [.shell shell], pending := .nothing } := by
  unfold resolve at h
  split at h
  · rename_i hpending
    cases h
    exact Or.inl ⟨hpending, rfl⟩
  · cases h
  · rename_i s v hpending
    exact Or.inr (Or.inl ⟨s, v, hpending, h⟩)
  · rename_i word hpending
    split at h
    · rename_i shell hshell
      cases h
      refine Or.inr (Or.inr ⟨shell, rfl, fun p' hp' => ?_⟩)
      rw [resolve, hp', hpending]
      simp only [hshell]
    · cases h

/-- A value that can be read is taken in like anything else. -/
theorem takeValue_eq_take {v : Bytes} {g : Given} (h : readValue s v = .ok g) (p : Progress) :
    takeValue scope p s v = p.take scope s g := by
  unfold takeValue
  cases hhas : p.has s with
  | true => rw [if_pos rfl, Progress.take, if_pos hhas]
  | false => simp only [h, if_neg Bool.false_ne_true]

theorem readValue_of_takeValue {v : Bytes} (h : takeValue scope p s v = .ok q) :
    ∃ g, readValue s v = .ok g := by
  unfold takeValue at h
  split at h
  · cases h
  · split at h
    · exact ⟨_, ‹_›⟩
    · cases h

theorem shellTaken_of_resolve (h : resolve scope p = .ok q) : q.shellTaken = p.shellTaken := by
  rcases resolve_cases h with ⟨-, rfl⟩ | ⟨s, v, -, h⟩ | ⟨shell, rfl, -⟩
  · rfl
  · obtain ⟨g, hg⟩ := readValue_of_takeValue h
    rw [takeValue_eq_take hg] at h
    rw [(take_eq_ok_iff.mp h).2]
  · rfl

theorem Ahead.shellTaken (h : Ahead scope w p p') : p'.shellTaken = p.shellTaken := by
  rcases h with h | ⟨q, q', hq, hq', h, -⟩
  · exact h.shellTaken
  · rw [← shellTaken_of_resolve hq, ← shellTaken_of_resolve hq', h.shellTaken]

/-- A step that does nothing. -/
theorem heeds_stay : Heeds scope w (Ahead scope w) Progress.given (Ahead scope w) fun p => .ok p where
  grows h hmem := by
    cases h
    exact hmem
  follows hR hnew h := by
    cases h
    rw [if_neg hnew]
    exact ⟨_, rfl, hR⟩

/-- A change of the state that leaves alone what is given. -/
theorem heeds_set {f : Progress → Progress} (hgiven : ∀ p, (f p).given = p.given)
    (hpending : ∀ p p', (f p').pending = (f p).pending)
    (hshell : ∀ p p' : Progress, p'.shellTaken = p.shellTaken → (f p').shellTaken = (f p).shellTaken) :
    Heeds scope w (Alike w) Progress.given (Alike w) fun p => .ok (f p) where
  grows h hmem := by
    cases h
    rwa [hgiven]
  follows {p p' q} hR hnew h := by
    cases h
    rw [if_neg (by rwa [hgiven])]
    exact ⟨_, rfl, by simpa only [hgiven] using hR.gains, hpending p p', hshell p p' hR.shellTaken⟩

/-- A state in which an option waits for a value leaves nothing to take in. -/
theorem Ahead.alike_of_awaiting (h : Ahead scope w p p') (hs : p.pending = .awaiting s) :
    Alike w p p' := by
  rcases h with h | ⟨q, q', hq, -⟩
  · exact h
  · rw [resolve, hs] at hq
    cases hq

theorem Ahead.not_awaiting (h : Ahead scope w p p') (hp : ∀ s, p.pending ≠ .awaiting s) (s : Switch) :
    p'.pending ≠ .awaiting s := by
  rcases h with h | ⟨q, q', -, hq', -⟩
  · rw [h.pending]
    exact hp s
  · intro hs
    rw [resolve, hs] at hq'
    cases hq'

section Steps

variable (hw : w.takesValue = false)
include hw

theorem heeds_take {g : Given} (hg : g.switch? = some s) :
    Heeds scope w (Alike w) Progress.given (Alike w) fun p => p.take scope s g where
  grows h hmem := by
    rw [(take_eq_ok_iff.mp h).2]
    exact List.mem_append_left _ hmem
  follows {p p' q} hR hnew h := by
    obtain ⟨hhas, rfl⟩ := take_eq_ok_iff.mp h
    have hhas' := hR.has_eq s
    -- the step gives the flag itself, so it is at fault once more, or it is about another option
    by_cases hs : w = s
    · subst hs
      rw [(switch?_eq_some_iff hw g).mp hg, if_pos (by simp)]
      rw [decide_eq_true rfl, Bool.true_or] at hhas'
      exact if_pos hhas'
    · have hne : g ≠ .flag w := by
        rintro rfl
        exact hs (Option.some.inj hg)
      rw [if_neg (by simpa [hnew] using Ne.symm hne)]
      rw [decide_eq_false hs, hhas, Bool.or_false] at hhas'
      exact ⟨_, take_eq_ok_iff.mpr ⟨hhas', rfl⟩, hR.gains.append _, rfl, hR.shellTaken⟩

theorem heeds_takeValue (s : Switch) (v : Bytes) :
    Heeds scope w (Alike w) Progress.given (Alike w) fun p => takeValue scope p s v := by
  cases hread : readValue s v with
  | error f =>
    refine .of_error fun p q h => ?_
    obtain ⟨g, hg⟩ := readValue_of_takeValue h
    rw [hread] at hg
    cases hg
  | ok g =>
    simp only [takeValue_eq_take hread]
    exact heeds_take hw (switch?_of_readValue hread)

/-- **What waits is taken in alike.** -/
theorem heeds_resolve : Heeds scope w (Ahead scope w) Progress.given (Alike w) (resolve scope) where
  grows {p q} h hmem := by
    rcases resolve_cases h with ⟨-, rfl⟩ | ⟨s, v, -, h⟩ | ⟨shell, rfl, -⟩
    · exact hmem
    · exact (heeds_takeValue hw s v).grows h hmem
    · exact List.mem_append_left _ hmem
  follows {p p' q} hR hnew h := by
    rcases hR with hR | ⟨m, m', hm, hm', hR, hnone⟩
    · rcases resolve_cases h with ⟨hpending, rfl⟩ | ⟨s, v, hpending, h⟩ | ⟨shell, rfl, hshell⟩
      · rw [← hR.pending] at hpending
        rw [if_neg hnew, resolve, hpending]
        exact ⟨p', rfl, hR⟩
      · rw [← hR.pending] at hpending
        rw [resolve, hpending]
        exact (heeds_takeValue hw s v).follows hR hnew h
      · rw [if_neg (by simpa using hnew)]
        exact ⟨_, hshell p' hR.pending, hR.gains.append _, rfl, hR.shellTaken⟩
    · rw [hm] at h
      cases h
      rw [if_neg hnone]
      exact ⟨m', hm', hR⟩

theorem heeds_takeFlag (s : Switch) (long : Bool) :
    Heeds scope w (Ahead scope w) Progress.given (Alike w) fun p => takeFlag scope p s long := by
  by_cases hhelp : s = .help
  · refine .of_error fun p q => ?_
    rw [takeFlag, hhelp]
    cases resolve scope p <;> rintro ⟨⟩
  · by_cases hversion : s = .version
    · refine .of_error fun p q => ?_
      rw [takeFlag, hversion]
      cases resolve scope p <;> rintro ⟨⟩
    · simp only [takeFlag_eq_bind hhelp hversion]
      exact (heeds_resolve hw).bind (heeds_take hw rfl)

theorem heeds_takeLong (s : Switch) (value : Option Bytes) :
    Heeds scope w (Ahead scope w) Progress.given (Alike w) fun p => takeLong scope p s value := by
  cases hvalue : s.takesValue with
  | false =>
    cases value with
    | some v => exact .of_error fun p q => by simp [takeLong, hvalue]
    | none =>
      have hflag (p : Progress) : takeLong scope p s none = takeFlag scope p s true := by
        simp [takeLong, hvalue]
      simpa only [hflag] using heeds_takeFlag hw s true
  | true =>
    cases value with
    | some v =>
      have hread (p : Progress) :
          takeLong scope p s (some v) = (resolve scope p).bind fun p => takeValue scope p s v := by
        rw [takeLong, if_pos hvalue]
        cases resolve scope p <;> rfl
      simpa only [hread] using (heeds_resolve hw).bind (heeds_takeValue hw s v)
    | none =>
      have hwait (p : Progress) : takeLong scope p s none =
          (resolve scope p).bind fun p => .ok { p with pending := .awaiting s } := by
        rw [takeLong, if_pos hvalue]
        cases resolve scope p <;> rfl
      simp only [hwait]
      exact (heeds_resolve hw).bind (heeds_set (fun _ => rfl) (fun _ _ => rfl) fun _ _ h => h)

/-- **The letters of a cluster** are taken in alike. -/
theorem heeds_takeLetters (rest : Bytes) (cs : List Char) :
    Heeds scope w (Ahead scope w) Progress.given (Ahead scope w)
      fun p => takeLetters scope p rest cs := by
  induction cs with
  | nil =>
    unfold takeLetters
    split
    · exact heeds_stay
    · refine .of_error fun p q => ?_
      rintro ⟨⟩
  | cons c cs ih =>
    cases hs : scope.short? c with
    | none => exact .of_error fun p q => by simp [takeLetters, hs]
    | some s =>
      have hnext (p : Progress) : takeLetters scope p rest (c :: cs) =
          (takeFlag scope p s false).bind fun p => takeLetters scope p rest cs := by
        rw [takeLetters, hs]
        dsimp only
        cases takeFlag scope p s false <;> rfl
      simp only [hnext]
      exact (heeds_takeFlag hw s false).bind (ih.ahead fun _ _ => Or.inl)

theorem heeds_takeWord (word : Bytes) :
    Heeds scope w (Ahead scope w) Progress.given (Alike w) fun p => takeWord scope p word := by
  have hshell : Heeds scope w (Ahead scope w) Progress.given (Alike w) fun p =>
      (resolve scope p).bind fun p => .ok { p with pending := .shellWord word, shellTaken := true } :=
    (heeds_resolve hw).bind (heeds_set (fun _ => rfl) (fun _ _ => rfl) fun _ _ _ => rfl)
  -- the place of the shell is free in both states or in none
  have htake (p : Progress) : takeWord scope p word =
      if scope = .completions && !p.shellTaken then
        (resolve scope p).bind fun p => .ok { p with pending := .shellWord word, shellTaken := true }
      else .error (unknownWord scope (Text.lossy word) false) := by
    unfold takeWord
    split
    · cases resolve scope p <;> rfl
    · rfl
  refine ⟨fun {p q} h => ?_, fun {p p' q} hR hnew h => ?_⟩
  · rw [htake] at h
    split at h
    · exact hshell.grows h
    · cases h
  · rw [htake] at h ⊢
    rw [hR.shellTaken]
    split at h
    · rename_i hfree
      rw [if_pos hfree]
      exact hshell.follows hR hnew h
    · cases h

theorem heeds_takeWords (words : List Bytes) :
    Heeds scope w (Ahead scope w) Progress.given (Ahead scope w) fun p => takeWords scope p words := by
  induction words with
  | nil => exact heeds_stay
  | cons word words ih =>
    have hnext (p : Progress) : takeWords scope p (word :: words) =
        (takeWord scope p word).bind fun p => takeWords scope p words := by
      rw [takeWords]
      cases takeWord scope p word <;> rfl
    simp only [hnext]
    exact (heeds_takeWord hw word).bind (ih.ahead fun _ _ => Or.inl)

/-! ### One flag more in a whole reading -/

/-- **The same reading with the flag given once more.** -/
def Reading.Gains (w : Switch) (r r' : Reading) : Prop :=
  Args.Gains w r.given r'.given ∧ r'.words = r.words

/-- A reader of all that is left heeds the flag. -/
abbrev HeedsReading (scope : Scope) (w : Switch) (f : Progress → Except Fault Reading) : Prop :=
  Heeds scope w (Ahead scope w) Reading.given (Reading.Gains w) f

theorem heeds_finish (words : List Bytes) : HeedsReading scope w fun p => finish scope p words := by
  have hfinish (p : Progress) :
      finish scope p words = (resolve scope p).bind fun p => .ok ⟨p.given, words⟩ := by
    unfold finish
    cases resolve scope p <;> rfl
  simp only [hfinish]
  refine (heeds_resolve hw).bind ⟨fun {p r} h hmem => ?_, fun {p p' r} hR hnew h => ?_⟩
  · cases h
    exact hmem
  · cases h
    rw [if_neg hnew]
    exact ⟨_, rfl, hR.gains, rfl⟩

/-- What is left is read after an argument that is no mark. -/
def goOn (scope : Scope) (p : Progress) (rest : List Bytes) : Except Fault Advance → Except Fault Reading
  | .error f => .error f
  | .ok (.inr words) => finish scope p words
  | .ok (.inl q) => readArgs scope q rest

omit hw in
theorem readArgs_cons {arg : Bytes} (hmark : Token.ofArg arg ≠ .endOfOptions) (rest : List Bytes)
    (p : Progress) : readArgs scope p (arg :: rest) = goOn scope p rest (step scope p arg rest) := by
  rw [readArgs]
  cases step scope p arg rest with
  | error f => rfl
  | ok next =>
    cases next with
    | inl q => exact if_neg hmark
    | inr words => rfl

omit hw in
theorem goOn_map_inl (x : Except Fault Progress) (rest : List Bytes) (p : Progress) :
    goOn scope p rest (x.map .inl) = x.bind fun p => readArgs scope p rest := by
  cases x <;> rfl

/-- **A word** is taken in alike: as a value that an option waits for, or as a word of the scope. -/
theorem heeds_word (arg : Bytes) {rest : List Bytes}
    (hrest : HeedsReading scope w fun p => readArgs scope p rest) :
    HeedsReading scope w fun p => goOn scope p rest (stepWord scope p arg rest) := by
  have hawaited {p : Progress} {s : Switch} (h : p.pending = .awaiting s) :
      goOn scope p rest (stepWord scope p arg rest) =
        readArgs scope { p with pending := .value s arg } rest := by
    rw [stepWord, h]
    rfl
  have hown : HeedsReading scope w fun p =>
      if scope.takesAnything then finish scope p (arg :: rest)
      else (takeWord scope p arg).bind fun p => readArgs scope p rest := by
    cases scope.takesAnything with
    | true => exact heeds_finish hw (arg :: rest)
    | false => exact (heeds_takeWord hw arg).bind (hrest.ahead fun _ _ => Or.inl)
  have hother {p : Progress} (h : ∀ s, p.pending ≠ .awaiting s) :
      goOn scope p rest (stepWord scope p arg rest) =
        if scope.takesAnything then finish scope p (arg :: rest)
        else (takeWord scope p arg).bind fun p => readArgs scope p rest := by
    unfold stepWord
    split
    · exact absurd ‹_› (h _)
    · split
      · rfl
      · exact goOn_map_inl _ rest p
  -- whether an option waits is the same in both states, so the word is taken in the same way
  refine ⟨fun {p r} h hmem => ?_, fun {p p' r} hR hnew h => ?_⟩
  · by_cases hwait : ∃ s, p.pending = .awaiting s
    · obtain ⟨s, hs⟩ := hwait
      rw [hawaited hs] at h
      exact hrest.grows h hmem
    · rw [hother (not_exists.mp hwait)] at h
      exact hown.grows h hmem
  · by_cases hwait : ∃ s, p.pending = .awaiting s
    · obtain ⟨s, hs⟩ := hwait
      have hR := hR.alike_of_awaiting hs
      rw [hawaited hs] at h
      rw [hawaited (hR.pending.trans hs)]
      have hvalue : Ahead scope w { p with pending := .value s arg }
          { p' with pending := .value s arg } := Or.inl ⟨hR.gains, rfl, hR.shellTaken⟩
      exact hrest.follows hvalue hnew h
    · have hwait' := hR.not_awaiting (not_exists.mp hwait)
      rw [hother (not_exists.mp hwait)] at h
      rw [hother hwait']
      exact hown.follows hR hnew h

omit hw in
/-- Behind the mark there are only words. -/
theorem readArgs_mark {arg : Bytes} (hmark : Token.ofArg arg = .endOfOptions) (rest : List Bytes)
    (p : Progress) :
    readArgs scope p (arg :: rest) =
      if scope.takesAnything then finish scope p rest
      else (takeWords scope p rest).bind fun p => (resolve scope p).bind fun p => finish scope p [] := by
  rw [readArgs, step, hmark]
  dsimp only
  cases scope.takesAnything with
  | true => rfl
  | false =>
    cases takeWords scope p rest with
    | error f => rfl
    | ok q =>
      simp only [Except.bind, if_neg Bool.false_ne_true]
      cases resolve scope q <;> rfl

/-- **All that is left is read alike.** -/
theorem heeds_readArgs (args : List Bytes) : HeedsReading scope w fun p => readArgs scope p args := by
  induction args with
  | nil => exact heeds_finish hw []
  | cons arg rest ih =>
    have htaken {R₁ : Progress → Progress → Prop} {f : Progress → Except Fault Progress}
        (hf : Heeds scope w (Ahead scope w) Progress.given R₁ f)
        (hR : ∀ p p', R₁ p p' → Ahead scope w p p') :
        HeedsReading scope w fun p => goOn scope p rest ((f p).map .inl) := by
      simp only [goOn_map_inl]
      exact hf.bind (ih.ahead hR)
    have hword := heeds_word hw arg ih
    have hfault (f : Progress → Fault) :
        HeedsReading scope w fun p => goOn scope p rest (.error (f p)) := .of_error nofun
    by_cases hmark : Token.ofArg arg = .endOfOptions
    · simp only [readArgs_mark hmark]
      split
      · exact heeds_finish hw rest
      · have hend : Heeds scope w (Alike w) Reading.given (Reading.Gains w)
            fun p => finish scope p [] := (heeds_finish hw []).ahead fun _ _ => Or.inl
        exact (heeds_takeWords hw rest).bind ((heeds_resolve hw).bind hend)
    · simp only [readArgs_cons hmark]
      -- the form of the argument and the options of the scope say what is done, in whatever state
      cases htoken : Token.ofArg arg with
      | endOfOptions => exact absurd htoken hmark
      | word => simpa only [step, htoken] using hword
      | letters cs bad =>
        simp only [step, htoken]
        split
        · exact hword
        · exact htaken (heeds_takeLetters hw bad cs) fun _ _ => id
      | long name value =>
        simp only [step, htoken]
        cases decode? name with
        | none => exact hfault _
        | some n =>
          cases hs : scope.long? n with
          | none =>
            simp only [Option.map_some, hs]
            split
            · exact hword
            · exact hfault _
          | some s =>
            simp only [Option.map_some, hs]
            exact htaken (heeds_takeLong hw s value) fun _ _ => Or.inl

end Steps

/-! ### Requests -/

/-- The arguments in front of those of a scope. -/
def Scope.opening (s : Scope) : List Bytes :=
  if s = .top then [] else [bytes s.word]

/-- Behind its word a scope is read, and before any command where the first argument is an option. -/
theorem parse_opening (scope : Scope) (t : Bytes) (more : List Bytes) :
    parse (scope.opening ++ (hyphen :: t) :: more) = parseScope scope ((hyphen :: t) :: more) := by
  by_cases htop : scope = .top
  · subst htop
    apply parse_of_not_command
    rintro x ⟨⟩
    exact hyphen_cons_not_command t
  · have hcommand : scope ∈ Scope.commands := by
      cases scope with
      | top => exact absurd rfl htop
      | _ => decide
    rw [Scope.opening, if_neg htop]
    exact parse_word hcommand _

/-- **A request is made** of a command and of the words before any command. -/
theorem requestOf_eq_ok_iff {r : Reading} {request : Request} :
    requestOf scope r = .ok request ↔ ∃ command run, commandOf scope r = .ok command ∧
      (if scope = .top then runArgsOf .top r.words else .ok {}) = .ok run ∧
      request =
        { command := command
          run := run
          verbose := r.given.contains (.flag .verbose)
          quiet := r.given.contains (.flag .quiet)
          colour := colourOf r.given
          config := configOf r.given } := by
  rw [requestOf]
  cases commandOf scope r with
  | error f => simp
  | ok command =>
    dsimp only
    cases (if scope = .top then runArgsOf .top r.words else .ok {} : Except Fault RunArgs) with
    | error f => simp [Except.map]
    | ok run => simp [Except.map, eq_comm]

/-- **A request in which the flag for more output is given** differs in nothing else. -/
theorem requestOf_gains {r r' : Reading} (h : r.Gains .verbose r') {request : Request}
    (hr : requestOf scope r = .ok request) :
    requestOf scope r' = .ok { request with verbose := true } := by
  obtain ⟨hgains, hwords⟩ := h
  have hcontains (g : Given) (hg : g ≠ .flag .verbose) : r'.given.contains g = r.given.contains g := by
    rw [Bool.eq_iff_iff, List.contains_iff_mem, List.contains_iff_mem, hgains.mem_iff]
    exact ⟨fun h => h.resolve_left hg, Or.inr⟩
  have hverbose : r'.given.contains (.flag .verbose) = true := by
    rw [List.contains_iff_mem, hgains.mem_iff]
    exact Or.inl rfl
  have hcolour : colourOf r'.given = colourOf r.given := by
    rw [colourOf, colourOf, hgains.findSome?_eq rfl]
  have hconfig : configOf r'.given = configOf r.given := hgains.findSome?_eq rfl
  -- no look-up but that for the flag itself can find it
  have hshell : shellOf r'.given = shellOf r.given := hgains.findSome?_eq rfl
  obtain ⟨command, run, hcommand, hrun, rfl⟩ := requestOf_eq_ok_iff.mp hr
  have hcommand' : commandOf scope r' = .ok command := by
    rw [← hcommand]
    cases scope with
    | top => rfl
    | validate => rfl
    | run => rw [commandOf, commandOf, hwords]
    | list => rw [commandOf, commandOf, hcontains _ (by decide)]
    | init => rw [commandOf, commandOf, hcontains _ (by decide)]
    | completions =>
      rw [commandOf] at hcommand ⊢
      rw [commandOf, hshell]
      cases hs : shellOf r.given with
      | none =>
        rw [hs] at hcommand
        cases hcommand
      | some shell => rfl
  refine requestOf_eq_ok_iff.mpr ⟨command, run, hcommand', by rw [hwords, hrun], ?_⟩
  rw [hverbose, hcontains _ (by decide : Given.flag .quiet ≠ .flag .verbose), hcolour, hconfig]

/-- **How often the flag for more output may be given.** It stands among different other options, which are
written in any way, as it is itself; `tail` is what follows, in front of which the other options alone
stand in `others`. Given once, the flag makes a request that can be made without it one with more output,
and changes nothing else; if what follows gives the flag as well, the line is at fault. Given twice or
more often, it is a fault already in front. -/
theorem parse_verbose_times (scope : Scope) {gs : List Given} {front others : List Bytes}
    (hfront : Spelled scope gs front) (hothers : Spelled scope (othersThan .verbose gs) others)
    (hdistinct : ((othersThan .verbose gs).map Given.switch?).Nodup) (tail : List Bytes) :
    (gs.count (.flag .verbose) = 1 → ∀ r, parseScope scope (others ++ tail) = .ok r →
      parse (scope.opening ++ (front ++ tail)) =
        if r.verbose then .error (.repeated scope .verbose) else .ok { r with verbose := true }) ∧
    (2 ≤ gs.count (.flag .verbose) →
      parse (scope.opening ++ (front ++ tail)) = .error (.repeated scope .verbose)) := by
  have hw : Switch.verbose ∈ scope.flags := by cases scope <;> decide
  have hparse (hpos : 1 ≤ gs.count (.flag .verbose)) :
      parse (scope.opening ++ (front ++ tail)) = parseScope scope (front ++ tail) := by
    rcases hfront.eq_nil_or_hyphen with ⟨rfl, -⟩ | ⟨t, more, rfl⟩
    · exact absurd hpos (by decide)
    · exact parse_opening scope t (more ++ tail)
  refine ⟨fun hone r hr => ?_, fun htwo => ?_⟩
  · rw [hparse (by omega), parseScope]
    obtain ⟨p, hp, hreadp⟩ := readArgs_front hothers hdistinct
    obtain ⟨p', hp', hreadp'⟩ :=
      readArgs_front hfront (nodup_of_count_le_one rfl hdistinct (by omega))
    have hnone : .flag .verbose ∉ othersThan .verbose gs := by simp [othersThan]
    have hnew : .flag .verbose ∉ p.given := fun hmem => hnone ((heeds_resolve rfl).grows hp hmem)
    -- the states behind the two fronts differ by the flag alone, once their last values are taken in
    have hahead : Ahead scope .verbose p p' :=
      Or.inr ⟨_, _, hp, hp', ⟨gains_of_count_eq_one hone, rfl, rfl⟩, hnone⟩
    rw [parseScope, hreadp] at hr
    rw [hreadp']
    cases hreading : readArgs scope p tail with
    | error f =>
      rw [hreading] at hr
      cases hr
    | ok reading =>
      rw [hreading] at hr
      have hfollows := (heeds_readArgs rfl tail).follows hahead hnew hreading
      have hverbose : r.verbose = reading.given.contains (.flag .verbose) := by
        obtain ⟨command, run, -, -, rfl⟩ := requestOf_eq_ok_iff.mp hr
        rfl
      rw [hverbose]
      split at hfollows
      · rename_i hmem
        rw [hfollows, if_pos (List.contains_iff_mem.mpr hmem)]
      · rename_i hnone
        obtain ⟨reading', hreading', hgains⟩ := hfollows
        rw [hreading', if_neg (by simpa using hnone)]
        exact requestOf_gains hgains hr
  · rw [hparse (by omega), parseScope, readArgs_again hw hfront HasGiven.start hdistinct (by decide)
      (Nat.not_le.mpr htwo)]

/-- The flag in a cluster with another one, of which the first stays alone. -/
theorem parse_verbose_times_cluster :
    parse (["list", "-qv", "--check"].map bytes) =
        .ok { command := some (.list true), verbose := true, quiet := true } ∧
      parse (["list", "-qvv", "--check"].map bytes) = .error (.repeated .list .verbose) := by
  have hquiet : Spelled .list [.flag .quiet] [bytes "-q"] :=
    .letters (List.cons_ne_nil .quiet []) (by decide) .nil
  have honce : Spelled .list [.flag .quiet, .flag .verbose] [bytes "-qv"] :=
    .letters (List.cons_ne_nil .quiet [.verbose]) (by decide) .nil
  have htwice : Spelled .list [.flag .quiet, .flag .verbose, .flag .verbose] [bytes "-qvv"] :=
    .letters (List.cons_ne_nil .quiet [.verbose, .verbose]) (by decide) .nil
  have halone : parseScope .list (["-q", "--check"].map bytes) =
      .ok { command := some (.list true), quiet := true } := by decide +kernel
  exact ⟨(parse_verbose_times .list honce hquiet (by decide) [bytes "--check"]).1 (by decide) _ halone,
    (parse_verbose_times .list htwice hquiet (by decide) [bytes "--check"]).2 (by decide)⟩

/-- Asking for more output twice is a fault, in one argument or in two. -/
theorem parse_verbose_twice :
    parse (["-v"].map bytes) = .ok { verbose := true } ∧
      parse (["-vv"].map bytes) = .error (.repeated .top .verbose) ∧
      parse (["list", "-v", "--verbose"].map bytes) = .error (.repeated .list .verbose) := by
  decide +kernel

end QualityGate.Args
