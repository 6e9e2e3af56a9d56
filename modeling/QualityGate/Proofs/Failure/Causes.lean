import Mathlib.Logic.Relation
import QualityGate.Failure
/-!
## Reports and their causes

A report is written by following the causes from one to the next. What leads on is not the same
everywhere: a described cause leads to what lies under it, a fault of the system to nothing, and a fault
that wraps a cause shows the text of that cause and leads past it.

* `Link.Hangs`: the causes that hang from a place, found one after the other; there is exactly one list of
  them (`hangs_causes`, `Link.Hangs.unique`).
* `Listing.Step`: one round of writing a report. After some rounds it holds the lines of the causes passed
  so far (`Listing.reaches_iff`).
* `Failure.report_accounted`: a report is the sentence of the failure with one line for each of its causes.
-/

namespace QualityGate

open Relation (ReflTransGen)

/-! ### Following causes -/

/-- **Something that can be named as a cause**: a fault of input or output, or a described cause. -/
inductive Link where
  | fault (f : IoFault)
  | cause (c : Cause)

namespace Link

/-- What it says. -/
def text : Link → String
  | fault f => f.text
  | cause c => c.text

/-- The cause that it leads to. -/
def source? : Link → Option Link
  | fault f => f.source?.map cause
  | cause c => c.source?.map cause

/-- **The causes that hang from a place**, each found from the one before it. -/
inductive Hangs : Option Link → List Link → Prop
  | nil : Hangs none []
  | cons (l : Link) {chain : List Link} (h : Hangs l.source? chain) : Hangs (some l) (l :: chain)

/-- There is one list of them only. -/
theorem Hangs.unique {start : Option Link} {chain chain' : List Link} (h : Hangs start chain)
    (h' : Hangs start chain') : chain' = chain := by
  induction h generalizing chain' with
  | nil =>
    cases h'
    rfl
  | cons l _ ih =>
    cases h' with
    | cons _ h' => rw [ih h']

end Link

/-- The causes from a described one on. -/
def Cause.chain : Cause → List Link
  | .base t => [.cause (.base t)]
  | .above t c => .cause (.above t c) :: c.chain

theorem Cause.hangs_chain (c : Cause) : Link.Hangs (some (.cause c)) c.chain := by
  induction c with
  | base t => exact .cons _ .nil
  | above t c ih => exact .cons _ ih

theorem Cause.map_text_chain (c : Cause) : c.chain.map Link.text = c.texts := by
  induction c with
  | base t => rfl
  | above t c ih => rw [chain, List.map_cons, ih, texts]; rfl

/-- Every cause is a list of texts, the first on top. -/
theorem Cause.exists_ofTexts (c : Cause) : ∃ first rest, c = ofTexts first rest := by
  induction c with
  | base t => exact ⟨t, [], rfl⟩
  | above t c ih =>
    obtain ⟨first, rest, rfl⟩ := ih
    exact ⟨t, first :: rest, rfl⟩

namespace Failure

/-- The nearest cause of a failure. -/
def source? : Failure → Option Link
  | settingsUnreadable _ c => some (.cause c)
  | io _ f => some (.fault f)
  | _ => none

/-- **The causes that hang from a failure are those that it knows.** -/
theorem hangs_causes (f : Failure) : ∃ chain, Link.Hangs f.source? chain ∧ chain.map Link.text = f.causes := by
  cases f with
  | settingsUnreadable m c => exact ⟨c.chain, c.hangs_chain, c.map_text_chain⟩
  | io m f =>
    cases f with
    | system e => exact ⟨[.fault (.system e)], .cons _ .nil, rfl⟩
    | wrapped c =>
      -- the fault says what the cause says, so the cause itself is left out
      cases c with
      | base t => exact ⟨[.fault (.wrapped (.base t))], .cons _ .nil, rfl⟩
      | above t c =>
        refine ⟨.fault (.wrapped (.above t c)) :: c.chain, .cons _ c.hangs_chain, ?_⟩
        rw [List.map_cons, c.map_text_chain]
        rfl
  | _ => exact ⟨[], .nil, rfl⟩

end Failure

/-! ### Writing a report -/

/-- **How far a report is written**, and the cause that comes next. -/
structure Listing where
  text : String
  next : Option Link

namespace Listing

/-- **One round of writing**: the next cause is named, and it leads to the one after it. -/
inductive Step : Listing → Listing → Prop
  | named (text : String) (l : Link) :
    Step ⟨text, some l⟩ ⟨text ++ Failure.causeLine l.text, l.source?⟩

/-- The lines that name some causes. -/
def lines (chain : List Link) : String :=
  String.join (chain.map fun l => Failure.causeLine l.text)

theorem lines_cons (l : Link) (chain : List Link) :
    lines (l :: chain) = Failure.causeLine l.text ++ lines chain := by
  rw [lines, List.map_cons, String.join_cons]
  rfl

/-- **Every round adds the line of one cause**: what is reached are the lines of the first causes, with
the others hanging from the next one. -/
theorem reaches_iff {text : String} {start : Option Link} {chain : List Link}
    (h : Link.Hangs start chain) (reached : Listing) :
    ReflTransGen Step ⟨text, start⟩ reached ↔
      ∃ front back, chain = front ++ back ∧ reached.text = text ++ lines front ∧
        Link.Hangs reached.next back := by
  induction h generalizing text with
  | nil =>
    constructor
    · intro hsteps
      rcases hsteps.cases_head with rfl | ⟨_, hstep, -⟩
      · exact ⟨[], [], rfl, (String.append_empty ..).symm, .nil⟩
      · cases hstep
    · rintro ⟨front, back, hchain, htext, hback⟩
      obtain ⟨rfl, rfl⟩ := List.append_eq_nil_iff.mp hchain.symm
      obtain ⟨text', next⟩ := reached
      cases hback
      obtain rfl : text' = text := htext.trans (String.append_empty ..)
      exact .refl
  | @cons l chain hl ih =>
    have hfirst : Step ⟨text, some l⟩ ⟨text ++ Failure.causeLine l.text, l.source?⟩ := .named text l
    constructor
    · intro hsteps
      -- the first round names the first cause, and the rest of the steps are those from its source
      rcases hsteps.cases_head with rfl | ⟨_, hstep, hsteps⟩
      · exact ⟨[], l :: chain, rfl, (String.append_empty ..).symm, .cons l hl⟩
      · cases hstep
        obtain ⟨front, back, rfl, htext, hback⟩ := ih.mp hsteps
        exact ⟨l :: front, back, rfl, by rw [htext, lines_cons, String.append_assoc], hback⟩
    · rintro ⟨front, back, hchain, htext, hback⟩
      cases front with
      | nil =>
        rw [List.nil_append] at hchain
        subst hchain
        obtain ⟨text', next⟩ := reached
        cases hback
        obtain rfl : text' = text := htext.trans (String.append_empty ..)
        exact .refl
      | cons l' front =>
        obtain ⟨rfl, rfl⟩ := List.cons_eq_cons.mp hchain
        refine .head hfirst (ih.mpr ⟨front, back, rfl, ?_, hback⟩)
        rw [htext, lines_cons, String.append_assoc]

end Listing

namespace Failure

theorem report_eq_lines {f : Failure} {chain : List Link} (h : Link.Hangs f.source? chain) :
    f.report = f.message ++ Listing.lines chain := by
  obtain ⟨chain', hchain', htexts⟩ := f.hangs_causes
  rw [h.unique hchain'] at htexts
  rw [report, ← htexts, List.map_map]
  rfl

/-- **A report is written to its end**, and it is the only text that is. -/
theorem reaches_report_iff (f : Failure) (text : String) :
    ReflTransGen Listing.Step ⟨f.message, f.source?⟩ ⟨text, none⟩ ↔ text = f.report := by
  obtain ⟨chain, hchain, -⟩ := f.hangs_causes
  rw [Listing.reaches_iff hchain, report_eq_lines hchain]
  constructor
  · rintro ⟨front, back, rfl, htext, hback⟩
    cases hback
    rw [List.append_nil]
    exact htext
  · intro htext
    exact ⟨chain, [], (List.append_nil _).symm, htext, .nil⟩

/-- The lines for some texts. -/
def causeLines (texts : List String) : String :=
  String.join (texts.map causeLine)

/-- A fault that wraps a cause says what that cause says, and then what lies under it. -/
theorem causes_wrapped (m : String) (c : Cause) : (io m (.wrapped c)).causes = c.texts := by
  cases c <;> rfl

/-- **A report is the sentence of the failure with one line for each cause**, in order and each cause
once. The causes of a settings file that does not parse are all that its cause stands above. A fault
that wraps a cause shows the text of that cause once, and the texts of what lies under it; one of the
system is the only cause. Every other failure has none, and its report is the sentence. -/
theorem report_accounted (f : Failure) :
    (∃ chain, Link.Hangs f.source? chain ∧ (∀ other, Link.Hangs f.source? other → other = chain) ∧
      f.report = f.message ++ String.join (chain.map fun l => "\n  Caused by: " ++ l.text) ∧
      ∀ text, ReflTransGen Listing.Step ⟨f.message, f.source?⟩ ⟨text, none⟩ ↔ text = f.report) ∧
    ((∃ m first rest, f = settingsUnreadable m (.ofTexts first rest) ∧
        f.report = f.message ++ causeLines (first :: rest)) ∨
      (∃ m first rest, f = io m (.wrapped (.ofTexts first rest)) ∧
        f.report = f.message ++ causeLines (first :: rest)) ∨
      (∃ m errno, f = io m (.system errno) ∧ f.report = f.message ++ causeLine errno.message) ∨
      (f.source? = none ∧ f.report = f.message)) := by
  refine ⟨?_, ?_⟩
  · obtain ⟨chain, hchain, -⟩ := f.hangs_causes
    exact ⟨chain, hchain, fun _ => hchain.unique, report_eq_lines hchain, reaches_report_iff f⟩
  · have hnone (h : f.causes = []) : f.report = f.message := by
      rw [report, h]
      exact String.append_empty ..
    cases f with
    | settingsUnreadable m c =>
      obtain ⟨first, rest, rfl⟩ := c.exists_ofTexts
      refine Or.inl ⟨m, first, rest, rfl, ?_⟩
      rw [report, causes, Cause.texts_ofTexts, causeLines]
    | io m fault =>
      cases fault with
      | wrapped c =>
        obtain ⟨first, rest, rfl⟩ := c.exists_ofTexts
        refine Or.inr (Or.inl ⟨m, first, rest, rfl, ?_⟩)
        rw [report, causes_wrapped, Cause.texts_ofTexts, causeLines]
      | system errno =>
        refine Or.inr (Or.inr (Or.inl ⟨m, errno, rfl, ?_⟩))
        rw [report, causes]
        exact congrArg _ (String.empty_append ..)
    | _ => exact Or.inr (Or.inr (Or.inr ⟨rfl, hnone rfl⟩))

example : (io "spawn black" (.wrapped (.ofTexts "denied" ["read-only disk"]))).report =
    "I/O error: spawn black\n  Caused by: denied\n  Caused by: read-only disk" := by
  decide +kernel

end Failure
end QualityGate
