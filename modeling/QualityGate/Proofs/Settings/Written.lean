import Mathlib.Data.List.Perm.Basic
import QualityGate.Proofs.Settings.Assignment
/-!
## Every assignment can be written

For every assignment of values there is a document, whichever way one chooses to spell each of the tables.

* `Setting.exists_spells`: every value that can be set has a text.
* `Assignment.exists_laidOut`: every assignment of such values has a document in every choice of spellings.
-/

namespace QualityGate

namespace Toml

variable {α β : Type} {name T : String} {above : List String} {d : Definition} {ds : List Definition}

/-! ### Keys, values and lines -/

/-- What each item of a list is related to can be listed. -/
theorem exists_forall₂ {R : α → β → Prop} {l : List α} (h : ∀ x ∈ l, ∃ y, R x y) :
    ∃ ys, List.Forall₂ R l ys := by
  induction l with
  | nil => exact ⟨[], .nil⟩
  | cons x l ih =>
    obtain ⟨y, hy⟩ := h x List.mem_cons_self
    obtain ⟨ys, hys⟩ := ih fun x' hx' => h x' (List.mem_cons_of_mem _ hx')
    exact ⟨y :: ys, .cons hy hys⟩

/-- A name that needs no quotes. -/
def IsBare (name : String) : Prop :=
  name.toList ≠ [] ∧ ∀ c ∈ name.toList, isBareKeyChar c = true

instance : DecidablePred IsBare := fun name =>
  decidable_of_iff (name.toList ≠ [] ∧ name.toList.all isBareKeyChar = true)
    (and_congr_right fun _ => List.all_eq_true)

theorem spaces_nil : Spaces [] :=
  nofun

theorem spaces_singleton : Spaces [' '] := by
  decide

theorem IsBare.spelling (h : IsBare name) : KeySpelling name name.toList :=
  .bare h.1 h.2

theorem IsBare.exists_path (h : IsBare name) : ∃ k, PathSpelling [name] k :=
  ⟨_, .one h.spelling spaces_nil⟩

theorem exists_arrayText (ws : List (List Char)) : ∃ w, ArrayText ws w := by
  have hitems : ∀ (v : List Char) (vs : List (List Char)), ∃ cs, ItemTexts (v :: vs) cs := by
    intro v vs
    induction vs generalizing v with
    | nil => exact ⟨_, .last .nil .nil⟩
    | cons v' vs ih =>
      obtain ⟨cs, hcs⟩ := ih v'
      exact ⟨_, .next .nil .nil hcs⟩
  cases ws with
  | nil => exact ⟨_, .empty .nil⟩
  | cons v vs =>
    obtain ⟨cs, hcs⟩ := hitems v vs
    exact ⟨_, .items hcs⟩

theorem exists_inlineText (h : ∀ d ∈ ds, IsBare d.key) : ∃ w, InlineText ds w := by
  have htexts : ∀ (d : Definition) (ds : List Definition), (∀ e ∈ d :: ds, IsBare e.key) →
      ∃ cs, DefinitionTexts (d :: ds) cs := by
    intro d ds hbare
    obtain ⟨hd, hds⟩ := List.forall_mem_cons.mp hbare
    obtain ⟨k, hk⟩ := hd.exists_path
    induction ds generalizing d k with
    | nil => exact ⟨_, .last spaces_nil hk spaces_nil spaces_nil⟩
    | cons e ds ih =>
      obtain ⟨he, hds'⟩ := List.forall_mem_cons.mp hds
      obtain ⟨k', hk'⟩ := he.exists_path
      obtain ⟨cs, hcs⟩ := ih e hds he hds' k' hk'
      exact ⟨_, .next spaces_nil hk spaces_nil spaces_nil hcs⟩
  cases ds with
  | nil => exact ⟨_, .empty spaces_nil⟩
  | cons d ds =>
    obtain ⟨cs, hcs⟩ := htexts d ds h
    exact ⟨_, .definitions hcs⟩

/-- Every block of bare keys has lines. -/
theorem exists_blockLines {b : Block} (htable : IsBare b.table) (h : ∀ d ∈ b.definitions, IsBare d.key) :
    ∃ lines, BlockLines b lines := by
  obtain ⟨spelling, T, ds⟩ := b
  obtain ⟨t, ht⟩ := htable.exists_path
  cases spelling with
  | header =>
    have hline : ∀ d ∈ ds, ∃ line, DefinitionLine [] d line := by
      intro d hd
      obtain ⟨k, hk⟩ := (h d hd).exists_path
      exact ⟨_, .mk hk spaces_nil⟩
    obtain ⟨lines, hlines⟩ := exists_forall₂ hline
    exact ⟨_, .header spaces_nil ht hlines⟩
  | dotted =>
    have hline : ∀ d ∈ ds, ∃ line, DefinitionLine [T] d line := by
      intro d hd
      obtain ⟨k, hk⟩ := (h d hd).exists_path
      exact ⟨_, .mk (.dot htable.spelling spaces_nil spaces_nil hk) spaces_nil⟩
    obtain ⟨lines, hlines⟩ := exists_forall₂ hline
    exact ⟨_, .dotted hlines⟩
  | inline =>
    obtain ⟨w, hw⟩ := exists_inlineText h
    exact ⟨_, .inline ht spaces_nil hw⟩

/-- **Any lines make a text.** -/
theorem exists_lines (contents : List (List Char)) : ∃ text, Lines contents (dropMark text) := by
  have hbody : ∃ body, Lines contents body := by
    induction contents with
    | nil => exact ⟨_, .done⟩
    | cons content contents ih =>
      obtain ⟨body, hbody⟩ := ih
      exact ⟨_, .line spaces_nil (.ended spaces_nil .none .feed) hbody⟩
  obtain ⟨body, hbody⟩ := hbody
  -- a blank line comes first, so that the text begins with no mark
  have hblank : LineTail ('\n' :: body) body := .ended spaces_nil .none .feed
  exact ⟨'\n' :: body, .idle hblank hbody⟩

end Toml

open Toml (Arranged Block BlockLines Definition IsBare Lines Spelling)

variable {α : Type}

/-! ### Values -/

/-- **A value that can be set**: a setting that may be unset cannot be set to that. -/
def Setting.Settable : Setting α → α → Prop
  | timeout, v | program _, v => v.isSome = true
  | _, _ => True

/-- **Every value that can be set has a text.** -/
theorem Setting.exists_spells {k : Setting α} {v : α} (h : k.Settable v) : ∃ w, k.Spells v w := by
  cases k with
  | activate | shell | settingsPath | isortTarget | blackTarget | flake8Config | mypyTarget =>
    exact ⟨_, Toml.stringText_basicString v⟩
  | timeout | program _ =>
    obtain ⟨s, rfl⟩ := Option.isSome_iff_exists.mp h
    exact ⟨_, s, rfl, Toml.stringText_basicString s⟩
  | captureOutput | skipStringNormalization => exact ⟨_, rfl⟩
  | lineLength => exact ⟨_, Toml.writesInteger_toString v.toNat⟩
  | extraArgs _ =>
    have hstring : ∀ s ∈ v, ∃ w, Toml.StringText s w := fun s _ => ⟨_, Toml.stringText_basicString s⟩
    obtain ⟨ws, hws⟩ := Toml.exists_forall₂ hstring
    obtain ⟨w, hw⟩ := Toml.exists_arrayText ws
    exact ⟨w, ws, hw, hws⟩

/-! ### Documents -/

namespace Assignment

variable {A : Assignment}

/-- The settings of a table to which a value is assigned. -/
def assignedIn (A : Assignment) (table : String) : List (Σ α, Setting α) :=
  Setting.all.filter fun k => k.2.table = table ∧ (A.value? k.2).isSome = true

/-- The block of a table, `text` being what is written for each setting. -/
def blockOf (A : Assignment) (spelling : String → Spelling) (text : (Σ α, Setting α) → List Char)
    (table : String) : Block :=
  ⟨spelling table, table, (A.assignedIn table).map fun k => ⟨k.2.key, text k⟩⟩

/-- A table that stands before the first header. -/
def atTop (spelling : String → Spelling) (table : String) : Bool :=
  spelling table ≠ .header

/-- The names of the tables, those that stand at the top first. -/
def tableOrder (spelling : String → Spelling) : List String :=
  tableNames.filter (atTop spelling) ++ tableNames.filter fun T => !atTop spelling T

theorem tableOrder_perm (spelling : String → Spelling) : (tableOrder spelling).Perm tableNames :=
  List.filter_append_perm _ _

theorem nodup_tableOrder (spelling : String → Spelling) : (tableOrder spelling).Nodup :=
  (tableOrder_perm spelling).nodup_iff.mpr (by decide)

/-- The keys of a block are those of the assigned settings. -/
theorem names_blockOf (A : Assignment) (spelling : String → Spelling)
    (text : (Σ α, Setting α) → List Char) (T : String) :
    (A.blockOf spelling text T).names = (A.assignedIn T).map fun k => (T, k.2.key) := by
  rw [Block.names, blockOf, List.map_map]
  rfl

/-- Each key is defined once in all these blocks. -/
theorem nodup_names (A : Assignment) (spelling : String → Spelling)
    (text : (Σ α, Setting α) → List Char) :
    (((tableOrder spelling).map (A.blockOf spelling text)).flatMap Block.names).Nodup := by
  have honce : (Setting.all.map fun k => (k.2.table, k.2.key)).Nodup := by decide
  rw [List.flatMap_map]
  simp only [names_blockOf]
  refine List.nodup_flatMap.mpr ⟨fun T _ => ?_, (nodup_tableOrder spelling).imp fun hne => ?_⟩
  · have hpairs : ((A.assignedIn T).map fun k => (T, k.2.key)) =
        (A.assignedIn T).map fun k => (k.2.table, k.2.key) := by
      refine List.map_congr_left fun k hk => ?_
      rw [(of_decide_eq_true (List.mem_filter.mp hk).2).1]
    rw [hpairs]
    exact honce.sublist (List.filter_sublist.map _)
  · intro pair hpair hpair'
    obtain ⟨k, -, rfl⟩ := List.mem_map.mp hpair
    obtain ⟨k', -, heq⟩ := List.mem_map.mp hpair'
    exact hne (Prod.mk.inj heq).1.symm

/-- **The blocks of an assignment make a document.** -/
theorem arranged_blocks (A : Assignment) (spelling : String → Spelling)
    (text : (Σ α, Setting α) → List Char) :
    Arranged spelling ((tableOrder spelling).map (A.blockOf spelling text)) := by
  constructor
  · intro b hb
    obtain ⟨T, -, rfl⟩ := List.mem_map.mp hb
    rfl
  · -- of two tables, the later one stands at the top only if the earlier one does
    have htop {T : String} (hT : atTop spelling T = true) : spelling T ≠ .header := of_decide_eq_true hT
    have hheader {T : String} (hT : (!atTop spelling T) = true) : spelling T = .header := by
      rw [Bool.not_eq_true', atTop, decide_eq_false_iff_not, not_not] at hT
      exact hT
    rw [List.pairwise_map, tableOrder, List.pairwise_append]
    refine ⟨?_, ?_, fun T hT T' _ h => absurd h (htop (List.mem_filter.mp hT).2)⟩
    · exact List.pairwise_filter.mpr (List.pairwise_of_forall fun T T' hT _ h => absurd h (htop hT))
    · exact List.pairwise_filter.mpr (List.pairwise_of_forall fun T T' _ hT' _ => hheader hT')
  · rw [List.pairwise_map]
    exact (nodup_tableOrder spelling).imp fun hne heq => absurd heq hne
  · exact nodup_names A spelling text

/-- **Every assignment of values that can be set has a document**, whichever way each table is to be
spelled. -/
theorem exists_laidOut (A : Assignment) (spelling : String → Spelling)
    (h : ∀ (α : Type) (k : Setting α) (v : α), A.value? k = some v → k.Settable v) :
    ∃ text, A.LaidOut spelling text := by
  have htext : ∀ k : Σ α, Setting α, ∃ w, ∀ v, A.value? k.2 = some v → k.2.Spells v w := by
    intro k
    cases hvalue : A.value? k.2 with
    | none => exact ⟨[], nofun⟩
    | some v =>
      obtain ⟨w, hw⟩ := Setting.exists_spells (h k.1 k.2 v hvalue)
      refine ⟨w, ?_⟩
      rintro v' ⟨⟩
      exact hw
  -- a text for each setting at once, so that the blocks can be built from a function
  choose text htext using htext
  have hbare : (∀ T ∈ tableNames, IsBare T) ∧ ∀ k ∈ Setting.all, IsBare k.2.key := by decide
  have hparts : ∀ b ∈ (tableOrder spelling).map (A.blockOf spelling text), ∃ lines, BlockLines b lines := by
    intro b hb
    obtain ⟨T, hT, rfl⟩ := List.mem_map.mp hb
    refine Toml.exists_blockLines (hbare.1 T ((tableOrder_perm spelling).mem_iff.mp hT)) fun d hd => ?_
    obtain ⟨k, hk, rfl⟩ := List.mem_map.mp hd
    exact hbare.2 k (List.mem_filter.mp hk).1
  obtain ⟨parts, hparts⟩ := Toml.exists_forall₂ hparts
  obtain ⟨document, hdocument⟩ := Toml.exists_lines parts.flatten
  refine ⟨document, _, parts, arranged_blocks A spelling text, ⟨?_, ?_⟩, hparts, hdocument⟩
  · intro b hb d hd
    obtain ⟨T, -, rfl⟩ := List.mem_map.mp hb
    obtain ⟨k, hk, rfl⟩ := List.mem_map.mp hd
    obtain ⟨htable, hassigned⟩ := of_decide_eq_true (List.mem_filter.mp hk).2
    obtain ⟨v, hv⟩ := Option.isSome_iff_exists.mp hassigned
    exact ⟨k.1, k.2, v, htable, rfl, hv, htext k v hv⟩
  · intro α k hk
    obtain ⟨τ, part, htable⟩ := k.exists_part
    have hT : k.table ∈ tableOrder spelling :=
      (tableOrder_perm spelling).mem_iff.mpr (htable ▸ part.name_mem_tableNames)
    rw [List.flatMap_map]
    refine List.mem_flatMap.mpr ⟨k.table, hT, ?_⟩
    rw [names_blockOf]
    refine List.mem_map.mpr ⟨⟨α, k⟩, ?_, rfl⟩
    exact List.mem_filter.mpr ⟨k.mem_all, decide_eq_true ⟨rfl, hk⟩⟩

end Assignment

end QualityGate
