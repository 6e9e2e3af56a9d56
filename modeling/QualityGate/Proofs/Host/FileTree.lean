import Mathlib.Data.List.Basic
import QualityGate.Proofs.Host.Lookup
/-!
## Walking paths and writing files

A path is walked piece by piece, so a longer path goes on from where its front leads.

* `stat_join`: a plain name behind a path is looked up in the directory to which the path leads.
* `directoryPath_of_exists`: a working directory in which something is found is still there.
* `locate_put`: a path that could be walked before a write leads to the same location after it.
* `write_cases`: a write changes one location, the one to which its path leads, and puts all of its data
  there or a part.
-/

namespace QualityGate

open Host.Path (IsPlain slash join)

namespace Host

theorem Location.path_ne_nil (l : Location) : l.path ≠ [] := by
  cases l <;> simp [Location.path]

namespace FileTree

variable {t t' : FileTree} {a b l : Location} {e : Entry}

/-! ### Walking -/

/-- **A walk goes on from where its front has led.** -/
theorem walk_append (t : FileTree) (a : Location) (front rest : List Bytes) :
    t.walk a (front ++ rest) = (t.walk a front).bind fun b => t.walk b rest := by
  induction front generalizing a with
  | nil => rfl
  | cons piece front ih =>
    rw [List.cons_append, walk, walk]
    cases t.step a piece with
    | error e => rfl
    | ok next => exact ih next

/-- A piece is walked in a directory only. -/
theorem at?_of_step {piece : Bytes} (h : t.step a piece = .ok b) : t.at? a = some .directory := by
  unfold step at h
  split at h
  · cases h
  · assumption
  · cases h

/-- An empty piece stays in the directory. -/
theorem step_nil (h : t.at? a = some .directory) : t.step a [] = .ok a := by
  rw [step, h]
  rfl

/-- An empty piece before another one asks for nothing more than that one does. -/
theorem walk_nil_cons (t : FileTree) (a : Location) (piece : Bytes) (rest : List Bytes) :
    t.walk a ([] :: piece :: rest) = t.walk a (piece :: rest) := by
  rw [walk]
  cases hat : t.at? a with
  | none => simp [walk, step, hat]
  | some e =>
    cases e with
    | directory => rw [step_nil hat]
    | _ => simp [walk, step, hat]

theorem locate_eq_walk (t : FileTree) (a : Location) {path : Bytes} (h : path ≠ []) :
    t.locate a path =
      t.walk (if Path.isAbsolute path then [] else a) (Text.splitBytes slash path) := if_neg h

theorem stat_eq_ok_iff {path : Bytes} :
    t.stat a path = .ok (l, e) ↔ t.locate a path = .ok l ∧ t.at? l = some e := by
  unfold stat
  cases t.locate a path with
  | error f => simp
  | ok b =>
    dsimp only
    constructor
    · intro h
      split at h
      · rename_i hat
        cases h
        exact ⟨rfl, hat⟩
      · cases h
    · rintro ⟨h, hat⟩
      cases h
      rw [hat]

/-- A file that can be read is there. -/
theorem exists?_of_read {path data : Bytes} (h : t.read a path = .ok data) :
    t.exists? a path = true := by
  unfold read at h
  unfold exists?
  cases hstat : t.stat a path with
  | ok found => rfl
  | error f =>
    rw [hstat] at h
    cases h

/-- A plain name is a path of one piece. -/
theorem locate_plain {name : Bytes} (h : IsPlain name) (t : FileTree) (a : Location) :
    t.locate a name = t.walk a [name] := by
  have habs : Path.isAbsolute name = false := by simpa using Path.isAbsolute_plain h []
  rw [locate_eq_walk t a h.1, habs, Text.splitBytes_of_not_mem h.2.2.2]
  rfl

/-- **A plain name behind a path** is walked from where the path leads. -/
theorem locate_join {name base : Bytes} (h : IsPlain name) (hne : base ≠ []) (t : FileTree)
    (a : Location) :
    t.locate a (join base name) = (t.locate a base).bind fun b => t.locate b name := by
  have habs : Path.isAbsolute name = false := by simpa using Path.isAbsolute_plain h []
  have hname : Text.splitBytes slash name = [name] := Text.splitBytes_of_not_mem h.2.2.2
  simp only [locate_plain h]
  rw [locate_eq_walk t a hne, ← walk_append]
  by_cases hlast : base.getLast? = some slash
  · -- the slash is there already: what stood behind it is an empty piece
    obtain ⟨front, rfl⟩ := List.getLast?_eq_some_iff.mp hlast
    have hjoin : join (front ++ [slash]) name = front ++ slash :: name := by
      simp [join, habs]
    have hsame : Path.isAbsolute (front ++ slash :: name) = Path.isAbsolute (front ++ [slash]) := by
      cases front <;> rfl
    rw [hjoin, locate_eq_walk t a (by simp), hsame, Text.splitBytes_append_separator,
      Text.splitBytes_append_separator, hname, List.append_assoc, walk_append, walk_append]
    congr 1
    funext b
    exact (walk_nil_cons t b name []).symm
  · have hjoin : join base name = base ++ slash :: name := by
      rw [join, if_neg (by simp [habs]), if_neg hne, if_neg hlast]
    have hsame : Path.isAbsolute (base ++ slash :: name) = Path.isAbsolute base := by
      cases base with
      | nil => exact absurd rfl hne
      | cons c base => rfl
    rw [hjoin, locate_eq_walk t a (by simp), hsame, Text.splitBytes_append_separator, hname]

/-- **A plain name behind a path** is looked up in the directory to which the path leads. -/
theorem stat_join {name base : Bytes} (h : IsPlain name) (hne : base ≠ []) (t : FileTree)
    (a : Location) :
    t.stat a (join base name) = (t.stat a base).bind fun found =>
      if found.2 = .directory then t.stat found.1 name else .error .notDirectory := by
  rw [stat, stat, locate_join h hne]
  cases t.locate a base with
  | error e => rfl
  | ok b =>
    simp only [Except.bind, locate_plain h]
    cases hat : t.at? b with
    | none => simp [walk, step, hat]
    | some e => cases e <;> simp [walk, step, hat, stat, locate_plain h]

/-- Where an absolute path leads does not depend on the working directory. -/
theorem stat_absolute {path : Bytes} (h : Path.isAbsolute path = true) (t : FileTree)
    (a b : Location) : t.stat a path = t.stat b path := by
  have hlocate : t.locate a path = t.locate b path := by simp [locate, h]
  rw [stat, stat, hlocate]

/-- What stands in the directory of a process is found by the path of that directory only if it is
there. -/
theorem directoryPath_of_exists {name : Bytes} (hname : IsPlain name) {t : FileTree} {a : Location}
    (h : t.exists? a (join a.path name) = true) : t.directoryPath a = .ok a.path := by
  refine if_pos (Or.inr ?_)
  rw [exists?, stat_join hname a.path_ne_nil] at h
  unfold isDirectory
  cases hstat : t.stat a a.path with
  | error e =>
    rw [hstat] at h
    cases h
  | ok found =>
    rw [hstat] at h
    obtain ⟨l, entry⟩ := found
    cases entry with
    | directory => rfl
    | _ => cases h

/-- A working directory has one path, if it is there. -/
theorem directoryPath_eq_ok {t : FileTree} {a : Location} {path : Bytes}
    (h : t.directoryPath a = .ok path) : path = a.path := by
  unfold directoryPath at h
  split at h
  · exact (Except.ok.inj h).symm
  · cases h

/-! ### Writing -/

/-- A write leaves every other location as it was. -/
theorem at?_put_of_ne (t : FileTree) (h : b ≠ l) (e : Entry) : (t.put l e).at? b = t.at? b := by
  by_cases hroot : b = []
  · rw [hroot]
    rfl
  · rw [at?_put t l b e hroot, if_neg h]

/-- A piece that led somewhere leads there still after a write over what is no directory. -/
theorem step_put (hl : t.at? l ≠ some .directory) {piece : Bytes} (h : t.step a piece = .ok b) :
    (t.put l e).step a piece = .ok b := by
  -- pieces are walked in directories only, so never in what was written
  have hdirectory := at?_of_step h
  have hne : a ≠ l := by
    rintro rfl
    exact hl hdirectory
  rw [step, hdirectory] at h
  rw [step, at?_put_of_ne t hne, hdirectory]
  exact h

/-- **A walk that led somewhere leads there still** after a write over what is no directory. -/
theorem walk_put (hl : t.at? l ≠ some .directory) {pieces : List Bytes}
    (h : t.walk a pieces = .ok b) : (t.put l e).walk a pieces = .ok b := by
  induction pieces generalizing a with
  | nil => exact h
  | cons piece pieces ih =>
    rw [walk] at h ⊢
    cases hstep : t.step a piece with
    | error f =>
      rw [hstep] at h
      cases h
    | ok next =>
      rw [hstep] at h
      rw [step_put hl hstep]
      exact ih h

theorem locate_put (hl : t.at? l ≠ some .directory) {path : Bytes}
    (h : t.locate a path = .ok b) : (t.put l e).locate a path = .ok b := by
  have hne : path ≠ [] := by
    rintro rfl
    cases h
  rw [locate_eq_walk _ _ hne] at h ⊢
  exact walk_put hl h

/-- How the coming writes end makes no difference to where a path leads. -/
theorem locate_endings (t : FileTree) (endings : List (Option Shortfall)) (a : Location) (path : Bytes) :
    ({ t with endings := endings } : FileTree).locate a path = t.locate a path := by
  have hwalk (a : Location) (pieces : List Bytes) :
      ({ t with endings := endings } : FileTree).walk a pieces = t.walk a pieces := by
    induction pieces generalizing a with
    | nil => rfl
    | cons piece pieces ih =>
      rw [walk, walk, show ({ t with endings := endings } : FileTree).step a piece = t.step a piece from rfl]
      cases t.step a piece with
      | error e => rfl
      | ok next => exact ih next
  rw [locate, locate, hwalk]

/-- **What a write leaves behind**: the data at one location, unless a device stands there, and all else
as it was, the permission of an old file and what the system refuses too. -/
structure Written (t t' : FileTree) (l : Location) (data : Bytes) : Prop where
  here : t.at? l = some .device ∧ t'.at? l = some .device ∨
    ∃ executable, t'.at? l = some (.file data executable) ∧
      ∀ old was, t.at? l = some (.file old was) → executable = was
  elsewhere : ∀ q, q ≠ l → t'.at? q = t.at? q
  refusals : t'.refusals = t.refusals

/-- A file is written where its path leads, and not over a directory. -/
theorem target_eq_ok {path : Bytes} (h : t.target a path = .ok l) :
    t.locate a path = .ok l ∧ t.at? l ≠ some .directory := by
  unfold target at h
  split at h
  · cases h
  · split at h
    · cases h
    · rename_i b hlocate
      split at h
      · cases h
      · rename_i hdirectory
        split at h
        · cases h
        · cases h
          exact ⟨hlocate, hdirectory⟩

/-- Data that fill a location are written there. -/
theorem written_fill (hl : t.at? l ≠ some .directory) (data : Bytes)
    (endings : List (Option Shortfall)) :
    t.Written (({ t with endings := endings } : FileTree).fill l data) l data := by
  -- the root is a directory
  have hroot : l ≠ [] := by
    rintro rfl
    exact hl rfl
  have hhere : (({ t with endings := endings } : FileTree).fill l data).at? l =
      some (Entry.filled data (t.at? l)) := by
    rw [fill, at?_put _ _ _ _ hroot, if_pos rfl]
    rfl
  refine ⟨?_, fun q hq => at?_put_of_ne _ hq _, rfl⟩
  rw [hhere]
  cases hat : t.at? l with
  | none => exact Or.inr ⟨false, rfl, nofun⟩
  | some e =>
    cases e with
    | directory => exact absurd hat hl
    | file old x =>
      refine Or.inr ⟨x, rfl, fun old' was hsame => ?_⟩
      cases hsame
      rfl
    | utility name => exact Or.inr ⟨true, rfl, nofun⟩
    | device => exact Or.inl ⟨rfl, rfl⟩

theorem locate_fill (hl : t.at? l ≠ some .directory) {data path : Bytes}
    {endings : List (Option Shortfall)} (h : t.locate a path = .ok b) :
    (({ t with endings := endings } : FileTree).fill l data).locate a path = .ok b := by
  rw [← locate_endings t endings] at h
  exact locate_put (t := { t with endings := endings }) hl h

/-- **How a write to a location ends**: all of the data is written, or the system breaks the write off and
only so much of the data is there. -/
inductive Ends (t : FileTree) (l : Location) (data : Bytes) : Except Errno Unit → FileTree → Prop
  | finished {t' : FileTree} (h : t.Written t' l data) : Ends t l data (.ok ()) t'
  | brokenOff {t' : FileTree} (short : Shortfall) (hshort : t.shortfall? data = some short)
      (h : t.Written t' l (data.take short.kept)) : Ends t l data (.error short.errno) t'

/-- A write that breaks off leaves out some of the data. -/
theorem kept_lt_of_shortfall? {data : Bytes} {short : Shortfall} (h : t.shortfall? data = some short) :
    short.kept < data.length := by
  simpa using (Option.filter_eq_some_iff.mp h).2

/-- **What a write comes to**: it changes nothing if its file cannot be opened, and otherwise one location,
the one to which its path leads. All paths lead where they led before. -/
theorem write_cases (t : FileTree) (a : Location) (path data : Bytes) :
    (∃ e, t.write a path data = (.error e, t)) ∨
    ∃ l, t.locate a path = .ok l ∧ t.at? l ≠ some .directory ∧
      t.Ends l data (t.write a path data).1 (t.write a path data).2 ∧
      ∀ c p b, t.locate c p = .ok b → (t.write a path data).2.locate c p = .ok b := by
  unfold write
  cases htarget : t.target a path with
  | error e => exact Or.inl ⟨e, rfl⟩
  | ok l =>
    obtain ⟨hlocate, hl⟩ := target_eq_ok htarget
    refine Or.inr ⟨l, hlocate, hl, ?_⟩
    cases hshort : t.shortfall? data with
    | none => exact ⟨.finished (written_fill hl data _), fun c p b => locate_fill hl⟩
    | some short => exact ⟨.brokenOff short hshort (written_fill hl _ _), fun c p b => locate_fill hl⟩

end FileTree
end Host
end QualityGate
