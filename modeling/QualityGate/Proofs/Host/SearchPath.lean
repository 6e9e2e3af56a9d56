import QualityGate.Proofs.Host.FileTree
import QualityGate.Run.Launched
/-!
## The search of a started program

A program of one plain name is started from the first directory of the search path that holds an
executable file of that name. The search is made where the program runs: a relative entry of the path
is seen from there, an empty one is that directory itself, and nothing stands for anything else.

* `FileTree.search?`: that search.
* `Launched.locate_leads`: a look-up before the start makes the same search, but from the directory of
  the looking process, and with `~` at the start of an entry read as the home directory.
* `Launched.locate_eq_search`: so both come to the same file where neither makes a difference.
-/

namespace QualityGate

open Environment (pathKey)
open Host (FileTree Location Entry Errno Viewpoint)
open Host.Path (IsPlain join)

/-! ### The search -/

namespace Host.FileTree

/-- The directory that an entry of a search path names, seen from a directory. -/
def entryDirectory? (t : FileTree) (d : Location) (entry : Bytes) : Option Location :=
  if entry = [] then some d
  else
    match t.stat d entry with
    | .ok (l, .directory) => some l
    | _ => none

/-- Where an executable file stands, if that is what was found. -/
def executable? : Except Errno (Location × Entry) → Option Location
  | .ok (l, .file _ true) => some l
  | .ok (l, .utility _) => some l
  | _ => none

/-- **The file of the first entry that holds an executable one of a name.** -/
def search? (t : FileTree) (d : Location) (entries : List Bytes) (name : Bytes) : Option Location :=
  entries.findSome? fun entry =>
    (t.entryDirectory? d entry).bind fun l => executable? (t.stat l name)

variable (t : FileTree) (d : Location)

theorem isExecutable_eq (path : Bytes) :
    t.isExecutable d path = (executable? (t.stat d path)).isSome := by
  unfold isExecutable executable?
  split
  · rename_i l data executable hstat
    cases executable <;> simp [hstat]
  · rename_i l name hstat
    simp [hstat]
  · rename_i hfile hutility
    split
    · rename_i hstat
      exact absurd hstat (hfile _ _ _)
    · rename_i hstat
      exact absurd hstat (hutility _ _)
    · rfl

/-- An executable file stands where its path leads. -/
theorem locate_of_executable {path : Bytes} {l : Location}
    (h : executable? (t.stat d path) = some l) : t.locate d path = .ok l := by
  unfold executable? at h
  split at h
  · rename_i hstat
    cases h
    exact (stat_eq_ok_iff.mp hstat).1
  · rename_i hstat
    cases h
    exact (stat_eq_ok_iff.mp hstat).1
  · cases h

/-- **A candidate is a name in the directory of its entry.** -/
theorem executable?_join {name : Bytes} (h : IsPlain name) (entry : Bytes) :
    executable? (t.stat d (join entry name)) =
      (t.entryDirectory? d entry).bind fun l => executable? (t.stat l name) := by
  by_cases hentry : entry = []
  · -- an empty entry stands for the directory of the search, and joining to it leaves the name alone
    have hjoin : join entry name = name := by simp [hentry, join]
    rw [hjoin, entryDirectory?, if_pos hentry, Option.bind_some]
  · rw [stat_join h hentry, entryDirectory?, if_neg hentry]
    cases t.stat d entry with
    | error e => rfl
    | ok found =>
      obtain ⟨l, e⟩ := found
      cases e <;> rfl

/-- An absolute entry names the same directory from everywhere. -/
theorem entryDirectory?_absolute {entry : Bytes} (h : Path.isAbsolute entry = true)
    (a b : Location) : t.entryDirectory? a entry = t.entryDirectory? b entry := by
  have hne : entry ≠ [] := by
    rintro rfl
    cases h
  rw [entryDirectory?, entryDirectory?, if_neg hne, if_neg hne, stat_absolute h t a b]

theorem search?_cons (entry : Bytes) (entries : List Bytes) (name : Bytes) :
    t.search? d (entry :: entries) name =
      ((t.entryDirectory? d entry).bind fun l => executable? (t.stat l name)).or
        (t.search? d entries name) := by
  rw [search?, List.findSome?_cons, search?]
  cases (t.entryDirectory? d entry).bind fun l => executable? (t.stat l name) <;> rfl

/-- Entries that name the same directories lead to the same file. -/
theorem search?_congr {a b : Location} {f : Bytes → Bytes} {entries : List Bytes}
    (h : ∀ entry ∈ entries, t.entryDirectory? a (f entry) = t.entryDirectory? b entry)
    (name : Bytes) : t.search? a (entries.map f) name = t.search? b entries name := by
  induction entries with
  | nil => rfl
  | cons entry entries ih =>
    rw [List.forall_mem_cons] at h
    rw [List.map_cons, search?_cons, search?_cons, h.1, ih h.2]

end Host.FileTree

/-! ### The look-up -/

namespace Host.Viewpoint

/-- Whether an entry of a search path starts with `~`. -/
def StartsAtHome (entry : Bytes) : Prop :=
  (Path.components entry).head? = some (.name [0x7E])

variable (v : Viewpoint)

theorem expandHome_of_not {entry : Bytes} (h : v.home = none ∨ ¬StartsAtHome entry) :
    v.expandHome entry = entry := by
  unfold expandHome
  split
  · rename_i hentry hhome
    rcases h with h | h
    · rw [hhome] at h
      cases h
    · exact absurd (by rw [StartsAtHome, hentry]; rfl) h
  · rfl

/-- The first executable candidate stands where the search ends. -/
theorem find?_candidates {name : Bytes} (h : IsPlain name) (entries : List Bytes) :
    ((entries.map (join · name)).find? fun c => v.files.isExecutable v.cwd c).map
        (v.files.locate v.cwd) =
      (v.files.search? v.cwd entries name).map .ok := by
  induction entries with
  | nil => rfl
  | cons entry entries ih =>
    rw [List.map_cons, List.find?_cons, FileTree.search?_cons, ← FileTree.executable?_join _ _ h,
      FileTree.isExecutable_eq]
    cases hfound : FileTree.executable? (v.files.stat v.cwd (join entry name)) with
    | none => exact ih
    | some l =>
      rw [Option.isSome_some, Option.map_some, FileTree.locate_of_executable _ _ hfound]
      rfl

end Host.Viewpoint

namespace Launched

variable (s : Surroundings) {path program : Bytes}

/-- **What a look-up finds**: the file that the search ends at from the looking process's own directory,
with `~` at the start of an entry read as the home directory. -/
theorem locate_leads (cond : Conditions) {dir : Bytes} (hdir : origin? s cond = some dir)
    (hpath : (cond.env.getD s.env).get? pathKey = some path) (hprogram : IsPlain program) :
    (locate s program cond).map (s.files.locate s.cwd) =
      (s.files.search? s.cwd ((Viewpoint.searchEntries path).map (viewpoint s).expandHome)
        program).map .ok := by
  have hcandidates : (viewpoint s).candidates program dir (some path) =
      ((Viewpoint.searchEntries path).map (viewpoint s).expandHome).map (join · program) := by
    rw [Viewpoint.candidates_plain _ hprogram, List.map_map]
    rfl
  rw [locate, hdir, Option.bind_some, hpath, Viewpoint.find?, hcandidates]
  exact (viewpoint s).find?_candidates hprogram _

/-- **A look-up agrees with the search of the started program** on whether there is one and on which
file it is, where the two read the search path alike: an entry is absolute, or the program is to run in
the looking process's own directory and no `~` starts the entry or there is no home directory. As in every
`FileTree`, there are no links and no path is too long. -/
theorem locate_eq_search (cond : Conditions) {dir : Bytes} {d : Location}
    (hdir : s.files.stat s.cwd dir = .ok (d, .directory))
    (hpath : (cond.env.getD s.env).get? pathKey = some path) (hprogram : IsPlain program)
    (hentries : ∀ entry ∈ Viewpoint.searchEntries path, Host.Path.isAbsolute entry = true ∨
      d = s.cwd ∧ (s.env.get? (Text.bytes "HOME") = none ∨ ¬Viewpoint.StartsAtHome entry)) :
    (locate s program { cond with cwd := some dir }).map (s.files.locate s.cwd) =
      (s.files.search? d (Viewpoint.searchEntries path) program).map .ok := by
  rw [locate_leads s { cond with cwd := some dir } rfl hpath hprogram]
  congr 1
  -- entry by entry: an absolute one is the same from everywhere, any other is seen from `s.cwd` by both
  refine FileTree.search?_congr _ (fun entry hentry => ?_) program
  rcases hentries entry hentry with habs | ⟨rfl, hhome⟩
  · rw [Viewpoint.expandHome_absolute _ habs]
    exact FileTree.entryDirectory?_absolute _ habs _ _
  · rw [Viewpoint.expandHome_of_not (viewpoint s) hhome]

/-- A host with an executable file in one directory and nothing in another one. -/
def twoDirectories : Surroundings :=
  { files := { entries := [([Text.bytes "a"], .directory), ([Text.bytes "c"], .directory),
      ([Text.bytes "a", Text.bytes "tool"], .file [] true)] }
    cwd := []
    env := .empty }

/-- By an absolute entry the file is found from every directory. -/
theorem locate_eq_search_absolute :
    let path := Text.bytes "/c:/a"
    let program := Text.bytes "tool"
    let cond : Conditions := { env := some (Environment.empty.set pathKey path) }
    (locate twoDirectories program { cond with cwd := some (Text.bytes "c") }).map
        (twoDirectories.files.locate twoDirectories.cwd) =
      some (.ok [Text.bytes "a", program]) := by
  intro path program cond
  have hdir : twoDirectories.files.stat twoDirectories.cwd (Text.bytes "c") =
      .ok ([Text.bytes "c"], .directory) := by decide +kernel
  have hpath : (cond.env.getD twoDirectories.env).get? pathKey = some path := by decide +kernel
  have hentries : ∀ entry ∈ Viewpoint.searchEntries path, Host.Path.isAbsolute entry = true := by
    decide +kernel
  have hfound : twoDirectories.files.search? [Text.bytes "c"] (Viewpoint.searchEntries path) program =
      some [Text.bytes "a", program] := by decide +kernel
  rw [locate_eq_search twoDirectories cond hdir hpath (by decide)
    (fun entry hentry => Or.inl (hentries entry hentry)), hfound]
  rfl

/-- **A relative entry is seen from the looking process's directory**: a file is found there that the
program, which is to run in another directory, is not started from. -/
theorem locate_relative_entry :
    let path := Text.bytes "a"
    let program := Text.bytes "tool"
    let cond : Conditions :=
      { cwd := some (Text.bytes "c"), env := some (Environment.empty.set pathKey path) }
    (cond.env.getD twoDirectories.env).get? pathKey = some path ∧ IsPlain program ∧
      twoDirectories.files.stat twoDirectories.cwd (Text.bytes "c") =
        .ok ([Text.bytes "c"], .directory) ∧
      locate twoDirectories program cond = some (Text.bytes "a/tool") ∧
      twoDirectories.files.search? [Text.bytes "c"] (Viewpoint.searchEntries path) program = none := by
  decide +kernel

end Launched
end QualityGate
