import QualityGate.Proofs.Host.FileTree
import QualityGate.Proofs.Session.Selection
import QualityGate.Proofs.Settings.Decoding
import QualityGate.Proofs.Text.Utf8
/-!
## Upkeep of the settings file

Three commands look after the settings file: `init` writes the default settings, `list` shows the plan,
and `validate` checks the settings.

* `init_cases`: what an `init` comes to, also if the system breaks its write off.
* `Created.load`: what it writes is read back as the default settings.
* `perform_upkeep`: what one of these commands can do.
* `at?_after`: what stood at the start of a sequence of them stands at its end, unless a forced `init`
  went over it.
* `init_alone_writes`: each command of a sequence with all that it leaves behind.
-/

namespace QualityGate

open Console (Event plain)
open Host (FileTree Location Entry)

namespace Settings

/-! ### The default document -/

/-- The settings of a text that reads as a document and makes sense. -/
theorem ofBytes_bytes {text : String} {settings : Settings} (h : ofToml text = .ok settings)
    (hvalid : settings.validate = .ok ()) (path : Bytes) :
    ofBytes path (Text.bytes text) = .ok settings := by
  rw [ofBytes, Text.decode?_bytes]
  dsimp only
  rw [h]
  dsimp only
  rw [hvalid]

theorem toList_stringLine (key value : String) : (stringLine key value).toList =
    key.toList ++ [' ', '=', ' ', '\x22'] ++ value.toList.flatMap Toml.basicEscaped ++ ['\x22', '\n'] := by
  simp [stringLine, Toml.basicString]

theorem toList_boolLine (key : String) (value : Bool) : (boolLine key value).toList =
    key.toList ++ [' ', '=', ' '] ++ (if value then "true" else "false").toList ++ ['\n'] := by
  simp [boolLine]

theorem overridesLines_default : overridesLines {} = "" := rfl

/-- **The document of the default settings decodes to them.** -/
theorem ofToml_defaultToml : ofToml defaultToml = .ok {} := by
  obtain ⟨root, hroot, _, hentries, rfl⟩ : ∃ root, Toml.document defaultToml.toList = .ok root ∧
      ∃ s, ofEntries root.entries = .ok s ∧ s = {} := by
    unfold defaultToml toToml
    repeat rw [String.toList_append]
    simp only [toList_stringLine, toList_boolLine, overridesLines_default, Option.map_none, Option.getD_none,
      if_true, Bool.false_eq_true, if_false]
    -- the letters of each literal are at hand: an evaluation over its bytes is slow
    repeat rw [String.toList_ofList]
    decide +kernel
  exact ofToml_of_document hroot hentries

/-- An empty document leaves all settings at their defaults. -/
theorem ofToml_empty : ofToml "" = .ok {} := by decide +kernel

end Settings

/-! ### Surroundings -/

/-- **The working directory is where its path leads.** -/
def Surroundings.IsPlaced (s : Surroundings) : Prop :=
  s.files.stat s.cwd s.cwd.path = .ok (s.cwd, .directory)

instance (s : Surroundings) : Decidable s.IsPlaced :=
  inferInstanceAs (Decidable (_ = _))

namespace Session

variable {launcher : Launcher} {s t : Surroundings} {config : Option Bytes}

/-- `init` names the default file by itself and the other commands by its whole path, which comes to the
same. -/
theorem stat_chosenPath (hs : config = none → s.IsPlaced) :
    s.files.stat s.cwd (Settings.chosenPath (site s) config) =
      s.files.stat s.cwd (settingsPath config) := by
  cases config with
  | some path => rfl
  | none =>
    -- the path of the working directory leads back to it, and there the name is looked up
    have hjoin := FileTree.stat_join Settings.isPlain_fileName s.cwd.path_ne_nil s.files s.cwd
    rw [hs rfl] at hjoin
    exact hjoin

/-! ### What an `init` comes to -/

/-- **Data were put where a settings file is written**, and nothing else is different. -/
structure Filled (s : Surroundings) (config : Option Bytes) (data : Bytes) (t : Surroundings) : Prop where
  written : ∃ l, s.files.locate s.cwd (settingsPath config) = .ok l ∧
    s.files.at? l ≠ some .directory ∧ s.files.Written t.files l data
  paths : ∀ a path l, s.files.locate a path = .ok l → t.files.locate a path = .ok l
  cwd : t.cwd = s.cwd
  env : t.env = s.env

/-- **A settings file was written**: it holds all of the default settings. -/
def Created (s : Surroundings) (config : Option Bytes) (t : Surroundings) : Prop :=
  Filled s config (Text.bytes Settings.defaultToml) t

/-- **The system broke off the write of a settings file**: it holds the first of the default settings, or
nothing. -/
def BrokenOff (s : Surroundings) (config : Option Bytes) (t : Surroundings) : Prop :=
  ∃ short, s.files.shortfall? (Text.bytes Settings.defaultToml) = some short ∧
    short.kept < (Text.bytes Settings.defaultToml).length ∧
    Filled s config ((Text.bytes Settings.defaultToml).take short.kept) t

/-- **What an `init` comes to**: it leaves everything as it is and has failed, or it has written over
nothing or as it was forced to, all of the default settings or a part. -/
theorem init_cases (s : Surroundings) (config : Option Bytes) (force : Bool) :
    ((init s config force).status = 1 ∧ (init s config force).surroundings = s) ∨
    (s.files.exists? s.cwd (settingsPath config) = false ∨ force = true) ∧
      ((init s config force).status = 0 ∧ Created s config (init s config force).surroundings ∨
        (init s config force).status = 1 ∧ BrokenOff s config (init s config force).surroundings) := by
  cases hrefused : s.files.exists? s.cwd (settingsPath config) && !force with
  | true => exact Or.inl (by simp [init, hrefused, statusRefused])
  | false =>
    -- the command refuses what is there, unless it is forced
    have hfree : s.files.exists? s.cwd (settingsPath config) = false ∨ force = true := by
      cases hthere : s.files.exists? s.cwd (settingsPath config) <;> simp_all
    simp only [init, hrefused]
    rcases s.files.write_cases s.cwd (settingsPath config) (Text.bytes Settings.defaultToml) with
      ⟨e, hwrite⟩ | ⟨l, hl, hnot, hends, hpaths⟩
    · rw [hwrite]
      exact Or.inl ⟨rfl, rfl⟩
    · generalize s.files.write s.cwd (settingsPath config) (Text.bytes Settings.defaultToml) = wrote
        at hends hpaths ⊢
      obtain ⟨written, files⟩ := wrote
      refine Or.inr ⟨hfree, ?_⟩
      cases hends with
      | finished h => exact Or.inl ⟨rfl, ⟨l, hl, hnot, h⟩, hpaths, rfl, rfl⟩
      | brokenOff short hshort h =>
        exact Or.inr ⟨rfl, short, hshort, FileTree.kept_lt_of_shortfall? hshort,
          ⟨l, hl, hnot, h⟩, hpaths, rfl, rfl⟩

/-- Where something stands, an `init` that is not forced refuses and leaves it. -/
theorem init_of_exists (h : s.files.exists? s.cwd (settingsPath config) = true) :
    (init s config false).status = 1 ∧ (init s config false).surroundings = s := by
  rcases init_cases s config false with hrefused | ⟨hfree | hforce, -⟩
  · exact hrefused
  · rw [h] at hfree
    cases hfree
  · cases hforce

/-! ### What an `init` leaves behind -/

/-- Nothing is written over a directory, so the working directory stays where it is. -/
theorem Filled.isPlaced {data : Bytes} (h : Filled s config data t) (hs : s.IsPlaced) : t.IsPlaced := by
  obtain ⟨⟨l, -, hnot, hwritten⟩, hpaths, hcwd, -⟩ := h
  obtain ⟨hlocate, hdirectory⟩ := FileTree.stat_eq_ok_iff.mp hs
  have hne : s.cwd ≠ l := by
    rintro rfl
    exact hnot hdirectory
  rw [Surroundings.IsPlaced, hcwd]
  refine FileTree.stat_eq_ok_iff.mpr ⟨hpaths _ _ _ hlocate, ?_⟩
  rw [hwritten.elsewhere _ hne, hdirectory]

/-- Something stands where data were put. -/
theorem Filled.exists {data : Bytes} (h : Filled s config data t) :
    t.files.exists? t.cwd (settingsPath config) = true := by
  obtain ⟨⟨l, hl, -, hwritten⟩, hpaths, hcwd, -⟩ := h
  rw [FileTree.exists?, hcwd]
  rcases hwritten.here with ⟨-, hdevice⟩ | ⟨executable, hfile, -⟩
  · rw [FileTree.stat_eq_ok_iff.mpr ⟨hpaths _ _ _ hl, hdevice⟩]
  · rw [FileTree.stat_eq_ok_iff.mpr ⟨hpaths _ _ _ hl, hfile⟩]

/-- **The settings file may be read**, once it is there. -/
def Readable (s : Surroundings) (config : Option Bytes) : Prop :=
  ∀ l, s.files.locate s.cwd (settingsPath config) = .ok l → s.files.refusal? l .read = none

/-- The default settings are read where the path of the settings file leads: in a file, or as those of
the empty document on a device, which keeps nothing. -/
theorem Created.read (h : Created s config t) (hreadable : Readable s config) :
    ∃ text, t.files.read t.cwd (settingsPath config) = .ok (Text.bytes text) ∧
      Settings.ofToml text = .ok {} := by
  obtain ⟨⟨l, hl, -, hwritten⟩, hpaths, hcwd, -⟩ := h
  have hlocate : t.files.locate t.cwd (settingsPath config) = .ok l := hcwd ▸ hpaths _ _ _ hl
  have hrefusal : t.files.refusal? l .read = none := by
    rw [FileTree.refusal?, hwritten.refusals]
    exact hreadable l hl
  rcases hwritten.here with ⟨-, hdevice⟩ | ⟨executable, hfile, -⟩
  · refine ⟨"", ?_, Settings.ofToml_empty⟩
    rw [FileTree.read, FileTree.stat_eq_ok_iff.mpr ⟨hlocate, hdevice⟩]
    dsimp only
    rw [hrefusal]
    rfl
  · refine ⟨Settings.defaultToml, ?_, Settings.ofToml_defaultToml⟩
    rw [FileTree.read, FileTree.stat_eq_ok_iff.mpr ⟨hlocate, hfile⟩]
    dsimp only
    rw [hrefusal]
    rfl

/-- **What `init` writes is loaded as the default settings.** -/
theorem Created.load (h : Created s config t) (hreadable : Readable s config)
    (hs : config = none → s.IsPlaced) :
    Settings.load (site t) (Settings.chosenPath (site t) config) = .ok {} := by
  obtain ⟨text, hread, hdecoded⟩ := h.read hreadable
  rw [FileTree.read, ← stat_chosenPath fun hnone => h.isPlaced (hs hnone)] at hread
  have hload : Settings.load (site t) (Settings.chosenPath (site t) config) =
      Settings.ofBytes (Settings.chosenPath (site t) config) (Text.bytes text) :=
    Settings.load_of_read hread
  rw [hload]
  exact Settings.ofBytes_bytes hdecoded Settings.validate_default _

/-- **The commands go by the defaults**, but for a listing in a working directory that is gone. -/
structure Defaulted (s : Surroundings) (config : Option Bytes) : Prop where
  validate : (validate s config).status = 0
  list : ∀ dir, s.directory = .ok dir → ∀ mode, list s config mode =
    ⟨0, .log (Settings.loadedRecord (Settings.chosenPath (site s) config)) ::
      planLines {} mode, s⟩
  gone : ∀ e, s.directory = .error e → ∀ mode, (Session.list s config mode).status = 1

theorem defaulted_of_load
    (h : Settings.load (site s) (Settings.chosenPath (site s) config) = .ok {}) :
    Defaulted s config := by
  refine ⟨status_validate_of_load (Settings.loadChosen_of_load h), fun dir hdir mode => ?_,
    fun e hgone mode => ?_⟩
  · rw [list, withSettings_of_chosen h, listBy, hdir]
    rfl
  · rw [list, withSettings_of_chosen h, listBy_of_gone hgone]
    rfl

/-! ### Sequences of commands -/

end Session

/-- **A command that looks after the settings file.** -/
inductive Command.IsUpkeep : Command → Prop
  | init (force : Bool) : IsUpkeep (.init force)
  | list (check : Bool) : IsUpkeep (.list check)
  | validate : IsUpkeep .validate

namespace Session

/-- The surroundings after a sequence of commands. -/
def after (launcher : Launcher) (s : Surroundings) : List Request → Surroundings
  | [] => s
  | r :: rs => after launcher (perform launcher r s).surroundings rs

/-- **A forced `init` at a location.** -/
def Overwrites (s : Surroundings) (r : Request) (l : Location) : Prop :=
  r.effective = .init true ∧ s.files.locate s.cwd (settingsPath r.config) = .ok l

theorem surroundings_halted (h : Halt) (shown : List Event) (s : Surroundings) :
    (halted h shown s).surroundings = s := by
  cases h <;> rfl

/-- A listing leaves everything as it is. -/
theorem surroundings_list (s : Surroundings) (config : Option Bytes) (mode : Mode) :
    (list s config mode).surroundings = s := by
  unfold list withSettings
  split
  · exact surroundings_halted _ _ s
  · unfold listBy
    split
    · exact surroundings_halted _ _ s
    · rfl

/-- A check leaves everything as it is. -/
theorem surroundings_validate (s : Surroundings) (config : Option Bytes) :
    (validate s config).surroundings = s := by
  unfold validate
  split <;> rfl

/-- **What one of the commands can do**: leave everything as it is, or write by an `init`. -/
theorem perform_upkeep (launcher : Launcher) (s : Surroundings) {r : Request}
    (hr : r.effective.IsUpkeep) :
    ((perform launcher r s).surroundings = s ∧
      ∀ force, r.effective = .init force → (perform launcher r s).status = 1) ∨
    ∃ force, r.effective = .init force ∧
      (s.files.exists? s.cwd (settingsPath r.config) = false ∨ force = true) ∧
      ((perform launcher r s).status = 0 ∧ Created s r.config (perform launcher r s).surroundings ∨
        (perform launcher r s).status = 1 ∧
          BrokenOff s r.config (perform launcher r s).surroundings) := by
  unfold perform
  -- only the command that the request comes to matters
  generalize r.effective = command at hr
  cases hr with
  | list check =>
    refine Or.inl ⟨surroundings_list s r.config _, ?_⟩
    rintro force ⟨⟩
  | validate =>
    refine Or.inl ⟨surroundings_validate s r.config, ?_⟩
    rintro force ⟨⟩
  | init force =>
    rcases init_cases s r.config force with ⟨hstatus, hsame⟩ | ⟨hfree, hwrote⟩
    · exact Or.inl ⟨hsame, fun _ _ => hstatus⟩
    · exact Or.inr ⟨force, rfl, hfree, hwrote⟩

/-- A command that looks after the settings file leaves everything as it is, or puts data there over
nothing or as it was forced to. -/
theorem filled_of_upkeep (launcher : Launcher) (s : Surroundings) {r : Request}
    (hr : r.effective.IsUpkeep) :
    (perform launcher r s).surroundings = s ∨
    ∃ force data, r.effective = .init force ∧
      (s.files.exists? s.cwd (settingsPath r.config) = false ∨ force = true) ∧
      Filled s r.config data (perform launcher r s).surroundings := by
  rcases perform_upkeep launcher s hr with
    ⟨hsame, -⟩ | ⟨force, hcommand, hfree, ⟨-, hcreated⟩ | ⟨-, short, -, -, hfilled⟩⟩
  · exact Or.inl hsame
  · exact Or.inr ⟨force, _, hcommand, hfree, hcreated⟩
  · exact Or.inr ⟨force, _, hcommand, hfree, hfilled⟩

theorem isPlaced_perform (launcher : Launcher) (hs : s.IsPlaced) {r : Request}
    (hr : r.effective.IsUpkeep) : (perform launcher r s).surroundings.IsPlaced := by
  rcases filled_of_upkeep launcher s hr with hsame | ⟨force, data, -, -, hfilled⟩
  · rwa [hsame]
  · exact hfilled.isPlaced hs

/-- **What stands somewhere is changed by a forced `init` at that location only.** -/
theorem overwrites_of_changed (launcher : Launcher) {r : Request}
    (hr : r.effective.IsUpkeep) {l : Location} {e : Entry} (hl : s.files.at? l = some e)
    (hchanged : (perform launcher r s).surroundings.files.at? l ≠ some e) : Overwrites s r l := by
  rcases filled_of_upkeep launcher s hr with hsame | ⟨force, data, hcommand, hfree, hfilled⟩
  · rw [hsame] at hchanged
    exact absurd hl hchanged
  · obtain ⟨q, hq, -, hwritten⟩ := hfilled.written
    have hhere : l = q := by
      by_contra hne
      exact hchanged ((hwritten.elsewhere l hne).trans hl)
    rw [← hhere] at hq
    have hthere : s.files.exists? s.cwd (settingsPath r.config) = true := by
      rw [FileTree.exists?, FileTree.stat_eq_ok_iff.mpr ⟨hq, hl⟩]
    -- an `init` that is not forced would have refused here
    have hforce : force = true := by
      rcases hfree with hfree | hforce
      · rw [hthere] at hfree
        cases hfree
      · exact hforce
    exact ⟨hforce ▸ hcommand, hq⟩

/-- After a sequence of these commands the working directory is still where it was. -/
theorem isPlaced_after (launcher : Launcher) {rs : List Request}
    (hrs : ∀ r ∈ rs, r.effective.IsUpkeep) (hs : s.IsPlaced) : (after launcher s rs).IsPlaced := by
  induction rs generalizing s with
  | nil => exact hs
  | cons r rs ih =>
    rw [List.forall_mem_cons] at hrs
    exact ih hrs.2 (isPlaced_perform launcher hs hrs.1)

/-- **What stood at the start of a sequence stands at its end**, unless a forced `init` of the sequence
went over it. -/
theorem at?_after (launcher : Launcher) {rs : List Request}
    (hrs : ∀ r ∈ rs, r.effective.IsUpkeep) {l : Location} {e : Entry}
    (hl : s.files.at? l = some e)
    (hspared : ∀ front r rest, rs = front ++ r :: rest → ¬Overwrites (after launcher s front) r l) :
    (after launcher s rs).files.at? l = some e := by
  induction rs generalizing s with
  | nil => exact hl
  | cons r rs ih =>
    rw [List.forall_mem_cons] at hrs
    -- the first command spares it, for `front` may be empty; the others are those of the rest
    have hstays : (perform launcher r s).surroundings.files.at? l = some e := by
      by_contra hchanged
      exact hspared [] r rs rfl (overwrites_of_changed launcher hrs.1 hl hchanged)
    refine ih hrs.2 hstays fun front q rest hsplit => ?_
    exact hspared (r :: front) q rest (by rw [hsplit, List.cons_append])

/-- **Only `init` writes, and only a forced one over what is there.** In every sequence of upkeep
commands a command that is no `init` leaves everything as it is. An `init` that ends with success puts the
default settings where its path leads and changes nothing else; one that fails leaves everything as it
is, unless the system broke its write off: then the first part of the default settings stands there, or
nothing does. After one that ended with success a plain `init` refuses, and, if the file may be read,
`validate` accepts it and `list` shows the default plan from a working directory that is there. (The
default file is named in two ways, so for it the working directory has to be where its path leads.) A
plain `init` refuses wherever something stands, and what stood at the start of the sequence stands until a
forced `init` goes over it. As in every `FileTree`, there are no links and no path is too long. -/
theorem init_alone_writes (launcher : Launcher) (s : Surroundings) (earlier : List Request)
    (hearlier : ∀ q ∈ earlier, q.effective.IsUpkeep) (r : Request) (hr : r.effective.IsUpkeep) :
    let t := after launcher s earlier
    let done := perform launcher r t
    ((∀ force, r.effective ≠ .init force) → done.surroundings = t) ∧
    (∀ force, r.effective = .init force →
      (done.status = 0 ∧ Created t r.config done.surroundings ∨
        done.status = 1 ∧ (done.surroundings = t ∨ BrokenOff t r.config done.surroundings)) ∧
      (done.status = 0 → (init done.surroundings r.config false).status = 1 ∧
        (Readable t r.config → (r.config = none → s.IsPlaced) →
          Defaulted done.surroundings r.config)) ∧
      (force = false → t.files.exists? t.cwd (settingsPath r.config) = true →
        done.status = 1 ∧ done.surroundings = t)) ∧
    (∀ l e, t.files.at? l = some e → done.surroundings.files.at? l ≠ some e → Overwrites t r l) ∧
    ∀ l e, s.files.at? l = some e →
      (∀ front q rest, earlier = front ++ q :: rest →
        ¬Overwrites (after launcher s front) q l) → t.files.at? l = some e := by
  intro t done
  have hcases := perform_upkeep launcher t hr
  refine ⟨?_, ?_, ?_, ?_⟩
  · intro hnot
    rcases hcases with ⟨hsame, -⟩ | ⟨force, hcommand, -⟩
    · exact hsame
    · exact absurd hcommand (hnot force)
  · intro force hforce
    have hends : done.status = 0 ∧ Created t r.config done.surroundings ∨
        done.status = 1 ∧ (done.surroundings = t ∨ BrokenOff t r.config done.surroundings) := by
      rcases hcases with ⟨hsame, hfailed⟩ | ⟨-, -, -, hcreated | ⟨hstatus, hbroken⟩⟩
      · exact Or.inr ⟨hfailed force hforce, Or.inl hsame⟩
      · exact Or.inl hcreated
      · exact Or.inr ⟨hstatus, Or.inr hbroken⟩
    refine ⟨hends, fun hstatus => ?_, ?_⟩
    · -- one that ended with success has written all
      have hcreated : Created t r.config done.surroundings := by
        rcases hends with ⟨-, hcreated⟩ | ⟨hfailed, -⟩
        · exact hcreated
        · rw [hfailed] at hstatus
          cases hstatus
      refine ⟨(init_of_exists hcreated.exists).1, fun hreadable hs => ?_⟩
      exact defaulted_of_load (hcreated.load hreadable fun hnone =>
        isPlaced_after launcher hearlier (hs hnone))
    · rintro rfl hthere
      have hdone : done = init t r.config false := by
        simp only [done, perform, hforce]
      rw [hdone]
      exact init_of_exists hthere
  · exact fun l e hl hchanged => overwrites_of_changed launcher hr hl hchanged
  · exact fun l e hl hspared => at?_after launcher hearlier hl hspared

/-- After a listing that fails, a forced `init` puts the default settings in the place of those that make
no sense. -/
theorem init_alone_writes_forced :
    let t := after Launcher.real lengthless [{ command := some (.list false) }]
    let done := perform Launcher.real { command := some (.init true) } t
    done.status = 0 ∧ Created t none done.surroundings ∧ Defaulted done.surroundings none := by
  intro t done
  have hstatus : done.status = 0 := by decide +kernel
  have hlist : ∀ q ∈ [({ command := some (.list false) } : Request)], q.effective.IsUpkeep := by
    intro q hq
    rw [List.mem_singleton.mp hq]
    exact .list false
  have hplaced : lengthless.IsPlaced := by decide +kernel
  have hnone : t.files.refusals = [] := by decide +kernel
  have hreadable : Readable t none := by
    intro l _
    rw [FileTree.refusal?, hnone]
    rfl
  obtain ⟨-, hinit, -, -⟩ := init_alone_writes Launcher.real lengthless _ hlist
    { command := some (.init true) } (.init true)
  obtain ⟨⟨-, hcreated⟩ | ⟨hfailed, -⟩, hdefaulted, -⟩ := hinit true rfl
  · exact ⟨hstatus, hcreated, (hdefaulted hstatus).2 hreadable fun _ => hplaced⟩
  · rw [hstatus] at hfailed
    cases hfailed

/-- A session in the root, in which the settings file is the only one besides a device. -/
def alone (settings : Bytes) : Surroundings :=
  { files := { entries := [([Settings.fileName], .file settings false),
      ([Text.bytes "dev"], .directory), ([Text.bytes "dev", Text.bytes "null"], .device)] }
    cwd := []
    env := .empty }

/-- **What an `init` writes is not always kept, nor what was there before one that fails.** A device keeps
nothing of it, and on a full disk the old settings are gone though the command fails. After one that ends
with success `validate` takes no settings from a file that may be written but not read, and does not find
the default file below a directory that may not be searched; and `list` stops in a working directory that
is gone. -/
theorem init_forced_unkept :
    let old := Text.bytes "[black]\nline_length = 88\n"
    let null := Text.bytes "/dev/null"
    let files := (alone old).files
    let full := { alone old with files := { files with endings := [some ⟨0, ⟨28⟩⟩] } }
    let unreadable :=
      { alone old with files := { files with refusals := [⟨[Settings.fileName], .read, ⟨13⟩⟩] } }
    let enclosed : Surroundings :=
      { files := { files with refusals := [⟨[], .search, ⟨13⟩⟩] }, cwd := [Text.bytes "dev"], env := .empty }
    let gone := { alone old with cwd := [Text.bytes "gone"] }
    ((init (alone old) (some null) true).status = 0 ∧
        (init (alone old) (some null) true).surroundings.files.read [] null = .ok []) ∧
      ((init full none true).status = 1 ∧ full.files.read [] Settings.fileName = .ok old ∧
        (init full none true).surroundings.files.read [] Settings.fileName = .ok []) ∧
      ((init unreadable none true).status = 0 ∧
        (validate (init unreadable none true).surroundings none).status = 1) ∧
      ((init enclosed none true).status = 0 ∧
        (validate (init enclosed none true).surroundings none).status = 1) ∧
      (init gone (some null) true).status = 0 ∧
        (list (init gone (some null) true).surroundings (some null) .fix).status = 1 := by
  decide +kernel

end Session
end QualityGate
