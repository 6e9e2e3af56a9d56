import QualityGate.Proofs.Host.Lookup
import QualityGate.Session.Activation
/-!
## Activation by the standard layout

A script that stands where virtual environments keep theirs, but cannot be read in, still activates the
environment around it: its `bin` directory comes first on the search path.

* `answer_eq_error_iff`: when a script counts as not read in.
* `venvOf_script`: the virtual environment is two levels above the script.
* `locate_activate_fallback`: a tool is then found in the virtual environment if that holds it, and
  otherwise where it was found before.
-/

namespace QualityGate

open Host.Path (IsPlain slash join)
open Environment (colon pathKey)

/-! ### Scripts that cannot be read in -/

/-- **How a shell can fail to read a script in**: it does not start, it does not end with success, or
it lists no environment. -/
inductive Activation.Fails : Except IoFault Landing → Prop
  | unstartable (fault : IoFault) : Fails (.error fault)
  | unsuccessful (l : Landing) (h : l.ending ≠ some (.exited 0)) : Fails (.ok l)
  | unlisted (l : Landing) (h : Environment.parse? l.stdout = none) : Fails (.ok l)

theorem Activation.answer_eq_error_iff (shell : String) (landed : Except IoFault Landing) :
    (∃ reason, answer shell landed = .error reason) ↔ Fails landed := by
  cases landed with
  | error fault => exact ⟨fun _ => .unstartable fault, fun _ => ⟨_, rfl⟩⟩
  | ok l =>
    -- a launch whose ending was not told counts as one that was killed
    have hending : l.ending.getD (.killed 9) = .exited 0 ↔ l.ending = some (.exited 0) := by
      cases l.ending <;> simp
    simp only [answer, hending]
    by_cases hsuccess : l.ending = some (.exited 0)
    · rw [if_pos hsuccess]
      cases hparse : Environment.parse? l.stdout with
      | none => exact ⟨fun _ => .unlisted l hparse, fun _ => ⟨_, rfl⟩⟩
      | some env =>
        constructor
        · rintro ⟨reason, hreason⟩
          cases hreason
        · rintro (_ | ⟨_, hfailed⟩ | ⟨_, hunlisted⟩)
          · exact absurd hsuccess hfailed
          · rw [hparse] at hunlisted
            cases hunlisted
    · rw [if_neg hsuccess]
      exact ⟨fun _ => .unsuccessful l hsuccess, fun _ => ⟨_, rfl⟩⟩

/-! ### Where scripts stand -/

/-- The name of the directory in which a virtual environment keeps its programs and its script. -/
def binName : Bytes := Text.bytes "bin"

theorem isPlain_binName : IsPlain binName := by decide

/-- **A place in the `bin` directory of a virtual environment**, seen from the root of a project; the
environment is given by the names on the way to it. -/
def binPath (venv : List Bytes) (name : Bytes) : Bytes :=
  Text.joinBytes slash (venv ++ [binName, name])

/-- Below an absolute root, all places in one `bin` directory begin alike. -/
theorem exists_join_binPath {root : Bytes} (hroot : Host.Path.isAbsolute root = true)
    (hcolon : colon ∉ root) {venv : List Bytes} (hne : venv ≠ [])
    (hvenv : ∀ name ∈ venv, IsPlain name ∧ colon ∉ name) :
    ∃ base last, Host.Path.isAbsolute base = true ∧ colon ∉ base ++ last ∧ IsPlain last ∧
      ∀ name, join root (binPath venv name) =
        base ++ last ++ slash :: (binName ++ slash :: name) := by
  obtain ⟨base, habs, hmem, hjoin⟩ := Host.Path.exists_join_eq_append hroot
  -- the directory of the environment is the last name of its path
  obtain ⟨above, last, rfl⟩ : ∃ above last, venv = above ++ [last] :=
    ⟨_, _, (List.dropLast_concat_getLast hne).symm⟩
  have hlast : IsPlain last ∧ colon ∉ last := hvenv last (by simp)
  refine ⟨base ++ Host.Path.below above, last, Host.Path.isAbsolute_append habs _, ?_, hlast.1, ?_⟩
  · intro hc
    simp only [List.mem_append] at hc
    rcases hc with (hc | hc) | hc
    · rcases hmem _ hc with hc | hc
      · exact hcolon hc
      · exact absurd hc (by decide)
    · rcases Host.Path.mem_below hc with ⟨name, hname, hc⟩ | hc
      · exact (hvenv name (by simp [hname])).2 hc
      · exact absurd hc (by decide)
    · exact hlast.2 hc
  · intro name
    have hpath : binPath (above ++ [last]) name =
        Host.Path.below above ++ last ++ slash :: (binName ++ slash :: name) := by
      rw [binPath, show above ++ [last] ++ [binName, name] = above ++ [last, binName] ++ [name] by simp,
        Host.Path.joinBytes_append]
      simp [Host.Path.below]
    have hrelative : Host.Path.isAbsolute (binPath (above ++ [last]) name) = false := by
      cases above with
      | nil => exact Host.Path.isAbsolute_joinBytes hlast.1 _
      | cons first rest => exact Host.Path.isAbsolute_joinBytes (hvenv first (by simp)).1 _
    rw [hjoin _ hrelative, hpath]
    simp only [List.append_assoc]

/-! ### Activating -/

/-- **The virtual environment of a script** is the directory above the one that holds it. -/
theorem Activation.venvOf_script {base last script : Bytes}
    (habs : Host.Path.isAbsolute base = true) (hlast : IsPlain last) (hscript : IsPlain script) :
    venvOf (base ++ last ++ slash :: (binName ++ slash :: script)) = base ++ last := by
  have hbin : Host.Path.parent? (base ++ last ++ slash :: (binName ++ slash :: script)) =
      some (base ++ last ++ slash :: binName) := by
    have habove : Host.Path.isAbsolute (base ++ last ++ [slash]) = true :=
      Host.Path.isAbsolute_append (Host.Path.isAbsolute_append habs _) _
    simpa using Host.Path.parent?_append habove isPlain_binName hscript
  rw [venvOf, hbin, Option.bind_some, Host.Path.parent?_append habs hlast isPlain_binName]
  rfl

/-- In a virtual environment its programs come first on the search path. -/
theorem Environment.get?_pathKey_inVenv (base : Environment) {venv : Bytes}
    (h : colon ∉ join venv binName) :
    (base.inVenv venv).get? pathKey = putFirst (join venv binName) (base.get? pathKey) := by
  have hkeys : pathKey ≠ homeKey ∧ pathKey ≠ venvKey := by decide
  rw [get?_inVenv, if_neg hkeys.1, if_neg hkeys.2, if_pos rfl, ← binName, putFirst_of_not_mem h]
  rfl

/-- **A fallback gives the virtual environment precedence and hides nothing else.** A look-up that does
not say where the tool is to run starts at the working directory, and finds nothing if that is gone. As in
every `FileTree`, there are no links and no path is too long. -/
theorem locate_activate_fallback (launcher : Launcher) (s : Surroundings) (shell : String)
    (root : Bytes) (hroot : Host.Path.isAbsolute root = true) (hcolon : colon ∉ root)
    (venv : List Bytes) (hne : venv ≠ []) (hvenv : ∀ name ∈ venv, IsPlain name ∧ colon ∉ name)
    (script : Bytes) (hscript : IsPlain script)
    (hfile : s.files.isFile s.cwd (join root (binPath venv script)) = true)
    (hfails : Activation.Fails
      (launcher (Activation.launch root (join root (binPath venv script)) shell) s)) :
    ∃ env, (activate launcher s root (binPath venv script) shell).env = some env ∧
      ∀ program, IsPlain program → ∀ (files : Host.FileTree) (cond : Conditions),
        let there : Surroundings := { s with files := files }
        let own := Launched.locate there program { cond with env := none }
        let tool := join root (binPath venv program)
        Launched.locate there program { cond with env := some env } =
            (if (Launched.origin? there cond).isSome ∧ files.isExecutable s.cwd tool then some tool
              else own) ∧
          (s.env.get? pathKey = none → own = none) := by
  obtain ⟨base, last, habs, hclear, hlast, hjoin⟩ := exists_join_binPath hroot hcolon hne hvenv
  obtain ⟨reason, hanswer⟩ := (Activation.answer_eq_error_iff shell _).mpr hfails
  have hbin : join (base ++ last) binName = base ++ last ++ slash :: binName :=
    Host.Path.join_plain hlast (by decide)
  refine ⟨s.env.inVenv (base ++ last), ?_, ?_⟩
  · simp only [activate, hfile, ↓reduceIte, hanswer]
    rw [hjoin, Activation.venvOf_script habs hlast hscript]
  · intro program hprogram files cond there own tool
    -- a colon anywhere in its name would keep the directory out of the search path
    have hbinClear : colon ∉ join (base ++ last) binName := by
      have hname : colon ∉ slash :: binName := by decide
      rw [hbin, List.mem_append]
      exact not_or.mpr ⟨hclear, hname⟩
    have hbinAbs : Host.Path.isAbsolute (join (base ++ last) binName) = true := by
      rw [hbin, List.append_assoc]
      exact Host.Path.isAbsolute_append habs _
    -- the directory put first is that of the tool: both are reached through the same names
    have htool : join (join (base ++ last) binName) program = tool := by
      have hrelative : Host.Path.isAbsolute program = false := by
        simpa using Host.Path.isAbsolute_plain hprogram []
      rw [hbin, show base ++ last ++ slash :: binName = base ++ last ++ [slash] ++ binName by simp,
        Host.Path.join_plain isPlain_binName hrelative]
      simp only [tool, hjoin]
      simp
    constructor
    · have horigin (env : Option Environment) :
          Launched.origin? there { cond with env := env } = Launched.origin? there cond := rfl
      simp only [own, Launched.locate, horigin, Option.getD_some]
      cases Launched.origin? there cond with
      | none => rfl
      | some dir =>
        simp only [Option.bind_some, Option.isSome_some, true_and]
        rw [Environment.get?_pathKey_inVenv _ hbinClear,
          Host.Viewpoint.find?_putFirst _ hprogram hbinAbs hbinClear, htool]
        rfl
    · intro hunset
      have hnone : ((none : Option Environment).getD there.env).get? pathKey = none := hunset
      simp only [own, Launched.locate, hnone, Option.bind_eq_none_iff]
      exact fun dir _ => Host.Viewpoint.find?_none _ hprogram _

/-- A host with one tool in a virtual environment and another one outside. -/
def twoTools : Surroundings :=
  { files :=
      { entries :=
          ["w", "w/venv", "w/venv/bin", "usr", "usr/bin"].map (fun d => (place d, .directory)) ++
            [(place "w/venv/bin/activate", .file [] false), (place "w/venv/bin/mypy", .file [] true),
              (place "usr/bin/flake8", .file [] true)] }
    cwd := place "w"
    env := Environment.empty.set pathKey (Text.bytes "/usr/bin") }
where
  /-- The location of a path. -/
  place (path : String) : Host.Location := Text.splitBytes slash (Text.bytes path)

/-- Where no shell starts, the tool of the virtual environment is found in it, and the other one where
it was. -/
theorem locate_activate_fallback_unstartable :
    ∃ env, (activate (fun _ _ => .error (.system .noEntry)) twoTools (Text.bytes "/w")
        (binPath [Text.bytes "venv"] (Text.bytes "activate")) "sh").env = some env ∧
      Launched.locate twoTools (Text.bytes "mypy") { env := some env } =
        some (Text.bytes "/w/venv/bin/mypy") ∧
      Launched.locate twoTools (Text.bytes "flake8") { env := some env } =
        some (Text.bytes "/usr/bin/flake8") := by
  obtain ⟨env, henv, hlocate⟩ := locate_activate_fallback (fun _ _ => .error (.system .noEntry))
    twoTools "sh" (Text.bytes "/w") (by decide) (by decide) [Text.bytes "venv"] (by decide)
    (by decide +kernel) (Text.bytes "activate") (by decide) (by decide +kernel) (.unstartable _)
  have hmypy := (hlocate (Text.bytes "mypy") (by decide) twoTools.files {}).1
  have hflake8 := (hlocate (Text.bytes "flake8") (by decide) twoTools.files {}).1
  refine ⟨env, henv, hmypy.trans ?_, hflake8.trans ?_⟩ <;> decide +kernel

end QualityGate
