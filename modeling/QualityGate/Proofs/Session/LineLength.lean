import QualityGate.Proofs.Session.Content
import QualityGate.Proofs.Toml.Definition
import QualityGate.Proofs.Toml.Number
/-!
## The line length from the document to the command line

A line length is read as an integer of any size, has to fit 32 bits without a sign, must not be zero, and is
printed again for the formatter.

* `ofToml_lineLength`: what a document that sets it alone decodes to, in whatever way it is written.
* `ofToml_printed_lineLength`: a line length that is printed is read back.
* `load_lineLength`: a document that sets the line length alone is accepted exactly if it writes a positive
  number of 32 bits, in whatever way it is written and laid out, and then the formatter gets that number.
-/

namespace QualityGate

open Toml (Comment Entries Grouped IntegerItem Layout LineTail Sets Spaces WritesInteger isHexDigit)

variable {es : Entries} {n : Int}

/-- Settings that differ from the defaults in the line length alone. -/
def Settings.ofLineLength (v : UInt32) : Settings :=
  { black := { lineLength := v } }

namespace Settings

/-! ### From the document to the settings -/

/-- A number of 32 bits is itself again behind the conversion. -/
theorem toNat_ofNat_toNat (hhigh : n < 4294967296) : (UInt32.ofNat n.toNat).toNat = n.toNat :=
  UInt32.toNat_ofNat_of_lt' (by rw [UInt32.size]; omega)

/-- **A line length is taken over where 32 bits hold it**, and refused where they do not. -/
theorem ofEntries_lineLength (h : es.HoldsOnly "black" "line_length" (IntegerItem n)) :
    (0 ≤ n ∧ n < 4294967296 ∧ ofEntries es = .ok (ofLineLength (UInt32.ofNat n.toNat))) ∨
      ((n < 0 ∨ 4294967296 ≤ n) ∧ ∃ refusal, ofEntries es = .error refusal) := by
  obtain ⟨t, form, k, _, rfl, htable, hkey, -, span, rfl⟩ := h
  by_cases hn : 0 ≤ n ∧ n < 4294967296
  · refine Or.inl ⟨hn.1, hn.2, ?_⟩
    simp [ofEntries, takeOver, settingsSetter, htable, toolTable, tableEntries?, blackSetter,
      hkey, setting, asCount, hn, overridesOf, overridesSetter, Except.map, ofLineLength]
  · refine Or.inr ⟨by omega, ?_⟩
    simp [ofEntries, takeOver, settingsSetter, htable, toolTable, tableEntries?, blackSetter,
      hkey, setting, asCount, hn, Except.map]

/-- What a document says of the line length is what its text decodes to. -/
theorem ofToml_lineLength {text : String} {w : List Char} (hwrites : WritesInteger w n)
    (hsets : Sets "black" "line_length" w text.toList) :
    (0 ≤ n ∧ n < 4294967296 ∧ ofToml text = .ok (ofLineLength (UInt32.ofNat n.toNat))) ∨
      ((n < 0 ∨ 4294967296 ≤ n) ∧ ∃ report, ofToml text = .error report) := by
  rw [ofToml]
  rcases Toml.document_sets hsets (Toml.readsTo_integer hwrites) (by decide) with
    ⟨root, hroot, hholds⟩ | ⟨⟨fault, hfault⟩, hfits⟩
  · rw [hroot]
    rcases ofEntries_lineLength hholds with ⟨hlow, hhigh, hok⟩ | ⟨hout, refusal, herror⟩
    · simp only [hok]
      exact Or.inl ⟨hlow, hhigh, trivial⟩
    · simp only [herror]
      exact Or.inr ⟨hout, _, rfl⟩
  · -- what 64 bits do not hold, 32 do not hold either
    refine Or.inr ⟨?_, _, by rw [hfault]⟩
    simp only [IntegerItem, Toml.Fits, Toml.signedBound] at hfits
    omega

/-- **A line length that is printed is read back**, zero included. -/
theorem ofToml_printed_lineLength (v : UInt32) {text : String}
    (hsets : Sets "black" "line_length" (toString v.toNat).toList text.toList) :
    ofToml text = .ok (ofLineLength v) := by
  have hbound : v.toNat < 4294967296 := v.toNat_lt
  have hwrites : WritesInteger (toString v.toNat).toList v.toNat := Toml.writesInteger_toString v.toNat
  rcases ofToml_lineLength hwrites hsets with ⟨-, -, hok⟩ | ⟨hout, -⟩
  · rw [hok, Int.toNat_natCast, UInt32.ofNat_toNat]
  · omega

/-- **Of the line lengths zero alone makes no sense.** -/
theorem validate_ofLineLength (v : UInt32) : (ofLineLength v).validate =
    if v = 0 then .error (.failed (.settingInvalid "black.line_length" "must be greater than zero"))
    else .ok () := by
  have hothers : ∀ r ∈ ({} : Settings).rules, r.kept = true := by decide
  have hbehind : checkRules (({} : Settings).rules.drop 2) = .ok () :=
    (checkRules_eq_ok_iff _).mpr fun r hr => hothers r (List.mem_of_mem_drop hr)
  have hrules : (ofLineLength v).rules = .filled "pipeline.shell" "sh" ::
      ⟨"black.line_length", v ≠ 0, "must be greater than zero"⟩ :: ({} : Settings).rules.drop 2 := rfl
  have hshell : (Rule.filled "pipeline.shell" "sh").kept = true := by decide
  have htimeout : (ofLineLength v).checkTimeout = .ok () := rfl
  rw [validate, htimeout, hrules]
  by_cases hv : v = 0 <;> simp [checkRules, hshell, hv, hbehind]

/-! ### From the settings to the command line -/

/-- **The formatter gets the line length in decimal.** -/
theorem args_ofLineLength {n : Int} (hlow : 0 ≤ n) (hhigh : n < 4294967296) (mode : Mode) :
    ∃ more, (Tool.black.commandLine (ofLineLength (UInt32.ofNat n.toNat)) mode).args =
      "--line-length" :: toString n :: more := by
  have hprinted : toString (UInt32.ofNat n.toNat).toNat = toString n := by
    obtain ⟨m, rfl⟩ := Int.eq_ofNat_of_zero_le hlow
    rw [toNat_ofNat_toNat hhigh]
    rfl
  rw [← hprinted]
  exact ⟨_, rfl⟩

/-- **A line length is accepted where it is a positive number of 32 bits**, in whatever way it is written
and wherever the one table and the one key of the document stand; then the formatter gets it in decimal
in both modes. Zero makes no sense, and every other number is refused with the document. -/
theorem load_lineLength (site : Site) (path : Bytes) (text : String) (w : List Char) (n : Int)
    (hread : site.files.read site.cwd path = .ok (Text.bytes text)) (hwrites : WritesInteger w n)
    (hsets : Sets "black" "line_length" w text.toList) :
    ((∃ s, load site path = .ok s) ↔ 1 ≤ n ∧ n ≤ 4294967295) ∧
    (∀ s, load site path = .ok s → s = ofLineLength (UInt32.ofNat n.toNat) ∧
      ∀ mode, ∃ more, (Tool.black.commandLine s mode).args = "--line-length" :: toString n :: more) ∧
    (n = 0 → load site path =
      .error (.failed (.settingInvalid "black.line_length" "must be greater than zero"))) ∧
    (n < 0 ∨ 4294967295 < n → ∃ report, load site path = .error (.failed
      (.settingsUnreadable ("invalid TOML in " ++ Text.lossy path) (.base report)))) := by
  rw [load_of_read hread, ofBytes, Text.decode?_bytes]
  dsimp only
  rcases ofToml_lineLength hwrites hsets with ⟨hlow, hhigh, hok⟩ | ⟨hout, report, herror⟩
  · rw [hok]
    dsimp only
    rw [validate_ofLineLength]
    by_cases hn : n = 0
    · subst hn
      simp
    · -- a number of 32 bits that is not zero stays so when it is taken as one
      have hv : UInt32.ofNat n.toNat ≠ 0 := by
        intro hzero
        have hsame := toNat_ofNat_toNat hhigh
        rw [hzero, UInt32.toNat_zero] at hsame
        omega
      rw [if_neg hv]
      refine ⟨⟨fun _ => by omega, fun _ => ⟨_, rfl⟩⟩, ?_, fun h => absurd h hn, by omega⟩
      rintro s ⟨⟩
      exact ⟨rfl, args_ofLineLength hlow hhigh⟩
  · rw [herror]
    refine ⟨⟨?_, by omega⟩, ?_, by omega, fun _ => ⟨report, rfl⟩⟩
    · rintro ⟨s, ⟨⟩⟩
    · rintro s ⟨⟩

/-- The text of a document in which the line length is written with another radix, in a group. -/
def hexadecimal : String :=
  "# formatter\r\n\n[ 'black' ]\t# in columns\nline_length =0x5_8"

theorem load_lineLength_hexadecimal :
    (holding hexadecimal).files.read (holding hexadecimal).cwd fileName =
        .ok (Text.bytes hexadecimal) ∧
      WritesInteger "0x5_8".toList 88 ∧
      Sets "black" "line_length" "0x5_8".toList hexadecimal.toList ∧
      ∃ s, load (holding hexadecimal) fileName = .ok s ∧
        ∀ mode, ∃ more, (Tool.black.commandLine s mode).args = "--line-length" :: "88" :: more := by
  have hread := read_holding hexadecimal
  have hdigits : Grouped isHexDigit "5_8".toList ['5', '8'] := .group rfl (.one rfl)
  have hwrites : WritesInteger "0x5_8".toList 88 := .hexadecimal hdigits
  have hsets : Sets "black" "line_length" "0x5_8".toList hexadecimal.toList := by
    have hnone : Spaces [] := by decide
    have hspace : Spaces [' '] := by decide
    have hlayout : Layout "black" "line_length" "0x5_8".toList
        ["[ 'black' ]".toList, "line_length =0x5_8".toList] :=
      .header hspace (.one (.literal (List.all_eq_true.mp rfl)) hspace)
        (.one (.bare (by decide) (List.all_eq_true.mp rfl)) hspace) hnone
    have hformatter : Comment "# formatter".toList := .some (List.all_eq_true.mp rfl)
    have hcolumns : Comment "# in columns".toList := .some (List.all_eq_true.mp rfl)
    have hfirst : LineTail hexadecimal.toList "\n[ 'black' ]\t# in columns\nline_length =0x5_8".toList :=
      .ended hnone hformatter .returnFeed
    have hsecond : LineTail "\n[ 'black' ]\t# in columns\nline_length =0x5_8".toList
        "[ 'black' ]\t# in columns\nline_length =0x5_8".toList :=
      .ended hnone .none .feed
    have hthird : LineTail "\t# in columns\nline_length =0x5_8".toList "line_length =0x5_8".toList :=
      .ended (show Spaces ['\t'] by decide) hcolumns .feed
    have hlast : LineTail [] [] := .last hnone .none
    exact ⟨_, hlayout, .idle hfirst (.idle hsecond
      (.line hnone hthird (.line hnone hlast .done)))⟩
  obtain ⟨haccepted, hused, -, -⟩ := load_lineLength (holding hexadecimal) fileName hexadecimal
    "0x5_8".toList 88 hread hwrites hsets
  obtain ⟨s, hs⟩ := haccepted.mpr (by decide)
  exact ⟨hread, hwrites, hsets, s, hs, (hused s hs).2⟩

end Settings
end QualityGate
