import QualityGate.Proofs.Text.Lines
import QualityGate.Session.Commands
/-!
## What a failed tool wrote

The excerpt that closes a failed run is made of the lines of both streams as one text
(`Outcome.combined`), where a line feed stands between the streams.

* `lines_combined`: these are the lines of the one stream and then those of the other, exactly if one
  of them is empty or standard output ends with neither a line feed nor a carriage return. A tool that
  ends its lines gets an empty line between the streams that it never wrote.
* `lines_combined_blank`: a tool with one line on each stream, and the three lines that are shown.
-/

namespace QualityGate

open Console (Event plain)

namespace Outcome

open Text (lines)

theorem lines_combined_of_stderr {o : Outcome} (h : o.stderr = "") :
    lines o.combined.toList = lines o.stdout.toList ++ lines o.stderr.toList := by
  have hnone : lines "".toList = [] := by simp [lines]
  rw [combined, if_pos h, h, hnone, List.append_nil]

theorem lines_combined_of_stdout {o : Outcome} (h : o.stdout = "") :
    lines o.combined.toList = lines o.stdout.toList ++ lines o.stderr.toList := by
  by_cases herr : o.stderr = ""
  · exact lines_combined_of_stderr herr
  · have hnone : lines "".toList = [] := by simp [lines]
    rw [combined, if_neg herr, if_pos h, h, hnone, List.nil_append]

theorem toList_combined {o : Outcome} (hout : o.stdout ≠ "") (herr : o.stderr ≠ "") :
    o.combined.toList = o.stdout.toList ++ '\n' :: o.stderr.toList := by
  rw [combined, if_neg herr, if_neg hout]
  simp

theorem excerpt_of_lines {o : Outcome} {ls : List (List Char)} (h : lines o.combined.toList = ls) :
    Session.excerpt o =
      (ls.take 40).map fun l => Event.err [plain ("    " ++ String.ofList l)] := by
  rw [Session.excerpt, Text.firstLines, h, List.map_map]
  rfl

/-- **The lines of both streams.** They are the lines of standard output and then those of standard
error exactly if one of the streams is empty or standard output ends with neither a line feed nor a
carriage return; what is shown of them then are lines that the tool wrote. If standard output ends with
a line feed, an empty line comes in between, and if it ends with a carriage return, its last line loses
that. -/
theorem lines_combined (o : Outcome) :
    let out := o.stdout.toList
    let err := o.stderr.toList
    (lines o.combined.toList = lines out ++ lines err ↔
      o.stdout = "" ∨ o.stderr = "" ∨ out.getLast? ≠ some '\n' ∧ out.getLast? ≠ some '\r') ∧
    (lines o.combined.toList = lines out ++ lines err →
      Session.excerpt o =
        ((lines out ++ lines err).take 40).map
          fun l => Event.err [plain ("    " ++ String.ofList l)]) ∧
    (o.stderr ≠ "" → out.getLast? = some '\n' →
      lines o.combined.toList = lines out ++ [] :: lines err) ∧
    (o.stderr ≠ "" → out.getLast? = some '\r' →
      ∃ front last, lines out = front ++ [last ++ ['\r']] ∧
        lines o.combined.toList = front ++ last :: lines err) := by
  intro out err
  -- a stream with a last character is not empty
  have hout {c : Char} (h : out.getLast? = some c) : o.stdout ≠ "" := by
    intro hempty
    simp [out, hempty] at h
  have hfeed (herr : o.stderr ≠ "") (h : out.getLast? = some '\n') :
      lines o.combined.toList = lines out ++ [] :: lines err := by
    rw [toList_combined (hout h) herr]
    exact Text.lines_joined_of_feed h err
  have hreturn (herr : o.stderr ≠ "") (h : out.getLast? = some '\r') :
      ∃ front last, lines out = front ++ [last ++ ['\r']] ∧
        lines o.combined.toList = front ++ last :: lines err := by
    rw [toList_combined (hout h) herr]
    exact Text.lines_joined_of_return h err
  refine ⟨⟨?_, ?_⟩, excerpt_of_lines, hfeed, hreturn⟩
  · intro hlines
    by_cases hempty : o.stdout = ""
    · exact Or.inl hempty
    by_cases herr : o.stderr = ""
    · exact Or.inr (Or.inl herr)
    refine Or.inr (Or.inr ⟨fun h => ?_, fun h => ?_⟩)
    · -- there is one line too many
      rw [hfeed herr h] at hlines
      have hlength := congrArg List.length hlines
      simp at hlength
    · -- the last line of standard output is another one
      obtain ⟨front, last, hfront, hboth⟩ := hreturn herr h
      rw [hboth, hfront, List.append_assoc, List.append_cancel_left_eq] at hlines
      simp at hlines
  · rintro (hempty | herr | ⟨hfeed, hreturn⟩)
    · exact lines_combined_of_stdout hempty
    · exact lines_combined_of_stderr herr
    · by_cases hempty : o.stdout = ""
      · exact lines_combined_of_stdout hempty
      by_cases herr : o.stderr = ""
      · exact lines_combined_of_stderr herr
      rw [toList_combined hempty herr]
      exact Text.lines_joined (by simpa [out] using hempty) hfeed hreturn err

/-- A progress line that is set back by a carriage return is shown without it. -/
theorem lines_combined_return :
    let o : Outcome := { stdout := "50%\r", stderr := "gone" }
    o.stderr ≠ "" ∧ o.stdout.toList.getLast? = some '\r' ∧
      (∃ front last, lines o.stdout.toList = front ++ [last ++ ['\r']] ∧
        lines o.combined.toList = front ++ last :: lines o.stderr.toList) ∧
      lines o.combined.toList ≠ lines o.stdout.toList ++ lines o.stderr.toList := by
  intro o
  obtain ⟨hsame, -, -, hreturn⟩ := lines_combined o
  exact ⟨by decide, by decide, hreturn (by decide) (by decide), hsame.not.mpr (by decide)⟩

/-- **A line that no tool wrote**: a tool with one ended line on each stream is shown with three. -/
theorem lines_combined_blank :
    let o : Outcome := { exitCode := 1, stdout := "out\n", stderr := "err\n" }
    lines o.stdout.toList = ["out".toList] ∧ lines o.stderr.toList = ["err".toList] ∧
      lines o.combined.toList = ["out".toList, [], "err".toList] ∧
      Session.excerpt o = [.err [plain "    out"], .err [plain "    "], .err [plain "    err"]] := by
  decide +kernel

end Outcome
end QualityGate
