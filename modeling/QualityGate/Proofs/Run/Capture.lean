import Mathlib.Logic.Relation
import QualityGate.Proofs.Text.Lossy
import QualityGate.Run.Launched
/-!
## What is captured of a tool

Two readers take their steps in any order, and each step takes as many bytes as the system hands out.
What carries over from step to step is that a reader has kept what it took of its stream, so that this
and what is still to be read make up the whole (`Pipe.Keeps`).

* `Pipe.Keeps.step`: one step of a reader.
* `Capture.keeps_of_reaches`: any steps of both.
* `Capture.reaches_drained`: reading each stream to its end is one order of steps.
* `Landing.outcomeOf_reached`: the text that is captured depends on the order and the size of the steps
  only by how much was read.
-/

namespace QualityGate

/-! ### One stream -/

namespace Pipe

/-- **A reader keeps what it takes**: what it has kept and what is still to be read make up the stream,
and at the end nothing is. -/
structure Keeps (p : Pipe) (stream : Bytes) : Prop where
  whole : p.reader.kept ++ p.pending = stream
  atEnd : p.reader.state = .atEnd → p.pending = []

theorem Keeps.start (stream : Bytes) : Keeps { pending := stream } stream :=
  ⟨rfl, nofun⟩

/-- **One step of a reader** loses nothing and adds nothing. -/
theorem Keeps.step {p p' : Pipe} {stream : Bytes} (h : p.Keeps stream) (hstep : p.Step p') :
    p'.Keeps stream := by
  obtain ⟨hwhole, -⟩ := h
  cases hstep with
  | @read pending rest reader answer reading answers =>
    cases answers with
    | @bytes chunk _ ne_nil _ =>
      -- a read that answers with bytes moves them from what is pending to what is kept
      obtain ⟨b, chunk, rfl⟩ := List.exists_cons_of_ne_nil ne_nil
      refine ⟨?_, fun hstate => ?_⟩
      · show reader.kept ++ b :: chunk ++ rest = stream
        rw [List.append_assoc]
        exact hwhole
      · have hreading : reader.state = .atEnd := hstate
        rw [reading] at hreading
        cases hreading
    | atEnd => exact ⟨hwhole, fun _ => rfl⟩
    | interrupted =>
      refine ⟨hwhole, fun hstate => ?_⟩
      have hreading : reader.state = .atEnd := hstate
      rw [reading] at hreading
      cases hreading
    | failed => exact ⟨hwhole, nofun⟩

/-- At its end a reader has kept the whole stream. -/
theorem Keeps.text_atEnd {p : Pipe} {stream : Bytes} (h : p.Keeps stream)
    (hend : p.reader.state = .atEnd) : p.reader.text = Text.lossy stream := by
  rw [Reader.text, ← h.whole, h.atEnd hend, List.append_nil]

/-- Reading a stream to its end is a sequence of steps. -/
theorem reaches_drain (p : Pipe) : Relation.ReflTransGen Step p p.drain := by
  fun_induction drain p with
  | case1 p hreading hpending =>
    obtain ⟨pending, reader⟩ := p
    obtain rfl : pending = [] := hpending
    exact .single (.read hreading .atEnd)
  | case2 p hreading b r hpending ih =>
    obtain ⟨pending, reader⟩ := p
    obtain rfl : pending = b :: r := hpending
    refine .head ?_ ih
    have hchunk : Answers ((b :: r).take chunkSize ++ (b :: r).drop chunkSize)
        (.bytes ((b :: r).take chunkSize)) ((b :: r).drop chunkSize) :=
      .bytes (by simp [chunkSize]) (List.length_take_le _ _)
    rw [List.take_append_drop] at hchunk
    exact .read hreading hchunk
  | case3 p hstopped => exact .refl

/-- After that the reader is at the end. -/
theorem state_drain {p : Pipe} (h : p.reader.state = .reading) : p.drain.reader.state = .atEnd := by
  fun_induction drain p with
  | case1 => rfl
  | case2 p hreading b r hpending ih => exact ih hreading
  | case3 p hstopped => exact absurd h hstopped

end Pipe

/-! ### Both streams -/

namespace Capture

/-- **Any steps of the two readers**, in any order. -/
abbrev Reaches : Capture → Capture → Prop :=
  Relation.ReflTransGen Step

variable {out err : Bytes} {c : Capture}

/-- **Whatever steps are taken, both readers keep what they take.** -/
theorem keeps_of_reaches (h : Reaches (start out err) c) :
    c.stdout.Keeps out ∧ c.stderr.Keeps err := by
  induction h with
  | refl => exact ⟨.start out, .start err⟩
  | tail _ hstep ih =>
    obtain ⟨hout, herr⟩ := ih
    cases hstep with
    | stdout h => exact ⟨hout.step h, herr⟩
    | stderr h => exact ⟨hout, herr.step h⟩

theorem reaches_stdout {p p' : Pipe} (h : Relation.ReflTransGen Pipe.Step p p') (q : Pipe) :
    Reaches ⟨p, q⟩ ⟨p', q⟩ :=
  h.lift (fun p => Capture.mk p q) fun _ _ h => .stdout h

theorem reaches_stderr {q q' : Pipe} (h : Relation.ReflTransGen Pipe.Step q q') (p : Pipe) :
    Reaches ⟨p, q⟩ ⟨p, q'⟩ :=
  h.lift (fun q => Capture.mk p q) fun _ _ h => .stderr h

/-- **Reading one stream to its end and then the other** is one order of steps. -/
theorem reaches_drained (out err : Bytes) : Reaches (start out err) (drained true out err) :=
  (reaches_stdout (Pipe.reaches_drain _) _).trans (reaches_stderr (Pipe.reaches_drain _) _)

/-- Where both readers are at the end, they have kept both streams. -/
theorem texts_of_reaches (h : Reaches (start out err) c) (hout : c.stdout.reader.state = .atEnd)
    (herr : c.stderr.reader.state = .atEnd) :
    c.stdout.reader.text = Text.lossy out ∧ c.stderr.reader.text = Text.lossy err :=
  ⟨(keeps_of_reaches h).1.text_atEnd hout, (keeps_of_reaches h).2.text_atEnd herr⟩

end Capture

/-! ### The outcome of a tool -/

theorem Landing.texts_outcomeOf (l : Landing) (c : Capture) :
    (l.outcomeOf c).stdout = c.stdout.reader.text ∧ (l.outcomeOf c).stderr = c.stderr.reader.text := by
  unfold outcomeOf
  cases l.ending <;> exact ⟨rfl, rfl⟩

theorem Landing.outcomeOf_congr (l : Landing) {c d : Capture}
    (hout : c.stdout.reader.text = d.stdout.reader.text)
    (herr : c.stderr.reader.text = d.stderr.reader.text) : l.outcomeOf c = l.outcomeOf d := by
  unfold outcomeOf
  rw [hout, herr]

/-- **What is captured of a tool**, whatever steps its two readers have taken. Each text is what was read
so far of its stream, and all of the stream where both readers are at the end, so that the outcome is
then the same in any case. What is read becomes text by one rule: the characters in it are kept, and each
maximal subpart of what is ill formed becomes one replacement. -/
theorem Landing.outcomeOf_reached (l : Landing) (c : Capture)
    (h : Capture.Reaches (Capture.start l.stdout l.stderr) c) :
    (∃ out err, out ++ c.stdout.pending = l.stdout ∧ err ++ c.stderr.pending = l.stderr ∧
      (l.outcomeOf c).stdout = Text.lossy out ∧ (l.outcomeOf c).stderr = Text.lossy err) ∧
    (c.stdout.reader.state = .atEnd → c.stderr.reader.state = .atEnd →
      (l.outcomeOf c).stdout = Text.lossy l.stdout ∧
      (l.outcomeOf c).stderr = Text.lossy l.stderr ∧ l.outcomeOf c = l.outcome true) ∧
    (∀ bs text, Text.Decodes bs text ↔ (Text.lossy bs).toList = text) ∧
    (∀ s rest, Text.lossy (Text.bytes s ++ rest) = s ++ Text.lossy rest) ∧
    ∀ front s rest, s ≠ "" →
      Text.lossy (front ++ Text.bytes s ++ rest) = Text.lossy front ++ s ++ Text.lossy rest := by
  obtain ⟨houtText, herrText⟩ := l.texts_outcomeOf c
  obtain ⟨hkeptOut, hkeptErr⟩ := Capture.keeps_of_reaches h
  refine ⟨⟨_, _, hkeptOut.whole, hkeptErr.whole, houtText, herrText⟩, fun hout herr => ?_, ?_, ?_, ?_⟩
  · obtain ⟨hwholeOut, hwholeErr⟩ := Capture.texts_of_reaches h hout herr
    -- the readers of an outcome read one stream after the other, and come to the same texts
    obtain ⟨hdrainedOut, hdrainedErr⟩ := Capture.texts_of_reaches
      (Capture.reaches_drained l.stdout l.stderr) (Pipe.state_drain rfl) (Pipe.state_drain rfl)
    refine ⟨houtText.trans hwholeOut, herrText.trans hwholeErr, ?_⟩
    exact l.outcomeOf_congr (hwholeOut.trans hdrainedOut.symm) (hwholeErr.trans hdrainedErr.symm)
  · intro bs text
    rw [Text.toList_lossy]
    exact Text.decodes_iff
  · exact Text.lossy_bytes_append
  · intro front s rest hs
    exact Text.lossy_stretch front rest hs

/-- A tool that writes one character of two bytes to its standard output, and a byte that is no text to
its standard error. -/
def twoStreams : Landing where
  ending := some (.exited 0)
  stdout := [0xC3, 0xA9]
  stderr := [0xFF]
  elapsed := .zero
  held := false
  files := .empty

/-- The character is read in two parts, with the other stream in between; given up after the first part,
it would not have been one. -/
theorem Landing.outcomeOf_reached_apart :
    ∃ half whole, Capture.Reaches (Capture.start twoStreams.stdout twoStreams.stderr) half ∧
      Capture.Reaches half whole ∧ (twoStreams.outcomeOf half).stdout = "\uFFFD" ∧
      (twoStreams.outcomeOf half).stderr = "" ∧
      (twoStreams.outcomeOf whole).stdout = "é" ∧ (twoStreams.outcomeOf whole).stderr = "\uFFFD" := by
  let half : Capture := ⟨⟨[0xA9], { kept := [0xC3] }⟩, ⟨[0xFF], {}⟩⟩
  let later : Capture := ⟨⟨[0xA9], { kept := [0xC3] }⟩, ⟨[], { kept := [0xFF] }⟩⟩
  let read : Capture := ⟨⟨[], { kept := [0xC3, 0xA9] }⟩, ⟨[], { kept := [0xFF] }⟩⟩
  let closing : Capture := ⟨⟨[], { kept := [0xC3, 0xA9], state := .atEnd }⟩, ⟨[], { kept := [0xFF] }⟩⟩
  let whole : Capture :=
    ⟨⟨[], { kept := [0xC3, 0xA9], state := .atEnd }⟩, ⟨[], { kept := [0xFF], state := .atEnd }⟩⟩
  have hone (b : UInt8) (rest : Bytes) : Pipe.Answers ([b] ++ rest) (.bytes [b]) rest :=
    .bytes (List.cons_ne_nil b []) (by simp [chunkSize])
  -- one byte is read at a time, with an interrupted read among them
  have hhalf : Capture.Step (Capture.start twoStreams.stdout twoStreams.stderr) half :=
    .stdout (.read rfl (hone 0xC3 [0xA9]))
  have hlater : Capture.Step half later := .stderr (.read rfl (hone 0xFF []))
  have hinterrupted : Capture.Step later later := .stdout (.read rfl .interrupted)
  have hread : Capture.Step later read := .stdout (.read rfl (hone 0xA9 []))
  have hclosing : Capture.Step read closing := .stdout (.read rfl .atEnd)
  have hwhole : Capture.Step closing whole := .stderr (.read rfl .atEnd)
  have hsteps : Capture.Reaches half whole :=
    ((((Relation.ReflTransGen.single hlater).tail hinterrupted).tail hread).tail hclosing).tail hwhole
  obtain ⟨⟨out, err, hout, herr, houtText, herrText⟩, -⟩ :=
    outcomeOf_reached twoStreams half (.single hhalf)
  obtain ⟨-, hended, -⟩ := outcomeOf_reached twoStreams whole (hsteps.head hhalf)
  obtain ⟨hwholeOut, hwholeErr, -⟩ := hended rfl rfl
  obtain rfl : out = [0xC3] :=
    List.append_cancel_right (show out ++ [0xA9] = [0xC3] ++ [0xA9] from hout)
  obtain rfl : err = [] :=
    List.append_cancel_right (show err ++ [0xFF] = [] ++ [0xFF] from herr)
  refine ⟨half, whole, .single hhalf, hsteps, houtText.trans ?_, herrText.trans ?_,
    hwholeOut.trans ?_, hwholeErr.trans ?_⟩ <;> decide +kernel

end QualityGate
