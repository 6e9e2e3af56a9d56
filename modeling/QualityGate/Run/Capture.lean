import QualityGate.Text.Utf8
/-!
Keeping what a tool writes. Each of its two streams has a reader of its own, which takes bytes from it
as they come and keeps them as they are, until the stream is at its end or cannot be read any further.
The two readers take their steps in any order (`Capture.Step`). Text is made of what they have kept when
both have come to an end, or when waiting for them is given up.
-/

namespace QualityGate

/-! ### One stream -/

/-- How many bytes one read asks for. -/
def chunkSize : Nat := 8192

/-- **What a read answers.** -/
inductive ReadAnswer where
  /-- The next bytes of the stream, and none only at its end. -/
  | bytes (chunk : Bytes)
  /-- A signal came in between. -/
  | interrupted
  /-- The stream cannot be read. -/
  | failed

/-- **Where a reader stands.** -/
inductive ReaderState where
  | reading
  | atEnd
  | failed
  deriving DecidableEq, Repr

/-- **A reader** with the bytes that it has kept. -/
structure Reader where
  kept : Bytes := []
  state : ReaderState := .reading
  deriving DecidableEq, Repr

namespace Reader

/-- **What an answer does to a reader.** Bytes are kept, an interrupted read is made again, and the
reader stops at the end of the stream or where it cannot be read. -/
def take (r : Reader) : ReadAnswer → Reader
  | .bytes [] => { r with state := .atEnd }
  | .bytes (b :: chunk) => { r with kept := r.kept ++ b :: chunk }
  | .interrupted => r
  | .failed => { r with state := .failed }

/-- The text of what was kept. -/
def text (r : Reader) : String :=
  Text.lossy r.kept

end Reader

/-- **A stream and its reader.** -/
structure Pipe where
  /-- What the reader has yet to take of all that is written to the stream. -/
  pending : Bytes
  reader : Reader := {}
  deriving DecidableEq, Repr

namespace Pipe

/-- **The answers that a stream can give** when so much is still to be read, and what is still to be
read after them. -/
inductive Answers : Bytes → ReadAnswer → Bytes → Prop where
  | bytes {chunk rest : Bytes} (ne_nil : chunk ≠ []) (length_le : chunk.length ≤ chunkSize) :
      Answers (chunk ++ rest) (.bytes chunk) rest
  | atEnd : Answers [] (.bytes []) []
  | interrupted {pending : Bytes} : Answers pending .interrupted pending
  | failed {pending : Bytes} : Answers pending .failed pending

/-- **A reader takes a step**: it makes one read, unless it has stopped. -/
inductive Step : Pipe → Pipe → Prop where
  | read {pending rest : Bytes} {reader : Reader} {answer : ReadAnswer}
      (reading : reader.state = .reading) (answers : Answers pending answer rest) :
      Step ⟨pending, reader⟩ ⟨rest, reader.take answer⟩

/-- The stream of a tool that is not captured: there is nothing to read. -/
def uncaptured : Pipe := ⟨[], { state := .atEnd }⟩

/-- **Reads a stream to its end**, as much at once as a read asks for. -/
def drain (p : Pipe) : Pipe :=
  if p.reader.state = .reading then
    match _h : p.pending with
    | [] => ⟨[], p.reader.take (.bytes [])⟩
    | b :: r =>
      drain ⟨(b :: r).drop chunkSize, p.reader.take (.bytes ((b :: r).take chunkSize))⟩
  else p
termination_by p.pending.length
decreasing_by
  simp only [_h, List.length_drop, List.length_cons, chunkSize]
  omega

end Pipe

/-! ### Both streams -/

/-- **The streams of a tool** with their readers. -/
structure Capture where
  stdout : Pipe
  stderr : Pipe
  deriving DecidableEq, Repr

namespace Capture

/-- Before anything is read. -/
def start (out err : Bytes) : Capture :=
  ⟨{ pending := out }, { pending := err }⟩

/-- **One of the readers takes a step.** -/
inductive Step : Capture → Capture → Prop where
  | stdout {c : Capture} {p : Pipe} (h : c.stdout.Step p) : Step c { c with stdout := p }
  | stderr {c : Capture} {p : Pipe} (h : c.stderr.Step p) : Step c { c with stderr := p }

/-- **The streams when nothing is left to read**, if they are captured. -/
def drained (capture : Bool) (out err : Bytes) : Capture :=
  if capture then ⟨(start out err).stdout.drain, (start out err).stderr.drain⟩
  else ⟨.uncaptured, .uncaptured⟩

end Capture
end QualityGate
