import QualityGate.Console.Style
import QualityGate.Console.Log
import QualityGate.Text.Utf8
/-!
Everything that a session shows, in the order in which it happens: lines on either stream, log
records, and what tools write themselves. Colours and the log filter act only when events are
rendered.
-/

namespace QualityGate.Console

/-- **Something shown.** -/
inductive Event where
  /-- A line on standard output. -/
  | out (line : List Piece)
  /-- A line on standard error. -/
  | err (line : List Piece)
  /-- A log record. -/
  | log (record : Record)
  /-- Bytes that a tool writes to standard output. -/
  | toolOut (bytes : Bytes)
  /-- Bytes that a tool writes to standard error. -/
  | toolErr (bytes : Bytes)
  deriving DecidableEq, Repr

/-- **How events are shown.** -/
structure Display where
  coloured : Bool
  filter : Filter
  /-- What stands for the time in front of a log record. -/
  time : String

/-- A line with its line feed, as bytes. -/
def lineBytes (s : String) : Bytes :=
  Text.bytes s ++ [0x0A]

/-- What an event puts on standard output. -/
def Display.outBytes (d : Display) : Event → Bytes
  | .out line => lineBytes (render d.coloured line)
  | .toolOut b => b
  | _ => []

/-- What an event puts on standard error. -/
def Display.errBytes (d : Display) : Event → Bytes
  | .err line => lineBytes (render d.coloured line)
  | .log r => if d.filter.shows r then lineBytes (r.render d.time) else []
  | .toolErr b => b
  | _ => []

/-- All of standard output. -/
def Display.stdout (d : Display) (es : List Event) : Bytes :=
  es.flatMap d.outBytes

/-- All of standard error. -/
def Display.stderr (d : Display) (es : List Event) : Bytes :=
  es.flatMap d.errBytes

/-- **The filter does not reach standard output.** -/
theorem Display.stdout_filter (d : Display) (f : Filter) (es : List Event) :
    ({ d with filter := f } : Display).stdout es = d.stdout es := rfl

end QualityGate.Console
