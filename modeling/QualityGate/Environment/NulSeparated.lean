import QualityGate.Environment.Basic
/-!
An environment as bytes: `key=value` entries, each ended by a zero byte. `parse?` reads such bytes
and `dump` writes them. An entry without a key, or without `=`, is passed over.
-/

namespace QualityGate.Environment

/-- The byte that ends an entry. -/
def nul : UInt8 := 0

/-- The byte between a key and its value. -/
def equals : UInt8 := 0x3D

/-- The key and value of one entry: what stands before and after its first `=`. -/
def assignment? (entry : Bytes) : Option (Bytes × Bytes) :=
  match entry.takeWhile (· ≠ equals), entry.dropWhile (· ≠ equals) with
  | [], _ => none
  | _ :: _, [] => none
  | k :: ks, _ :: v => some (k :: ks, v)

/-- The assignments in nul-separated bytes, in their order. -/
def assignments (bytes : Bytes) : List (Bytes × Bytes) :=
  (Text.splitBytes nul bytes).filterMap assignment?

/-- **Reads an environment**; there is none where nothing is assigned. -/
def parse? (bytes : Bytes) : Option Environment :=
  match assignments bytes with
  | [] => none
  | pairs => some (ofPairs pairs)

/-- One entry with the zero byte that ends it. -/
def dumpEntry (e : Bytes × Bytes) : Bytes :=
  e.1 ++ equals :: e.2 ++ [nul]

/-- **Writes an environment.** -/
def dump (e : Environment) : Bytes :=
  e.entries.flatMap dumpEntry

end QualityGate.Environment
