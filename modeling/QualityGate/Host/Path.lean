import QualityGate.Text.ByteOrder
/-!
File paths as byte strings: joining, the components of a path, and its parent. Nothing here looks at
a file system. Repeated slashes, and `.` anywhere but at the start of a relative path, carry no
component of their own.
-/

namespace QualityGate.Host.Path

/-- The separator. -/
def slash : UInt8 := 0x2F

/-- The full stop. -/
def dot : UInt8 := 0x2E

/-- Whether a path starts at the root. -/
def isAbsolute : Bytes → Bool
  | b :: _ => b = slash
  | [] => false

/-! ### Joining -/

/-- **A path seen from another one.** An absolute path stands for itself; otherwise one slash comes
between the two, unless there is one already or nothing before it. -/
def join (base path : Bytes) : Bytes :=
  if isAbsolute path then path
  else if base = [] then path
  else if base.getLast? = some slash then base ++ path
  else base ++ slash :: path

/-! ### Components -/

/-- **A component of a path.** -/
inductive Component where
  | root
  | current
  | parent
  | name (bytes : Bytes)
  deriving DecidableEq, Repr

/-- A component as it is written. -/
def Component.bytes : Component → Bytes
  | root => [slash]
  | current => [dot]
  | parent => [dot, dot]
  | name b => b

/-- The component of one piece between slashes, if it carries one. -/
def Component.ofPiece? (piece : Bytes) : Option Component :=
  if piece = [] then none
  else if piece = [dot] then none
  else if piece = [dot, dot] then some parent
  else some (name piece)

/-- Whether a relative path starts with the component `.`. -/
def startsAtCurrent (path : Bytes) : Bool :=
  (Text.splitBytes slash path).head? = some [dot]

/-- **The components of a path.** -/
def components (path : Bytes) : List Component :=
  (if isAbsolute path then [Component.root]
   else if startsAtCurrent path then [Component.current] else []) ++
  (Text.splitBytes slash path).filterMap Component.ofPiece?

/-- Components appended to a path one by one. -/
def extend (base : Bytes) (cs : List Component) : Bytes :=
  cs.foldl (fun p c => join p c.bytes) base

/-! ### Parents -/

/-- Reversed bytes of a path's body without the pieces at its end that carry no component. -/
def trimReversed (s : Bytes) : Bytes :=
  match _h : s with
  | [] => []
  | b :: r =>
    if b = slash then trimReversed r
    else if b = dot then
      match r with
      | [] => []
      | c :: r2 => if c = slash then trimReversed r2 else b :: c :: r2
    else b :: r
termination_by s.length

/-- The length of what stands before the body of a path: a root, or a leading `.`. -/
def bodyStart (path : Bytes) : Nat :=
  if isAbsolute path || startsAtCurrent path then 1 else 0

/-- **The path without its last component**; a root and an empty path have none. -/
def parent? (path : Bytes) : Option Bytes :=
  let start := bodyStart path
  let head := path.take start
  match trimReversed (path.drop start).reverse with
  | [] => if startsAtCurrent path then some [] else none
  | b :: r =>
    let kept := (b :: r).dropWhile (· ≠ slash)
    some (head ++ (trimReversed kept).reverse)

end QualityGate.Host.Path
