import QualityGate.Shell.Syntax
/-!
Arithmetic inside scripts: expressions over 64-bit integers that wrap, with variables that may be
assigned. An expression is read into a tree and then evaluated; evaluation yields the value and the
assignments in their order.
-/

namespace QualityGate.Shell.Arithmetic

/-! ### Expressions -/

/-- An operator between two operands. -/
inductive Operator where
  | orElse | andThen | bitOr | bitXor | bitAnd | eq | ne | lt | le | gt | ge | shl | shr | add | sub
  | mul | div | rem
  deriving DecidableEq, Repr

/-- How tightly an operator binds. -/
def Operator.strength : Operator → Nat
  | orElse => 1
  | andThen => 2
  | bitOr => 3
  | bitXor => 4
  | bitAnd => 5
  | eq | ne => 6
  | lt | le | gt | ge => 7
  | shl | shr => 8
  | add | sub => 9
  | mul | div | rem => 10

/-- **An expression.** -/
inductive Expr where
  | number (n : Int)
  | variable (name : Bytes)
  | negative (e : Expr)
  | complement (e : Expr)
  | isZero (e : Expr)
  | binary (op : Operator) (left right : Expr)
  | choice (cond yes no : Expr)
  /-- An assignment, of the result of an operator on the old value if one is given. -/
  | assign (name : Bytes) (op : Option Operator) (value : Expr)
  deriving Repr

/-! ### Reading -/

/-- Why there is no value. -/
inductive Fault where
  | primaryExpected
  | unfinished
  | divisionByZero
  | notNumber (text : Bytes)
  deriving DecidableEq, Repr

/-- A reader of expressions, over what is left of the text. -/
abbrev Reader := StateT Bytes (Except Fault)

/-- Operators by how they are written, longer ones first. -/
def spellings : List (String × Operator) :=
  [("||", .orElse), ("&&", .andThen), ("==", .eq), ("!=", .ne), ("<=", .le), (">=", .ge),
   ("<<", .shl), (">>", .shr), ("|", .bitOr), ("^", .bitXor), ("&", .bitAnd), ("<", .lt),
   (">", .gt), ("+", .add), ("-", .sub), ("*", .mul), ("/", .div), ("%", .rem)]

/-- Whether a byte is passed over between tokens. -/
def isGap (b : UInt8) : Bool :=
  isSpace b || b = lineFeed

/-- The operator that comes next, with what follows it. -/
def operator? (s : Bytes) : Option (Operator × Bytes) :=
  (spellings.find? fun p => (Text.bytes p.1).isPrefixOf s).map fun p =>
    (p.2, s.drop (Text.bytes p.1).length)

/-- An assignment sign with the operator in it, and what follows. -/
def assignSign? (s : Bytes) : Option (Option Operator × Bytes) :=
  match s with
  | 0x3D :: 0x3D :: _ => none
  | 0x3D :: r => some (none, r)
  | s =>
    match operator? s with
    | some (op, 0x3D :: r) =>
      if 3 ≤ op.strength ∧ op.strength ≠ 6 ∧ op.strength ≠ 7 then some (some op, r) else none
    | _ => none

/-- Passes over gaps. -/
def skipGaps : Reader Unit :=
  modify (·.dropWhile isGap)

/-- The value of a digit in any base up to sixteen. -/
def digitValue (b : UInt8) : Nat :=
  if isDigit b then b.toNat - 48 else if byte 'a' ≤ b then b.toNat - 87 else b.toNat - 55

/-- Whether a byte is a digit of base sixteen. -/
def isHexDigit (b : UInt8) : Bool :=
  isDigit b || (byte 'a' ≤ b && b ≤ byte 'f') || (byte 'A' ≤ b && b ≤ byte 'F')

/-- The number that digits write in a base. -/
def natOfBase (base : Nat) (ds : Bytes) : Nat :=
  ds.foldl (fun n b => n * base + digitValue b) 0

/-- A number at the start of some bytes: base sixteen after `0x`, base eight after `0`. -/
def numeral (s : Bytes) : Nat × Bytes :=
  match s with
  | 0x30 :: x :: r =>
    if x = byte 'x' ∨ x = byte 'X' then
      let ds := r.takeWhile isHexDigit
      if ds = [] then (0, x :: r) else (natOfBase 16 ds, r.dropWhile isHexDigit)
    else
      let ds := (x :: r).takeWhile fun b => isDigit b && b < byte '8'
      (natOfBase 8 ds, (x :: r).drop ds.length)
  | s => (natOf (s.takeWhile isDigit), s.dropWhile isDigit)

/-- What can be read of an expression: all of it, an operand, or what binds at least so tightly. -/
inductive Level where
  | whole
  | binding (strength : Nat)
  | rest (strength : Nat) (left : Expr)
  | operand

/-- One level of an expression, read with the help of a reader for the others. -/
def readLevel (self : Level → Reader Expr) : Level → Reader Expr
  | .whole => do
    skipGaps
    let s ← get
    -- a name is the target of an assignment only if an assignment sign comes next
    let name := s.takeWhile isNameByte
    let after := (s.drop name.length).dropWhile isGap
    match (if isName name then assignSign? after else none) with
    | some (op, r) => set r; return .assign name op (← self .whole)
    | none =>
      let c ← self (.binding 1)
      skipGaps
      match ← get with
      | 0x3F :: r =>
        set r
        let yes ← self .whole
        skipGaps
        match ← get with
        | 0x3A :: r => set r; return .choice c yes (← self .whole)
        | _ => throw .unfinished
      | _ => return c
  | .binding k => do self (.rest k (← self .operand))
  | .rest k left => do
    skipGaps
    match operator? (← get) with
    | some (op, r) =>
      -- a weaker operator is left to the level that called this one
      if op.strength < k then return left
      else
        set r
        -- operators of one strength group to the left, so the right operand takes stronger ones only
        let right ← self (.binding (op.strength + 1))
        self (.rest k (.binary op left right))
    | none => return left
  | .operand => do
    skipGaps
    match ← get with
    | [] => throw .primaryExpected
    | b :: r =>
      if b = byte '(' then
        set r
        let e ← self .whole
        skipGaps
        match ← get with
        | 0x29 :: r => set r; return e
        | _ => throw .unfinished
      else if b = byte '-' then set r; return .negative (← self .operand)
      else if b = byte '+' then set r; self .operand
      else if b = byte '!' then set r; return .isZero (← self .operand)
      else if b = byte '~' then set r; return .complement (← self .operand)
      else if isDigit b then
        let (n, r) := numeral (b :: r)
        set r
        return .number n
      else if isNameStart b then
        set ((b :: r).dropWhile isNameByte)
        return .variable ((b :: r).takeWhile isNameByte)
      else throw .primaryExpected

/-- Reads one level, nested no deeper than a budget. -/
def read : Nat → Level → Reader Expr
  | 0, _ => throw .unfinished
  | n + 1, l => readLevel (read n) l

/-- **Reads an expression.** -/
def Expr.ofBytes (s : Bytes) : Except Fault Expr :=
  match read (4 * s.length + 4) .whole s with
  | .error e => .error e
  | .ok (e, rest) => if rest.all isGap then .ok e else .error .unfinished

/-! ### Evaluation -/

/-- How many integers of 64 bits there are. -/
def wordBound : Nat := 18446744073709551616

/-- The integer of 64 bits that a number wraps to. -/
def wrap (i : Int) : Int :=
  Int.bmod i wordBound

/-- The integer of 64 bits nearest to a number. -/
def saturate (i : Int) : Int :=
  max (-9223372036854775808) (min 9223372036854775807 i)

/-- One for truth and zero for falsehood. -/
def truth (b : Bool) : Int := if b then 1 else 0

/-- A bitwise operation on integers of 64 bits. -/
def bitwise (f : UInt64 → UInt64 → UInt64) (a b : Int) : Int :=
  wrap (f (UInt64.ofInt a) (UInt64.ofInt b)).toNat

/-- The value of an operator; division goes toward zero. -/
def Operator.apply (op : Operator) (a b : Int) : Except Fault Int :=
  match op with
  | orElse => .ok (truth (a ≠ 0 || b ≠ 0))
  | andThen => .ok (truth (a ≠ 0 && b ≠ 0))
  | bitOr => .ok (bitwise (· ||| ·) a b)
  | bitXor => .ok (bitwise (· ^^^ ·) a b)
  | bitAnd => .ok (bitwise (· &&& ·) a b)
  | eq => .ok (truth (a = b))
  | ne => .ok (truth (a ≠ b))
  | lt => .ok (truth (a < b))
  | le => .ok (truth (a ≤ b))
  | gt => .ok (truth (b < a))
  | ge => .ok (truth (b ≤ a))
  | shl => .ok (wrap (a * Nat.pow 2 (b % 64).toNat))
  | shr => .ok (a / Nat.pow 2 (b % 64).toNat)
  | add => .ok (wrap (a + b))
  | sub => .ok (wrap (a - b))
  | mul => .ok (wrap (a * b))
  | div => if b = 0 then .error .divisionByZero else .ok (wrap (Int.tdiv a b))
  | rem => if b = 0 then .error .divisionByZero else .ok (Int.tmod a b)

/-- What the variables of an expression hold, and what it has assigned, the last assignment first. -/
structure Scope where
  value? : Bytes → Option Bytes
  assigned : List (Bytes × Int) := []

/-- The value of a variable; an unset or empty one counts as zero. -/
def Scope.get (sc : Scope) (name : Bytes) : Except Fault Int :=
  match sc.assigned.lookup name with
  | some i => .ok i
  | none =>
    match sc.value? name with
    | none => .ok 0
    | some v =>
      let v := (v.dropWhile isGap)
      if v = [] then .ok 0
      else
        let (minus, ds) := match v with
          | 0x2D :: r => (true, r)
          | 0x2B :: r => (false, r)
          | r => (false, r)
        let (n, rest) := numeral ds
        if ds.head?.any isDigit ∧ rest.all isGap then .ok (saturate (if minus then -(n : Int) else n))
        else .error (.notNumber v)

/-- **The value of an expression**, with the assignments it makes. -/
def Expr.eval (sc : Scope) : Expr → Except Fault (Int × Scope)
  | .number n => .ok (saturate n, sc)
  | .variable name => do return (← sc.get name, sc)
  | .negative e => do
    let (i, sc) ← e.eval sc
    return (wrap (-i), sc)
  | .complement e => do
    let (i, sc) ← e.eval sc
    return (-i - 1, sc)
  | .isZero e => do
    let (i, sc) ← e.eval sc
    return (truth (i = 0), sc)
  | .binary op l r => do
    let (a, sc) ← l.eval sc
    -- the two short-circuit operators leave the right operand, and its assignments, alone
    if op = .orElse ∧ a ≠ 0 then return (1, sc)
    else if op = .andThen ∧ a = 0 then return (0, sc)
    else
      let (b, sc) ← r.eval sc
      return (← op.apply a b, sc)
  | .choice c y n => do
    let (i, sc) ← c.eval sc
    if i ≠ 0 then y.eval sc else n.eval sc
  | .assign name op e => do
    let (i, sc) ← e.eval sc
    let i ← match op with
      | none => pure i
      | some op => do op.apply (← sc.get name) i
    return (i, { sc with assigned := (name, i) :: sc.assigned })

end QualityGate.Shell.Arithmetic
