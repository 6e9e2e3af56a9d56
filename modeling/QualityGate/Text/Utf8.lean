/-!
UTF-8 in both directions. `encode` writes a text as bytes. `decode?` reads bytes that are well
formed, and `decodeLossy` reads any bytes, putting one U+FFFD for each ill-formed sequence; both
are folds of one step, `headScalar`, which cuts off the first scalar value or the first maximal
ill-formed sequence.
-/

namespace QualityGate

/-- Bytes as programs, files and the environment hold them. -/
abbrev Bytes := List UInt8

namespace Text

/-! ### Writing -/

/-- The bytes of a text. -/
def encode (s : List Char) : Bytes :=
  s.flatMap String.utf8EncodeChar

/-- The bytes of a string. -/
def bytes (s : String) : Bytes :=
  encode s.toList

theorem encode_append (s t : List Char) : encode (s ++ t) = encode s ++ encode t := by
  simp [encode]

/-! ### One step of reading -/

/-- A byte that continues a sequence. -/
def isContinuation (b : UInt8) : Bool :=
  0x80 ≤ b && b ≤ 0xBF

/-- The six bits that a continuation byte carries. -/
def low6 (b : UInt8) : Nat :=
  b.toNat % 64

/-- **The second byte that may follow a lead byte of three or four.** The bounds keep out
overlong forms, surrogates and values past U+10FFFF. -/
def isSecond (lead second : UInt8) : Bool :=
  if lead = 0xE0 then 0xA0 ≤ second && second ≤ 0xBF
  else if lead = 0xED then 0x80 ≤ second && second ≤ 0x9F
  else if lead = 0xF0 then 0x90 ≤ second && second ≤ 0xBF
  else if lead = 0xF4 then 0x80 ≤ second && second ≤ 0x8F
  else isContinuation second

/-- **The head of a byte string.** Either a scalar value, or `none` for a maximal sequence that is
ill formed, with the bytes that follow. An ill-formed sequence ends before the first byte that
cannot continue it, and takes at least one byte. -/
def headScalar (b : UInt8) (r : Bytes) : Option Char × Bytes :=
  if b < 0x80 then (some (Char.ofNat b.toNat), r)
  else if 0xC2 ≤ b && b ≤ 0xDF then
    match r with
    | c :: r1 =>
      if isContinuation c then (some (Char.ofNat ((b.toNat - 0xC0) * 64 + low6 c)), r1)
      -- what ended the sequence early is not part of it and is read again
      else (none, c :: r1)
    | [] => (none, [])
  else if 0xE0 ≤ b && b ≤ 0xEF then
    match r with
    | c :: r1 =>
      if isSecond b c then
        match r1 with
        | d :: r2 =>
          if isContinuation d then
            (some (Char.ofNat ((b.toNat - 0xE0) * 4096 + low6 c * 64 + low6 d)), r2)
          else (none, d :: r2)
        | [] => (none, [])
      else (none, c :: r1)
    | [] => (none, [])
  else if 0xF0 ≤ b && b ≤ 0xF4 then
    match r with
    | c :: r1 =>
      if isSecond b c then
        match r1 with
        | d :: r2 =>
          if isContinuation d then
            match r2 with
            | e :: r3 =>
              if isContinuation e then
                (some (Char.ofNat ((b.toNat - 0xF0) * 262144 + low6 c * 4096 + low6 d * 64
                  + low6 e)), r3)
              else (none, e :: r3)
            | [] => (none, [])
          else (none, d :: r2)
        | [] => (none, [])
      else (none, c :: r1)
    | [] => (none, [])
  else (none, r)

/-- Each step takes at least one byte. -/
theorem length_headScalar_le (b : UInt8) (r : Bytes) : (headScalar b r).2.length ≤ r.length := by
  unfold headScalar
  repeat' split
  all_goals (simp only [List.length_cons, List.length_nil]; omega)

/-! ### Reading whole strings -/

/-- The character that stands for what could not be read. -/
def replacement : Char := '\uFFFD'

/-- **Reading that never fails**: each ill-formed sequence becomes one `replacement`. -/
def decodeLossy (bs : Bytes) : List Char :=
  match bs with
  | [] => []
  | b :: r => (headScalar b r).1.getD replacement :: decodeLossy (headScalar b r).2
termination_by bs.length
decreasing_by
  have := length_headScalar_le b r
  simp only [List.length_cons]
  omega

/-- Reading with the text read so far kept in reverse, so that long input takes no stack. -/
def decodeLossyOnto (acc : List Char) (bs : Bytes) : List Char :=
  match bs with
  | [] => acc.reverse
  | b :: r => decodeLossyOnto ((headScalar b r).1.getD replacement :: acc) (headScalar b r).2
termination_by bs.length
decreasing_by
  have := length_headScalar_le b r
  simp only [List.length_cons]
  omega

theorem decodeLossyOnto_eq (acc : List Char) (bs : Bytes) :
    decodeLossyOnto acc bs = acc.reverse ++ decodeLossy bs := by
  fun_induction decodeLossyOnto acc bs with
  | case1 acc => simp [decodeLossy]
  | case2 acc b r ih => rw [ih, decodeLossy]; simp

@[inherit_doc decodeLossy]
def lossy (bs : Bytes) : String :=
  String.ofList (decodeLossyOnto [] bs)

theorem toList_lossy (bs : Bytes) : (lossy bs).toList = decodeLossy bs := by
  simp [lossy, decodeLossyOnto_eq]

/-- Reading onto `acc`, failing at the first ill-formed sequence. -/
def decodeOnto? (acc : List Char) (bs : Bytes) : Option (List Char) :=
  match bs with
  | [] => some acc.reverse
  | b :: r =>
    match (headScalar b r).1 with
    | some c => decodeOnto? (c :: acc) (headScalar b r).2
    | none => none
termination_by bs.length
decreasing_by
  have := length_headScalar_le b r
  simp only [List.length_cons]
  omega

/-- **Reading of well-formed bytes only.** -/
def decode? (bs : Bytes) : Option String :=
  (decodeOnto? [] bs).map String.ofList

end Text
end QualityGate
