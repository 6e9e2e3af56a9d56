import QualityGate.Text.Utf8
/-!
Writing a text as UTF-8 and reading it back. The step of the reader cuts the first character off what
was written (`headScalar_utf8EncodeChar`), so each of the readers gives back the text
(`decode?_bytes`). What it cuts off is also nothing but what is written for the character
(`utf8EncodeChar_of_headScalar`), so bytes read as a text only if they are its own
(`decode?_eq_some_iff`).
-/

namespace QualityGate.Text

/-! ### One character -/

theorem toNat_ofNat_byte {n : Nat} (h : n < 256) : (UInt8.ofNat n).toNat = n := by
  rw [UInt8.toNat_ofNat']
  exact Nat.mod_eq_of_lt h

theorem isContinuation_iff (b : UInt8) :
    isContinuation b = true ↔ 0x80 ≤ b.toNat ∧ b.toNat ≤ 0xBF := by
  simp [isContinuation, UInt8.le_iff_toNat_le]

/-- A byte below 0x80 is a character of its own. -/
theorem headScalar_one {b : UInt8} (h : b.toNat < 0x80) (r : Bytes) :
    headScalar b r = (some (Char.ofNat b.toNat), r) := by
  simp [headScalar, UInt8.lt_iff_toNat_lt, h]

theorem headScalar_two {b c : UInt8} (hb : 0xC2 ≤ b.toNat ∧ b.toNat ≤ 0xDF)
    (hc : isContinuation c = true) (r : Bytes) :
    headScalar b (c :: r) = (some (Char.ofNat ((b.toNat - 0xC0) * 64 + low6 c)), r) := by
  have h1 : ¬ b.toNat < 0x80 := by omega
  simp [headScalar, UInt8.lt_iff_toNat_lt, UInt8.le_iff_toNat_le, h1, hb, hc]

theorem headScalar_three {b c d : UInt8} (hb : 0xE0 ≤ b.toNat ∧ b.toNat ≤ 0xEF)
    (hc : isSecond b c = true) (hd : isContinuation d = true) (r : Bytes) :
    headScalar b (c :: d :: r) =
      (some (Char.ofNat ((b.toNat - 0xE0) * 4096 + low6 c * 64 + low6 d)), r) := by
  have h1 : ¬ b.toNat < 0x80 := by omega
  have h2 : ¬ b.toNat ≤ 0xDF := by omega
  simp [headScalar, UInt8.lt_iff_toNat_lt, UInt8.le_iff_toNat_le, h1, h2, hb, hc, hd]

theorem headScalar_four {b c d e : UInt8} (hb : 0xF0 ≤ b.toNat ∧ b.toNat ≤ 0xF4)
    (hc : isSecond b c = true) (hd : isContinuation d = true) (he : isContinuation e = true)
    (r : Bytes) :
    headScalar b (c :: d :: e :: r) =
      (some (Char.ofNat ((b.toNat - 0xF0) * 262144 + low6 c * 4096 + low6 d * 64 + low6 e)), r) := by
  have h1 : ¬ b.toNat < 0x80 := by omega
  have h2 : ¬ b.toNat ≤ 0xDF := by omega
  have h3 : ¬ b.toNat ≤ 0xEF := by omega
  simp [headScalar, UInt8.lt_iff_toNat_lt, UInt8.le_iff_toNat_le, h1, h2, h3, hb, hc, hd, he]

/-- The second byte of three or four, by numbers. -/
theorem isSecond_iff (b c : UInt8) :
    isSecond b c = true ↔ 0x80 ≤ c.toNat ∧ c.toNat ≤ 0xBF ∧ (b.toNat = 0xE0 → 0xA0 ≤ c.toNat) ∧
      (b.toNat = 0xED → c.toNat ≤ 0x9F) ∧ (b.toNat = 0xF0 → 0x90 ≤ c.toNat) ∧
      (b.toNat = 0xF4 → c.toNat ≤ 0x8F) := by
  unfold isSecond isContinuation
  simp only [← UInt8.toNat_inj, UInt8.le_iff_toNat_le, UInt8.reduceToNat]
  repeat' split
  all_goals
    simp only [Bool.and_eq_true, decide_eq_true_eq]
    omega

/-- **The reader cuts off the first character of what was written.** -/
theorem headScalar_utf8EncodeChar (c : Char) (r : Bytes) :
    ∃ b t, String.utf8EncodeChar c ++ r = b :: t ∧ headScalar b t = (some c, r) := by
  have hvalid : c.toNat < 0xD800 ∨ (0xDFFF < c.toNat ∧ c.toNat < 0x110000) := c.valid
  have hc (n : Nat) (h : n = c.toNat) : Char.ofNat n = c := by rw [h, Char.ofNat_toNat]
  have hval : c.val.toNat = c.toNat := rfl
  unfold String.utf8EncodeChar
  simp only [hval]
  -- One case for each length of the written form; its bytes are known by their numbers alone.
  split
  · have h0 := toNat_ofNat_byte (n := c.toNat) (by omega)
    generalize UInt8.ofNat c.toNat = b0 at h0
    refine ⟨b0, r, rfl, ?_⟩
    rw [headScalar_one (by omega), hc _ h0]
  · split
    · have h0 := toNat_ofNat_byte (n := c.toNat / 64 % 0x20 + 0xc0) (by omega)
      have h1 := toNat_ofNat_byte (n := c.toNat % 0x40 + 0x80) (by omega)
      generalize UInt8.ofNat (c.toNat / 64 % 0x20 + 0xc0) = b0 at h0
      generalize UInt8.ofNat (c.toNat % 0x40 + 0x80) = b1 at h1
      refine ⟨b0, b1 :: r, rfl, ?_⟩
      rw [headScalar_two (by omega) ((isContinuation_iff b1).mpr (by omega)), low6,
        hc _ (by omega)]
    · split
      · have h0 := toNat_ofNat_byte (n := c.toNat / 4096 % 0x10 + 0xe0) (by omega)
        have h1 := toNat_ofNat_byte (n := c.toNat / 64 % 0x40 + 0x80) (by omega)
        have h2 := toNat_ofNat_byte (n := c.toNat % 0x40 + 0x80) (by omega)
        generalize UInt8.ofNat (c.toNat / 4096 % 0x10 + 0xe0) = b0 at h0
        generalize UInt8.ofNat (c.toNat / 64 % 0x40 + 0x80) = b1 at h1
        generalize UInt8.ofNat (c.toNat % 0x40 + 0x80) = b2 at h2
        have hsecond : isSecond b0 b1 = true := (isSecond_iff b0 b1).mpr (by omega)
        refine ⟨b0, b1 :: b2 :: r, rfl, ?_⟩
        rw [headScalar_three (by omega) hsecond ((isContinuation_iff b2).mpr (by omega)), low6, low6,
          hc _ (by omega)]
      · have h0 := toNat_ofNat_byte (n := c.toNat / 262144 % 0x08 + 0xf0) (by omega)
        have h1 := toNat_ofNat_byte (n := c.toNat / 4096 % 0x40 + 0x80) (by omega)
        have h2 := toNat_ofNat_byte (n := c.toNat / 64 % 0x40 + 0x80) (by omega)
        have h3 := toNat_ofNat_byte (n := c.toNat % 0x40 + 0x80) (by omega)
        generalize UInt8.ofNat (c.toNat / 262144 % 0x08 + 0xf0) = b0 at h0
        generalize UInt8.ofNat (c.toNat / 4096 % 0x40 + 0x80) = b1 at h1
        generalize UInt8.ofNat (c.toNat / 64 % 0x40 + 0x80) = b2 at h2
        generalize UInt8.ofNat (c.toNat % 0x40 + 0x80) = b3 at h3
        have hsecond : isSecond b0 b1 = true := (isSecond_iff b0 b1).mpr (by omega)
        refine ⟨b0, b1 :: b2 :: b3 :: r, rfl, ?_⟩
        rw [headScalar_four (by omega) hsecond ((isContinuation_iff b2).mpr (by omega))
          ((isContinuation_iff b3).mpr (by omega)), low6, low6, low6, hc _ (by omega)]

/-- A number that is neither a surrogate nor past the last one is that of a character. -/
theorem toNat_ofNat_char {n : Nat} (h : n < 0xD800 ∨ 0xDFFF < n ∧ n < 0x110000) :
    (Char.ofNat n).val.toNat = n := by
  rw [Char.ofNat, dif_pos h]
  rfl

theorem eq_ofNat_iff {b : UInt8} {n : Nat} : b = UInt8.ofNat n ↔ b.toNat = n % 256 := by
  rw [← UInt8.toNat_inj, UInt8.toNat_ofNat']

/-- The bytes of the character of a number. -/
theorem utf8EncodeChar_ofNat {n : Nat} (h : n < 0xD800 ∨ 0xDFFF < n ∧ n < 0x110000) :
    String.utf8EncodeChar (Char.ofNat n) =
      if n ≤ 0x7F then [UInt8.ofNat n]
      else if n ≤ 0x7FF then [UInt8.ofNat (n / 64 % 0x20 + 0xC0), UInt8.ofNat (n % 0x40 + 0x80)]
      else if n ≤ 0xFFFF then
        [UInt8.ofNat (n / 4096 % 0x10 + 0xE0), UInt8.ofNat (n / 64 % 0x40 + 0x80),
          UInt8.ofNat (n % 0x40 + 0x80)]
      else
        [UInt8.ofNat (n / 262144 % 0x08 + 0xF0), UInt8.ofNat (n / 4096 % 0x40 + 0x80),
          UInt8.ofNat (n / 64 % 0x40 + 0x80), UInt8.ofNat (n % 0x40 + 0x80)] := by
  unfold String.utf8EncodeChar
  simp only [toNat_ofNat_char h]

/-- **What the reader cuts off is what is written for the character.** -/
theorem utf8EncodeChar_of_headScalar {b : UInt8} {t r : Bytes} {c : Char}
    (h : headScalar b t = (some c, r)) : b :: t = String.utf8EncodeChar c ++ r := by
  unfold headScalar at h
  -- One case for each length of the written form; otherwise there is no character.
  repeat' split at h
  all_goals cases h
  all_goals
    simp only [UInt8.lt_iff_toNat_lt, UInt8.le_iff_toNat_le, UInt8.reduceToNat, Bool.and_eq_true,
      decide_eq_true_eq, isContinuation_iff, isSecond_iff, low6] at *
    rw [utf8EncodeChar_ofNat (by omega)]
  · rw [if_pos (by omega)]
    simp
  · rw [if_neg (by omega), if_pos (by omega)]
    simp only [List.cons_append, List.nil_append, List.cons.injEq, eq_ofNat_iff, and_true]
    omega
  · rw [if_neg (by omega), if_neg (by omega), if_pos (by omega)]
    simp only [List.cons_append, List.nil_append, List.cons.injEq, eq_ofNat_iff, and_true]
    omega
  · rw [if_neg (by omega), if_neg (by omega), if_neg (by omega)]
    simp only [List.cons_append, List.nil_append, List.cons.injEq, eq_ofNat_iff, and_true]
    omega

/-! ### Whole texts -/

theorem encode_cons (c : Char) (s : List Char) :
    encode (c :: s) = String.utf8EncodeChar c ++ encode s := rfl

theorem decodeOnto?_encode (acc s : List Char) :
    decodeOnto? acc (encode s) = some (acc.reverse ++ s) := by
  induction s generalizing acc with
  | nil => simp [encode, decodeOnto?]
  | cons c s ih =>
    obtain ⟨b, t, hbytes, hhead⟩ := headScalar_utf8EncodeChar c (encode s)
    rw [encode_cons, hbytes, decodeOnto?, hhead]
    simp [ih]

theorem decode?_encode (s : List Char) : decode? (encode s) = some (String.ofList s) := by
  rw [decode?, decodeOnto?_encode]
  rfl

/-- **What was written reads back.** -/
@[simp] theorem decode?_bytes (s : String) : decode? (bytes s) = some s := by
  rw [bytes, decode?_encode, String.ofList_toList]

/-- Different texts are written differently. -/
theorem bytes_inj {s t : String} : bytes s = bytes t ↔ s = t := by
  constructor
  · intro h
    have hread : decode? (bytes s) = decode? (bytes t) := by rw [h]
    simpa using hread
  · rintro rfl
    rfl

/-- What was read onto `acc` is all that was written. -/
theorem encode_of_decodeOnto? {acc s : List Char} {bs : Bytes} (h : decodeOnto? acc bs = some s) :
    encode acc.reverse ++ bs = encode s := by
  fun_induction decodeOnto? acc bs with
  | case1 acc =>
    cases h
    exact List.append_nil _
  | case2 acc b r c hc ih =>
    rw [← ih h, List.reverse_cons, encode_append, List.append_assoc,
      utf8EncodeChar_of_headScalar (Prod.ext hc rfl)]
    simp [encode]
  | case3 acc b r hc => cases h

/-- **Bytes read as a text exactly if they are its own.** -/
theorem decode?_eq_some_iff {bs : Bytes} {s : String} : decode? bs = some s ↔ bs = bytes s := by
  constructor
  · intro h
    obtain ⟨cs, hcs, rfl⟩ := Option.map_eq_some_iff.mp h
    have hencode := encode_of_decodeOnto? hcs
    rw [bytes, String.toList_ofList, ← hencode]
    rfl
  · rintro rfl
    exact decode?_bytes s

end QualityGate.Text
