import QualityGate.Args.Parse
import QualityGate.Proofs.Text.Utf8
import QualityGate.Text.ByteOrder
/-!
## The form of an argument that is text

`Token.ofArg` looks at bytes; here its answer is read off the characters.

* `ofArg_encode_cons`: what does not start with a hyphen is a word.
* `ofArg_long`, `ofArg_attached`: after two hyphens comes a long name, up to the first equals sign;
  what follows the sign need not be text.
* `ofArg_letters`: after a single hyphen every character is a letter.
* `eq_of_ofArg_endOfOptions`, `eq_of_ofArg_long`, `eq_of_ofArg_letters`: each form is that of no other
  arguments, text or not.

The two marks are single bytes that no other character's bytes contain (`mem_utf8EncodeChar`), which
is why splitting the bytes splits the text.
-/

namespace QualityGate

/-! ### Marks among the bytes of a text -/

namespace Text

/-- A byte of a character is the character itself, or no character at all. -/
theorem mem_utf8EncodeChar {c : Char} {b : UInt8} (h : b ∈ String.utf8EncodeChar c) :
    b.toNat = c.toNat ∨ 0x80 ≤ b.toNat := by
  have hval : c.val.toNat = c.toNat := rfl
  have hbyte (n : Nat) : (UInt8.ofNat n).toNat = n % 256 := UInt8.toNat_ofNat'
  unfold String.utf8EncodeChar at h
  simp only [hval] at h
  split at h
  · rw [List.mem_singleton] at h
    rw [h, hbyte]
    omega
  · right
    split at h
    · simp only [List.mem_cons, List.not_mem_nil, or_false] at h
      rcases h with rfl | rfl <;> rw [hbyte] <;> omega
    · split at h
      · simp only [List.mem_cons, List.not_mem_nil, or_false] at h
        rcases h with rfl | rfl | rfl <;> rw [hbyte] <;> omega
      · simp only [List.mem_cons, List.not_mem_nil, or_false] at h
        rcases h with rfl | rfl | rfl | rfl <;> rw [hbyte] <;> omega

/-- A byte below 0x80 stands among the bytes of a text only where its character does. -/
theorem mem_encode {s : List Char} {b : UInt8} (hb : b.toNat < 0x80) (h : b ∈ encode s) :
    Char.ofNat b.toNat ∈ s := by
  rw [encode, List.mem_flatMap] at h
  obtain ⟨c, hc, hbc⟩ := h
  have hcode : b.toNat = c.toNat := by
    have := mem_utf8EncodeChar hbc
    omega
  rw [hcode, Char.ofNat_toNat]
  exact hc

/-- The bytes of a text are none only if the text is empty. -/
theorem encode_eq_nil {s : List Char} : encode s = [] ↔ s = [] := by
  cases s with
  | nil => simp [encode]
  | cons c s =>
    obtain ⟨b, t, hbytes, -⟩ := headScalar_utf8EncodeChar c (encode s)
    rw [encode_cons, hbytes]
    simp

end Text

namespace Args
open Text

/-! ### Splitting at a mark -/

/-- The equals sign is a byte of a text only if it stands in the text. -/
theorem equals_not_mem_encode {s : List Char} (h : '=' ∉ s) : equals ∉ encode s :=
  fun hmem => h (mem_encode (by decide) hmem)

/-- The start that is text is the whole of a text. -/
theorem cutText_encode (s : List Char) : cutText (encode s) = (s, []) := by
  induction s with
  | nil => simp [encode, cutText]
  | cons c s ih =>
    obtain ⟨b, t, hbytes, hhead⟩ := headScalar_utf8EncodeChar c (encode s)
    rw [encode_cons, hbytes, cutText, hhead]
    simp [ih]

/-- A text that does not start with a hyphen does not do so as bytes. -/
theorem exists_encode_cons {c : Char} (h : c ≠ '-') (s : List Char) :
    ∃ b t, encode (c :: s) = b :: t ∧ b ≠ hyphen := by
  obtain ⟨b, t, hbytes, hhead⟩ := headScalar_utf8EncodeChar c (encode s)
  refine ⟨b, t, by rw [encode_cons, hbytes], ?_⟩
  rintro rfl
  rw [headScalar_one (by decide)] at hhead
  exact h (Option.some.inj (congrArg Prod.fst hhead)).symm

/-! ### Forms -/

namespace Token

/-- Only two hyphens alone are not read from their start. -/
theorem ofArg_cons {a : UInt8} {r : Bytes} (h : ¬ (a = hyphen ∧ r = [hyphen])) :
    ofArg (a :: r) = ofArg.ofStart a r := by
  cases r with
  | nil => rfl
  | cons b r =>
    cases r with
    | nil =>
      rw [ofArg, if_neg]
      rintro ⟨rfl, rfl⟩
      exact h ⟨rfl, rfl⟩
    | cons _ _ => rfl

/-- A text that starts with another character than a hyphen is a word. -/
theorem ofArg_encode_cons {c : Char} (h : c ≠ '-') (s : List Char) :
    ofArg (encode (c :: s)) = word := by
  obtain ⟨b, t, hbytes, hb⟩ := exists_encode_cons h s
  rw [hbytes, ofArg_cons fun e => hb e.1, ofArg.ofStart.eq_def, if_pos hb]

theorem encode_hyphen_cons (s : List Char) : encode ('-' :: s) = hyphen :: encode s := rfl

/-- **A long name** without a value. -/
theorem ofArg_long {name : List Char} (hne : name ≠ []) (hname : '=' ∉ name) :
    ofArg (encode ('-' :: '-' :: name)) = long (encode name) none := by
  have hstart : ¬ (hyphen = hyphen ∧ hyphen :: encode name = [hyphen]) := by
    rintro ⟨-, h⟩
    rw [List.cons.injEq, encode_eq_nil] at h
    exact hne h.2
  rw [encode_hyphen_cons, encode_hyphen_cons, ofArg_cons hstart]
  simp only [ofArg.ofStart, ne_eq, not_true_eq_false, if_false, if_true]
  rw [dropWhile_without_mark (equals_not_mem_encode hname)]

/-- **A long name with its value**, which is any bytes. -/
theorem ofArg_attached {name : List Char} (hname : '=' ∉ name) (v : Bytes) :
    ofArg (encode ('-' :: '-' :: name) ++ equals :: v) = long (encode name) (some v) := by
  have hmark := equals_not_mem_encode hname
  have hstart : ¬ (hyphen = hyphen ∧ hyphen :: (encode name ++ equals :: v) = [hyphen]) := by
    rintro ⟨-, h⟩
    simp at h
  rw [encode_hyphen_cons, encode_hyphen_cons, List.cons_append, List.cons_append,
    ofArg_cons hstart]
  simp only [ofArg.ofStart, ne_eq, not_true_eq_false, if_false, if_true]
  rw [dropWhile_append_mark hmark, takeWhile_append_mark hmark]

/-- **Letters**, of which the first is no hyphen. -/
theorem ofArg_letters {c : Char} (h : c ≠ '-') (s : List Char) :
    ofArg (encode ('-' :: c :: s)) = letters (c :: s) [] := by
  obtain ⟨b, t, hbytes, hb⟩ := exists_encode_cons h s
  have hcut : cutText (b :: t) = (c :: s, []) := by
    rw [← hbytes, cutText_encode]
  have hstart : ¬ (hyphen = hyphen ∧ b :: t = [hyphen]) := by
    rintro ⟨-, e⟩
    exact hb (List.cons.inj e).1
  rw [encode_hyphen_cons, hbytes, ofArg_cons hstart]
  simp [ofArg.ofStart, hb, hcut]

end Token

/-! ### Arguments by their forms -/

/-- The start that is text and what follows it are the whole. -/
theorem encode_cutText (bs : Bytes) : encode (cutText bs).1 ++ (cutText bs).2 = bs := by
  fun_induction cutText bs with
  | case1 => rfl
  | case2 b r c hc cs rest hcut ih =>
    have hwhole : b :: r = String.utf8EncodeChar c ++ (headScalar b r).2 :=
      utf8EncodeChar_of_headScalar (Prod.ext hc rfl)
    rw [hcut] at ih
    rw [hwhole, ← ih, encode_cons, List.append_assoc]
  | case3 b r hc => rfl

/-- The bytes of a value that is attached to a long name. -/
def attachedValue : Option Bytes → Bytes
  | none => []
  | some v => equals :: v

namespace Token

/-- An argument that looks like an option is read from behind its first hyphen, unless it is the mark
that ends the options. -/
theorem exists_ofStart {arg : Bytes} (hword : ofArg arg ≠ word) (hmark : arg ≠ [hyphen, hyphen]) :
    ∃ b r, arg = hyphen :: b :: r ∧ ofArg arg = ofArg.ofStart hyphen (b :: r) := by
  cases arg with
  | nil => exact absurd rfl hword
  | cons a r =>
    have hstart : ofArg (a :: r) = ofArg.ofStart a r := by
      apply ofArg_cons
      rintro ⟨rfl, rfl⟩
      exact hmark rfl
    rw [hstart] at hword ⊢
    by_cases ha : a = hyphen
    · subst ha
      cases r with
      | nil => exact absurd rfl hword
      | cons b r => exact ⟨b, r, rfl, rfl⟩
    · rw [ofArg.ofStart.eq_def, if_pos ha] at hword
      exact absurd rfl hword

/-- Two hyphens alone end the options. -/
theorem eq_of_ofArg_endOfOptions {arg : Bytes} (h : ofArg arg = endOfOptions) :
    arg = [hyphen, hyphen] := by
  refine Decidable.byContradiction fun hmark => ?_
  obtain ⟨b, r, rfl, hstart⟩ := exists_ofStart (by simp [h]) hmark
  rw [hstart] at h
  simp only [ofArg.ofStart, ne_eq, not_true_eq_false, if_false] at h
  split at h
  · split at h <;> cases h
  · cases h

/-- Behind two hyphens stands a long name with its value. -/
theorem eq_of_ofArg_long {arg name : Bytes} {value : Option Bytes} (h : ofArg arg = long name value) :
    arg = hyphen :: hyphen :: (name ++ attachedValue value) := by
  have hmark : arg ≠ [hyphen, hyphen] := by
    rintro rfl
    cases h
  obtain ⟨b, r, rfl, hstart⟩ := exists_ofStart (by simp [h]) hmark
  rw [hstart] at h
  simp only [ofArg.ofStart, ne_eq, not_true_eq_false, if_false] at h
  split at h
  · rename_i hb
    split at h
    · cases h
      simp [hb, attachedValue]
    · rename_i e v hdrop
      cases h
      -- the value begins behind the first sign of equality, which is the one the name was cut at
      have hwhole := List.takeWhile_append_dropWhile (p := (· ≠ equals)) (l := r)
      have hfirst := List.head?_dropWhile_not (· ≠ equals) r
      rw [hdrop] at hwhole hfirst
      have he : e = equals := by simpa using hfirst
      rw [he] at hwhole
      rw [hb]
      exact congrArg (hyphen :: hyphen :: ·) hwhole.symm
  · cases h

/-- Behind one hyphen stand letters and what follows them, one of the two at least. -/
theorem eq_of_ofArg_letters {arg bad : Bytes} {cs : List Char} (h : ofArg arg = letters cs bad) :
    arg = hyphen :: (encode cs ++ bad) ∧ encode cs ++ bad ≠ [] := by
  have hmark : arg ≠ [hyphen, hyphen] := by
    rintro rfl
    cases h
  obtain ⟨b, r, rfl, hstart⟩ := exists_ofStart (by simp [h]) hmark
  rw [hstart] at h
  simp only [ofArg.ofStart, ne_eq, not_true_eq_false, if_false] at h
  split at h
  · split at h <;> cases h
  · have hwhole := encode_cutText (b :: r)
    cases h
    rw [hwhole]
    exact ⟨rfl, List.cons_ne_nil b r⟩

end Token
end Args
end QualityGate
