import QualityGate.Proofs.Text.Utf8
/-!
## Reading that never fails

Bytes that are no text are read as text all the same: what is well formed in them is kept, and each
ill-formed sequence becomes one `replacement`. Where such a sequence ends is settled by the rule of the
maximal subpart: it is as long as it can be read as the beginning of a character, and one byte otherwise.
`Decodes` states this rule without saying how the end is found.

* `decodes_iff`: any bytes are read by the rule, and in one way only.
* `decodeLossy_append`: reading in two parts is reading the whole, where the second part does not begin
  with a byte that continues a character.
* `lossy_stretch`: a stretch of text is kept as it is, whatever stands before and after it.
-/

namespace QualityGate.Text

/-! ### The rule -/

/-- **Bytes that some character begins with.** -/
def Begins (m : Bytes) : Prop :=
  ∃ c : Char, m <+: String.utf8EncodeChar c

/-- **The maximal subpart at the head of ill-formed bytes** `m ++ rest`: no character can be read there,
`m` is one byte or the beginning of a character, and nothing longer is such a beginning. -/
structure IllFormed (m rest : Bytes) : Prop where
  ne_nil : m ≠ []
  unreadable : ∀ c : Char, ¬String.utf8EncodeChar c <+: m ++ rest
  subpart : m.length = 1 ∨ Begins m
  maximal : ∀ longer, longer <+: m ++ rest → m.length < longer.length → ¬Begins longer

/-- **What bytes are read as**: characters as they are, and one replacement for each maximal subpart
of what is ill formed. -/
inductive Decodes : Bytes → List Char → Prop where
  | nil : Decodes [] []
  | char {rest : Bytes} {text : List Char} (c : Char) (h : Decodes rest text) :
      Decodes (String.utf8EncodeChar c ++ rest) (c :: text)
  | illFormed {m rest : Bytes} {text : List Char} (hm : IllFormed m rest) (h : Decodes rest text) :
      Decodes (m ++ rest) (replacement :: text)

theorem Begins.of_isPrefix {m longer : Bytes} (h : Begins longer) (hm : m <+: longer) : Begins m := by
  obtain ⟨c, hc⟩ := h
  exact ⟨c, hm.trans hc⟩

/-- Two maximal subparts of the same bytes are one. -/
theorem IllFormed.unique {m rest m' rest' : Bytes} (h : IllFormed m rest) (h' : IllFormed m' rest')
    (hsame : m ++ rest = m' ++ rest') : m = m' ∧ rest = rest' := by
  -- The longer of two would be one byte, for it cannot begin a character.
  have hle {m rest m' rest' : Bytes} (h : IllFormed m rest) (h' : IllFormed m' rest')
      (hsame : m ++ rest = m' ++ rest') : m'.length ≤ m.length := by
    refine Nat.le_of_not_lt fun hlonger => ?_
    have hpos : 0 < m.length := List.length_pos_iff.mpr h.ne_nil
    rcases h'.subpart with hone | hbegins
    · omega
    · exact h.maximal m' ⟨rest', hsame.symm⟩ (by omega) hbegins
  have hlength : m.length = m'.length := Nat.le_antisymm (hle h' h hsame.symm) (hle h h' hsame)
  exact List.append_inj hsame hlength

/-! ### What the reader cuts off -/

/-- Bytes of which the reader makes nothing, whatever follows them, do not begin a character. -/
theorem not_begins_of_headScalar {b : UInt8} {p : Bytes}
    (h : ∀ s, (headScalar b (p ++ s)).1 = none) : ¬Begins (b :: p) := by
  rintro ⟨c, s, hs⟩
  obtain ⟨b', t, hbytes, hhead⟩ := headScalar_utf8EncodeChar c []
  rw [List.append_nil, ← hs, List.cons_append] at hbytes
  obtain ⟨rfl, rfl⟩ := List.cons.inj hbytes
  have hnone := h s
  rw [hhead] at hnone
  cases hnone

/-- Bytes that the reader cuts off with some others after them begin a character. -/
theorem begins_of_headScalar {b : UInt8} {p s : Bytes} {c : Char}
    (h : headScalar b (p ++ s) = (some c, [])) : Begins (b :: p) := by
  have hbytes := utf8EncodeChar_of_headScalar h
  rw [List.append_nil] at hbytes
  exact ⟨c, s, hbytes⟩

/-- Where the reader finds no character there is none. -/
theorem unreadable_of_headScalar {b : UInt8} {t : Bytes} (h : (headScalar b t).1 = none) (c : Char) :
    ¬String.utf8EncodeChar c <+: b :: t := by
  rintro ⟨r, hr⟩
  obtain ⟨b', t', hbytes, hhead⟩ := headScalar_utf8EncodeChar c r
  rw [hr] at hbytes
  obtain ⟨rfl, rfl⟩ := List.cons.inj hbytes
  rw [hhead] at h
  cases h

/-- A subpart is maximal if the byte after it does not continue a beginning. -/
theorem illFormed_of_next {b : UInt8} {p rest : Bytes}
    (hnone : (headScalar b (p ++ rest)).1 = none) (hsub : p = [] ∨ Begins (b :: p))
    (hnext : ∀ x after, rest = x :: after → ¬Begins (b :: p ++ [x])) : IllFormed (b :: p) rest := by
  refine ⟨List.cons_ne_nil _ _, unreadable_of_headScalar hnone, ?_, ?_⟩
  · rcases hsub with rfl | hbegins
    · exact Or.inl rfl
    · exact Or.inr hbegins
  · rintro longer hlonger hlength hbegins
    cases rest with
    | nil =>
      have hle := hlonger.length_le
      rw [List.append_nil] at hle
      omega
    | cons x after =>
      -- a longer beginning would have the next byte in it
      have hshorter : b :: p ++ [x] <+: longer := by
        have hnext : b :: p ++ [x] <+: b :: p ++ x :: after := ⟨after, by simp⟩
        refine List.prefix_of_prefix_length_le hnext hlonger ?_
        rw [List.length_append, List.length_singleton]
        omega
      exact hnext x after rfl (hbegins.of_isPrefix hshorter)

/-- Two bytes of three begin a character, for a third one can follow. -/
theorem begins_three {b c : UInt8} (hb : 0xE0 ≤ b.toNat ∧ b.toNat ≤ 0xEF)
    (hc : isSecond b c = true) : Begins [b, c] :=
  begins_of_headScalar (p := [c]) (s := [0x80]) (headScalar_three hb hc (by decide) [])

/-- So do three bytes of four. -/
theorem begins_four {b c d : UInt8} (hb : 0xF0 ≤ b.toNat ∧ b.toNat ≤ 0xF4)
    (hc : isSecond b c = true) (hd : isContinuation d = true) : Begins [b, c, d] :=
  begins_of_headScalar (p := [c, d]) (s := [0x80]) (headScalar_four hb hc hd (by decide) [])

/-- **What the reader cuts off of ill-formed bytes**, `p` being what comes after the first of them. -/
theorem exists_of_headScalar_none {b : UInt8} {t rest : Bytes} (h : headScalar b t = (none, rest)) :
    ∃ p, t = p ++ rest ∧ (p = [] ∨ Begins (b :: p)) ∧
      ∀ x after, rest = x :: after → ¬Begins (b :: p ++ [x]) := by
  have hstop {p r : Bytes} {x : UInt8} (hnone : ∀ s, (headScalar b (p ++ x :: s)).1 = none) :
      ∀ y after, x :: r = y :: after → ¬Begins (b :: p ++ [y]) := by
    rintro y after ⟨⟩
    refine not_begins_of_headScalar fun s => ?_
    show (headScalar b (p ++ [x] ++ s)).1 = none
    rw [List.append_assoc]
    exact hnone s
  have hend {p : Bytes} : ∀ y after, ([] : Bytes) = y :: after → ¬Begins (b :: p ++ [y]) := by
    rintro y after ⟨⟩
  have hthree (hb : (0xE0 ≤ b && b ≤ 0xEF) = true) : 0xE0 ≤ b.toNat ∧ b.toNat ≤ 0xEF := by
    simpa [UInt8.le_iff_toNat_le] using hb
  have hfour (hb : (0xF0 ≤ b && b ≤ 0xF4) = true) : 0xF0 ≤ b.toNat ∧ b.toNat ≤ 0xF4 := by
    simpa [UInt8.le_iff_toNat_le] using hb
  have htwo (hb : (0xF0 ≤ b && b ≤ 0xF4) = true) {c : UInt8} (hc : isSecond b c = true) :
      Begins [b, c] :=
    (begins_four (hfour hb) hc (d := 0x80) (by decide)).of_isPrefix ⟨[0x80], rfl⟩
  unfold headScalar at h
  -- One case for each place at which a sequence can be left: by a byte that does not continue it, or
  -- by the end of the bytes.
  repeat' split at h
  all_goals cases h
  · exact ⟨[], rfl, Or.inl rfl, hstop fun s => by simp [headScalar, *]⟩
  · exact ⟨[], rfl, Or.inl rfl, hend⟩
  · rename_i hb _ c hc _ d _ hd
    exact ⟨[c], rfl, Or.inr (begins_three (hthree hb) hc), hstop fun s => by simp [headScalar, *]⟩
  · rename_i hb _ c hc _
    exact ⟨[c], rfl, Or.inr (begins_three (hthree hb) hc), hend⟩
  · exact ⟨[], rfl, Or.inl rfl, hstop fun s => by simp [headScalar, *]⟩
  · exact ⟨[], rfl, Or.inl rfl, hend⟩
  · rename_i hb _ c hc _ d hd _ e _ he
    exact ⟨[c, d], rfl, Or.inr (begins_four (hfour hb) hc hd),
      hstop fun s => by simp [headScalar, *]⟩
  · rename_i hb _ c hc _ d hd _
    exact ⟨[c, d], rfl, Or.inr (begins_four (hfour hb) hc hd), hend⟩
  · rename_i hb _ c hc _ d _ hd
    exact ⟨[c], rfl, Or.inr (htwo hb hc), hstop fun s => by simp [headScalar, *]⟩
  · rename_i hb _ c hc _
    exact ⟨[c], rfl, Or.inr (htwo hb hc), hend⟩
  · exact ⟨[], rfl, Or.inl rfl, hstop fun s => by simp [headScalar, *]⟩
  · exact ⟨[], rfl, Or.inl rfl, hend⟩
  · refine ⟨[], rfl, Or.inl rfl, fun x after _ => ?_⟩
    exact not_begins_of_headScalar fun s => by simp [headScalar, *]

/-- **The reader cuts off the maximal subpart** of ill-formed bytes. -/
theorem illFormed_of_headScalar {b : UInt8} {t rest : Bytes} (h : headScalar b t = (none, rest)) :
    ∃ p, t = p ++ rest ∧ IllFormed (b :: p) rest := by
  obtain ⟨p, rfl, hsub, hnext⟩ := exists_of_headScalar_none h
  exact ⟨p, rfl, illFormed_of_next (congrArg Prod.fst h) hsub hnext⟩

/-! ### Whole strings -/

/-- Any bytes are read by the rule. -/
theorem decodes_decodeLossy (bs : Bytes) : Decodes bs (decodeLossy bs) := by
  fun_induction decodeLossy bs with
  | case1 => exact .nil
  | case2 b r ih =>
    cases hhead : headScalar b r with
    | mk head rest =>
      rw [hhead] at ih
      cases head with
      | some c =>
        rw [utf8EncodeChar_of_headScalar hhead]
        exact .char c ih
      | none =>
        obtain ⟨p, rfl, hm⟩ := illFormed_of_headScalar hhead
        exact .illFormed hm ih

/-- **Bytes are read by the rule, and in one way only.** -/
theorem decodes_iff {bs : Bytes} {text : List Char} : Decodes bs text ↔ decodeLossy bs = text := by
  constructor
  · intro h
    induction h with
    | nil => rw [decodeLossy]
    | @char rest text c _ ih =>
      obtain ⟨b, t, hbytes, hhead⟩ := headScalar_utf8EncodeChar c rest
      rw [hbytes, decodeLossy, hhead, ← ih]
      rfl
    | @illFormed m rest text hm _ ih =>
      obtain ⟨b, p, rfl⟩ := List.exists_cons_of_ne_nil hm.ne_nil
      rw [List.cons_append, decodeLossy]
      cases hhead : headScalar b (p ++ rest) with
      | mk head rest' =>
        cases head with
        | some c =>
          have hbytes := utf8EncodeChar_of_headScalar hhead
          exact absurd ⟨rest', hbytes.symm⟩ (hm.unreadable c)
        | none =>
          -- both are the maximal subpart, so the same bytes are left to read
          obtain ⟨p', hsame, hm'⟩ := illFormed_of_headScalar hhead
          have hcut : b :: p ++ rest = b :: p' ++ rest' := congrArg (b :: ·) hsame
          obtain ⟨-, rfl⟩ := hm.unique hm' hcut
          rw [← ih]
          rfl
  · rintro rfl
    exact decodes_decodeLossy bs

/-! ### In parts -/

/-- A byte that does not continue a character is none of those that the reader cuts off before it. -/
theorem headScalar_append {b : UInt8} {r y : Bytes}
    (hy : ∀ c ∈ y.head?, isContinuation c = false) :
    headScalar b (r ++ y) = ((headScalar b r).1, (headScalar b r).2 ++ y) := by
  cases y with
  | nil => rw [List.append_nil, List.append_nil]
  | cons x y =>
    have hx : isContinuation x = false := hy x rfl
    have hsecond : isSecond b x = false := by
      rw [Bool.eq_false_iff, ne_eq, isContinuation_iff] at hx
      rw [Bool.eq_false_iff, ne_eq, isSecond_iff]
      omega
    -- wherever in a sequence it comes, the byte `x` ends it, as the end of the bytes does
    rcases r with _ | ⟨c, _ | ⟨d, _ | ⟨e, r⟩⟩⟩ <;> simp [headScalar, hx, hsecond] <;> grind

/-- **Reading in two parts is reading the whole**, where the second part does not begin with a byte that
continues a character. -/
theorem decodeLossy_append {x y : Bytes} (hy : ∀ c ∈ y.head?, isContinuation c = false) :
    decodeLossy (x ++ y) = decodeLossy x ++ decodeLossy y := by
  fun_induction decodeLossy x with
  | case1 => rfl
  | case2 b r ih => rw [List.cons_append, decodeLossy, headScalar_append hy, ih, List.cons_append]

/-- No character begins with a byte that continues one. -/
theorem headScalar_continuation {b : UInt8} (h : isContinuation b = true) (t : Bytes) :
    headScalar b t = (none, t) := by
  obtain ⟨hlow, hhigh⟩ := (isContinuation_iff b).mp h
  have h1 : ¬b.toNat < 0x80 := by omega
  have h2 : ¬0xC2 ≤ b.toNat := by omega
  have h3 : ¬0xE0 ≤ b.toNat := by omega
  have h4 : ¬0xF0 ≤ b.toNat := by omega
  simp [headScalar, UInt8.lt_iff_toNat_lt, UInt8.le_iff_toNat_le, h1, h2, h3, h4]

/-- What is written begins with no byte that continues a character. -/
theorem isContinuation_head?_encode (c : Char) (s : List Char) (rest : Bytes) :
    ∀ b ∈ (encode (c :: s) ++ rest).head?, isContinuation b = false := by
  obtain ⟨b, t, hbytes, hhead⟩ := headScalar_utf8EncodeChar c (encode s ++ rest)
  rw [encode_cons, List.append_assoc, hbytes]
  rintro _ ⟨⟩
  rw [Bool.eq_false_iff]
  intro hb
  rw [headScalar_continuation hb] at hhead
  cases hhead

/-- What was written is read as it is, whatever follows. -/
theorem decodeLossy_encode_append (s : List Char) (rest : Bytes) :
    decodeLossy (encode s ++ rest) = s ++ decodeLossy rest := by
  induction s with
  | nil => rfl
  | cons c s ih =>
    obtain ⟨b, t, hbytes, hhead⟩ := headScalar_utf8EncodeChar c (encode s ++ rest)
    rw [encode_cons, List.append_assoc, hbytes, decodeLossy, hhead, ih]
    rfl

@[inherit_doc decodeLossy_encode_append]
theorem lossy_bytes_append (s : String) (rest : Bytes) :
    lossy (bytes s ++ rest) = s ++ lossy rest := by
  rw [← String.toList_inj, String.toList_append, toList_lossy, toList_lossy, bytes,
    decodeLossy_encode_append]

/-- **A stretch of text is kept as it is**, whatever stands before and after it. -/
theorem lossy_stretch (front rest : Bytes) {s : String} (hs : s ≠ "") :
    lossy (front ++ bytes s ++ rest) = lossy front ++ s ++ lossy rest := by
  have hfirst : ∀ b ∈ (encode s.toList ++ rest).head?, isContinuation b = false := by
    cases hchars : s.toList with
    | nil => exact absurd (String.toList_inj.mp hchars) hs
    | cons c cs => exact isContinuation_head?_encode c cs rest
  rw [← String.toList_inj]
  simp only [String.toList_append, toList_lossy, bytes]
  rw [List.append_assoc, decodeLossy_append hfirst, decodeLossy_encode_append, List.append_assoc]

end QualityGate.Text
