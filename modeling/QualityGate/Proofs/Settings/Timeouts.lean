import QualityGate.Proofs.Duration.Joined
import QualityGate.Proofs.Settings.Acceptance
/-!
## Timeouts put together

Two timeouts that are accepted each on its own can be written in one text, with a blank between them.

* `validate_withTimeout_iff`: in settings that are otherwise accepted a timeout is accepted if it reads as
  a duration.
* `limit_withTimeout_joined`: which texts put together from two timeouts are accepted, and that they limit
  to exactly the sum, in whatever order the items stand.
* `validate_jammed`: two timeouts that are accepted in one order only.
-/

namespace QualityGate.Settings

variable {settings : Settings} {text : String}

/-! ### One timeout -/

/-- A text that breaks the grammar is refused as a timeout, and limits nothing. -/
theorem validate_withTimeout_of_malformed (h : Duration.read text = .error .malformed)
    (settings : Settings) :
    (settings.withTimeout (some text)).validate =
        .error (.failed (.settingInvalid "pipeline.timeout" ("Invalid duration: " ++ text))) ∧
      (settings.withTimeout (some text)).limit = .ok none := by
  have htimeout : (settings.withTimeout (some text)).pipeline.timeout = some text := rfl
  constructor
  · rw [validate, checkTimeout, htimeout]
    dsimp only
    rw [h]
  · rw [limit, htimeout]
    dsimp only
    rw [h]

/-- **An accepted timeout reads as a duration**, and everything else in the settings is accepted. -/
theorem read_of_validate (h : (settings.withTimeout (some text)).validate = .ok ()) :
    (settings.withTimeout none).validate = .ok () ∧
      ∃ d, Duration.read text = .ok d ∧ (settings.withTimeout (some text)).limit = .ok (some d) := by
  cases hread : Duration.read text with
  | ok d =>
    obtain ⟨hvalid, hlimit⟩ := validate_withTimeout_of_read hread settings
    exact ⟨hvalid ▸ h, d, rfl, hlimit⟩
  | error e =>
    cases e with
    | malformed =>
      rw [(validate_withTimeout_of_malformed hread settings).1] at h
      cases h
    | overflow =>
      have htimeout : (settings.withTimeout (some text)).pipeline.timeout = some text := rfl
      rw [validate, checkTimeout, htimeout] at h
      dsimp only at h
      rw [hread] at h
      cases h

/-- **In settings that are otherwise accepted**, a timeout is accepted if it reads as a duration. -/
theorem validate_withTimeout_iff (hvalid : (settings.withTimeout none).validate = .ok ()) :
    (settings.withTimeout (some text)).validate = .ok () ↔ ∃ d, Duration.read text = .ok d := by
  constructor
  · intro h
    obtain ⟨-, d, hread, -⟩ := read_of_validate h
    exact ⟨d, hread⟩
  · rintro ⟨d, hread⟩
    rw [(validate_withTimeout_of_read hread settings).1, hvalid]

/-! ### Two timeouts -/

/-- **Two timeouts in one text.** It is accepted exactly if the sum is no longer than the longest duration
and no amount of the second one jams on what stands before it, and then it limits to exactly the sum.
Where an amount jams though there is room for the sum, the text is refused and limits nothing. Every
accepted text with the same amounts, in whatever order they stand, limits to the same sum. -/
theorem limit_withTimeout_joined (settings : Settings) {a b : String} (ha : a ≠ "0") (hb : b ≠ "0")
    (hvalidA : (settings.withTimeout (some a)).validate = .ok ())
    (hvalidB : (settings.withTimeout (some b)).validate = .ok ()) :
    ∃ x y, (settings.withTimeout (some a)).limit = .ok (some x) ∧
      (settings.withTimeout (some b)).limit = .ok (some y) ∧
      let s := settings.withTimeout (some (a ++ " " ++ b))
      let sum := x.toNanos + y.toNanos
      let longest := 18446744073709551615 * 1000000000 + 999999999
      (s.validate = .ok () ↔ sum ≤ longest ∧ ¬Duration.Jams x (Duration.amounts b.toList)) ∧
      (s.validate = .ok () → ∃ d, s.limit = .ok (some d) ∧ d.toNanos = sum) ∧
      (sum ≤ longest → Duration.Jams x (Duration.amounts b.toList) →
        s.validate = .error (.failed
          (.settingInvalid "pipeline.timeout" ("Invalid duration: " ++ (a ++ " " ++ b)))) ∧
        s.limit = .ok none) ∧
      ∀ text, text ≠ "0" →
        (Duration.amounts text.toList).Perm
          (Duration.amounts a.toList ++ Duration.amounts b.toList) →
        (settings.withTimeout (some text)).validate = .ok () →
        ∃ d, (settings.withTimeout (some text)).limit = .ok (some d) ∧ d.toNanos = sum := by
  obtain ⟨hvalid, x, hreadA, hlimitA⟩ := read_of_validate hvalidA
  obtain ⟨-, y, hreadB, hlimitB⟩ := read_of_validate hvalidB
  refine ⟨x, y, hlimitA, hlimitB, ?_⟩
  intro s sum longest
  -- the longest duration is one nanosecond short of the bound
  have hlongest : wordBound * nanosPerSec = longest + 1 := by decide
  have hroom_iff : sum ≤ longest ↔ sum < wordBound * nanosPerSec := by
    rw [hlongest, Nat.lt_succ_iff]
  refine ⟨?_, fun h => ?_, fun hroom hjams => ?_, fun text hzero hperm h => ?_⟩
  · rw [validate_withTimeout_iff hvalid, hroom_iff]
    exact Duration.exists_read_joined_iff hreadA hreadB ha hb
  · obtain ⟨-, d, hread, hlimit⟩ := read_of_validate h
    refine ⟨d, hlimit, ?_⟩
    rcases Duration.read_joined_cases hreadA hreadB ha hb with
      ⟨-, e, hsame, he⟩ | ⟨-, -, hfault⟩ | ⟨-, e, hfault⟩
    · cases hsame ▸ hread
      exact he
    · cases hfault ▸ hread
    · cases hfault ▸ hread
  · rcases Duration.read_joined_cases hreadA hreadB ha hb with
      ⟨hclear, -⟩ | ⟨-, -, hread⟩ | ⟨hlong, -⟩
    · exact absurd hjams hclear
    · exact validate_withTimeout_of_malformed hread settings
    · exact absurd (hroom_iff.mp hroom) (Nat.not_lt.mpr hlong)
  · obtain ⟨-, d, hread, hlimit⟩ := read_of_validate h
    exact ⟨d, hlimit, Duration.toNanos_of_perm hreadA hreadB hread ha hb hzero hperm⟩

/-- The largest count of nanoseconds, and then half a second, are added up. -/
theorem limit_withTimeout_joined_counted :
    let a := "18446744073709551615ns"
    let b := "500ms"
    let s := ({} : Settings).withTimeout (some (a ++ " " ++ b))
    (({} : Settings).withTimeout (some a)).validate = .ok () ∧
      (({} : Settings).withTimeout (some b)).validate = .ok () ∧ s.validate = .ok () ∧
      ∃ d, s.limit = .ok (some d) ∧ d.toNanos = 18446744073709551615 + 500000000 := by
  intro a b s
  have hvalidA : (({} : Settings).withTimeout (some a)).validate = .ok () := by decide +kernel
  have hvalidB : (({} : Settings).withTimeout (some b)).validate = .ok () := by decide +kernel
  have hvalid : s.validate = .ok () := by decide +kernel
  have hlimitA : (({} : Settings).withTimeout (some a)).limit =
      .ok (some ⟨18446744073, 709551615, by decide, by decide⟩) := by decide +kernel
  have hlimitB : (({} : Settings).withTimeout (some b)).limit =
      .ok (some ⟨0, 500000000, by decide, by decide⟩) := by decide +kernel
  obtain ⟨x, y, hx, hy, -, hsum, -⟩ :=
    limit_withTimeout_joined {} (a := a) (b := b) (by decide) (by decide) hvalidA hvalidB
  rw [hlimitA] at hx
  rw [hlimitB] at hy
  cases hx
  cases hy
  exact ⟨hvalidA, hvalidB, hvalid, hsum hvalid⟩

/-- **In the other order they are refused**, though there is room for the sum: the nanoseconds of both
together fit no word before they are carried. -/
theorem validate_jammed :
    let a := "500ms"
    let b := "18446744073709551615ns"
    let joined := ({} : Settings).withTimeout (some (a ++ " " ++ b))
    let swapped := ({} : Settings).withTimeout (some (b ++ " " ++ a))
    (({} : Settings).withTimeout (some a)).validate = .ok () ∧
      (({} : Settings).withTimeout (some b)).validate = .ok () ∧
      joined.validate = .error (.failed (.settingInvalid "pipeline.timeout"
        "Invalid duration: 500ms 18446744073709551615ns")) ∧
      joined.limit = .ok none ∧
      swapped.validate = .ok () ∧
      swapped.limit = .ok (some ⟨18446744074, 209551615, by decide, by decide⟩) := by
  decide +kernel

end QualityGate.Settings
