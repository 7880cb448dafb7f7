import TextAdventure.Text.Lower

/-!
# Text that is in lower case

Every character that the mapping writes is its own lower-case form, wherever it stands
(`isLowered_of_mem_lower`), and a text of such characters stays as it is
(`lower_eq_self`).

That is a fact about the table of runs.  The lower-case forms of a run are again code points
at equal distances (`CaseRun.lowered`), and none of them is in a run of the table.  `avoids`
looks that up for all code points of a run at once, and in the order in which `lowerCode`
goes through the table.
-/

namespace TextAdventure.Text

/-- The character is its own lower-case form wherever it stands. -/
def IsLowered (c : Char) : Prop := lowerChar c = [c]

instance (c : Char) : Decidable (IsLowered c) := inferInstanceAs (Decidable (lowerChar c = [c]))

/-! ## The code points of a run -/

/-- The run has the code point. -/
def CaseRun.Has (r : CaseRun) (n : Nat) : Prop :=
  r.first ≤ n ∧ n ≤ r.last ∧ (n - r.first) % r.step = 0

instance (r : CaseRun) (n : Nat) : Decidable (r.Has n) :=
  inferInstanceAs (Decidable (r.first ≤ n ∧ n ≤ r.last ∧ (n - r.first) % r.step = 0))

/-- The lower-case forms of the code points of a run. -/
def CaseRun.lowered (r : CaseRun) : CaseRun :=
  let first := (r.first + r.shift).toNat
  ⟨first, first + (r.last - r.first), r.step, 0⟩

theorem CaseRun.has_lowered {r : CaseRun} {n : Nat} (h : r.Has n)
    (hpos : 0 ≤ (r.first : Int) + r.shift) : r.lowered.Has ((n + r.shift).toNat) := by
  obtain ⟨hfirst, hlast, hstep⟩ := h
  have hsame : (n + r.shift).toNat - (r.first + r.shift).toNat = n - r.first := by omega
  refine ⟨?_, ?_, ?_⟩
  · show (r.first + r.shift).toNat ≤ (n + r.shift).toNat
    omega
  · show (n + r.shift).toNat ≤ (r.first + r.shift).toNat + (r.last - r.first)
    omega
  · show ((n + r.shift).toNat - (r.first + r.shift).toNat) % r.step = 0
    rw [hsame, hstep]

/-! ## The table -/

/-- What the table does to a code point. -/
theorem lowerCode_cases (rs : List CaseRun) (n : Nat) : lowerCode rs n = n ∨
    ∃ r ∈ rs, r.Has n ∧ lowerCode rs n = (n + r.shift).toNat := by
  induction rs with
  | nil => exact .inl rfl
  | cons r rs ih =>
    rw [lowerCode]
    split
    · exact .inl rfl
    · next hfirst =>
      split
      · next hhas =>
        exact .inr ⟨r, List.mem_cons_self, ⟨Nat.not_lt.mp hfirst, hhas⟩, rfl⟩
      · rcases ih with hsame | ⟨s, hs, hmoved⟩
        · exact .inl hsame
        · exact .inr ⟨s, List.mem_cons_of_mem r hs, hmoved⟩

/-- Decide whether a run begins behind the end of another or passes between its code points. -/
def CaseRun.passes (r s : CaseRun) : Bool :=
  Nat.blt s.last r.first ||
    (Nat.ble s.first r.first && (Nat.beq r.first r.last || Nat.beq (r.step % s.step) 0) &&
      Nat.blt 0 ((r.first - s.first) % s.step))

/-- Decide whether a run passes all runs of a table up to the first that begins behind it. -/
def CaseRun.avoids (r : CaseRun) : List CaseRun → Bool
  | [] => true
  | s :: ss => Nat.blt r.last s.first || (r.passes s && r.avoids ss)

theorem CaseRun.not_has_of_passes {r s : CaseRun} (h : r.passes s = true) {n : Nat}
    (hn : r.Has n) : ¬ s.Has n := by
  rintro ⟨hfirst, hlast, hstep⟩
  obtain ⟨hn₁, hn₂, hn₃⟩ := hn
  simp only [CaseRun.passes, Bool.or_eq_true, Bool.and_eq_true, Nat.blt_eq, Nat.ble_eq,
    Nat.beq_eq] at h
  rcases h with hbehind | ⟨⟨hle, hbetween⟩, hapart⟩
  · omega
  · -- Either there is one code point, or the steps of `r` are whole steps of `s`.  So all code
    -- points of `r` are as far from those of `s` as the first one is.
    have hsplit : n - s.first = (n - r.first) + (r.first - s.first) := by omega
    rw [hsplit] at hstep
    rcases hbetween with hone | hdvd
    · have hzero : n - r.first = 0 := by omega
      rw [hzero, Nat.zero_add] at hstep
      exact absurd hstep (Nat.ne_of_gt hapart)
    · have hwhole : s.step ∣ n - r.first :=
        Nat.dvd_trans (Nat.dvd_of_mod_eq_zero hdvd) (Nat.dvd_of_mod_eq_zero hn₃)
      have hrest : s.step ∣ r.first - s.first :=
        (Nat.dvd_add_right hwhole).mp (Nat.dvd_of_mod_eq_zero hstep)
      exact absurd (Nat.mod_eq_zero_of_dvd hrest) (Nat.ne_of_gt hapart)

/-- A table leaves the code points of a run that avoids it as they are. -/
theorem CaseRun.lowerCode_eq_self {r : CaseRun} {rs : List CaseRun} (h : r.avoids rs = true)
    {n : Nat} (hn : r.Has n) : lowerCode rs n = n := by
  induction rs with
  | nil => rfl
  | cons s rs ih =>
    rw [lowerCode]
    split
    · rfl
    · next hfirst =>
      simp only [CaseRun.avoids, Bool.or_eq_true, Bool.and_eq_true, Nat.blt_eq] at h
      rcases h with hends | ⟨hpasses, havoids⟩
      · exact absurd (Nat.lt_of_le_of_lt hn.2.1 hends) hfirst
      · have hnot := CaseRun.not_has_of_passes hpasses hn
        rw [if_neg fun hhas => hnot ⟨Nat.not_lt.mp hfirst, hhas⟩, ih havoids]

/-- No lower-case form of a run is moved by the table, or is the character that has two in its
lower-case form. -/
theorem caseRuns_lowered : ∀ r ∈ caseRuns, 0 ≤ (r.first : Int) + r.shift ∧
    ¬ r.lowered.Has 'İ'.toNat ∧ r.lowered.avoids caseRuns = true := by
  decide +kernel

/-! ## Characters and texts -/

theorem isLowered_ofNat {n : Nat} (hdotted : n ≠ 'İ'.toNat) (h : lowerCode caseRuns n = n) :
    IsLowered (Char.ofNat n) := by
  by_cases hvalid : n.isValidChar
  · have hn : (Char.ofNat n).toNat = n := by
      rw [Char.ofNat, dif_pos hvalid]
      rfl
    have hne : Char.ofNat n ≠ 'İ' := fun heq => hdotted (by rw [← hn, heq])
    rw [IsLowered, lowerChar, if_neg hne, hn, h]
  · rw [Char.ofNat, dif_neg hvalid]
    decide

/-- What the mapping writes is in lower case. -/
theorem isLowered_of_mem_lowerChar {c d : Char} (h : d ∈ lowerChar c) : IsLowered d := by
  unfold lowerChar at h
  split at h
  · rcases List.mem_cons.mp h with rfl | h
    · decide
    · obtain rfl := List.mem_singleton.mp h
      decide
  · next hdotted =>
    obtain rfl := List.mem_singleton.mp h
    rcases lowerCode_cases caseRuns c.toNat with hsame | ⟨r, hr, hhas, hmoved⟩
    · rw [hsame]
      exact isLowered_ofNat (fun heq => hdotted (Char.toNat_inj.mp heq)) hsame
    · obtain ⟨hpos, hother, havoids⟩ := caseRuns_lowered r hr
      have hlowered := CaseRun.has_lowered hhas hpos
      rw [hmoved]
      refine isLowered_ofNat (fun heq => hother (heq ▸ hlowered)) ?_
      exact CaseRun.lowerCode_eq_self havoids hlowered

theorem isLowered_of_mem_lowerFrom {afterCased : Bool} {cs : List Char} {d : Char}
    (h : d ∈ lowerFrom afterCased cs) : IsLowered d := by
  induction cs generalizing afterCased with
  | nil => cases h
  | cons c cs ih =>
    rw [lowerFrom] at h
    rcases List.mem_append.mp h with hfirst | hrest
    · split at hfirst
      · obtain rfl := List.mem_singleton.mp hfirst
        split <;> decide
      · exact isLowered_of_mem_lowerChar hfirst
    · exact ih hrest

theorem isLowered_of_mem_lower {text : String} {d : Char} (h : d ∈ (lower text).toList) :
    IsLowered d := by
  rw [lower, String.toList_ofList] at h
  exact isLowered_of_mem_lowerFrom h

theorem lowerFrom_eq_self {cs : List Char} (h : ∀ c ∈ cs, IsLowered c) (afterCased : Bool) :
    lowerFrom afterCased cs = cs := by
  induction cs generalizing afterCased with
  | nil => rfl
  | cons c cs ih =>
    obtain ⟨hc, hcs⟩ := List.forall_mem_cons.mp h
    have hsigma : c ≠ 'Σ' := by
      rintro rfl
      revert hc
      decide
    rw [lowerFrom, if_neg hsigma, hc, ih hcs]
    rfl

/-- A text of characters in lower case stays as it is. -/
theorem lower_eq_self {text : String} (h : ∀ c ∈ text.toList, IsLowered c) : lower text = text := by
  rw [lower, lowerFrom_eq_self h, String.ofList_toList]

end TextAdventure.Text
