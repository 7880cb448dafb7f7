import TextAdventure.Proofs.Text.Levelled

/-!
# Texts with single spaces

In words that are put together with single spaces no two spaces stand side by side, and none
stands at an end (`isSpaced_joinWith`).  If such a text is cut into lines, there is nothing
but one space for each gap, and nothing for the ends.  So the lines put together with single
spaces are the text again (`IsCut.joinWith_of_words`), whichever words a line has.
-/

namespace TextAdventure.Text

/-! ## Single spaces -/

/-- No two spaces stand side by side, and none at an end. -/
structure IsSpaced (cs : List Char) : Prop where
  single : cs.IsChain fun c d => ¬ (c = ' ' ∧ d = ' ')
  begins : cs.head? ≠ some ' '
  ends : cs.getLast? ≠ some ' '

theorem isSpaced_word {w : List Char} (h : IsWord isBlank w) : IsSpaced w := by
  have hletters := h.space_not_mem
  refine ⟨List.Pairwise.isChain (List.pairwise_of_forall_mem_list ?_), fun hspace => ?_,
    fun hspace => ?_⟩
  · rintro c hc d hd ⟨rfl, -⟩
    exact hletters hc
  · exact hletters (List.mem_of_head? hspace)
  · exact hletters (List.mem_of_getLast? hspace)

theorem isSpaced_joinWith : ∀ {ws : List (List Char)}, (∀ w ∈ ws, IsWord isBlank w) →
    IsSpaced (joinWith ' ' ws)
  | [], _ => ⟨.nil, by simp [joinWith], by simp [joinWith]⟩
  | [w], h => isSpaced_word (h w List.mem_cons_self)
  | w :: v :: ws, h => by
    obtain ⟨hw, hrest⟩ := List.forall_mem_cons.mp h
    have hspaced := isSpaced_word hw
    obtain ⟨hsingle, hbegins, hends⟩ := isSpaced_joinWith hrest
    have hne : joinWith ' ' (v :: ws) ≠ [] := by
      intro hnil
      have hwords := splitWords_joinWith isBlank_space (v :: ws) hrest
      rw [hnil] at hwords
      cases hwords
    refine ⟨List.isChain_append.mpr ⟨hspaced.single, List.isChain_cons.mpr ⟨?_, hsingle⟩, ?_⟩,
      ?_, ?_⟩
    · rintro d hd ⟨-, rfl⟩
      exact hbegins hd
    · rintro c hc d - ⟨rfl, -⟩
      exact hspaced.ends hc
    · rw [joinWith, List.head?_append_of_ne_nil _ hw.1]
      exact hspaced.begins
    · rw [joinWith, List.getLast?_append_of_ne_nil _ (List.cons_ne_nil _ _),
        List.getLast?_cons_of_ne_nil hne]
      exact hends

theorem eq_space_of_mem_joinWith {ws : List (List Char)} (h : ∀ w ∈ ws, IsWord isBlank w) :
    ∀ c ∈ joinWith ' ' ws, isBlank c = true → c = ' ' := by
  intro c hc hblank
  refine (eq_or_mem_of_mem_joinWith hc).resolve_right fun ⟨w, hw, hcw⟩ => ?_
  rw [(h w hw).2 c hcw] at hblank
  cases hblank

theorem levelSpaces_eq_self {cs : List Char} (h : ∀ c ∈ cs, isBlank c = true → c = ' ') :
    levelSpaces cs = cs := by
  have htab : ∀ (column : Nat) (ds : List Char), '\t' ∉ ds → expandTabs column ds = ds := by
    intro column ds hds
    induction ds generalizing column with
    | nil => rfl
    | cons d ds ih =>
      rw [List.mem_cons, not_or] at hds
      obtain ⟨hd, hrest⟩ := hds
      rw [expandTabs, if_neg (Ne.symm hd)]
      split <;> rw [ih _ hrest]
  have hnoTab : '\t' ∉ cs := fun hmem => absurd (h '\t' hmem (by decide)) (by decide)
  rw [levelSpaces, htab 0 cs hnoTab]
  refine (List.map_congr_left fun c hc => ?_).trans (List.map_id cs)
  by_cases hspace : isAsciiSpace c = true
  · rw [if_pos hspace, h c hc (isBlank_of_isAsciiSpace hspace), id]
  · rw [if_neg hspace, id]

/-! ## Cuts at single spaces -/

theorem eq_single_space {gap : List Char} (hne : gap ≠ []) (hspaces : IsSpaces gap)
    (hsingle : gap.IsChain fun c d => ¬ (c = ' ' ∧ d = ' ')) : gap = [' '] := by
  obtain ⟨c, gap, rfl⟩ := List.exists_cons_of_ne_nil hne
  obtain rfl := hspaces c List.mem_cons_self
  cases gap with
  | nil => rfl
  | cons d gap =>
    have hd := hspaces d (by simp)
    exact absurd ⟨rfl, hd⟩ (List.isChain_cons_cons.mp hsingle).1

theorem eq_nil_of_ends {cs gap : List Char} (hspaces : IsSpaces gap)
    (hends : (cs ++ gap).getLast? ≠ some ' ') : gap = [] := by
  by_contra hne
  obtain ⟨front, c, rfl⟩ := (List.eq_nil_or_concat gap).resolve_left hne
  obtain rfl := hspaces c (by simp)
  exact hends (by simp [← List.append_assoc])

/-- Behind a line and its gap the text is cut into the other lines. -/
theorem IsCut.behind {text lead : List Char} {p : Piece} {ps : List Piece}
    (h : IsCut text lead (p :: ps)) :
    ∃ later, text = lead ++ (p.line ++ (p.gap ++ later)) ∧ IsCut later [] ps := by
  obtain ⟨hwhole, -, hgap, hne, hline⟩ := h
  rw [List.flatMap_cons, List.append_assoc] at hwhole
  refine ⟨_, hwhole, rfl, by simp, (List.forall_mem_cons.mp hgap).2, fun q hq => hne q ?_,
    (List.forall_mem_cons.mp hline).2⟩
  cases ps with
  | nil => cases hq
  | cons r rs => exact List.mem_cons_of_mem _ hq

/-- The lines of a text with single spaces are put together with single spaces. -/
theorem IsCut.eq_joinWith {text : List Char} {pieces : List Piece} (h : IsCut text [] pieces)
    (hspace : ∀ c ∈ text, isBlank c = true → c = ' ')
    (hsingle : text.IsChain fun c d => ¬ (c = ' ' ∧ d = ' ')) (hends : text.getLast? ≠ some ' ') :
    text = joinWith ' ' (pieces.map Piece.line) := by
  induction pieces generalizing text with
  | nil => simpa [joinWith] using h.whole
  | cons p ps ih =>
    have hgap := h.gap_blank p List.mem_cons_self
    have hgapNe := h.gap_ne_nil
    obtain ⟨later, rfl, hlater⟩ := h.behind
    rw [List.nil_append] at hspace hsingle hends ⊢
    have hspaces : IsSpaces p.gap := fun c hc =>
      hspace c (List.mem_append_right _ (List.mem_append_left _ hc)) (hgap c hc)
    cases ps with
    | nil =>
      obtain rfl : later = [] := hlater.whole
      rw [List.append_nil] at hends
      simp [eq_nil_of_ends hspaces hends, joinWith]
    | cons q qs =>
      obtain ⟨hfirst, hrest, -⟩ := List.isChain_append.mp (List.isChain_append.mp hsingle).2.1
      have hlaterNe : later ≠ [] := by
        rintro rfl
        cases hlater.pieces_eq_nil
      rw [List.getLast?_append_of_ne_nil _ (List.append_ne_nil_of_right_ne_nil _ hlaterNe),
        List.getLast?_append_of_ne_nil _ hlaterNe] at hends
      have hjoin := ih hlater (fun c hc => hspace c (by simp [hc])) hrest hends
      rw [eq_single_space (hgapNe p (by simp)) hspaces hfirst, hjoin]
      rfl

/-- The lines of a text that has only single spaces give the text back. -/
theorem IsCut.joinWith_of_words {text lead : List Char} {pieces : List Piece}
    (h : IsCut text lead pieces) {ws : List (List Char)} (hws : ∀ w ∈ ws, IsWord isBlank w)
    (htext : text = joinWith ' ' ws) : joinWith ' ' (pieces.map Piece.line) = text := by
  have hspace := eq_space_of_mem_joinWith hws
  obtain ⟨hsingle, hbegins, hends⟩ := isSpaced_joinWith hws
  rw [← htext] at hspace hsingle hbegins hends
  have hlead : lead = [] := by
    cases lead with
    | nil => rfl
    | cons c lead =>
      have hwhole := h.whole
      have hc : c = ' ' := hspace c (by simp [hwhole]) (h.lead_blank c List.mem_cons_self)
      exact absurd (by simp [hwhole, hc]) hbegins
  subst hlead
  exact (h.eq_joinWith hspace hsingle hends).symm

end TextAdventure.Text
