import TextAdventure.Proofs.Template.Entries
import TextAdventure.Proofs.Text.Lines

/-!
# Outlines tell trees apart

What is printed of a tree is a beginning of the lines of its entries, and all of them unless the
tree is too tall (`Node.printout_shows`, `Node.stop_printout`).  Two known trees of which all is
printed are told apart, since the lines tell the entries and the entries the tree
(`Node.outline_injective`).  Trees that are too tall need not be: two templates with enough
segments print as the same sequences inside one another (`Node.printout_ofSegments`).
-/

namespace TextAdventure.Template

open Text

/-! ## What is printed -/

/-- Some of the lines are printed, and all of them if nothing stops it. -/
def Printout.Shows (p : Printout) (lines : List String) : Prop :=
  p.lines <+: lines ∧ (p.stop = none → p.lines = lines)

theorem Printout.shows_nil : Printout.Shows ⟨[], none⟩ [] := ⟨List.prefix_rfl, fun _ => rfl⟩

theorem Printout.Shows.andThen {p q : Printout} {lines more : List String} (hp : p.Shows lines)
    (hq : q.Shows more) : (p.andThen q).Shows (lines ++ more) := by
  unfold Printout.andThen
  cases hstop : p.stop with
  | none =>
    rw [hp.2 hstop]
    exact ⟨(List.prefix_append_right_inj lines).mpr hq.1, fun hrest => by rw [hq.2 hrest]⟩
  | some e =>
    refine ⟨hp.1.trans (List.prefix_append lines more), fun hnone => ?_⟩
    rw [hstop] at hnone
    cases hnone

theorem Printout.Shows.under {below : Printout} {lines : List String} (h : below.Shows lines)
    (frames : Nat) (e : OutlineEntry) :
    (Printout.under frames e below).Shows (e.line :: lines) := by
  cases frames with
  | zero => exact ⟨List.nil_prefix, nofun⟩
  | succ frames =>
    exact ⟨List.cons_prefix_cons.mpr ⟨rfl, h.1⟩, fun hnone => congrArg _ (h.2 hnone)⟩

@[simp] theorem Printout.stop_andThen (p q : Printout) :
    (p.andThen q).stop = p.stop.or q.stop := by
  unfold Printout.andThen
  cases hstop : p.stop with
  | none => rfl
  | some e => exact hstop

@[simp] theorem Printout.stop_under (frames : Nat) (e : OutlineEntry) (below : Printout) :
    (Printout.under frames e below).stop = if frames = 0 then some .overflow else below.stop := by
  cases frames <;> rfl

mutual

/-- What is printed of a tree is a beginning of its outline. -/
theorem Node.printout_shows : ∀ (n : Node) (frames depth : Nat),
    (n.printout frames depth).Shows ((n.entries depth).map OutlineEntry.line)
  | .sequence l r, frames, depth => by
    simp only [Node.printout, Node.entries, List.map_cons, List.map_append]
    exact ((l.printout_shows _ _).andThen (r.printout_shows _ _)).under _ _
  | .call f as, frames, depth => by
    simp only [Node.printout, Node.entries, List.map_cons, List.map_append]
    exact ((f.printout_shows _ _).andThen (Node.printoutOfAll_shows as _ _)).under _ _
  | .unknown, frames, depth => by
    rw [Node.printout]
    exact ⟨List.nil_prefix, nofun⟩
  | .empty, frames, depth | .literal _, frames, depth | .quoted _, frames, depth
  | .name _, frames, depth => by
    simp only [Node.printout, Node.entries, List.map_cons, List.map_nil]
    exact Printout.shows_nil.under _ _

theorem Node.printoutOfAll_shows : ∀ (as : List Node) (frames depth : Nat),
    (Node.printoutOfAll frames depth as).Shows
      ((Node.entriesOfAll depth as).map OutlineEntry.line)
  | [], _, _ => by
    simp only [Node.printoutOfAll, Node.entriesOfAll, List.map_nil]
    exact Printout.shows_nil
  | a :: as, frames, depth => by
    simp only [Node.printoutOfAll, Node.entriesOfAll, List.map_append]
    exact (a.printout_shows _ _).andThen (Node.printoutOfAll_shows as _ _)

end

mutual

/-- All of a known tree is printed if there are frames for its height, and otherwise it
overflows. -/
theorem Node.stop_printout : ∀ {n : Node}, n.isKnown = true → ∀ frames depth : Nat,
    (n.printout frames depth).stop = if n.height ≤ frames then none else some .overflow
  | .sequence l r, h, frames, depth => by
    simp only [Node.isKnown, Bool.and_eq_true] at h
    simp only [Node.printout, Node.height, Printout.stop_under, Printout.stop_andThen,
      Node.stop_printout h.1, Node.stop_printout h.2]
    grind
  | .call f as, h, frames, depth => by
    simp only [Node.isKnown, Bool.and_eq_true] at h
    simp only [Node.printout, Node.height, Printout.stop_under, Printout.stop_andThen,
      Node.stop_printout h.1, Node.stop_printoutOfAll h.2]
    grind
  | .empty, _, frames, depth | .literal _, _, frames, depth | .quoted _, _, frames, depth
  | .name _, _, frames, depth => by
    simp only [Node.printout, Node.height, Printout.stop_under]
    grind

theorem Node.stop_printoutOfAll : ∀ {as : List Node}, Node.areKnown as = true →
    ∀ frames depth : Nat, (Node.printoutOfAll frames depth as).stop =
      if Node.tallest as ≤ frames then none else some .overflow
  | [], _, frames, depth => by simp [Node.printoutOfAll, Node.tallest]
  | a :: as, h, frames, depth => by
    simp only [Node.areKnown, Bool.and_eq_true] at h
    simp only [Node.printoutOfAll, Node.tallest, Printout.stop_andThen, Node.stop_printout h.1,
      Node.stop_printoutOfAll h.2]
    grind

end

/-! ## Outlines -/

theorem Node.stop_outline {n : Node} (h : n.isKnown = true) :
    n.outline.stop = if n.height ≤ freeFrames then none else some .overflow :=
  Node.stop_printout h freeFrames 0

theorem Node.lines_outline {n : Node} (h : n.isKnown = true) (hheight : n.height ≤ freeFrames) :
    n.outline.lines = (n.entries 0).map OutlineEntry.line :=
  (n.printout_shows freeFrames 0).2 (by rw [Node.stop_printout h, if_pos hheight])

/-- The outline of a known tree of which all is printed tells the tree. -/
theorem Node.outline_injective {a b : Node} (ha : a.isKnown = true) (hb : b.isKnown = true)
    (haheight : a.height ≤ freeFrames) (hbheight : b.height ≤ freeFrames)
    (h : a.outline.lines = b.outline.lines) : a = b := by
  rw [Node.lines_outline ha haheight, Node.lines_outline hb hbheight] at h
  have hentries := map_line_injective (fun e => Node.isProper_of_mem_entries)
    (fun f => Node.isProper_of_mem_entries) h
  exact Node.entries_injective ha hb hentries

/-- No line that is printed of an outline ends before its end. -/
theorem Node.isLineBreak_of_mem_outline {n : Node} {line : String} (hline : line ∈ n.outline.lines)
    {c : Char} (hc : c ∈ line.toList) : isLineBreak c = false := by
  have hwhole := (n.printout_shows freeFrames 0).1.subset hline
  obtain ⟨e, he, rfl⟩ := List.mem_map.mp hwhole
  exact OutlineEntry.isLineBreak_of_mem_line (Node.isProper_of_mem_entries he) hc

/-- Known trees that are not too tall have the same outline if and only if they are the same tree.
All of a known tree is printed if it is not too tall, and otherwise printing overflows.  What an
outline shows of a text has no end of a line in it, so a written outline is cut into its lines, and
a complete one into one line for each node. -/
theorem outline_identifies (a b : Node) :
    (a.isKnown = true → b.isKnown = true → a.height ≤ freeFrames → b.height ≤ freeFrames →
        (a.outline.lines = b.outline.lines ↔ a = b)) ∧
      (∀ text : String, ∀ c ∈ (quote text).toList, isLineBreak c = false) ∧
      ((∀ line ∈ a.outline.lines, ∀ c ∈ line.toList, isLineBreak c = false) ∧
        inputLines (unlines a.outline.lines) = a.outline.lines) ∧
      (a.isKnown = true →
        a.outline.stop = (if a.height ≤ freeFrames then none else some .overflow) ∧
          (a.height ≤ freeFrames → a.outline.lines.length = a.size)) := by
  refine ⟨?_, ?_, ?_, fun ha => ⟨Node.stop_outline ha, fun hheight => ?_⟩⟩
  · intro ha hb haheight hbheight
    exact ⟨Node.outline_injective ha hb haheight hbheight, fun h => h ▸ rfl⟩
  · intro text c hc
    exact isLineBreak_of_isPrintable (isPrintable_of_mem_quote hc)
  · have hunbroken : ∀ line ∈ a.outline.lines, ∀ c ∈ line.toList, isLineBreak c = false :=
      fun line hline c hc => Node.isLineBreak_of_mem_outline hline hc
    refine ⟨hunbroken, linesOf_iff.mp ⟨?_, .inl rfl⟩⟩
    intro line hline hfeed
    exact absurd (hunbroken line hline '\n' hfeed) (by decide)
  · rw [Node.lines_outline ha hheight, List.length_map, Node.length_entries]

/-- An argument of the inner call and one of the outer call are told apart, and so are a line feed
and a text that spells its escape. -/
theorem outline_identifies_nested :
    let inner := Node.call (.name "f") [.call (.name "g") [.quoted "a\n"]]
    let outer := Node.call (.name "f") [.call (.name "g") [], .quoted "a\n"]
    let spelled := Node.call (.name "f") [.call (.name "g") [.quoted "a\\n"]]
    inner.outline.lines ≠ outer.outline.lines ∧ inner.outline.lines ≠ spelled.outline.lines ∧
      inner.outline.stop = none ∧ inner.outline.lines.length = 5 := by
  intro inner outer spelled
  obtain ⟨houterIff, -, -, hknown⟩ := outline_identifies inner outer
  obtain ⟨hspelledIff, -⟩ := outline_identifies inner spelled
  have hinner : inner.isKnown = true := rfl
  have hheights : inner.height ≤ freeFrames ∧ outer.height ≤ freeFrames ∧
      spelled.height ≤ freeFrames := by decide
  have houter : inner ≠ outer := by decide
  have hspelled : inner ≠ spelled := by decide
  obtain ⟨hstop, hlength⟩ := hknown hinner
  refine ⟨mt (houterIff hinner rfl hheights.1 hheights.2.1).mp houter,
    mt (hspelledIff hinner rfl hheights.1 hheights.2.2).mp hspelled, ?_, hlength hheights.1⟩
  rw [hstop, if_pos hheights.1]

/-! ## Trees that are too tall -/

theorem Node.printout_zero (n : Node) (depth : Nat) :
    n.printout 0 depth = ⟨[], some .overflow⟩ := by
  cases n <;> simp [Node.printout, Printout.under]

/-- A template with more segments than there are frames is printed as sequences inside one another,
whatever its segments are. -/
theorem Node.printout_ofSegments {frames : Nat} {segments : List Node}
    (h : frames < segments.length) (depth : Nat) :
    (Node.ofSegments segments).printout frames depth =
      ⟨(List.range' depth frames).map fun k => (OutlineEntry.mk k "Sequence" none).line,
        some .overflow⟩ := by
  induction frames generalizing segments depth with
  | zero => exact Node.printout_zero ..
  | succ frames ih =>
    -- The last segment is not reached: what is in front of it overflows.
    rcases List.eq_nil_or_concat segments with rfl | ⟨front, last, rfl⟩
    · cases h
    · rw [List.concat_eq_append] at h ⊢
      rw [List.length_append, List.length_singleton] at h
      have hpos : 0 < front.length := by omega
      obtain ⟨s, front, rfl⟩ := List.exists_cons_of_ne_nil (List.ne_nil_of_length_pos hpos)
      rw [Node.ofSegments_concat, Node.printout, Nat.add_sub_cancel, ih (by omega)]
      rfl

theorem Node.isKnown_ofSegments {segments : List Node} (h : ∀ s ∈ segments, s.isKnown = true) :
    (Node.ofSegments segments).isKnown = true := by
  have hfold : ∀ (rest : List Node) (s : Node), s.isKnown = true →
      (∀ t ∈ rest, t.isKnown = true) → (rest.foldl Node.sequence s).isKnown = true := by
    intro rest
    induction rest with
    | nil => exact fun s hs _ => hs
    | cons t rest ih =>
      intro s hs hrest
      obtain ⟨ht, hrest⟩ := List.forall_mem_cons.mp hrest
      exact ih _ (by simp [Node.isKnown, hs, ht]) hrest
  cases segments with
  | nil => rfl
  | cons s rest =>
    obtain ⟨hs, hrest⟩ := List.forall_mem_cons.mp h
    exact hfold rest s hs hrest

/-- Two templates of twelve hundred quoted strings print alike. -/
theorem exists_outlines_alike :
    ∃ a b : Node, a.isKnown = true ∧ b.isKnown = true ∧ a.outline = b.outline ∧ a ≠ b := by
  have hknown : ∀ text, (Node.ofSegments (List.replicate 1200 (.quoted text))).isKnown = true :=
    fun text => Node.isKnown_ofSegments fun s hs => by rw [List.eq_of_mem_replicate hs]; rfl
  have houtline : ∀ text, (Node.ofSegments (List.replicate 1200 (.quoted text))).outline =
      ⟨(List.range' 0 freeFrames).map fun k => (OutlineEntry.mk k "Sequence" none).line,
        some .overflow⟩ :=
    fun text => Node.printout_ofSegments (by rw [List.length_replicate]; decide) 0
  refine ⟨_, _, hknown "x", hknown "y", (houtline "x").trans (houtline "y").symm, fun hsame => ?_⟩
  -- The last segments differ.
  have hlast : ∀ text, Node.ofSegments (List.replicate 1200 (.quoted text)) =
      .sequence (Node.ofSegments (List.replicate 1199 (.quoted text))) (.quoted text) :=
    fun text => by
      rw [List.replicate_succ', List.replicate_succ, Node.ofSegments_concat]
  rw [hlast, hlast] at hsame
  exact absurd (Node.quoted.inj (Node.sequence.inj hsame).2) (by decide)

end TextAdventure.Template
