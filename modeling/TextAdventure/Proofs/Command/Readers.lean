import TextAdventure.Proofs.Command.Derivations
import TextAdventure.Proofs.Command.Places

/-!
# Readers of a grammar

What a reader of sentences is to do with a text is said by the grammar, as a relation between
what is in front, the tokens read from it, what is ahead, and the outcome (`Reads`).  A
terminal is picked only if the sentence may go on with it or if it is ignored, and one of a
higher priority before others (`Picks`).  Where none can be picked, the terminals that the
sentence may not go on with are tried as well, to tell what stands there.  A reader follows the
grammar if all its outcomes are such (`FollowsGrammar`).

Reading with the phrases behind the tokens does follow the grammar, whatever the grammar is
(`Grammar.read_followsGrammar`).
-/

namespace TextAdventure

/-! ## The documented outcome -/

section
variable (g : Grammar)

/-- A terminal with an accepted name matches so many characters at the start of a text, and none of
a higher priority matches there. -/
structure Picks (accepts : String → Prop) (cs : List Char) (x : Terminal) (k : Nat) : Prop where
  mem : x ∈ g.terminals
  accepted : accepts x.name
  length_eq : x.length? cs = some k
  priority_le : ∀ y ∈ g.terminals, accepts y.name → y.length? cs ≠ none →
    y.priority ≤ x.priority

/-- No terminal with an accepted name matches at the start of a text. -/
def PicksNone (accepts : String → Prop) (cs : List Char) : Prop :=
  ∀ y ∈ g.terminals, accepts y.name → y.length? cs = none

/-- A terminal may be picked behind tokens: it is ignored, or the sentence may go on with it. -/
def Grammar.Accepts (ts : List Token) (name : String) : Prop :=
  name ∈ g.ignored ∨ Expects g.body ts name

/-- The outcome of reading a text, behind `before`, from which the tokens were read. -/
inductive Reads : List Char → List Token → List Char → Except SentenceError Tree → Prop where
  /-- Ignored characters are passed over. -/
  | ignored {before used rest : List Char} {ts : List Token} {x : Terminal}
      {o : Except SentenceError Tree} (picks : Picks g (g.Accepts ts) (used ++ rest) x used.length)
      (ignores : x.name ∈ g.ignored) (tail : Reads (before ++ used) ts rest o) :
      Reads before ts (used ++ rest) o
  /-- Other characters are a token. -/
  | token {before used rest : List Char} {ts : List Token} {x : Terminal}
      {o : Except SentenceError Tree} (picks : Picks g (g.Accepts ts) (used ++ rest) x used.length)
      (counts : x.name ∉ g.ignored)
      (tail : Reads (before ++ used)
        (ts ++ [⟨x.name, String.ofList used, Place.behind before⟩]) rest o) :
      Reads before ts (used ++ rest) o
  /-- The text ends with the sentence. -/
  | sentence {before : List Char} {ts : List Token} {children : List Tree}
      (derives : Derives g.body ts children) : Reads before ts [] (.ok (.branch g.start children))
  /-- The text ends before the sentence. -/
  | unfinished {before : List Char} {ts : List Token}
      (none : ∀ children, ¬ Derives g.body ts children) :
      Reads before ts [] (.error (.unexpectedToken (endToken (ts.getLast?.map Token.place))))
  /-- The sentence may not go on with what stands here. -/
  | unexpectedToken {before used rest : List Char} {ts : List Token} {x : Terminal}
      (none : PicksNone g (g.Accepts ts) (used ++ rest))
      (picks : Picks g (fun _ => True) (used ++ rest) x used.length) :
      Reads before ts (used ++ rest)
        (.error (.unexpectedToken ⟨x.name, String.ofList used, Place.behind before⟩))
  /-- Nothing matches what stands here. -/
  | unexpectedCharacter {before rest : List Char} {c : Char} {ts : List Token}
      (none : PicksNone g (fun _ => True) (c :: rest)) :
      Reads before ts (c :: rest) (.error (.unexpectedCharacter (Place.behind before)))

/-- The reader gives what the grammar says about every text. -/
def FollowsGrammar (read : String → Except SentenceError Tree) : Prop :=
  ∀ text, Reads g [] [] text.toList (read text)

end

/-! ## Picking a terminal -/

/-- What is picked when more is accepted was not accepted where nothing is picked. -/
theorem PicksNone.not_accepts {g : Grammar} {accepts accepts' : String → Prop} {cs : List Char}
    {x : Terminal} {k : Nat} (h : PicksNone g accepts cs) (hpicks : Picks g accepts' cs x k) :
    ¬ accepts x.name := by
  intro haccepts
  have hnone := h x hpicks.mem haccepts
  rw [hpicks.length_eq] at hnone
  cases hnone

theorem Pattern.le_of_mem_lengths {p : Pattern} {cs : List Char} {k : Nat}
    (h : k ∈ p.lengths cs) : k ≤ cs.length := by
  induction p generalizing cs k with
  | anyOf alternatives =>
    obtain ⟨word, hword, rfl⟩ := List.mem_map.mp h
    have hstarts : word.toList <+: cs := by simpa using (List.mem_filter.mp hword).2
    exact hstarts.length_le
  | run members =>
    simp only [Pattern.lengths, List.mem_map, List.mem_reverse, List.mem_range] at h
    obtain ⟨l, hl, rfl⟩ := h
    exact Nat.le_trans hl (List.takeWhile_sublist _).length_le
  | notBefore members =>
    rw [Pattern.lengths] at h
    split at h
    · cases h
    · rw [List.mem_singleton.mp h]
      exact Nat.zero_le _
  | andThen p q ihp ihq =>
    simp only [Pattern.lengths, List.mem_flatMap, List.mem_map] at h
    obtain ⟨l, hl, m, hm, rfl⟩ := h
    have hp := ihp hl
    have hq := ihq hm
    rw [List.length_drop] at hq
    omega

theorem Terminal.length?_bounds {x : Terminal} {cs : List Char} {k : Nat}
    (h : x.length? cs = some k) : 0 < k ∧ k ≤ cs.length := by
  rw [Terminal.length?, Option.filter_eq_some_iff] at h
  exact ⟨by simpa using h.2, Pattern.le_of_mem_lengths (List.mem_of_head? h.1)⟩

theorem pickFrom_eq_none_iff {cs : List Char} {xs : List Terminal} :
    pickFrom cs xs = none ↔ ∀ y ∈ xs, y.length? cs = none := by
  induction xs with
  | nil => simp [pickFrom]
  | cons z xs ih =>
    rw [pickFrom, List.forall_mem_cons, ← ih]
    cases z.length? cs <;> cases pickFrom cs xs <;> simp
    split <;> simp

theorem pickFrom_eq_some {cs : List Char} {xs : List Terminal} {x : Terminal} {k : Nat}
    (h : pickFrom cs xs = some (x, k)) : x ∈ xs ∧ x.length? cs = some k ∧
      ∀ y ∈ xs, y.length? cs ≠ none → y.priority ≤ x.priority := by
  induction xs generalizing x k with
  | nil => cases h
  | cons z xs ih =>
    rw [pickFrom] at h
    cases hz : z.length? cs with
    | none =>
      rw [hz] at h
      obtain ⟨hmem, hlength, hpriority⟩ := ih h
      refine ⟨List.mem_cons_of_mem z hmem, hlength, List.forall_mem_cons.mpr ⟨?_, hpriority⟩⟩
      exact fun hmatches => absurd hz hmatches
    | some l =>
      cases hlater : pickFrom cs xs with
      | none =>
        rw [hz, hlater, Option.some.injEq, Prod.mk.injEq] at h
        obtain ⟨rfl, rfl⟩ := h
        refine ⟨List.mem_cons_self, hz, List.forall_mem_cons.mpr ⟨fun _ => Nat.le_refl _, ?_⟩⟩
        exact fun y hy hmatches => absurd (pickFrom_eq_none_iff.mp hlater y hy) hmatches
      | some best =>
        obtain ⟨y, m⟩ := best
        obtain ⟨hmem, hlength, hpriority⟩ := ih hlater
        simp only [hz, hlater] at h
        split at h
        · next hlt =>
          rw [Option.some.injEq, Prod.mk.injEq] at h
          obtain ⟨rfl, rfl⟩ := h
          exact ⟨List.mem_cons_of_mem z hmem, hlength,
            List.forall_mem_cons.mpr ⟨fun _ => Nat.le_of_lt hlt, hpriority⟩⟩
        · next hge =>
          rw [Option.some.injEq, Prod.mk.injEq] at h
          obtain ⟨rfl, rfl⟩ := h
          exact ⟨List.mem_cons_self, hz, List.forall_mem_cons.mpr ⟨fun _ => Nat.le_refl _,
            fun y hy hmatches => Nat.le_trans (hpriority y hy hmatches) (Nat.le_of_not_lt hge)⟩⟩

section
variable {g : Grammar} {accepts : String → Bool} {cs : List Char}

theorem Grammar.picks_of_pick? {x : Terminal} {k : Nat} (h : g.pick? accepts cs = some (x, k)) :
    Picks g (accepts · = true) cs x k := by
  obtain ⟨hmem, hlength, hpriority⟩ := pickFrom_eq_some h
  obtain ⟨hx, haccepts⟩ := List.mem_filter.mp hmem
  exact ⟨hx, haccepts, hlength, fun y hy hyaccepts =>
    hpriority y (List.mem_filter.mpr ⟨hy, hyaccepts⟩)⟩

theorem Grammar.picksNone_of_pick? (h : g.pick? accepts cs = none) :
    PicksNone g (accepts · = true) cs :=
  fun y hy haccepts => pickFrom_eq_none_iff.mp h y (List.mem_filter.mpr ⟨hy, haccepts⟩)

end

/-! ## Reading follows the grammar -/

variable {g : Grammar}

/-- Characters that have been read are passed over. -/
theorem Grammar.readFrom_skipped (phrases : List Phrase) (last : Option Place)
    {before used : List Char} (rest : List Char) :
    g.readFrom phrases last (Place.behind before) used.length (used ++ rest) =
      g.readFrom phrases last (Place.behind (before ++ used)) 0 rest := by
  induction used generalizing before with
  | nil => rw [List.append_nil]; rfl
  | cons c used ih =>
    rw [List.cons_append, List.length_cons, Grammar.readFrom, ← Place.behind_concat, ih,
      ← List.append_cons]

/-- What a terminal matches is passed over, its first character like the others. -/
theorem Grammar.readFrom_behind (phrases : List Phrase) (last : Option Place)
    {before used rest cs : List Char} {c : Char} (h : c :: cs = used ++ rest)
    (hne : 0 < used.length) :
    g.readFrom phrases last ((Place.behind before).after c) (used.length - 1) cs =
      g.readFrom phrases last (Place.behind (before ++ used)) 0 rest := by
  cases used with
  | nil => cases hne
  | cons d used =>
    rw [List.cons_append] at h
    obtain ⟨rfl, rfl⟩ := List.cons.inj h
    rw [← Place.behind_concat, List.length_cons, Nat.add_sub_cancel, Grammar.readFrom_skipped,
      ← List.append_cons]

theorem Grammar.accepts_iff (ts : List Token) (name : String) :
    (name ∈ g.ignored || (phrasesBehind [g.body] ts).any fun p => p.expects name) = true ↔
      g.Accepts ts name := by
  rw [Bool.or_eq_true, decide_eq_true_eq, ← expects_iff]
  rfl

theorem exists_append_of_le_length {cs : List Char} {k : Nat} (h : k ≤ cs.length) :
    ∃ used rest, cs = used ++ rest ∧ used.length = k :=
  ⟨cs.take k, cs.drop k, (List.take_append_drop k cs).symm, List.length_take_of_le h⟩

/-- The outcome of reading goes with the grammar, with the phrases behind the tokens.  The
induction is on the length of what is ahead, since a terminal may match any number of characters. -/
theorem Grammar.reads_readFrom (before : List Char) (ts : List Token) (cs : List Char) :
    Reads g before ts cs (g.readFrom (phrasesBehind [g.body] ts)
      (ts.getLast?.map Token.place) (Place.behind before) 0 cs) := by
  match cs with
  | [] =>
    rw [Grammar.readFrom]
    split
    · next hnone =>
      refine .unfinished fun children h => ?_
      rw [derives_iff, hnone] at h
      cases h
    · next children more hsome =>
      exact .sentence (derives_iff.mpr (hsome ▸ List.mem_cons_self))
  | c :: cs =>
    rw [Grammar.readFrom]
    split
    · next x k hpick =>
      have hpicks := Grammar.picks_of_pick? hpick
      simp only [Grammar.accepts_iff] at hpicks
      obtain ⟨hpos, hle⟩ := Terminal.length?_bounds hpicks.length_eq
      obtain ⟨used, rest, hwhole, rfl⟩ := exists_append_of_le_length hle
      have hshorter : rest.length < (c :: cs).length := by
        rw [hwhole, List.length_append]
        omega
      split
      · next hignores =>
        rw [Grammar.readFrom_behind _ _ hwhole hpos]
        rw [hwhole] at hpicks ⊢
        exact .ignored hpicks hignores (Grammar.reads_readFrom (before ++ used) ts rest)
      · next hcounts =>
        have htail := Grammar.reads_readFrom (before ++ used)
          (ts ++ [⟨x.name, String.ofList used, Place.behind before⟩]) rest
        rw [phrasesBehind_concat, List.getLast?_concat] at htail
        rw [Grammar.readFrom_behind _ _ hwhole hpos, hwhole, List.take_left]
        rw [hwhole] at hpicks
        exact .token hpicks hcounts htail
    · next hnone =>
      have hnoneAccepted := Grammar.picksNone_of_pick? hnone
      simp only [Grammar.accepts_iff] at hnoneAccepted
      split
      · next x k hpick =>
        have hpicks := Grammar.picks_of_pick? hpick
        simp only at hpicks
        obtain ⟨hpos, hle⟩ := Terminal.length?_bounds hpicks.length_eq
        obtain ⟨used, rest, hwhole, rfl⟩ := exists_append_of_le_length hle
        rw [hwhole] at hpicks hnoneAccepted ⊢
        rw [List.take_left]
        exact .unexpectedToken hnoneAccepted hpicks
      · next hnothing =>
        have hnoneAtAll := Grammar.picksNone_of_pick? hnothing
        simp only at hnoneAtAll
        exact .unexpectedCharacter hnoneAtAll
termination_by cs.length
decreasing_by all_goals exact hshorter

/-- Reading by a grammar follows it. -/
theorem Grammar.read_followsGrammar (g : Grammar) : FollowsGrammar g g.read := fun text =>
  Grammar.reads_readFrom [] [] text.toList

end TextAdventure
