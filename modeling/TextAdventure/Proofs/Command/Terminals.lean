import TextAdventure.Command.Sentence
import TextAdventure.Proofs.Command.Readers

/-!
# What the terminals of commands match

Where a word begins, a plain word is matched up to its end, and so is a keyword that it is
(`length?_of_isWord`).  Part of a word is never matched, since a keyword must not stand before a
letter.  Where a separator stands, the separators up to the next other character are matched and
nothing else is, and nothing is matched at white space of other kinds (`length?_of_isBlank`).

So what is picked are separators or a whole word, and a word is picked as the keyword that it is
(`kindOf`) unless the sentence may not go on with that keyword (`Picks.separators_or_word`).
-/

namespace TextAdventure

open Text

/-! ## Characters -/

/-- Decide whether a character may stand between the words of a sentence. -/
def isSeparator (c : Char) : Bool := decide (c ∈ separators)

theorem isBlank_of_isSeparator {c : Char} (h : isSeparator c = true) : isBlank c = true := by
  have hblank : separators.all isBlank = true := by decide
  exact List.all_eq_true.mp hblank c (of_decide_eq_true h)

theorem isSeparator_of_letter {c : Char} (h : isBlank c = false) : isSeparator c = false := by
  cases hc : isSeparator c with
  | false => rfl
  | true => rw [isBlank_of_isSeparator hc] at h; cases h

/-- White space that may not stand between words. -/
def IsForeign (c : Char) : Prop := isBlank c = true ∧ isSeparator c = false

theorem not_isForeign_of_isSeparator {c : Char} (h : isSeparator c = true) : ¬ IsForeign c := by
  intro hforeign
  rw [hforeign.2] at h
  cases h

theorem not_isForeign_of_isWord {word : List Char} (h : IsWord isBlank word) :
    ∀ c ∈ word, ¬ IsForeign c := by
  intro c hc hforeign
  have hletter := h.2 c hc
  rw [hforeign.1] at hletter
  cases hletter

theorem IsWordIn.not_forall_isSeparator {text before word after : List Char}
    (h : IsWordIn text before word after) : ¬ ∀ c ∈ text, isSeparator c = true := by
  obtain ⟨c, cs, rfl, hc⟩ := h.exists_letter
  intro hall
  have hseparator := hall c (List.mem_append_right before (List.mem_cons_self ..))
  rw [isSeparator_of_letter hc] at hseparator
  cases hseparator

/-! ## Kinds of words -/

/-- The terminals that words are matched by. -/
def wordKinds : List String := ["VERB", "DIRECTION", "CONNECTOR", "_ARTICLE", "WORD"]

/-- The terminal of the highest priority that a word is matched by. -/
def kindOf (word : String) : String :=
  if word ∈ verbKeywords then "VERB"
  else if word ∈ directionKeywords then "DIRECTION"
  else if word ∈ connectorKeywords then "CONNECTOR"
  else if word ∈ articles then "_ARTICLE"
  else "WORD"

theorem kindOf_eq_iff (word : String) :
    (kindOf word = "VERB" ↔ word ∈ verbKeywords) ∧
      (kindOf word = "DIRECTION" ↔ word ∈ directionKeywords) ∧
      (kindOf word = "CONNECTOR" ↔ word ∈ connectorKeywords) ∧
      (kindOf word = "_ARTICLE" ↔ word ∈ articles) := by
  have hverbs : ∀ w ∈ verbKeywords,
      w ∉ directionKeywords ∧ w ∉ connectorKeywords ∧ w ∉ articles := by decide
  have hdirections : ∀ w ∈ directionKeywords, w ∉ connectorKeywords ∧ w ∉ articles := by decide
  have hconnectors : ∀ w ∈ connectorKeywords, w ∉ articles := by decide
  unfold kindOf
  by_cases hverb : word ∈ verbKeywords
  · simp [hverb, hverbs word hverb]
  by_cases hdirection : word ∈ directionKeywords
  · simp [hverb, hdirection, hdirections word hdirection]
  by_cases hconnector : word ∈ connectorKeywords
  · simp [hverb, hdirection, hconnector, hconnectors word hconnector]
  by_cases harticle : word ∈ articles <;> simp [hverb, hdirection, hconnector, harticle]

theorem kindOf_mem (word : String) : kindOf word ∈ wordKinds := by
  unfold kindOf
  repeat' split
  all_goals decide

/-- Only articles are left out of trees. -/
theorem isHidden_kindOf_iff (word : String) :
    isHidden (kindOf word) = true ↔ word ∈ articles := by
  have hkinds : ∀ kind ∈ wordKinds, isHidden kind = true ↔ kind = "_ARTICLE" := by decide
  obtain ⟨-, -, -, harticle⟩ := kindOf_eq_iff word
  rw [hkinds _ (kindOf_mem word), harticle]

/-! ## Lengths of matches -/

/-- A terminal that can only match one number of characters. -/
theorem Terminal.length?_eq_ite {x : Terminal} {cs : List Char} {n : Nat} {P : Prop} [Decidable P]
    (hpos : P → 0 < n) (h : ∀ k, k ∈ x.pattern.lengths cs ↔ P ∧ k = n) :
    x.length? cs = if P then some n else none := by
  unfold Terminal.length?
  cases hlengths : x.pattern.lengths cs with
  | nil =>
    have hnone : ¬ P := fun hp => by
      have hn := (h n).mpr ⟨hp, rfl⟩
      rw [hlengths] at hn
      cases hn
    simp [hnone]
  | cons k rest =>
    obtain ⟨hp, rfl⟩ := (h k).mp (hlengths ▸ List.mem_cons_self)
    simp [hp, hpos hp]

theorem run_length? (name : String) (priority : Nat) (members : CharClass) (cs : List Char) :
    (Terminal.mk name priority (.run members)).length? cs =
      if cs.takeWhile members.holds = [] then none
      else some (cs.takeWhile members.holds).length := by
  unfold Terminal.length? Pattern.lengths
  cases cs.takeWhile members.holds with
  | nil => rfl
  | cons c more => simp [List.range_succ]

/-- A keyword is matched where it stands and no letter comes behind it. -/
theorem mem_lengths_keyword {keywords : List String} {cs : List Char} {k : Nat} :
    k ∈ (keywordPattern keywords).lengths cs ↔ ∃ keyword ∈ keywords, ∃ rest,
      cs = keyword.toList ++ rest ∧ StartsApart isBlank rest ∧ k = keyword.toList.length := by
  have hbehind : ∀ rest : List Char, rest.head?.any CharClass.notBlank.holds = false ↔
      StartsApart isBlank rest := by
    intro rest
    cases rest <;> simp [CharClass.holds]
  simp only [keywordPattern, Pattern.lengths, List.mem_flatMap, List.mem_map, List.mem_filter]
  constructor
  · rintro ⟨l, ⟨keyword, ⟨hmem, hstarts⟩, rfl⟩, m, hm, rfl⟩
    obtain ⟨rest, rfl⟩ : keyword.toList <+: cs := by simpa using hstarts
    rw [List.drop_left] at hm
    split at hm
    · cases hm
    · next hnone =>
      rw [List.mem_singleton.mp hm, Nat.add_zero]
      exact ⟨keyword, hmem, rest, rfl, (hbehind rest).mp (by simpa using hnone), rfl⟩
  · rintro ⟨keyword, hmem, rest, rfl, hrest, rfl⟩
    refine ⟨_, ⟨keyword, ⟨hmem, by simp⟩, rfl⟩, 0, ?_, Nat.add_zero _⟩
    rw [List.drop_left, (hbehind rest).mpr hrest]
    exact List.mem_singleton_self 0

/-- All keywords. -/
def keywords : List String := verbKeywords ++ directionKeywords ++ connectorKeywords ++ articles

theorem isWord_of_mem_keywords {keyword : String} (h : keyword ∈ keywords) :
    IsWord isBlank keyword.toList := by
  have hwords : ∀ w ∈ keywords,
      w.toList ≠ [] ∧ (w.toList.all fun c => !isBlank c) = true := by decide
  obtain ⟨hne, hletters⟩ := hwords keyword h
  exact ⟨hne, fun c hc => by simpa using List.all_eq_true.mp hletters c hc⟩

/-! ## Where a word begins -/

section
variable {letters after : List Char} (hword : IsWord isBlank letters)
  (hafter : StartsApart isBlank after)

include hword hafter

theorem takeWhile_notBlank : (letters ++ after).takeWhile CharClass.notBlank.holds = letters := by
  rw [List.takeWhile_append_of_pos fun c hc => by simpa [CharClass.holds] using hword.2 c hc]
  cases after with
  | nil => simp
  | cons c after =>
    have hc : isBlank c = true := by simpa using hafter
    simp [CharClass.holds, hc]

/-- A keyword is matched if it is the word. -/
theorem keyword_length? {keywords : List String}
    (hkeywords : ∀ keyword ∈ keywords, IsWord isBlank keyword.toList) (name : String)
    (priority : Nat) :
    (Terminal.mk name priority (keywordPattern keywords)).length? (letters ++ after) =
      if String.ofList letters ∈ keywords then some letters.length else none := by
  refine Terminal.length?_eq_ite (fun _ => List.length_pos_iff.mpr hword.1) fun k => ?_
  rw [mem_lengths_keyword]
  constructor
  · rintro ⟨keyword, hmem, rest, hwhole, hrest, rfl⟩
    have hsame : keyword.toList = letters :=
      (hkeywords keyword hmem).eq_of_append_eq hword hrest hafter hwhole.symm
    rw [← hsame, String.ofList_toList]
    exact ⟨hmem, rfl⟩
  · rintro ⟨hmem, rfl⟩
    exact ⟨_, hmem, after, by rw [String.toList_ofList], hafter, by rw [String.toList_ofList]⟩

/-- At a word the terminals match that are for plain words or for its kind, and all match the whole
word. -/
theorem length?_of_isWord : ∀ y ∈ commandTerminals, y.length? (letters ++ after) =
    if y.name = kindOf (String.ofList letters) ∨ y.name = "WORD" then some letters.length
    else none := by
  obtain ⟨hverb, hdirection, hconnector, harticle⟩ := kindOf_eq_iff (String.ofList letters)
  have hkeyword : ∀ {list : List String}, (∀ keyword ∈ list, keyword ∈ keywords) →
      ∀ keyword ∈ list, IsWord isBlank keyword.toList :=
    fun hsub keyword hmem => isWord_of_mem_keywords (hsub keyword hmem)
  have hblank : (letters ++ after).takeWhile (CharClass.oneOf separators).holds = [] := by
    obtain ⟨c, cs, rfl⟩ := List.exists_cons_of_ne_nil hword.1
    have hc := isSeparator_of_letter (hword.2 c List.mem_cons_self)
    exact List.takeWhile_cons_of_neg (by simpa [CharClass.holds, isSeparator] using hc)
  have hws : kindOf (String.ofList letters) ≠ "WS" := by
    have hmem := kindOf_mem (String.ofList letters)
    rintro heq
    rw [heq] at hmem
    exact absurd hmem (by decide)
  simp only [commandTerminals, List.forall_mem_cons]
  refine ⟨?_, ?_, ?_, ?_, ?_, ?_, List.forall_mem_nil _⟩
  · rw [keyword_length? hword hafter (hkeyword (by decide))]
    simp [← hverb, eq_comm]
  · rw [keyword_length? hword hafter (hkeyword (by decide))]
    simp [← hdirection, eq_comm]
  · rw [keyword_length? hword hafter (hkeyword (by decide))]
    simp [← hconnector, eq_comm]
  · rw [keyword_length? hword hafter (hkeyword (by decide))]
    simp [← harticle, eq_comm]
  · rw [run_length?, takeWhile_notBlank hword hafter, if_neg hword.1]
    simp
  · rw [run_length?, hblank, if_pos rfl, if_neg (not_or.mpr ⟨Ne.symm hws, by decide⟩)]

end

/-! ## Where no word begins -/

/-- At white space the only terminal that matches is the one for separators, and it matches the
separators that stand there. -/
theorem length?_of_isBlank {c : Char} (hc : isBlank c = true) (cs : List Char) :
    ∀ y ∈ commandTerminals, y.length? (c :: cs) =
      if y.name = "WS" ∧ isSeparator c = true then
        some ((c :: cs).takeWhile isSeparator).length
      else none := by
  have hkeyword : ∀ {list : List String}, (∀ keyword ∈ list, keyword ∈ keywords) → ∀ name priority,
      (Terminal.mk name priority (keywordPattern list)).length? (c :: cs) = none := by
    intro list hsub name priority
    have hnone : ∀ k, k ∈ (keywordPattern list).lengths (c :: cs) ↔ False ∧ k = 0 := by
      intro k
      rw [mem_lengths_keyword, false_and, iff_false]
      rintro ⟨keyword, hmem, rest, hwhole, -, -⟩
      have hstarts := (isWord_of_mem_keywords (hsub keyword hmem)).not_startsApart rest
      rw [← hwhole, startsApart_cons] at hstarts
      exact hstarts hc
    rw [Terminal.length?_eq_ite (fun h => h.elim) hnone, if_neg not_false]
  have hletters : (c :: cs).takeWhile CharClass.notBlank.holds = [] :=
    List.takeWhile_cons_of_neg (by simp [CharClass.holds, hc])
  have hseparators : (c :: cs).takeWhile (CharClass.oneOf separators).holds =
      (c :: cs).takeWhile isSeparator := rfl
  simp only [commandTerminals, List.forall_mem_cons]
  refine ⟨?_, ?_, ?_, ?_, ?_, ?_, List.forall_mem_nil _⟩
  · rw [hkeyword (by decide), if_neg (by simp)]
  · rw [hkeyword (by decide), if_neg (by simp)]
  · rw [hkeyword (by decide), if_neg (by simp)]
  · rw [hkeyword (by decide), if_neg (by simp)]
  · rw [run_length?, hletters, if_pos rfl, if_neg (by simp)]
  · rw [run_length?, hseparators]
    cases hseparator : isSeparator c <;> simp [hseparator]

/-! ## Picking -/

section
variable {accepts : String → Prop} {cs : List Char} {x : Terminal} {k : Nat}

theorem exists_terminal : ∀ name ∈ wordKinds, ∃ y ∈ commandTerminals, y.name = name := by decide

theorem exists_terminal_separators : ∃ y ∈ commandTerminals, y.name = "WS" := by decide

/-- At a word the token is the whole word.  Its terminal is that of the kind of the word if that is
accepted, and that of plain words otherwise. -/
theorem picks_word {letters after : List Char} (hword : IsWord isBlank letters)
    (hafter : StartsApart isBlank after)
    (h : Picks commandGrammar accepts (letters ++ after) x k) : k = letters.length ∧
      (x.name = kindOf (String.ofList letters) ∨
        x.name = "WORD" ∧ ¬ accepts (kindOf (String.ofList letters))) := by
  have hlengths := length?_of_isWord hword hafter
  have hlength := h.length_eq
  rw [hlengths x h.mem] at hlength
  split at hlength
  · next hname =>
    refine ⟨(Option.some.inj hlength).symm, ?_⟩
    by_cases hkind : x.name = kindOf (String.ofList letters)
    · exact .inl hkind
    have hplain := hname.resolve_left hkind
    refine .inr ⟨hplain, fun haccepts => hkind ?_⟩
    -- A terminal of the kind would be of a higher priority than that of plain words.
    obtain ⟨y, hy, hyname⟩ := exists_terminal _ (kindOf_mem (String.ofList letters))
    have hle := h.priority_le y hy (hyname ▸ haccepts)
      (by rw [hlengths y hy, if_pos (.inl hyname)]; simp)
    have hpriorities : ∀ x ∈ commandTerminals, x.name = "WORD" → ∀ y ∈ commandTerminals,
        y.name ∈ wordKinds → y.priority ≤ x.priority → y.name = "WORD" := by decide
    rw [hplain, ← hyname]
    exact (hpriorities x h.mem hplain y hy (hyname ▸ kindOf_mem _) hle).symm
  · cases hlength

/-- At white space only separators are picked. -/
theorem picks_blank {c : Char} {used rest : List Char} (hc : isBlank c = true)
    (hwhole : c :: cs = used ++ rest)
    (h : Picks commandGrammar accepts (used ++ rest) x used.length) :
    x.name = "WS" ∧ used ≠ [] ∧ ∀ d ∈ used, isSeparator d = true := by
  have hlength := h.length_eq
  rw [← hwhole, length?_of_isBlank hc cs x h.mem] at hlength
  split at hlength
  · next hname =>
    have hparts : (c :: cs).takeWhile isSeparator ++ (c :: cs).dropWhile isSeparator =
        used ++ rest := by rw [List.takeWhile_append_dropWhile, hwhole]
    obtain ⟨rfl, -⟩ := List.append_inj hparts (Option.some.inj hlength)
    refine ⟨hname.1, ?_, List.all_eq_true.mp List.all_takeWhile⟩
    rw [List.takeWhile_cons_of_pos hname.2]
    exact List.cons_ne_nil _ _
  · cases hlength

/-- What is ahead begins with white space or with a word. -/
theorem isBlank_or_exists_word (c : Char) (cs : List Char) : isBlank c = true ∨
    ∃ word after, c :: cs = word ++ after ∧ IsWord isBlank word ∧ StartsApart isBlank after := by
  cases hc : isBlank c with
  | true => exact .inl rfl
  | false =>
    refine .inr ?_
    rcases exists_first (isBlank · = true) cs with hall | ⟨letters, d, after, hcs, hletters, hd⟩
    · refine ⟨c :: cs, [], (List.append_nil _).symm, ⟨List.cons_ne_nil c cs, ?_⟩, startsApart_nil⟩
      exact List.forall_mem_cons.mpr ⟨hc, by simpa using hall⟩
    · refine ⟨c :: letters, d :: after, by rw [hcs, List.cons_append],
        ⟨List.cons_ne_nil c letters, ?_⟩, (startsApart_cons d after).mpr hd⟩
      exact List.forall_mem_cons.mpr ⟨hc, by simpa using hletters⟩

/-- What is picked from a text: the separators ahead, or the word ahead. -/
theorem Picks.separators_or_word {used rest : List Char}
    (h : Picks commandGrammar accepts (used ++ rest) x used.length) :
    (x.name = "WS" ∧ used ≠ [] ∧ ∀ c ∈ used, isSeparator c = true) ∨
      (IsWord isBlank used ∧ StartsApart isBlank rest ∧
        (x.name = kindOf (String.ofList used) ∨
          x.name = "WORD" ∧ ¬ accepts (kindOf (String.ofList used)))) := by
  obtain ⟨hpos, -⟩ := Terminal.length?_bounds h.length_eq
  obtain ⟨c, cs, hwhole⟩ := List.exists_cons_of_length_pos
    (l := used ++ rest) (by rw [List.length_append]; omega)
  rcases isBlank_or_exists_word c cs with hc | ⟨word, after, hword, hletters, hafter⟩
  · exact .inl (picks_blank hc hwhole.symm h)
  · have hparts := hwhole.trans hword
    obtain ⟨hlength, hname⟩ := picks_word hletters hafter (hparts ▸ h)
    obtain ⟨rfl, rfl⟩ := List.append_inj hparts hlength
    exact .inr ⟨hletters, hafter, hname⟩

/-- Where nothing is picked, what is ahead is a foreign character or a word that is not
accepted. -/
theorem PicksNone.foreign_or_word {c : Char} (h : PicksNone commandGrammar accepts (c :: cs))
    (haccepts : accepts "WS") : IsForeign c ∨ ∃ word after, c :: cs = word ++ after ∧
      IsWord isBlank word ∧ StartsApart isBlank after ∧
        ¬ accepts (kindOf (String.ofList word)) := by
  rcases isBlank_or_exists_word c cs with hc | ⟨word, after, hwhole, hword, hafter⟩
  · refine .inl ⟨hc, ?_⟩
    cases hseparator : isSeparator c with
    | false => rfl
    | true =>
      obtain ⟨y, hy, hyname⟩ := exists_terminal_separators
      have hnone := h y hy (hyname ▸ haccepts)
      rw [length?_of_isBlank hc cs y hy, if_pos ⟨hyname, hseparator⟩] at hnone
      cases hnone
  · refine .inr ⟨word, after, hwhole, hword, hafter, fun hkind => ?_⟩
    obtain ⟨y, hy, hyname⟩ := exists_terminal _ (kindOf_mem (String.ofList word))
    have hnone := h y hy (hyname ▸ hkind)
    rw [hwhole, length?_of_isWord hword hafter y hy, if_pos (.inl hyname)] at hnone
    cases hnone

end

end TextAdventure
