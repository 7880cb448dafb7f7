import TextAdventure.Text.Blank

/-!
# Words between separators

The words of a text are its maximal runs without separators.  So a word that is
followed by a separator, or by nothing, is found as it stands (`splitWords_word`),
separators are passed over, and a text may be cut before a separator without any word
being cut (`splitWords_append`).
-/

namespace TextAdventure.Text

variable {p : Char → Bool}

/-- A list has a first element with the property, or none. -/
theorem exists_first {α : Type} (q : α → Prop) (xs : List α) : (∀ x ∈ xs, ¬ q x) ∨
    ∃ front x behind, xs = front ++ x :: behind ∧ (∀ y ∈ front, ¬ q y) ∧ q x := by
  induction xs with
  | nil => exact .inl (List.forall_mem_nil _)
  | cons x xs ih =>
    by_cases hx : q x
    · exact .inr ⟨[], x, xs, rfl, List.forall_mem_nil _, hx⟩
    · rcases ih with hnone | ⟨front, y, behind, rfl, hfront, hy⟩
      · exact .inl (List.forall_mem_cons.mpr ⟨hx, hnone⟩)
      · exact .inr ⟨x :: front, y, behind, rfl, List.forall_mem_cons.mpr ⟨hx, hfront⟩, hy⟩

/-- A word is not empty and has no separator in it. -/
def IsWord (p : Char → Bool) (w : List Char) : Prop := w ≠ [] ∧ ∀ c ∈ w, p c = false

/-- The text is empty or begins with a separator. -/
def StartsApart (p : Char → Bool) (cs : List Char) : Prop := ∀ c ∈ cs.head?, p c = true

@[simp] theorem startsApart_nil : StartsApart p [] := by simp [StartsApart]

@[simp] theorem startsApart_cons (c : Char) (cs : List Char) :
    StartsApart p (c :: cs) ↔ p c = true := by simp [StartsApart]

theorem head?_all_iff (cs : List Char) : cs.head?.all p = true ↔ StartsApart p cs := by
  cases cs <;> simp

theorem splitWords_last {c : Char} (hc : p c = false) {cs : List Char} (hcs : StartsApart p cs) :
    splitWords p (c :: cs) = [c] :: splitWords p cs := by
  rw [splitWords, if_neg (by simp [hc]), if_pos ((head?_all_iff cs).mpr hcs)]

theorem splitWords_letter {c : Char} (hc : p c = false) {cs : List Char}
    (hcs : ¬ StartsApart p cs) : splitWords p (c :: cs) = consHead c (splitWords p cs) := by
  rw [splitWords, if_neg (by simp [hc]), if_neg (by rwa [head?_all_iff])]

/-- Where a text goes on with the same words, a character in front makes no difference. -/
theorem splitWords_cons_congr {cs ds : List Char} (hstarts : StartsApart p cs ↔ StartsApart p ds)
    (hwords : splitWords p cs = splitWords p ds) (c : Char) :
    splitWords p (c :: cs) = splitWords p (c :: ds) := by
  cases hc : p c with
  | true => rw [splitWords_cons_of_separator hc, splitWords_cons_of_separator hc, hwords]
  | false =>
    by_cases hcs : StartsApart p cs
    · rw [splitWords_last hc hcs, splitWords_last hc (hstarts.mp hcs), hwords]
    · rw [splitWords_letter hc hcs, splitWords_letter hc (mt hstarts.mpr hcs), hwords]

/-- Where separators stay separators and other characters stay themselves, words stay what they
are. -/
theorem splitWords_map {f : Char → Char} (hsep : ∀ c, p c = true → p (f c) = true)
    (hletter : ∀ c, p c = false → f c = c) (cs : List Char) :
    splitWords p (cs.map f) = splitWords p cs := by
  induction cs with
  | nil => rfl
  | cons c cs ih =>
    rw [List.map_cons]
    cases hc : p c with
    | true => rw [splitWords_cons_of_separator (hsep c hc), splitWords_cons_of_separator hc, ih]
    | false =>
      have hstarts : StartsApart p (cs.map f) ↔ StartsApart p cs := by
        cases cs with
        | nil => rfl
        | cons d ds =>
          rw [List.map_cons, startsApart_cons, startsApart_cons]
          cases hd : p d with
          | true => simpa using hsep d hd
          | false => rw [hletter d hd, hd]
      rw [hletter c hc, splitWords_cons_congr hstarts ih]

/-- A word is found as it stands where it ends. -/
theorem splitWords_word {w rest : List Char} (hw : IsWord p w) (hrest : StartsApart p rest) :
    splitWords p (w ++ rest) = w :: splitWords p rest := by
  obtain ⟨hne, hletters⟩ := hw
  induction w with
  | nil => exact absurd rfl hne
  | cons c w ih =>
    have hc := hletters c (List.mem_cons_self ..)
    cases w with
    | nil => exact splitWords_last hc hrest
    | cons d w =>
      have hd := hletters d (by simp)
      have htail := ih (List.cons_ne_nil d w) fun x hx => hletters x (List.mem_cons_of_mem _ hx)
      rw [List.cons_append, splitWords_letter hc (by simp [hd]), htail, consHead]

theorem IsWord.not_startsApart {w : List Char} (hw : IsWord p w) (rest : List Char) :
    ¬ StartsApart p (w ++ rest) := by
  obtain ⟨c, cs, rfl⟩ := List.exists_cons_of_ne_nil hw.1
  rw [List.cons_append, startsApart_cons, hw.2 c (List.mem_cons_self ..)]
  exact Bool.false_ne_true

/-- Where a word begins, it is the only one. -/
theorem IsWord.eq_of_append_eq {v w cs ds : List Char} (hv : IsWord p v) (hw : IsWord p w)
    (hcs : StartsApart p cs) (hds : StartsApart p ds) (h : v ++ cs = w ++ ds) : v = w := by
  have hwords : v :: splitWords p cs = w :: splitWords p ds := by
    rw [← splitWords_word hv hcs, h, splitWords_word hw hds]
  exact (List.cons.inj hwords).1

theorem splitWords_separators {g : List Char} (hg : ∀ c ∈ g, p c = true) (cs : List Char) :
    splitWords p (g ++ cs) = splitWords p cs := by
  induction g with
  | nil => rfl
  | cons c g ih =>
    rw [List.cons_append, splitWords_cons_of_separator (hg c (List.mem_cons_self ..)),
      ih fun d hd => hg d (List.mem_cons_of_mem _ hd)]

theorem splitWords_ne_nil {cs : List Char} (h : ¬ StartsApart p cs) : splitWords p cs ≠ [] := by
  cases cs with
  | nil => simp at h
  | cons c cs =>
    have hc : p c = false := by simpa using h
    by_cases hcs : StartsApart p cs
    · simp [splitWords_last hc hcs]
    · rw [splitWords_letter hc hcs]
      cases splitWords p cs <;> simp [consHead]

theorem consHead_append (c : Char) {ws : List (List Char)} (h : ws ≠ []) (vs : List (List Char)) :
    consHead c (ws ++ vs) = consHead c ws ++ vs := by
  cases ws with
  | nil => exact absurd rfl h
  | cons w ws => rfl

/-- A cut before a separator cuts no word. -/
theorem splitWords_append (cs : List Char) {rest : List Char} (h : StartsApart p rest) :
    splitWords p (cs ++ rest) = splitWords p cs ++ splitWords p rest := by
  induction cs with
  | nil => rfl
  | cons c cs ih =>
    cases hc : p c with
    | true =>
      rw [List.cons_append, splitWords_cons_of_separator hc, splitWords_cons_of_separator hc, ih]
    | false =>
      cases cs with
      | nil =>
        rw [List.singleton_append, splitWords_last hc h, splitWords_last hc startsApart_nil]
        rfl
      | cons d cs =>
        rw [List.cons_append] at ih
        rw [List.cons_append, List.cons_append]
        cases hd : p d with
        | true =>
          rw [splitWords_last hc (by simp [hd]), splitWords_last hc (by simp [hd]), ih]
          rfl
        | false =>
          rw [splitWords_letter hc (by simp [hd]), splitWords_letter hc (by simp [hd]), ih,
            consHead_append c (splitWords_ne_nil (by simp [hd]))]

/-- What the words of a text are like. -/
theorem isWord_of_mem_splitWords {cs w : List Char} (h : w ∈ splitWords p cs) : IsWord p w := by
  induction cs generalizing w with
  | nil => cases h
  | cons c cs ih =>
    cases hc : p c with
    | true =>
      rw [splitWords_cons_of_separator hc] at h
      exact ih h
    | false =>
      by_cases hcs : StartsApart p cs
      · rw [splitWords_last hc hcs] at h
        rcases List.mem_cons.mp h with rfl | hmem
        · exact ⟨List.cons_ne_nil _ _, by simpa using hc⟩
        · exact ih hmem
      · rw [splitWords_letter hc hcs] at h
        cases hws : splitWords p cs with
        | nil => exact absurd hws (splitWords_ne_nil hcs)
        | cons v vs =>
          rw [hws] at h ih
          rcases List.mem_cons.mp h with rfl | hmem
          · have hv := ih (List.mem_cons_self ..)
            exact ⟨List.cons_ne_nil _ _, List.forall_mem_cons.mpr ⟨hc, hv.2⟩⟩
          · exact ih (List.mem_cons_of_mem _ hmem)

theorem eq_or_mem_of_mem_consHead {c d : Char} {ws : List (List Char)} {w : List Char}
    (h : w ∈ consHead c ws) (hd : d ∈ w) : d = c ∨ ∃ v ∈ ws, d ∈ v := by
  cases ws with
  | nil =>
    obtain rfl := List.mem_singleton.mp h
    exact .inl (List.mem_singleton.mp hd)
  | cons v ws =>
    rcases List.mem_cons.mp h with rfl | hw
    · exact (List.mem_cons.mp hd).imp_right fun hv => ⟨v, List.mem_cons_self, hv⟩
    · exact .inr ⟨w, List.mem_cons_of_mem v hw, hd⟩

/-- Words have no characters but those of the text. -/
theorem mem_of_mem_splitWords {cs w : List Char} (h : w ∈ splitWords p cs) {d : Char}
    (hd : d ∈ w) : d ∈ cs := by
  induction cs generalizing w with
  | nil => cases h
  | cons c cs ih =>
    rw [splitWords] at h
    split at h
    · exact List.mem_cons_of_mem c (ih h hd)
    · split at h
      · rcases List.mem_cons.mp h with rfl | hw
        · rw [List.mem_singleton.mp hd]
          exact List.mem_cons_self
        · exact List.mem_cons_of_mem c (ih hw hd)
      · rcases eq_or_mem_of_mem_consHead h hd with rfl | ⟨v, hv, hdv⟩
        · exact List.mem_cons_self
        · exact List.mem_cons_of_mem c (ih hv hdv)

/-! ## Words put together -/

/-- Words with one separator between each two are found again. -/
theorem splitWords_joinWith {separator : Char} (hseparator : p separator = true) :
    ∀ ws : List (List Char), (∀ w ∈ ws, IsWord p w) → splitWords p (joinWith separator ws) = ws
  | [], _ => rfl
  | [w], h => by
    have hword := splitWords_word (h w List.mem_cons_self) startsApart_nil
    rwa [List.append_nil] at hword
  | w :: v :: ws, h => by
    obtain ⟨hw, hrest⟩ := List.forall_mem_cons.mp h
    rw [joinWith, splitWords_word hw ((startsApart_cons ..).mpr hseparator),
      splitWords_cons_of_separator hseparator, splitWords_joinWith hseparator (v :: ws) hrest]

theorem map_ofList_map_toList (ws : List String) :
    (ws.map String.toList).map String.ofList = ws := by
  rw [List.map_map]
  exact List.map_id'' (fun _ => String.ofList_toList) ws

theorem words_unwords {ws : List String} (h : ∀ word ∈ ws, IsWord isBlank word.toList) :
    words (unwords ws) = ws := by
  have hspace : isBlank ' ' = true := by decide
  have hsplit := splitWords_joinWith hspace (ws.map String.toList) (List.forall_mem_map.mpr h)
  rw [words, unwords, String.toList_ofList, hsplit, map_ofList_map_toList]

theorem eq_or_mem_of_mem_joinWith {separator d : Char} : ∀ {ws : List (List Char)},
    d ∈ joinWith separator ws → d = separator ∨ ∃ w ∈ ws, d ∈ w
  | [], h => by cases h
  | [w], h => .inr ⟨w, List.mem_cons_self, h⟩
  | w :: v :: ws, h => by
    rcases List.mem_append.mp h with hw | hbehind
    · exact .inr ⟨w, List.mem_cons_self, hw⟩
    · rcases List.mem_cons.mp hbehind with hd | hrest
      · exact .inl hd
      · exact (eq_or_mem_of_mem_joinWith hrest).imp_right fun ⟨u, hu, hdu⟩ =>
          ⟨u, List.mem_cons_of_mem w hu, hdu⟩

end TextAdventure.Text
