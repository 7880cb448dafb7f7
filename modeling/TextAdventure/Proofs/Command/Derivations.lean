import TextAdventure.Command.Grammar

/-!
# Derivations of phrases

`Derives p ts trees` says that the phrase is made of the tokens and read as the trees.  It does
not say how that is found out.

Reading goes on with the phrases behind a token instead (`Phrase.nexts`), and those derive
just what is left of the phrase: nothing is lost and nothing is added
(`derives_cons_iff`).  So behind any tokens the phrases at hand derive what a whole sentence
may go on with (`derives_append_iff`), and the trees are found where the tokens end
(`derives_nil_iff`).
-/

namespace TextAdventure

/-- The phrase is made of the tokens and read as the trees. -/
inductive Derives : Phrase → List Token → List Tree → Prop where
  | terminal {name : String} {t : Token} (kind : t.kind = name) :
      Derives (.terminal name) [t] t.trees
  | rule {name : String} {body : Phrase} {ts : List Token} {children : List Tree}
      (inside : Derives body ts children) : Derives (.rule name body) ts (ruleTrees name children)
  | andThen {p q : Phrase} {ts us : List Token} {trees more : List Tree}
      (first : Derives p ts trees) (second : Derives q us more) :
      Derives (.andThen p q) (ts ++ us) (trees ++ more)
  | former {p q : Phrase} {ts : List Token} {trees : List Tree} (first : Derives p ts trees) :
      Derives (.either p q) ts trees
  | latter {p q : Phrase} {ts : List Token} {trees : List Tree} (second : Derives q ts trees) :
      Derives (.either p q) ts trees
  | done {p : Phrase} : Derives (.many p) [] []
  | more {p : Phrase} {ts us : List Token} {trees more : List Tree} (nonempty : ts ≠ [])
      (item : Derives p ts trees) (rest : Derives (.many p) us more) :
      Derives (.many p) (ts ++ us) (trees ++ more)
  | read {children : List Tree} : Derives (.read children) [] children

/-! ## What is derived, by the form of the phrase -/

section
variable {p q : Phrase} {ts : List Token} {trees : List Tree}

theorem derives_terminal_iff {name : String} :
    Derives (.terminal name) ts trees ↔ ∃ t, t.kind = name ∧ ts = [t] ∧ trees = t.trees := by
  constructor
  · rintro ⟨hkind⟩
    exact ⟨_, hkind, rfl, rfl⟩
  · rintro ⟨t, hkind, rfl, rfl⟩
    exact .terminal hkind

theorem derives_terminal_cons_iff {name : String} {t : Token} :
    Derives (.terminal name) (t :: ts) trees ↔ t.kind = name ∧ ts = [] ∧ trees = t.trees := by
  rw [derives_terminal_iff]
  constructor
  · rintro ⟨u, hkind, hts, rfl⟩
    obtain ⟨rfl, rfl⟩ := List.cons.inj hts
    exact ⟨hkind, rfl, rfl⟩
  · rintro ⟨hkind, rfl, rfl⟩
    exact ⟨t, hkind, rfl, rfl⟩

theorem derives_rule_iff {name : String} : Derives (.rule name p) ts trees ↔
    ∃ children, Derives p ts children ∧ trees = ruleTrees name children := by
  constructor
  · rintro (_ | h)
    exact ⟨_, h, rfl⟩
  · rintro ⟨children, h, rfl⟩
    exact .rule h

theorem derives_andThen_iff : Derives (.andThen p q) ts trees ↔ ∃ us vs firsts seconds,
    Derives p us firsts ∧ Derives q vs seconds ∧ ts = us ++ vs ∧ trees = firsts ++ seconds := by
  constructor
  · rintro (_ | _ | ⟨h, h'⟩)
    exact ⟨_, _, _, _, h, h', rfl, rfl⟩
  · rintro ⟨us, vs, firsts, seconds, h, h', rfl, rfl⟩
    exact .andThen h h'

theorem derives_either_iff :
    Derives (.either p q) ts trees ↔ Derives p ts trees ∨ Derives q ts trees := by
  constructor
  · intro h
    cases h with
    | former h => exact .inl h
    | latter h => exact .inr h
  · rintro (h | h)
    · exact .former h
    · exact .latter h

theorem derives_read_iff {children : List Tree} :
    Derives (.read children) ts trees ↔ ts = [] ∧ trees = children := by
  constructor
  · rintro ⟨⟩
    exact ⟨rfl, rfl⟩
  · rintro ⟨rfl, rfl⟩
    exact .read

theorem derives_many_nil_iff : Derives (.many p) [] trees ↔ trees = [] := by
  constructor
  · intro h
    generalize hts : ([] : List Token) = ts at h
    cases h with
    | done => rfl
    | more nonempty _ _ => exact absurd (List.append_eq_nil_iff.mp hts.symm).1 nonempty
  · rintro rfl
    exact .done

theorem derives_many_cons_iff {t : Token} : Derives (.many p) (t :: ts) trees ↔
    ∃ us vs firsts seconds, Derives p (t :: us) firsts ∧ Derives (.many p) vs seconds ∧
      ts = us ++ vs ∧ trees = firsts ++ seconds := by
  constructor
  · intro h
    generalize hts : t :: ts = whole at h
    cases h with
    | done => cases hts
    | @more _ us vs firsts seconds nonempty item rest =>
      obtain ⟨u, us, rfl⟩ := List.exists_cons_of_ne_nil nonempty
      obtain ⟨rfl, rfl⟩ := List.cons.inj hts
      exact ⟨us, vs, firsts, seconds, item, rest, rfl, rfl⟩
  · rintro ⟨us, vs, firsts, seconds, item, rest, rfl, rfl⟩
    exact .more (List.cons_ne_nil t us) item rest

end

/-! ## What follows a token -/

/-- Without tokens, a phrase is read as one of the lists that it may finish with. -/
theorem derives_nil_iff {p : Phrase} {trees : List Tree} :
    Derives p [] trees ↔ trees ∈ p.finish := by
  induction p generalizing trees with
  | terminal name => simp [derives_terminal_iff, Phrase.finish]
  | rule name body ih =>
    simp only [derives_rule_iff, ih, Phrase.finish, List.mem_map]
    exact exists_congr fun children => and_congr_right fun _ => eq_comm
  | andThen p q ihp ihq =>
    simp only [derives_andThen_iff, Phrase.finish, List.mem_flatMap, List.mem_map]
    constructor
    · rintro ⟨us, vs, firsts, seconds, hp, hq, hnil, rfl⟩
      obtain ⟨rfl, rfl⟩ := List.append_eq_nil_iff.mp hnil.symm
      exact ⟨firsts, ihp.mp hp, seconds, ihq.mp hq, rfl⟩
    · rintro ⟨firsts, hp, seconds, hq, rfl⟩
      exact ⟨[], [], firsts, seconds, ihp.mpr hp, ihq.mpr hq, rfl, rfl⟩
  | either p q ihp ihq => simp only [derives_either_iff, ihp, ihq, Phrase.finish, List.mem_append]
  | many p _ => simp [derives_many_nil_iff, Phrase.finish]
  | read children => simp [derives_read_iff, Phrase.finish]

/-- A phrase derives what the phrases behind the first token derive. -/
theorem derives_cons_iff {p : Phrase} {t : Token} {ts : List Token} {trees : List Tree} :
    Derives p (t :: ts) trees ↔ ∃ q ∈ p.nexts t, Derives q ts trees := by
  induction p generalizing ts trees with
  | terminal name =>
    rw [derives_terminal_cons_iff, Phrase.nexts]
    split
    · next hkind => simp [hkind, derives_read_iff]
    · next hkind => simp [hkind]
  | rule name body ih =>
    simp only [derives_rule_iff, ih, Phrase.nexts, List.mem_map]
    constructor
    · rintro ⟨children, ⟨q, hq, h⟩, rfl⟩
      exact ⟨_, ⟨q, hq, rfl⟩, .rule h⟩
    · rintro ⟨_, ⟨q, hq, rfl⟩, h⟩
      obtain ⟨children, hchildren, rfl⟩ := derives_rule_iff.mp h
      exact ⟨children, ⟨q, hq, hchildren⟩, rfl⟩
  | andThen p q ihp ihq =>
    simp only [derives_andThen_iff, Phrase.nexts, List.mem_append, List.mem_map, List.mem_flatMap]
    constructor
    · rintro ⟨us, vs, firsts, seconds, hp, hq, hts, rfl⟩
      -- The first token is one of the first phrase, unless that has none.
      cases us with
      | nil =>
        obtain rfl : t :: ts = vs := hts
        obtain ⟨rest, hrest, h⟩ := ihq.mp hq
        exact ⟨_, .inr ⟨firsts, derives_nil_iff.mp hp, rest, hrest, rfl⟩, .andThen .read h⟩
      | cons u us =>
        obtain ⟨rfl, rfl⟩ := List.cons.inj hts
        obtain ⟨rest, hrest, h⟩ := ihp.mp hp
        exact ⟨_, .inl ⟨rest, hrest, rfl⟩, .andThen h hq⟩
    · rintro ⟨_, ⟨rest, hrest, rfl⟩ | ⟨firsts, hfirsts, rest, hrest, rfl⟩, h⟩
      · obtain ⟨us, vs, trees, more, hp, hq, rfl, rfl⟩ := derives_andThen_iff.mp h
        exact ⟨t :: us, vs, trees, more, ihp.mpr ⟨rest, hrest, hp⟩, hq, rfl, rfl⟩
      · obtain ⟨us, vs, trees, more, hread, hq, rfl, rfl⟩ := derives_andThen_iff.mp h
        obtain ⟨rfl, rfl⟩ := derives_read_iff.mp hread
        exact ⟨[], t :: vs, _, more, derives_nil_iff.mpr hfirsts, ihq.mpr ⟨rest, hrest, hq⟩,
          rfl, rfl⟩
  | either p q ihp ihq =>
    simp only [derives_either_iff, ihp, ihq, Phrase.nexts, List.mem_append, or_and_right,
      exists_or]
  | many p ih =>
    simp only [derives_many_cons_iff, ih, Phrase.nexts, List.mem_map]
    constructor
    · rintro ⟨us, vs, firsts, seconds, ⟨rest, hrest, h⟩, hmany, rfl, rfl⟩
      exact ⟨_, ⟨rest, hrest, rfl⟩, .andThen h hmany⟩
    · rintro ⟨_, ⟨rest, hrest, rfl⟩, h⟩
      obtain ⟨us, vs, firsts, seconds, hp, hmany, rfl, rfl⟩ := derives_andThen_iff.mp h
      exact ⟨us, vs, firsts, seconds, ⟨rest, hrest, hp⟩, hmany, rfl, rfl⟩
  | read children => simp [derives_read_iff, Phrase.nexts]

/-- What phrases may go on as behind tokens. -/
def phrasesBehind (phrases : List Phrase) (ts : List Token) : List Phrase :=
  ts.foldl (fun phrases t => phrases.flatMap (Phrase.nexts t)) phrases

theorem phrasesBehind_concat (phrases : List Phrase) (ts : List Token) (t : Token) :
    phrasesBehind phrases (ts ++ [t]) = (phrasesBehind phrases ts).flatMap (Phrase.nexts t) := by
  rw [phrasesBehind, List.foldl_append]
  rfl

/-- Phrases derive what the phrases behind their first tokens derive. -/
theorem derives_append_iff {phrases : List Phrase} {ts us : List Token} {trees : List Tree} :
    (∃ p ∈ phrases, Derives p (ts ++ us) trees) ↔
      ∃ q ∈ phrasesBehind phrases ts, Derives q us trees := by
  induction ts generalizing phrases with
  | nil => rfl
  | cons t ts ih =>
    rw [phrasesBehind, List.foldl_cons, ← phrasesBehind, ← ih]
    simp only [List.cons_append, derives_cons_iff, List.mem_flatMap]
    constructor
    · rintro ⟨p, hp, q, hq, h⟩
      exact ⟨q, ⟨p, hp, hq⟩, h⟩
    · rintro ⟨q, ⟨p, hp, hq⟩, h⟩
      exact ⟨p, hp, q, hq, h⟩

/-- A phrase derives what the phrases behind all tokens may finish with. -/
theorem derives_iff {p : Phrase} {ts : List Token} {trees : List Tree} :
    Derives p ts trees ↔ trees ∈ (phrasesBehind [p] ts).flatMap Phrase.finish := by
  have hwhole := @derives_append_iff [p] ts [] trees
  simp only [List.append_nil, List.mem_singleton, exists_eq_left, derives_nil_iff] at hwhole
  rw [hwhole, List.mem_flatMap]

/-! ## What may follow -/

theorem exists_derives (p : Phrase) : ∃ ts trees, Derives p ts trees := by
  induction p with
  | terminal name => exact ⟨_, _, .terminal (t := ⟨name, "", Place.first⟩) rfl⟩
  | rule name body ih =>
    obtain ⟨ts, children, h⟩ := ih
    exact ⟨ts, _, .rule h⟩
  | andThen p q ihp ihq =>
    obtain ⟨ts, trees, hp⟩ := ihp
    obtain ⟨us, more, hq⟩ := ihq
    exact ⟨_, _, .andThen hp hq⟩
  | either p q ihp _ =>
    obtain ⟨ts, trees, hp⟩ := ihp
    exact ⟨ts, trees, .former hp⟩
  | many p _ => exact ⟨[], [], .done⟩
  | read children => exact ⟨[], children, .read⟩

/-- A token of the terminal may stand behind the tokens. -/
def Expects (p : Phrase) (ts : List Token) (name : String) : Prop :=
  ∃ t us trees, t.kind = name ∧ Derives p (ts ++ t :: us) trees

/-- Whether a phrase goes on behind a token depends on the terminal of the token only. -/
theorem nexts_eq_nil_iff {t u : Token} (h : t.kind = u.kind) (p : Phrase) :
    p.nexts t = [] ↔ p.nexts u = [] := by
  induction p with
  | terminal name =>
    simp only [Phrase.nexts, h]
    split <;> simp
  | rule name body ih => simp [Phrase.nexts, ih]
  | andThen p q ihp ihq => simp [Phrase.nexts, ihp, ihq]
  | either p q ihp ihq => simp [Phrase.nexts, ihp, ihq]
  | many p ih => simp [Phrase.nexts, ih]
  | read children => simp [Phrase.nexts]

theorem Phrase.expects_iff {p : Phrase} {name : String} :
    p.expects name = true ↔ ∃ t us trees, t.kind = name ∧ Derives p (t :: us) trees := by
  have hnonempty : p.expects name = true ↔ p.nexts ⟨name, "", Place.first⟩ ≠ [] := by
    simp [Phrase.expects]
  rw [hnonempty]
  constructor
  · intro hne
    obtain ⟨q, hq⟩ := List.exists_mem_of_ne_nil _ hne
    obtain ⟨us, trees, h⟩ := exists_derives q
    exact ⟨_, us, trees, rfl, derives_cons_iff.mpr ⟨q, hq, h⟩⟩
  · rintro ⟨t, us, trees, hkind, h⟩ hnil
    obtain ⟨q, hq, -⟩ := derives_cons_iff.mp h
    rw [(nexts_eq_nil_iff (u := ⟨name, "", Place.first⟩) hkind p).mpr hnil] at hq
    cases hq

theorem expects_iff {p : Phrase} {ts : List Token} {name : String} :
    Expects p ts name ↔ ((phrasesBehind [p] ts).any fun q => q.expects name) = true := by
  simp only [List.any_eq_true, Phrase.expects_iff, Expects]
  constructor
  · rintro ⟨t, us, trees, hkind, h⟩
    obtain ⟨q, hq, hrest⟩ := derives_append_iff.mp ⟨p, List.mem_singleton_self p, h⟩
    exact ⟨q, hq, t, us, trees, hkind, hrest⟩
  · rintro ⟨q, hq, t, us, trees, hkind, h⟩
    obtain ⟨p', hp', hwhole⟩ := derives_append_iff.mpr ⟨q, hq, h⟩
    obtain rfl := List.mem_singleton.mp hp'
    exact ⟨t, us, trees, hkind, hwhole⟩

end TextAdventure
