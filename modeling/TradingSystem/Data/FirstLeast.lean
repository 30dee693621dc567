import Mathlib.Data.List.Sort

/-!
# The first least element of a list

The element a stable sort by a key brings before every other element that satisfies a
predicate: the one with the least key, and of those with the same key the one that comes first.

* `IsFirstLeast` — an element splits the list so that what satisfies the predicate before it has
  a greater key, and what satisfies it after it has no smaller one.
* `find?_orderedInsert` — what the search in a sorted list finds once an element is inserted.
* `find?_insertionSort_eq_some` — the search in the sorted list finds the first least element.
-/

namespace List

variable {α β : Type*} [LinearOrder β] {key : α → β} {p : α → Bool} {l : List α} {a b : α}

/-- Of the elements that satisfy the predicate, the first one with the least key. -/
def IsFirstLeast (key : α → β) (p : α → Bool) (l : List α) (a : α) : Prop :=
  ∃ before after, l = before ++ a :: after ∧ p a = true ∧
    (∀ b ∈ before, p b = true → key a < key b) ∧ ∀ b ∈ after, p b = true → key a ≤ key b

/-- The order of a stable sort by a key. -/
abbrev keyLE (key : α → β) (a b : α) : Prop := key a ≤ key b

/-- What a search finds in a sorted list has the least key of what satisfies the predicate. -/
theorem le_of_find?_of_pairwise (hl : l.Pairwise (keyLE key)) (h : l.find? p = some a) :
    ∀ b ∈ l, p b = true → key a ≤ key b := by
  induction l with
  | nil => cases h
  | cons c l ih =>
    rw [pairwise_cons] at hl
    rw [find?_cons] at h
    intro b hb hpb
    cases hpc : p c with
    | true =>
      rw [hpc] at h
      cases h
      rcases mem_cons.1 hb with rfl | hb
      · exact le_rfl
      · exact hl.1 b hb
    | false =>
      rw [hpc] at h
      rcases mem_cons.1 hb with rfl | hb
      · rw [hpc] at hpb
        cases hpb
      · exact ih hl.2 h b hb hpb

/-- **A search after an insertion** finds the inserted element if its key is not above the key
of what was found before. -/
theorem find?_orderedInsert (hl : l.Pairwise (keyLE key)) (hpa : p a = true) :
    (l.orderedInsert (keyLE key) a).find? p =
      if ∀ b ∈ l.find? p, key a ≤ key b then some a else l.find? p := by
  induction l with
  | nil => simp [hpa]
  | cons c l ih =>
    rw [pairwise_cons] at hl
    rw [orderedInsert_cons]
    by_cases hle : keyLE key a c
    · -- the key of `a` is below every key of the list
      rw [if_pos hle, find?_cons, hpa, if_pos]
      intro b hb
      have hmem := mem_of_find?_eq_some hb
      rcases mem_cons.1 hmem with rfl | hmem
      · exact hle
      · exact le_trans hle (hl.1 b hmem)
    · rw [if_neg hle, find?_cons, find?_cons]
      cases hpc : p c with
      | true =>
        rw [if_neg]
        intro hall
        exact hle (hall c rfl)
      | false => exact ih hl.2

/-- Inserting an element that does not satisfy the predicate does not change a search. -/
theorem find?_orderedInsert_of_false (hpa : p a = false) :
    (l.orderedInsert (keyLE key) a).find? p = l.find? p := by
  induction l with
  | nil => simp [hpa]
  | cons c l ih =>
    rw [orderedInsert_cons]
    by_cases hle : keyLE key a c
    · rw [if_pos hle, find?_cons, hpa]
    · rw [if_neg hle, find?_cons, find?_cons]
      cases p c with
      | true => rfl
      | false => exact ih

/-- A first least element is the head, or the one of the tail where the head does not come before
it. -/
theorem IsFirstLeast.cons_iff :
    IsFirstLeast key p (b :: l) a ↔
      (a = b ∧ p b = true ∧ ∀ c ∈ l, p c = true → key b ≤ key c) ∨
      (IsFirstLeast key p l a ∧ (p b = true → key a < key b)) := by
  constructor
  · rintro ⟨before, after, hl, hpa, hbefore, hafter⟩
    cases before with
    | nil =>
      cases hl
      exact Or.inl ⟨rfl, hpa, hafter⟩
    | cons c before =>
      cases hl
      exact Or.inr ⟨⟨before, after, rfl, hpa,
        fun c hc => hbefore c (mem_cons_of_mem _ hc), hafter⟩, hbefore b mem_cons_self⟩
  · rintro (⟨rfl, hpa, hafter⟩ | ⟨⟨before, after, rfl, hpa, hbefore, hafter⟩, hb⟩)
    · exact ⟨[], l, rfl, hpa, by simp, hafter⟩
    · refine ⟨b :: before, after, rfl, hpa, ?_, hafter⟩
      intro c hc hpc
      rcases mem_cons.1 hc with rfl | hc
      · exact hb hpc
      · exact hbefore c hc hpc

/-- **The search in the sorted list** finds the first least element. -/
theorem find?_insertionSort_eq_some :
    (l.insertionSort (keyLE key)).find? p = some a ↔ IsFirstLeast key p l a := by
  induction l generalizing a with
  | nil =>
    constructor
    · intro h
      cases h
    · rintro ⟨before, after, h, -⟩
      cases before <;> cases h
  | cons b l ih =>
    have hsorted : (l.insertionSort (keyLE key)).Pairwise (keyLE key) :=
      pairwise_insertionSort (r := keyLE key) l
    rw [insertionSort_cons, IsFirstLeast.cons_iff]
    -- a head that fails the predicate is never found
    cases hpb : p b with
    | false =>
      rw [find?_orderedInsert_of_false hpb, ih]
      simp
    | true =>
      rw [find?_orderedInsert hsorted hpb]
      by_cases hall : ∀ c ∈ (l.insertionSort (keyLE key)).find? p, key b ≤ key c
      · -- nothing of the tail is strictly below the head
        rw [if_pos hall]
        have hleast : ∀ c ∈ l, p c = true → key b ≤ key c := by
          intro c hc hpc
          cases hfound : (l.insertionSort (keyLE key)).find? p with
          | none =>
            rw [find?_eq_none] at hfound
            exact absurd hpc (hfound c ((mem_insertionSort _).2 hc))
          | some d =>
            exact le_trans (hall d hfound)
              (le_of_find?_of_pairwise hsorted hfound c ((mem_insertionSort _).2 hc) hpc)
        constructor
        · intro h
          cases h
          exact Or.inl ⟨rfl, rfl, hleast⟩
        · rintro (⟨rfl, -, -⟩ | ⟨htail, hlt⟩)
          · rfl
          · exact absurd (hlt rfl) (not_lt.2 (hall a (ih.2 htail)))
      · rw [if_neg hall, ih]
        constructor
        · intro htail
          refine Or.inr ⟨htail, fun _ => ?_⟩
          by_contra hge
          refine hall fun c hc => ?_
          rw [ih.2 htail] at hc
          cases hc
          exact not_lt.1 hge
        · rintro (⟨rfl, -, hleast⟩ | ⟨htail, -⟩)
          · refine absurd (fun c hc => ?_) hall
            have hmem := mem_of_find?_eq_some hc
            exact hleast c ((mem_insertionSort _).1 hmem) (find?_some hc)
          · exact htail

/-- The search in the sorted list finds nothing when nothing satisfies the predicate. -/
theorem find?_insertionSort_eq_none :
    (l.insertionSort (keyLE key)).find? p = none ↔ ∀ a ∈ l, p a = false := by
  rw [find?_eq_none]
  simp only [mem_insertionSort, Bool.not_eq_true]

end List
