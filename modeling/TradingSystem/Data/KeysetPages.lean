import TradingSystem.Data.Separated
import Mathlib.Algebra.Order.Ring.Int

/-!
# Pages by a key

Rows with a key of their own are handed out page by page: a page holds the rows whose key lies
above a cursor, in the order of the key and not more than a limit, and the cursor of the next page
is the key of its last row.

* `above` — the rows above a cursor, in the order of the key.
* `follow` — asking for page after page.
* `above_of_append` — behind the last row of a page lie the rows the page left out.
* `follow_of_fetch`, `follow_of_fetch_error` — the pages together hold every row once, or the
  first row that cannot be handed out ends the walk.
-/

namespace TradingSystem
namespace Data
namespace KeysetPages

variable {α β ε π : Type}

/-! ### Rows above a cursor -/

section Above

variable (seq : α → ℤ)

/-- The rows with a key above the cursor, in the order of the key. -/
def above (rows : List α) (cursor : ℤ) : List α :=
  sortBy seq (rows.filter fun row => cursor < seq row)

variable {seq} {rows : List α}

theorem mem_above {cursor : ℤ} {row : α} : row ∈ above seq rows cursor ↔
    row ∈ rows ∧ cursor < seq row := by
  rw [above, (perm_sortBy seq _).mem_iff, List.mem_filter, decide_eq_true_eq]

/-- With a key of their own the rows stand in strictly increasing order. -/
theorem pairwise_above (hnodup : (rows.map seq).Nodup) (cursor : ℤ) :
    (above seq rows cursor).Pairwise fun left right => seq left < seq right := by
  have hle : (above seq rows cursor).Pairwise fun left right => seq left ≤ seq right :=
    pairwise_sortBy seq _
  -- A sort may leave equal keys side by side; keys of their own exclude that.
  have hne : (above seq rows cursor).Pairwise fun left right => seq left ≠ seq right := by
    have hsub : ((rows.filter fun row => cursor < seq row).map seq).Nodup :=
      hnodup.sublist (List.filter_sublist.map seq)
    have hperm := (perm_sortBy seq (rows.filter fun row => cursor < seq row)).map seq
    exact List.pairwise_map.1 (hperm.nodup_iff.2 hsub)
  exact hle.imp₂ (fun _ _ hle hne => lt_of_le_of_ne hle hne) hne

/-- Behind a row lie the rows after it. -/
theorem above_of_append (hnodup : (rows.map seq).Nodup) {cursor : ℤ} {front rest : List α}
    {last : α} (h : above seq rows cursor = front ++ last :: rest) :
    above seq rows (seq last) = rest := by
  have hsorted := pairwise_above hnodup cursor
  rw [h] at hsorted
  have hrest : rest.Pairwise fun left right => seq left < seq right :=
    (List.pairwise_append.1 hsorted).2.1.of_cons
  refine List.Perm.eq_of_pairwise (fun _ _ _ _ hlt hgt => absurd hlt hgt.not_gt)
    (pairwise_above hnodup _) hrest ?_
  -- Both lists are strictly increasing, so it is enough that they have the same rows.
  have hinj : ∀ {l : List α}, l.Pairwise (fun left right => seq left < seq right) → l.Nodup :=
    fun hl => hl.imp fun hlt heq => by rw [heq] at hlt; exact lt_irrefl _ hlt
  refine (List.perm_ext_iff_of_nodup (hinj (pairwise_above hnodup _)) (hinj hrest)).2 fun row => ?_
  rw [mem_above]
  have hmem : row ∈ above seq rows cursor ↔ row ∈ front ++ last :: rest := by rw [h]
  rw [mem_above, List.mem_append, List.mem_cons] at hmem
  have hlast : last ∈ above seq rows cursor := h ▸ List.mem_append_right _ (List.mem_cons_self ..)
  -- A row above the last one of the front is not in the front.
  constructor
  · rintro ⟨hrow, hlt⟩
    obtain hfront | rfl | hrest := hmem.1 ⟨hrow, (mem_above.1 hlast).2.trans hlt⟩
    · exact absurd ((List.pairwise_append.1 hsorted).2.2 _ hfront _ (List.mem_cons_self ..))
        hlt.not_gt
    · exact absurd hlt (lt_irrefl _)
    · exact hrest
  · intro hrow
    exact ⟨(hmem.2 (.inr (.inr hrow))).1,
      List.rel_of_pairwise_cons (List.pairwise_append.1 hsorted).2.1 hrow⟩

end Above

/-! ### Page after page -/

section Follow

variable (fetch : ℤ → Except ε π) (next : π → Option ℤ) (hasMore : π → Bool)

/-- The pages from a cursor on: as long as a page says that there is more, the next one is asked
for with its cursor, or without one where it has none. -/
def follow : ℕ → ℤ → Except ε (Option (List π))
  | 0, _ => .ok none
  | fuel + 1, cursor =>
    match fetch cursor with
    | .error failure => .error failure
    | .ok page =>
      if hasMore page then
        (follow fuel ((next page).getD 0)).map fun pages => pages.map (page :: ·)
      else .ok (some [page])

/-- Every page of a walk was fetched. -/
theorem fetched_of_follow {fuel : ℕ} {cursor : ℤ} {pages : List π}
    (h : follow fetch next hasMore fuel cursor = .ok (some pages)) :
    ∀ page ∈ pages, ∃ place, fetch place = .ok page := by
  -- On the pages left to ask for, for every cursor.
  induction fuel generalizing cursor pages with
  | zero => simp [follow] at h
  | succ fuel ih =>
    rw [follow] at h
    cases hfetch : fetch cursor with
    | error failure => simp [hfetch] at h
    | ok first =>
      rw [hfetch] at h
      simp only at h
      split_ifs at h with hmore
      · cases hrest : follow fetch next hasMore fuel ((next first).getD 0) with
        | error failure => simp [hrest, Except.map] at h
        | ok found =>
          cases found with
          | none => simp [hrest, Except.map] at h
          | some rest =>
            simp only [hrest, Except.map, Option.map_some, Except.ok.injEq, Option.some.injEq] at h
            subst h
            intro page hpage
            obtain rfl | hpage := List.mem_cons.1 hpage
            · exact ⟨cursor, hfetch⟩
            · exact ih hrest page hpage
      · simp only [Except.ok.injEq, Option.some.injEq] at h
        subst h
        intro page hpage
        rw [List.mem_singleton.1 hpage]
        exact ⟨cursor, hfetch⟩

end Follow

/-! ### The rows of a walk -/

section Walk

variable {seq : α → ℤ} {rows : List α} {decode : α → Except ε β}
  {fetch : ℤ → Except ε π} {next : π → Option ℤ} {hasMore : π → Bool} {data : π → List β}
  {limit : ℕ}

/-- What a page holds: the first rows above the cursor, handed out; the key of the last of them;
and whether rows were left out. A page fails with the first row that cannot be handed out. -/
structure Pages (seq : α → ℤ) (rows : List α) (decode : α → Except ε β)
    (fetch : ℤ → Except ε π) (next : π → Option ℤ) (hasMore : π → Bool) (data : π → List β)
    (limit : ℕ) : Prop where
  ok : ∀ {cursor found}, ((above seq rows cursor).take limit).mapM decode = .ok found →
    ∃ page, fetch cursor = .ok page ∧ data page = found ∧
      next page = (((above seq rows cursor).take limit).getLast?).map seq ∧
      (hasMore page = true ↔ limit < (above seq rows cursor).length)
  error : ∀ {cursor failure}, ((above seq rows cursor).take limit).mapM decode = .error failure →
    fetch cursor = .error failure

/-- The cursor behind a page that left rows out. -/
theorem above_next (hnodup : (rows.map seq).Nodup) (hlimit : 0 < limit) {cursor : ℤ}
    (hmore : limit < (above seq rows cursor).length) :
    above seq rows (((((above seq rows cursor).take limit).getLast?).map seq).getD 0) =
      (above seq rows cursor).drop limit := by
  have hne : (above seq rows cursor).take limit ≠ [] := by
    intro hnil
    have := congrArg List.length hnil
    simp only [List.length_take, List.length_nil] at this
    omega
  rw [List.getLast?_eq_getLast_of_ne_nil hne, Option.map_some, Option.getD_some]
  -- The last row of the page stands right before the rows that were left out.
  have hsplit : above seq rows cursor = ((above seq rows cursor).take limit).dropLast ++
      ((above seq rows cursor).take limit).getLast hne :: (above seq rows cursor).drop limit := by
    rw [← List.singleton_append, ← List.append_assoc, List.dropLast_append_getLast,
      List.take_append_drop]
  exact above_of_append hnodup hsplit

variable (hpages : Pages seq rows decode fetch next hasMore data limit)

include hpages

/-- **The pages together hold every row above the cursor**, in order, each once. -/
theorem follow_of_fetch (hnodup : (rows.map seq).Nodup) (hlimit : 0 < limit) {fuel : ℕ}
    {cursor : ℤ} (hfuel : (above seq rows cursor).length < fuel) {found : List β}
    (h : (above seq rows cursor).mapM decode = .ok found) :
    ∃ pages, follow fetch next hasMore fuel cursor = .ok (some pages) ∧
      pages.flatMap data = found := by
  -- On the fuel, for every cursor: a page leaves fewer rows above the next cursor than there were.
  induction fuel generalizing cursor found with
  | zero => omega
  | succ fuel ih =>
    rw [← List.take_append_drop limit (above seq rows cursor), List.mapM_append] at h
    cases hfront : ((above seq rows cursor).take limit).mapM decode with
    | error failure => simp [hfront, bind, Except.bind] at h
    | ok front =>
      obtain ⟨page, hfetch, hdata, hnext, hmore⟩ := hpages.ok hfront
      rw [follow, hfetch]
      simp only
      -- The walk goes on exactly when rows lie behind the page.
      by_cases hlong : limit < (above seq rows cursor).length
      · rw [if_pos (hmore.2 hlong), hnext]
        cases hback : ((above seq rows cursor).drop limit).mapM decode with
        | error failure => simp [hfront, hback, bind, Except.bind] at h
        | ok back =>
          have hrest := above_next hnodup hlimit hlong
          have hfound : front ++ back = found := by
            simpa [hfront, hback, bind, Except.bind, pure, Except.pure] using h
          obtain ⟨pages, hfollow, hflat⟩ := ih (by
            rw [hrest, List.length_drop]
            omega) (hrest ▸ hback)
          refine ⟨page :: pages, ?_, ?_⟩
          · rw [hfollow]
            rfl
          · rw [List.flatMap_cons, hflat, hdata, hfound]
      · have hdrop : (above seq rows cursor).drop limit = [] :=
          List.drop_eq_nil_of_le (Nat.le_of_not_lt hlong)
        have hfound : front = found := by
          simpa [hfront, hdrop, bind, Except.bind, pure, Except.pure] using h
        rw [if_neg (fun hyes => hlong (hmore.1 hyes))]
        exact ⟨[page], rfl, by rw [List.flatMap_cons, List.flatMap_nil, List.append_nil, hdata,
          hfound]⟩

/-- A row that cannot be handed out ends the walk, with its failure. -/
theorem follow_of_fetch_error (hnodup : (rows.map seq).Nodup) (hlimit : 0 < limit) {fuel : ℕ}
    {cursor : ℤ} (hfuel : (above seq rows cursor).length < fuel) {failure : ε}
    (h : (above seq rows cursor).mapM decode = .error failure) :
    follow fetch next hasMore fuel cursor = .error failure := by
  -- On the fuel, for every cursor; the failure is on this page or behind it.
  induction fuel generalizing cursor with
  | zero => omega
  | succ fuel ih =>
    rw [← List.take_append_drop limit (above seq rows cursor), List.mapM_append] at h
    cases hfront : ((above seq rows cursor).take limit).mapM decode with
    | error first =>
      have hsame : first = failure := by simpa [hfront, bind, Except.bind] using h
      rw [follow, hpages.error hfront, hsame]
    | ok front =>
      obtain ⟨page, hfetch, -, hnext, hmore⟩ := hpages.ok hfront
      cases hback : ((above seq rows cursor).drop limit).mapM decode with
      | ok back => simp [hfront, hback, bind, Except.bind, pure, Except.pure] at h
      | error second =>
        have hsame : second = failure := by simpa [hfront, hback, bind, Except.bind] using h
        -- Behind the last page nothing is left that could fail.
        have hlong : limit < (above seq rows cursor).length := by
          by_contra hshort
          rw [List.drop_eq_nil_of_le (Nat.le_of_not_lt hshort)] at hback
          simp [pure, Except.pure] at hback
        have hrest := above_next hnodup hlimit hlong
        rw [follow, hfetch]
        simp only
        rw [if_pos (hmore.2 hlong), hnext, ih (by
          rw [hrest, List.length_drop]
          omega) (hrest ▸ hsame ▸ hback)]
        rfl

end Walk

end KeysetPages
end Data
end TradingSystem
