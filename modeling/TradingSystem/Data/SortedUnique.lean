import TradingSystem.Data.FirstLeast
import TradingSystem.Data.Separated

/-!
# Sorted lists without repetitions

A list is sorted by a key, and of the items with one identity the first one is kept.

* `uniqueBy` — the first item of each identity.
* `mem_uniqueBy` — nothing is lost where different items have different identities.
* `sortedUnique_congr` — with keys of their own the order and the repetitions do not matter.
* `sortedUnique_ne` — two items with one key come out in the order they came in.
-/

namespace TradingSystem
namespace Data

variable {α ι κ : Type} [DecidableEq ι] [LinearOrder κ]

/-- The items whose identity has not been seen before, in order. -/
def uniqueBy (identity : α → ι) : List ι → List α → List α
  | _, [] => []
  | seen, item :: rest =>
    if identity item ∈ seen then uniqueBy identity seen rest
    else item :: uniqueBy identity (identity item :: seen) rest

variable {identity : α → ι} {key : α → κ} {seen : List ι} {l l' : List α} {a b : α}

theorem uniqueBy_sublist : (uniqueBy identity seen l).Sublist l := by
  induction l generalizing seen with
  | nil => exact .refl _
  | cons item rest ih =>
    rw [uniqueBy]
    split_ifs with hseen
    · exact ih.cons _
    · exact ih.cons_cons _

/-- What is kept has an identity of its own. -/
theorem nodup_map_uniqueBy :
    ((uniqueBy identity seen l).map identity).Nodup ∧
      ∀ item ∈ uniqueBy identity seen l, identity item ∉ seen := by
  -- On the list, for everything seen before it: each step puts one identity to what is seen.
  induction l generalizing seen with
  | nil => exact ⟨List.nodup_nil, fun _ h => absurd h List.not_mem_nil⟩
  | cons item rest ih =>
    rw [uniqueBy]
    split_ifs with hseen
    · exact ih
    · obtain ⟨hnodup, hfresh⟩ := @ih (identity item :: seen)
      constructor
      · rw [List.map_cons, List.nodup_cons]
        refine ⟨fun hmem => ?_, hnodup⟩
        obtain ⟨other, hother, heq⟩ := List.mem_map.1 hmem
        exact hfresh other hother (heq ▸ List.mem_cons_self ..)
      · intro other hother
        obtain rfl | hother := List.mem_cons.1 hother
        · exact hseen
        · exact fun hmem => hfresh other hother (List.mem_cons_of_mem _ hmem)

theorem nodup_uniqueBy : (uniqueBy identity seen l).Nodup :=
  nodup_map_uniqueBy.1.of_map

/-- An item that shares its identity with no other is kept. -/
theorem mem_uniqueBy_of_mem (ha : a ∈ l) (hseen : identity a ∉ seen)
    (hsame : ∀ b ∈ l, identity a = identity b → a = b) : a ∈ uniqueBy identity seen l := by
  induction l generalizing seen with
  | nil => cases ha
  | cons first rest ih =>
    rw [uniqueBy]
    by_cases hfirst : a = first
    · rw [← hfirst, if_neg hseen]
      exact List.mem_cons_self ..
    · have hrest := (List.mem_cons.1 ha).resolve_left hfirst
      have hsame' : ∀ b ∈ rest, identity a = identity b → a = b :=
        fun b hb => hsame b (List.mem_cons_of_mem _ hb)
      split_ifs with hmem
      · exact ih hrest hseen hsame'
      · refine List.mem_cons_of_mem _ (ih hrest ?_ hsame')
        rw [List.mem_cons, not_or]
        exact ⟨fun heq => hfirst (hsame first (List.mem_cons_self ..) heq), hseen⟩

/-- Nothing is lost where different items have different identities. -/
theorem mem_uniqueBy (hinj : ∀ a ∈ l, ∀ b ∈ l, identity a = identity b → a = b) :
    a ∈ uniqueBy identity [] l ↔ a ∈ l :=
  ⟨fun h => uniqueBy_sublist.subset h,
    fun h => mem_uniqueBy_of_mem h List.not_mem_nil (hinj a h)⟩

/-- A search finds the same item. -/
theorem find?_uniqueBy {p : α → Bool}
    (hinj : ∀ a ∈ l, ∀ b ∈ l, identity a = identity b → a = b)
    (hseen : ∀ a ∈ l, p a = true → identity a ∉ seen) :
    (uniqueBy identity seen l).find? p = l.find? p := by
  induction l generalizing seen with
  | nil => rfl
  | cons item rest ih =>
    have hrest : ∀ a ∈ rest, ∀ b ∈ rest, identity a = identity b → a = b :=
      fun a ha b hb => hinj a (List.mem_cons_of_mem _ ha) b (List.mem_cons_of_mem _ hb)
    rw [uniqueBy, List.find?_cons]
    split_ifs with hmem
    · cases hp : p item with
      | true => exact absurd hmem (hseen item (List.mem_cons_self ..) hp)
      | false => exact ih hrest fun a ha => hseen a (List.mem_cons_of_mem _ ha)
    · rw [List.find?_cons]
      -- A dropped item was seen before, so the search does not look for it.
      cases hp : p item with
      | true => rfl
      | false =>
        refine ih hrest fun a ha hpa => ?_
        rw [List.mem_cons, not_or]
        refine ⟨fun heq => ?_, hseen a (List.mem_cons_of_mem _ ha) hpa⟩
        rw [hinj a (List.mem_cons_of_mem _ ha) item (List.mem_cons_self ..) heq, hp] at hpa
        cases hpa

/-- Sorted by a key, and of each identity the first. -/
def sortedUnique (identity : α → ι) (key : α → κ) (l : List α) : List α :=
  uniqueBy identity [] (sortBy key l)

theorem mem_of_mem_sortedUnique (h : a ∈ sortedUnique identity key l) : a ∈ l :=
  (perm_sortBy key l).mem_iff.1 (uniqueBy_sublist.subset h)

theorem nodup_sortedUnique : (sortedUnique identity key l).Nodup := nodup_uniqueBy

theorem mem_sortedUnique (hinj : ∀ a ∈ l, ∀ b ∈ l, identity a = identity b → a = b) :
    a ∈ sortedUnique identity key l ↔ a ∈ l := by
  have hmem : ∀ {a}, a ∈ sortBy key l ↔ a ∈ l := (perm_sortBy key l).mem_iff
  rw [sortedUnique, mem_uniqueBy (fun a ha b hb => hinj a (hmem.1 ha) b (hmem.1 hb)), hmem]

/-- Where nothing is lost, different items have different identities. -/
theorem injOn_of_mem_sortedUnique (h : ∀ a ∈ l, a ∈ sortedUnique identity key l) :
    ∀ a ∈ l, ∀ b ∈ l, identity a = identity b → a = b :=
  fun a ha b hb heq => List.inj_on_of_nodup_map nodup_map_uniqueBy.1 (h a ha) (h b hb) heq

/-- **The order and the repetitions do not matter** where different items have different
identities and different keys. -/
theorem sortedUnique_congr (hinj : ∀ a ∈ l, ∀ b ∈ l, identity a = identity b → a = b)
    (hkey : ∀ a ∈ l, ∀ b ∈ l, key a = key b → a = b) (hmem : ∀ a, a ∈ l' ↔ a ∈ l) :
    sortedUnique identity key l' = sortedUnique identity key l := by
  have hinj' : ∀ a ∈ l', ∀ b ∈ l', identity a = identity b → a = b :=
    fun a ha b hb => hinj a ((hmem a).1 ha) b ((hmem b).1 hb)
  have hsorted : ∀ l : List α, (sortedUnique identity key l).Pairwise fun a b => key a ≤ key b :=
    fun l => (pairwise_sortBy key l).sublist uniqueBy_sublist
  have hperm : (sortedUnique identity key l').Perm (sortedUnique identity key l) :=
    (List.perm_ext_iff_of_nodup nodup_sortedUnique nodup_sortedUnique).2 fun a => by
      rw [mem_sortedUnique hinj, mem_sortedUnique hinj', hmem]
  -- Both lists have the same items, and different items have different keys.
  refine List.Perm.eq_of_pairwise (fun a b ha hb hab hba => ?_) (hsorted l') (hsorted l) hperm
  exact hkey a ((hmem a).1 (mem_of_mem_sortedUnique ha)) b (mem_of_mem_sortedUnique hb)
    (le_antisymm hab hba)

/-- **Two items with one key** come out in the order they came in. -/
theorem sortedUnique_ne (hinj : ∀ a ∈ l, ∀ b ∈ l, identity a = identity b → a = b) (ha : a ∈ l)
    (hb : b ∈ l) (hkey : key a = key b) (hne : a ≠ b) :
    sortedUnique identity key (a :: b :: l) ≠ sortedUnique identity key (b :: a :: l) := by
  -- Both orders are told apart by the first item with the common key.
  have hfirst : ∀ {c d : α}, c ∈ l → d ∈ l → key c = key a →
      (sortedUnique identity key (c :: d :: l)).find? (fun item => key item = key a) = some c := by
    intro c d hc hd hcommon
    have hmem : ∀ {item}, item ∈ sortBy key (c :: d :: l) → item ∈ l := by
      intro item hitem
      obtain rfl | hitem := List.mem_cons.1 ((perm_sortBy key _).mem_iff.1 hitem)
      · exact hc
      · obtain rfl | hitem := List.mem_cons.1 hitem
        · exact hd
        · exact hitem
    rw [sortedUnique, find?_uniqueBy (fun x hx y hy => hinj x (hmem hx) y (hmem hy))
      fun _ _ _ => List.not_mem_nil]
    refine List.find?_insertionSort_eq_some.2 ⟨[], d :: l, rfl, by simpa using hcommon, ?_, ?_⟩
    · exact fun _ h => absurd h List.not_mem_nil
    · intro item _ hitem
      rw [hcommon, ← of_decide_eq_true hitem]
  intro heq
  have h := hfirst ha hb rfl
  rw [heq, hfirst hb ha hkey.symm] at h
  exact hne (Option.some.inj h).symm

end Data
end TradingSystem
