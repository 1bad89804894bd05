/-!
Sorting by insertion.
-/

namespace VersionMatrix

variable {α : Type} {before : α → α → Bool} {item : α} {items : List α}

/-- Puts an item in front of the first one that it may stand before. -/
def insertInOrder (before : α → α → Bool) (item : α) : List α → List α
  | [] => [item]
  | first :: rest =>
    if before item first then item :: first :: rest
    else first :: insertInOrder before item rest

/-- Sorts items. Items that may stand either way keep their order. -/
def sortInOrder (before : α → α → Bool) (items : List α) : List α :=
  items.foldr (insertInOrder before) []

theorem perm_insertInOrder : (insertInOrder before item items).Perm (item :: items) := by
  induction items with
  | nil => exact List.Perm.refl _
  | cons first rest ih =>
    rw [insertInOrder]
    split
    · exact List.Perm.refl _
    · exact (ih.cons first).trans (List.Perm.swap ..)

/-- Sorting loses no item and adds none. -/
theorem perm_sortInOrder : (sortInOrder before items).Perm items := by
  induction items with
  | nil => exact List.Perm.refl _
  | cons first rest ih => exact perm_insertInOrder.trans (ih.cons first)

/-- An item that is inserted into sorted items leaves them sorted. -/
theorem pairwise_insertInOrder (trans : ∀ a b c, before a b → before b c → before a c)
    (total : ∀ a b, before a b ∨ before b a) (sorted : items.Pairwise (before · ·)) :
    (insertInOrder before item items).Pairwise (before · ·) := by
  induction items with
  | nil => simp [insertInOrder]
  | cons first rest ih =>
    rw [List.pairwise_cons] at sorted
    rw [insertInOrder]
    split
    next ahead =>
      refine List.pairwise_cons.2 ⟨?_, List.pairwise_cons.2 sorted⟩
      intro other member
      rcases List.mem_cons.1 member with rfl | later
      · exact ahead
      · exact trans _ _ _ ahead (sorted.1 other later)
    next behind =>
      refine List.pairwise_cons.2 ⟨?_, ih sorted.2⟩
      intro other member
      rcases List.mem_cons.1 (perm_insertInOrder.mem_iff.1 member) with rfl | later
      · exact (total first other).resolve_right behind
      · exact sorted.1 other later

/-- Items are in order once they are sorted, if the order is transitive and any two items are
comparable. -/
theorem pairwise_sortInOrder (trans : ∀ a b c, before a b → before b c → before a c)
    (total : ∀ a b, before a b ∨ before b a) :
    (sortInOrder before items).Pairwise (before · ·) := by
  induction items with
  | nil => exact List.Pairwise.nil
  | cons first rest ih => exact pairwise_insertInOrder trans total ih

end VersionMatrix
