import Mathlib.Data.List.Basic

/-! # The last assignment wins

Items with keys are run one after the other on a state. An item is superseded
when its key comes again. Where it does not matter to the other items, one that
is superseded can be left out. -/

namespace RustyDhcp.LastWins

variable {σ : Type} [DecidableEq κ] (key : α → Option κ) (run : σ → α → σ)

/-- The item has a key, and a later item has the same. -/
def Superseded (item : α) (later : List α) : Prop :=
  key item ≠ none ∧ ∃ other ∈ later, key other = key item

instance (item : α) (later : List α) : Decidable (Superseded key item later) :=
  inferInstanceAs (Decidable (_ ∧ _))

/-- The items that are not superseded. -/
def kept : List α → List α
  | [] => []
  | item :: later => if Superseded key item later then kept later else item :: kept later

/-- The items that are superseded. -/
def dropped : List α → List α
  | [] => []
  | item :: later => if Superseded key item later then item :: dropped later else dropped later

/-- An item makes no difference once another one with its key has been run, and
can be run later than any other one. -/
structure Yields (item other : α) : Prop where
  replaced : key other = key item → ∀ state, run (run state item) other = run state other
  postponed : key other ≠ key item → ∀ state,
    run (run state item) other = run (run state other) item

variable {key run} {item : α} {items later : List α}

theorem kept_sublist (items : List α) : (kept key items).Sublist items := by
  induction items with
  | nil => exact List.Sublist.refl _
  | cons item later induction =>
      rw [kept]
      split
      · exact induction.cons item
      · exact induction.cons_cons item

theorem dropped_sublist (items : List α) : (dropped key items).Sublist items := by
  induction items with
  | nil => exact List.Sublist.refl _
  | cons item later induction =>
      rw [dropped]
      split
      · exact induction.cons_cons item
      · exact induction.cons item

/-- Every item is either kept or dropped. -/
theorem length_kept_add_dropped (parts : α → List β) (items : List α) :
    ((kept key items).flatMap parts).length + ((dropped key items).flatMap parts).length =
      (items.flatMap parts).length := by
  induction items with
  | nil => rfl
  | cons item later induction =>
      rw [kept, dropped, List.flatMap_cons, List.length_append, ← induction]
      split
      · rw [List.flatMap_cons, List.length_append]
        omega
      · rw [List.flatMap_cons, List.length_append]
        omega

theorem foldl_of_superseded (superseded : ∃ other ∈ later, key other = key item)
    (yields : ∀ other ∈ later, Yields key run item other) (state : σ) :
    later.foldl run (run state item) = later.foldl run state := by
  induction later generalizing state with
  | nil =>
      rcases superseded with ⟨other, member, _⟩
      cases member
  | cons next later induction =>
      have nextYields := yields next List.mem_cons_self
      rw [List.foldl_cons, List.foldl_cons]
      by_cases same : key next = key item
      · rw [nextYields.replaced same]
      · rw [nextYields.postponed same]
        apply induction
        · rcases superseded with ⟨other, member, sameKey⟩
          rcases List.mem_cons.mp member with rfl | member
          · exact absurd sameKey same
          · exact ⟨other, member, sameKey⟩
        · exact fun other member => yields other (List.mem_cons_of_mem _ member)

/-- The dropped items make no difference if they yield to all others. -/
theorem foldl_kept (yields : ∀ item ∈ dropped key items, ∀ other ∈ items,
    Yields key run item other) (state : σ) :
    (kept key items).foldl run state = items.foldl run state := by
  induction items generalizing state with
  | nil => rfl
  | cons item later induction =>
      have others : ∀ item ∈ dropped key later, ∀ other ∈ later, Yields key run item other := by
        intro other dropped next member
        refine yields other ?_ next (List.mem_cons_of_mem _ member)
        rw [LastWins.dropped]
        split
        · exact List.mem_cons_of_mem _ dropped
        · exact dropped
      rw [kept]
      split
      · rename_i superseded
        have itemYields : ∀ other ∈ later, Yields key run item other := by
          intro other member
          refine yields item ?_ other (List.mem_cons_of_mem _ member)
          rw [LastWins.dropped, if_pos superseded]
          exact List.mem_cons_self
        rw [List.foldl_cons, foldl_of_superseded superseded.2 itemYields]
        exact induction others state
      · rw [List.foldl_cons, List.foldl_cons]
        exact induction others _

end RustyDhcp.LastWins
