import Mathlib.Data.List.Perm.Basic
import Mathlib.Algebra.BigOperators.Group.List.Basic
import Mathlib.Algebra.Ring.Nat
import RustyDhcp.Foundation.Checked

/-! # Selecting in place

The values with the keys that are asked for are moved to the front of an array,
one after the other. A value changes places with the first one that has not been
moved, which is then somewhere among the others. -/

namespace RustyDhcp

/-- `values.swap(i, j)` -/
def Checked.swap (values : List α) (i j : Nat) : Checked (List α) := do
  let first ← index values i
  let second ← index values j
  return (values.set i second).set j first

namespace Selection

/-- The values without the one at `i`, whose place the first value takes. -/
def removeAt : (values : List α) → (i : Nat) → List α
  | [], _ => []
  | _ :: rest, 0 => rest
  | first :: rest, i + 1 => rest.set i first

/-- The first value that is wanted, and the values without it. -/
def takeOut (wanted : α → Bool) (values : List α) : Option (α × List α) := do
  let i ← values.findIdx? wanted
  let value ← values[i]?
  return (value, removeAt values i)

variable {α κ : Type} [DecidableEq κ]

/-- The values that are moved to the front, and the others, when a value is asked
for with one key after the other. -/
def select (key : α → κ) : List κ → List α → List α × List α
  | [], values => ([], values)
  | asked :: keys, values =>
      match takeOut (fun value => key value = asked) values with
      | none => select key keys values
      | some (value, rest) =>
          let (chosen, left) := select key keys rest
          (value :: chosen, left)

/-! ## One value -/

section One

variable {values rest chosen : List α} {value : α} {i : Nat} {wanted : α → Bool}

theorem removeAt_zero (first : values[0]? = some value) : values = value :: removeAt values 0 := by
  cases values with
  | nil => cases first
  | cons head rest =>
      cases first
      rfl

theorem map_removeAt {β : Type} (transform : α → β) :
    (removeAt values i).map transform = removeAt (values.map transform) i := by
  cases values with
  | nil => rfl
  | cons first rest =>
      cases i with
      | zero => rfl
      | succ i => exact List.map_set

theorem removeAt_append {tail : List α} (inside : i < values.length) :
    removeAt (values ++ tail) i = removeAt values i ++ tail := by
  cases values with
  | nil => cases inside
  | cons first rest =>
      cases i with
      | zero => rfl
      | succ i => exact List.set_append_left _ _ (Nat.lt_of_succ_lt_succ inside)

theorem perm_removeAt (found : values[i]? = some value) :
    values.Perm (value :: removeAt values i) := by
  cases values with
  | nil => cases found
  | cons first rest =>
      cases i with
      | zero =>
          cases found
          exact .refl _
      | succ i =>
          rw [List.getElem?_cons_succ] at found
          rcases List.getElem?_eq_some_iff.mp found with ⟨inside, rfl⟩
          have others := List.getElem_cons_eraseIdx_perm inside
          have moved := List.set_perm_cons_eraseIdx inside first
          calc first :: rest
            _ |>.Perm (first :: rest[i] :: rest.eraseIdx i) := others.symm.cons first
            _ |>.Perm (rest[i] :: first :: rest.eraseIdx i) := .swap _ _ _
            _ |>.Perm (rest[i] :: rest.set i first) := moved.symm.cons _

theorem swap_append (found : rest[i]? = some value) :
    Checked.swap (chosen ++ rest) (chosen.length + i) chosen.length =
      .ok (chosen ++ value :: removeAt rest i) := by
  cases rest with
  | nil => cases found
  | cons first rest =>
      have there : (chosen ++ first :: rest)[chosen.length + i]? = some value := by
        rw [List.getElem?_append_right (Nat.le_add_right _ _), Nat.add_sub_cancel_left, found]
      have here : (chosen ++ first :: rest)[chosen.length]? = some first := by
        rw [List.getElem?_append_right (Nat.le_refl _), Nat.sub_self, List.getElem?_cons_zero]
      rw [Checked.swap, Checked.index_eq_ok there, Checked.bind_ok, Checked.index_eq_ok here,
        Checked.bind_ok, Checked.pure_eq_ok, List.set_append_right _ _ (Nat.le_add_right _ _),
        Nat.add_sub_cancel_left, List.set_append_right _ _ (Nat.le_refl _), Nat.sub_self]
      cases i with
      | zero => rfl
      | succ i => rfl

theorem takeOut_eq_none_iff :
    takeOut wanted values = none ↔ ∀ value ∈ values, wanted value = false := by
  rw [← List.findIdx?_eq_none_iff, takeOut]
  cases found : values.findIdx? wanted with
  | none => simp
  | some i =>
      rcases List.findIdx?_eq_some_iff_getElem.mp found with ⟨inside, _⟩
      simp [List.getElem?_eq_getElem inside]

theorem takeOut_eq_some (found : takeOut wanted values = some (value, rest)) :
    wanted value = true ∧ ∃ i, values.findIdx? wanted = some i ∧ values[i]? = some value ∧
      rest = removeAt values i := by
  rw [takeOut] at found
  rcases Option.bind_eq_some_iff.mp found with ⟨i, first, found⟩
  rcases Option.bind_eq_some_iff.mp found with ⟨taken, there, equal⟩
  cases equal
  rcases List.findIdx?_eq_some_iff_getElem.mp first with ⟨inside, isWanted, _⟩
  rw [List.getElem?_eq_getElem inside, Option.some.injEq] at there
  rw [there] at isWanted
  exact ⟨isWanted, i, first, by rw [List.getElem?_eq_getElem inside, there], rfl⟩

theorem takeOut_perm (found : takeOut wanted values = some (value, rest)) :
    values.Perm (value :: rest) := by
  rcases takeOut_eq_some found with ⟨_, i, _, there, rfl⟩
  exact perm_removeAt there

end One

/-! ## One value after the other -/

variable {key : α → κ} {keys others : List κ} {values rest : List α} {value : α} {asked : κ}

@[simp] theorem select_nil : select key [] values = ([], values) := rfl

theorem select_missing (missing : takeOut (fun value => key value = asked) values = none) :
    select key (asked :: keys) values = select key keys values := by
  rw [select, missing]

theorem select_found
    (found : takeOut (fun value => key value = asked) values = some (value, rest)) :
    select key (asked :: keys) values =
      (value :: (select key keys rest).1, (select key keys rest).2) := by
  rw [select, found]

theorem select_append : select key (keys ++ others) values =
    ((select key keys values).1 ++ (select key others (select key keys values).2).1,
      (select key others (select key keys values).2).2) := by
  induction keys generalizing values with
  | nil => rfl
  | cons asked keys induction =>
      rw [List.cons_append]
      cases taken : takeOut (fun value => key value = asked) values with
      | none => rw [select_missing taken, select_missing taken, induction]
      | some found =>
          rw [select_found taken, select_found taken, induction]
          rfl

/-- Nothing is lost and nothing is invented. -/
theorem select_perm :
    values.Perm ((select key keys values).1 ++ (select key keys values).2) := by
  induction keys generalizing values with
  | nil => exact .refl _
  | cons asked keys induction =>
      cases taken : takeOut (fun value => key value = asked) values with
      | none =>
          rw [select_missing taken]
          exact induction
      | some found =>
          rw [select_found taken]
          exact (takeOut_perm taken).trans (induction.cons found.1)

/-! ## The keys of what is selected -/

/-- The keys that are asked for, each as long as there is one of it left. -/
def keepPresent : (keys : List κ) → (present : List κ) → List κ
  | [], _ => []
  | asked :: keys, present =>
      if asked ∈ present then asked :: keepPresent keys (present.erase asked)
      else keepPresent keys present

variable {present left right : List κ}

theorem keepPresent_found (asks : asked ∈ present) :
    keepPresent (asked :: keys) present = asked :: keepPresent keys (present.erase asked) := by
  rw [keepPresent, if_pos asks]

theorem keepPresent_missing (absent : asked ∉ present) :
    keepPresent (asked :: keys) present = keepPresent keys present := by
  rw [keepPresent, if_neg absent]

/-- The order of what is there does not matter. -/
theorem keepPresent_perm (perm : left.Perm right) :
    keepPresent keys left = keepPresent keys right := by
  induction keys generalizing left right with
  | nil => rfl
  | cons asked keys induction =>
      by_cases asks : asked ∈ left
      · rw [keepPresent_found asks, keepPresent_found (perm.mem_iff.mp asks),
          induction (perm.erase asked)]
      · rw [keepPresent_missing asks, keepPresent_missing (mt perm.mem_iff.mpr asks),
          induction perm]

theorem map_key_select :
    (select key keys values).1.map key = keepPresent keys (values.map key) := by
  induction keys generalizing values with
  | nil => rfl
  | cons asked keys induction =>
      cases taken : takeOut (fun value => key value = asked) values with
      | none =>
          have absent : asked ∉ values.map key := by
            intro listed
            rcases List.mem_map.mp listed with ⟨value, member, same⟩
            exact of_decide_eq_false (takeOut_eq_none_iff.mp taken value member) same
          rw [select_missing taken, keepPresent_missing absent, induction]
      | some found =>
          rcases found with ⟨value, rest⟩
          have same : key value = asked := of_decide_eq_true (takeOut_eq_some taken).1
          have perm := (takeOut_perm taken).map key
          rw [List.map_cons, same] at perm
          have others := perm.erase asked
          rw [List.erase_cons_head] at others
          rw [select_found taken, List.map_cons, same, induction, ← keepPresent_perm others,
            keepPresent_found (perm.mem_iff.mpr List.mem_cons_self)]

/-- A key is kept as often as it is there, but no more often than it is asked
for. -/
theorem count_keepPresent (wanted : κ) :
    (keepPresent keys present).count wanted = min (present.count wanted) (keys.count wanted) := by
  induction keys generalizing present with
  | nil => simp [keepPresent]
  | cons asked keys induction =>
      by_cases asks : asked ∈ present
      · rw [keepPresent_found asks]
        by_cases here : asked = wanted
        · subst here
          have positive := List.count_pos_iff.mpr asks
          rw [List.count_cons_self, List.count_cons_self, induction, List.count_erase_self]
          omega
        · rw [List.count_cons_of_ne here, List.count_cons_of_ne here, induction,
            List.count_erase_of_ne (Ne.symm here)]
      · rw [keepPresent_missing asks, induction]
        by_cases here : asked = wanted
        · subst here
          rw [List.count_eq_zero_of_not_mem asks, Nat.zero_min, Nat.zero_min]
        · rw [List.count_cons_of_ne here]

theorem select_subperm : (select key keys values).1.Subperm values :=
  (List.sublist_append_left _ _).subperm.trans select_perm.symm.subperm

theorem exists_selected {wanted : κ} (asks : wanted ∈ keys)
    (present : ∃ value ∈ values, key value = wanted) :
    ∃ value ∈ (select key keys values).1, key value = wanted := by
  induction keys generalizing values with
  | nil => cases asks
  | cons asked keys induction =>
      cases taken : takeOut (fun value => key value = asked) values with
      | none =>
          rw [select_missing taken]
          rcases List.mem_cons.mp asks with rfl | later
          · rcases present with ⟨value, member, same⟩
            exact absurd same (of_decide_eq_false (takeOut_eq_none_iff.mp taken value member))
          · exact induction later present
      | some found =>
          rcases found with ⟨value, rest⟩
          rw [select_found taken]
          have same : key value = asked := of_decide_eq_true (takeOut_eq_some taken).1
          by_cases first : asked = wanted
          · exact ⟨value, List.mem_cons_self, same.trans first⟩
          · rcases present with ⟨other, member, otherKey⟩
            rcases List.mem_cons.mp ((takeOut_perm taken).mem_iff.mp member) with rfl | behind
            · exact absurd (same.symm.trans otherKey) first
            · have later := (List.mem_cons.mp asks).resolve_left (Ne.symm first)
              rcases induction later ⟨other, behind, otherKey⟩ with ⟨chosen, here, chosenKey⟩
              exact ⟨chosen, List.mem_cons_of_mem _ here, chosenKey⟩

/-! ## Values with different keys -/

/-- What the values weigh up to the one with the given key. -/
def weightUpTo (key : α → κ) (weight : α → Nat) (wanted : κ) : List α → Nat
  | [] => 0
  | value :: values =>
      if key value = wanted then weight value
      else weight value + weightUpTo key weight wanted values

variable {weight : α → Nat} {wanted : κ}

/-- The values that are asked for not later than the given key. -/
def askedUpTo (key : α → κ) (keys : List κ) (wanted : κ) (values : List α) : List α :=
  values.filter fun value => keys.idxOf (key value) ≤ keys.idxOf wanted

theorem askedUpTo_cons_of_ne (different : asked ≠ wanted)
    (others : ∀ value ∈ values, key value ≠ asked) :
    askedUpTo key (asked :: keys) wanted values = askedUpTo key keys wanted values := by
  apply List.filter_congr
  intro value member
  rw [List.idxOf_cons_ne _ (others value member).symm, List.idxOf_cons_ne _ different]
  simp only [Nat.succ_le_succ_iff]

theorem askedUpTo_cons_self (others : ∀ value ∈ values, key value ≠ asked) :
    askedUpTo key (asked :: keys) asked values = [] := by
  apply List.filter_eq_nil_iff.mpr
  intro value member
  rw [List.idxOf_cons_ne _ (others value member).symm, List.idxOf_cons_self]
  simp

/-- What is moved to the front up to a key is what is asked for not later. -/
theorem weightUpTo_select (distinct : (values.map key).Nodup) (asks : wanted ∈ keys)
    (present : ∃ value ∈ values, key value = wanted) :
    weightUpTo key weight wanted (select key keys values).1 =
      ((askedUpTo key keys wanted values).map weight).sum := by
  induction keys generalizing values with
  | nil => cases asks
  | cons asked keys induction =>
      cases taken : takeOut (fun value => key value = asked) values with
      | none =>
          have absent : ∀ value ∈ values, key value ≠ asked := by
            intro value member
            exact of_decide_eq_false (takeOut_eq_none_iff.mp taken value member)
          have different : asked ≠ wanted := by
            intro equal
            subst equal
            rcases present with ⟨value, member, same⟩
            exact absent value member same
          have later := (List.mem_cons.mp asks).resolve_left different.symm
          rw [select_missing taken, askedUpTo_cons_of_ne different absent,
            induction distinct later present]
      | some found =>
          rcases found with ⟨value, rest⟩
          have same : key value = asked := of_decide_eq_true (takeOut_eq_some taken).1
          have perm := takeOut_perm taken
          have split := (perm.map key).nodup_iff.mp distinct
          rw [List.map_cons, List.nodup_cons, same] at split
          rcases split with ⟨fresh, restDistinct⟩
          have others : ∀ other ∈ rest, key other ≠ asked := by
            intro other member equal
            subst equal
            exact fresh (List.mem_map_of_mem member)
          have kept : askedUpTo key (asked :: keys) wanted (value :: rest) =
              value :: askedUpTo key (asked :: keys) wanted rest := by
            apply List.filter_cons_of_pos
            rw [same, List.idxOf_cons_self]
            exact decide_eq_true (Nat.zero_le _)
          have total := ((perm.filter fun value =>
            (asked :: keys).idxOf (key value) ≤ (asked :: keys).idxOf wanted).map weight).sum_eq
          rw [select_found taken, askedUpTo, total, ← askedUpTo, kept, List.map_cons,
            List.sum_cons, weightUpTo, same]
          by_cases first : asked = wanted
          · rw [if_pos first, ← first, askedUpTo_cons_self others]
            rfl
          · have later := (List.mem_cons.mp asks).resolve_left (Ne.symm first)
            have restPresent : ∃ value ∈ rest, key value = wanted := by
              rcases present with ⟨other, member, otherKey⟩
              rcases List.mem_cons.mp (perm.mem_iff.mp member) with rfl | behind
              · exact absurd (same.symm.trans otherKey) first
              · exact ⟨other, behind, otherKey⟩
            rw [if_neg first, askedUpTo_cons_of_ne first others,
              induction restDistinct later restPresent]

end Selection

end RustyDhcp
