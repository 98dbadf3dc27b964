import RustyDhcp.Foundation.Buffer
import RustyDhcp.Foundation.Selection
import RustyDhcp.Options

/-! # Options in the order of a request

A client lists the options that it asks for. They are moved to the front one by
one, then those that every answer carries; what has not been moved is dropped.
Up to 64 options, their codes are kept in an array beside them. -/

namespace RustyDhcp

open Checked

/-- The options that are kept although nobody asks for them, `H`. -/
def keptCodes : List UInt8 :=
  [Options.dhcpMessageType, Options.serverIdentifier, Options.subnetMask,
    Options.ipAddressLeaseTime, Options.domainNameServer, Options.router]

/-! ## The plain way -/

/-- What one code does: the first option from `pos` on that has it, if there is
one, moves to `pos`. -/
def moveOption (opts : List DhcpOption) (pos : Nat) (wanted : UInt8) :
    Checked (List DhcpOption × Nat) := do
  let rest ← slice opts pos opts.length
  match rest.findIdx? fun option => option.code = wanted with
  | some i =>
      if pos + i ≠ pos then
        let opts ← swap opts (pos + i) pos
        return (opts, pos + 1)
      else return (opts, pos + 1)
  | none => return (opts, pos)

def moveOptions : (codes : List UInt8) → (opts : List DhcpOption) → (pos : Nat) →
    Checked (List DhcpOption × Nat)
  | [], opts, pos => .ok (opts, pos)
  | wanted :: codes, opts, pos => do
      let (opts, pos) ← moveOption opts pos wanted
      moveOptions codes opts pos

def filterOptionsByReqSlow (opts : List DhcpOption) (reqParams : List UInt8) :
    Checked (List DhcpOption) := do
  let (opts, pos) ← moveOptions reqParams opts 0
  let (opts, pos) ← moveOptions keptCodes opts pos
  return opts.take pos

/-! ## With an array of codes -/

/-- The options, their codes in an array of 64, and how many of them have moved. -/
structure Moving where
  opts : List DhcpOption
  codes : List UInt8
  pos : Nat

/-- Put the codes of the options at the places from `i` on. -/
def cacheCodes : (opts : List DhcpOption) → (i : Nat) → (codes : List UInt8) →
    Checked (List UInt8)
  | [], _, codes => .ok codes
  | option :: opts, i, codes => do
      let codes ← put codes i option.code
      cacheCodes opts (i + 1) codes

/-- The first of so many places from `i` on that holds the code. -/
def findCode (codes : List UInt8) (wanted : UInt8) : (count i : Nat) → Checked (Option Nat)
  | 0, _ => .ok none
  | count + 1, i => do
      if (← index codes i) = wanted then return some i
      else findCode codes wanted count (i + 1)

def Moving.move (moving : Moving) (n : Nat) (wanted : UInt8) : Checked Moving := do
  match ← findCode moving.codes wanted (n - moving.pos) moving.pos with
  | some i =>
      if i ≠ moving.pos then
        let opts ← swap moving.opts i moving.pos
        let codes ← swap moving.codes i moving.pos
        return ⟨opts, codes, moving.pos + 1⟩
      else return { moving with pos := moving.pos + 1 }
  | none => return moving

def Moving.moveAll (n : Nat) : (wanted : List UInt8) → Moving → Checked Moving
  | [], moving => .ok moving
  | code :: wanted, moving => do
      let moving ← moving.move n code
      moveAll n wanted moving

def filterOptionsByReq (opts : List DhcpOption) (reqParams : List UInt8) :
    Checked (List DhcpOption) :=
  let n := opts.length
  if n = 0 then .ok opts
  else if 64 < n then filterOptionsByReqSlow opts reqParams
  else do
    let codes ← cacheCodes opts 0 (List.replicate 64 0)
    let moving ← Moving.moveAll n reqParams ⟨opts, codes, 0⟩
    let moving ← Moving.moveAll n keptCodes moving
    return moving.opts.take moving.pos

/-! ## What both ways select -/

/-- The options that are moved to the front, in the order of the codes. -/
def selectOptions (codes : List UInt8) (opts : List DhcpOption) :
    List DhcpOption × List DhcpOption := Selection.select DhcpOption.code codes opts

variable {chosen rest : List DhcpOption} {option : DhcpOption} {wanted : UInt8}

theorem moveOption_missing
    (missing : Selection.takeOut (fun option => option.code = wanted) rest = none) :
    moveOption (chosen ++ rest) chosen.length wanted = .ok (chosen ++ rest, chosen.length) := by
  have none := List.findIdx?_eq_none_iff.mpr (Selection.takeOut_eq_none_iff.mp missing)
  rw [moveOption, slice_length (by simp), List.drop_left, bind_ok, none]
  rfl

theorem moveOption_found {left : List DhcpOption}
    (found : Selection.takeOut (fun option => option.code = wanted) rest = some (option, left)) :
    moveOption (chosen ++ rest) chosen.length wanted =
      .ok (chosen ++ option :: left, chosen.length + 1) := by
  rcases Selection.takeOut_eq_some found with ⟨_, i, first, there, rfl⟩
  rw [moveOption, slice_length (by simp), List.drop_left, bind_ok, first]
  by_cases stays : i = 0
  · subst stays
    rw [← Selection.removeAt_zero there]
    simp
  · simp only [Selection.swap_append there, bind_ok, pure_eq_ok]
    rw [if_pos (by omega)]

theorem moveOptions_eq (codes : List UInt8) (chosen rest : List DhcpOption) :
    moveOptions codes (chosen ++ rest) chosen.length =
      .ok (chosen ++ (selectOptions codes rest).1 ++ (selectOptions codes rest).2,
        chosen.length + (selectOptions codes rest).1.length) := by
  induction codes generalizing chosen rest with
  | nil => simp [moveOptions, selectOptions]
  | cons wanted codes induction =>
      rw [moveOptions, selectOptions]
      cases taken : Selection.takeOut (fun option => option.code = wanted) rest with
      | none =>
          rw [moveOption_missing taken, bind_ok, Selection.select_missing taken]
          exact induction chosen rest
      | some found =>
          rcases found with ⟨option, left⟩
          have others := induction (chosen ++ [option]) left
          rw [List.length_append, List.length_singleton, List.append_assoc,
            List.singleton_append] at others
          rw [moveOption_found taken, Selection.select_found taken]
          simp only [bind_ok, others, selectOptions, List.length_cons, List.append_assoc,
            List.cons_append, List.nil_append, Nat.add_assoc, Nat.add_comm 1]

theorem selectOptions_append (codes others : List UInt8) (opts : List DhcpOption) :
    selectOptions (codes ++ others) opts =
      ((selectOptions codes opts).1 ++ (selectOptions others (selectOptions codes opts).2).1,
        (selectOptions others (selectOptions codes opts).2).2) := Selection.select_append

theorem filterOptionsByReqSlow_eq (opts : List DhcpOption) (reqParams : List UInt8) :
    filterOptionsByReqSlow opts reqParams =
      .ok (selectOptions (reqParams ++ keptCodes) opts).1 := by
  have asked := moveOptions_eq reqParams [] opts
  have kept := moveOptions_eq keptCodes (selectOptions reqParams opts).1
    (selectOptions reqParams opts).2
  simp only [List.nil_append, List.length_nil, Nat.zero_add] at asked
  rw [filterOptionsByReqSlow, asked]
  simp only [bind_ok, kept, pure_eq_ok, selectOptions_append]
  rw [List.take_left' List.length_append]

/-! ## The array of codes -/

theorem cacheCodes_eq (opts : List DhcpOption) (written rest : List UInt8)
    (room : opts.length ≤ rest.length) : cacheCodes opts written.length (written ++ rest) =
      .ok (written ++ opts.map DhcpOption.code ++ rest.drop opts.length) := by
  induction opts generalizing written rest with
  | nil => simp [cacheCodes]
  | cons option opts induction =>
      cases rest with
      | nil => cases room
      | cons byte rest =>
          have others := induction (written ++ [option.code]) rest (Nat.le_of_succ_le_succ room)
          simp only [List.length_append, List.length_singleton, List.append_assoc,
            List.singleton_append] at others
          have here : put (written ++ byte :: rest) written.length option.code =
              .ok (written ++ option.code :: rest) := by
            simp [put]
          rw [cacheCodes, here, bind_ok, others]
          simp

/-- The search from the end of what has moved finds the first of the others. -/
theorem findCode_eq (wanted : UInt8) (rest : List DhcpOption) (front tail : List UInt8) :
    findCode (front ++ rest.map DhcpOption.code ++ tail) wanted rest.length front.length =
      .ok ((rest.findIdx? fun option => option.code = wanted).map (front.length + ·)) := by
  induction rest generalizing front with
  | nil => rfl
  | cons option rest induction =>
      have here : index (front ++ (option :: rest).map DhcpOption.code ++ tail) front.length =
          .ok option.code := index_eq_ok (by simp)
      have others := induction (front ++ [option.code])
      simp only [List.length_append, List.length_singleton, List.append_assoc,
        List.cons_append, List.nil_append] at others
      rw [List.length_cons, findCode, here, bind_ok, List.findIdx?_cons]
      by_cases found : option.code = wanted
      · simp [found]
      · have codes : front ++ (option :: rest).map DhcpOption.code ++ tail =
            front ++ option.code :: (rest.map DhcpOption.code ++ tail) := by
          rw [List.map_cons, List.append_assoc, List.cons_append]
        simp only [codes, others, found, decide_false, Bool.false_eq_true, ↓reduceIte,
          Option.map_map]
        congr 2
        funext i
        exact Nat.add_right_comm _ _ _

/-- The options and, in the same places, their codes; so many have moved. -/
def Moving.of (chosen rest : List DhcpOption) (tail : List UInt8) : Moving where
  opts := chosen ++ rest
  codes := chosen.map DhcpOption.code ++ rest.map DhcpOption.code ++ tail
  pos := chosen.length

theorem Moving.move_missing {tail : List UInt8}
    (missing : Selection.takeOut (fun option => option.code = wanted) rest = none) :
    (Moving.of chosen rest tail).move (chosen.length + rest.length) wanted =
      .ok (.of chosen rest tail) := by
  have searched := findCode_eq wanted rest (chosen.map DhcpOption.code) tail
  rw [List.length_map,
    List.findIdx?_eq_none_iff.mpr (Selection.takeOut_eq_none_iff.mp missing)] at searched
  rw [Moving.move, Moving.of, Nat.add_sub_cancel_left, searched]
  rfl

theorem Moving.move_found {left : List DhcpOption} {tail : List UInt8}
    (found : Selection.takeOut (fun option => option.code = wanted) rest = some (option, left)) :
    (Moving.of chosen rest tail).move (chosen.length + rest.length) wanted =
      .ok (.of (chosen ++ [option]) left tail) := by
  rcases Selection.takeOut_eq_some found with ⟨_, i, first, there, rfl⟩
  have searched := findCode_eq wanted rest (chosen.map DhcpOption.code) tail
  rw [List.length_map, first, Option.map_some] at searched
  have inside : i < (rest.map DhcpOption.code).length := by
    rw [List.length_map]
    exact (List.getElem?_eq_some_iff.mp there).1
  have code : (rest.map DhcpOption.code ++ tail)[i]? = some option.code := by
    rw [List.getElem?_append_left inside, List.getElem?_map, there, Option.map_some]
  have swapped : swap (chosen.map DhcpOption.code ++ rest.map DhcpOption.code ++ tail)
      (chosen.length + i) chosen.length = .ok (chosen.map DhcpOption.code ++
        option.code :: ((Selection.removeAt rest i).map DhcpOption.code ++ tail)) := by
    rw [Selection.map_removeAt, ← Selection.removeAt_append inside, List.append_assoc,
      ← Selection.swap_append code, List.length_map]
  have after : Moving.of (chosen ++ [option]) (Selection.removeAt rest i) tail =
      ⟨chosen ++ option :: Selection.removeAt rest i, chosen.map DhcpOption.code ++
        option.code :: ((Selection.removeAt rest i).map DhcpOption.code ++ tail),
        chosen.length + 1⟩ := by
    simp [Moving.of]
  rw [after, Moving.move, Moving.of, Nat.add_sub_cancel_left, searched, bind_ok]
  by_cases stays : i = 0
  · subst stays
    have same := Selection.removeAt_zero there
    generalize Selection.removeAt rest 0 = left at same
    subst same
    simp
  · simp only [Selection.swap_append there, swapped, bind_ok, pure_eq_ok]
    rw [if_pos (by omega)]

theorem Moving.moveAll_eq (codes : List UInt8) (chosen rest : List DhcpOption) (tail : List UInt8) :
    Moving.moveAll (chosen.length + rest.length) codes (.of chosen rest tail) =
      .ok (.of (chosen ++ (selectOptions codes rest).1) (selectOptions codes rest).2 tail) := by
  induction codes generalizing chosen rest with
  | nil => simp [Moving.moveAll, selectOptions]
  | cons wanted codes induction =>
      rw [Moving.moveAll, selectOptions]
      cases taken : Selection.takeOut (fun option => option.code = wanted) rest with
      | none =>
          rw [Moving.move_missing taken, bind_ok, Selection.select_missing taken]
          exact induction chosen rest
      | some found =>
          rcases found with ⟨option, left⟩
          have length : (chosen ++ [option]).length + left.length =
              chosen.length + rest.length := by
            rw [(Selection.takeOut_perm taken).length_eq, List.length_append,
              List.length_singleton, List.length_cons, Nat.add_assoc, Nat.add_comm 1]
          have others := induction (chosen ++ [option]) left
          rw [length, List.append_assoc, List.singleton_append] at others
          rw [Moving.move_found taken, bind_ok, Selection.select_found taken, others]
          rfl

theorem selectOptions_perm (codes : List UInt8) (opts : List DhcpOption) :
    opts.Perm ((selectOptions codes opts).1 ++ (selectOptions codes opts).2) :=
  Selection.select_perm

/-- Either way selects the same options. -/
theorem filterOptionsByReq_eq (opts : List DhcpOption) (reqParams : List UInt8) :
    filterOptionsByReq opts reqParams = .ok (selectOptions (reqParams ++ keptCodes) opts).1 := by
  rw [filterOptionsByReq]
  by_cases none : opts = []
  · subst none
    have nothing := (selectOptions_perm (reqParams ++ keptCodes) []).nil_eq
    rw [(List.append_eq_nil_iff.mp nothing.symm).1]
    rfl
  by_cases many : 64 < opts.length
  · rw [if_neg (mt List.length_eq_zero_iff.mp none), if_pos many, filterOptionsByReqSlow_eq]
  have room : opts.length ≤ (List.replicate 64 (0 : UInt8)).length := by
    rw [List.length_replicate]
    omega
  have cached := cacheCodes_eq opts [] (List.replicate 64 0) room
  generalize (List.replicate 64 (0 : UInt8)).drop opts.length = tail at cached
  have asked := Moving.moveAll_eq reqParams [] opts tail
  have kept := Moving.moveAll_eq keptCodes (selectOptions reqParams opts).1
    (selectOptions reqParams opts).2 tail
  rw [← List.length_append, ← (selectOptions_perm reqParams opts).length_eq] at kept
  simp only [List.length_nil, List.nil_append, Nat.zero_add] at cached asked
  have start : (⟨opts, opts.map DhcpOption.code ++ tail, 0⟩ : Moving) = .of [] opts tail := rfl
  rw [if_neg (mt List.length_eq_zero_iff.mp none), if_neg many]
  simp only [cached, bind_ok, start, asked, kept, pure_eq_ok, selectOptions_append]
  rw [Moving.of, List.take_left]

/-- The array of codes changes nothing: up to 64 options are selected by it as
they would be without it. -/
theorem filterOptionsByReq_eq_slow (opts : List DhcpOption) (reqParams : List UInt8) :
    filterOptionsByReq opts reqParams = filterOptionsByReqSlow opts reqParams ∧
      ∃ selected, filterOptionsByReq opts reqParams = .ok selected := by
  rw [filterOptionsByReqSlow_eq, filterOptionsByReq_eq]
  exact ⟨rfl, _, rfl⟩

/-- What is asked for is selected in the order in which it is asked for, then
what is kept anyway, each option once. -/
theorem filterOptionsByReq_selects (opts : List DhcpOption) (reqParams : List UInt8) :
    ∃ selected, filterOptionsByReq opts reqParams = .ok selected ∧
      filterOptionsByReqSlow opts reqParams = .ok selected ∧
      selected.map DhcpOption.code =
        Selection.keepPresent (reqParams ++ keptCodes) (opts.map DhcpOption.code) ∧
      selected.Subperm opts ∧
      ∀ code, (selected.map DhcpOption.code).count code =
        min ((opts.map DhcpOption.code).count code)
          (reqParams.count code + if code ∈ keptCodes then 1 else 0) := by
  have codes : (selectOptions (reqParams ++ keptCodes) opts).1.map DhcpOption.code =
      Selection.keepPresent (reqParams ++ keptCodes) (opts.map DhcpOption.code) :=
    Selection.map_key_select
  refine ⟨_, filterOptionsByReq_eq opts reqParams, filterOptionsByReqSlow_eq opts reqParams,
    codes, Selection.select_subperm, ?_⟩
  intro code
  have distinct : keptCodes.Nodup := by decide
  rw [codes, Selection.count_keepPresent, List.count_append, distinct.count]

end RustyDhcp
