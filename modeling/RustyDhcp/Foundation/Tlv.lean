import Mathlib.Data.List.Forall2
import RustyDhcp.Foundation.Bytes
import RustyDhcp.Foundation.Fallible

/-! # Fields with a code and a length

A field is its code, the length of its data and the data, where code and length
take `width` bytes each. Such fields can be read one after the other, in one
way only. -/

namespace RustyDhcp

structure Field where
  code : Nat
  data : List UInt8
deriving DecidableEq

namespace Field

def bytes (width : Nat) (field : Field) : List UInt8 :=
  bigEndian width field.code ++ (bigEndian width field.data.length ++ field.data)

/-- Code and length can be written in `width` bytes each. -/
structure Fits (width : Nat) (field : Field) : Prop where
  code : field.code < 256 ^ width
  length : field.data.length < 256 ^ width

/-- The fields one after the other. -/
def join (width : Nat) (fields : List Field) : List UInt8 := fields.flatMap (bytes width)

/-- The first field of the bytes, if it is complete, and what follows it. -/
def split (width : Nat) (bytes : List UInt8) : Option (Field × List UInt8) :=
  let length := ofBigEndian ((bytes.drop width).take width)
  let rest := bytes.drop (width + width)
  if width + width ≤ bytes.length ∧ length ≤ rest.length then
    some (⟨ofBigEndian (bytes.take width), rest.take length⟩, rest.drop length)
  else none

variable {width : Nat} {field : Field} {fields : List Field} {input rest : List UInt8}

@[simp] theorem length_bytes : (field.bytes width).length = width + width + field.data.length := by
  simp [bytes, Nat.add_assoc]

@[simp] theorem join_nil : join width [] = [] := rfl

@[simp] theorem join_cons : join width (field :: fields) = field.bytes width ++ join width fields :=
  List.flatMap_cons

@[simp] theorem join_append {others : List Field} :
    join width (fields ++ others) = join width fields ++ join width others :=
  List.flatMap_append

theorem split_bytes (fits : field.Fits width) :
    split width (field.bytes width ++ rest) = some (field, rest) := by
  have code : (field.bytes width ++ rest).take width = bigEndian width field.code := by
    simp [bytes]
  have length : ((field.bytes width ++ rest).drop width).take width =
      bigEndian width field.data.length := by
    simp [bytes, List.append_assoc]
  have tail : (field.bytes width ++ rest).drop (width + width) = field.data ++ rest := by
    rw [← List.drop_drop]
    simp [bytes, List.append_assoc]
  rw [split, code, length, tail, ofBigEndian_bigEndian, ofBigEndian_bigEndian,
    Nat.mod_eq_of_lt fits.code, Nat.mod_eq_of_lt fits.length]
  simp [Nat.add_assoc]

theorem of_split (found : split width input = some (field, rest)) :
    field.Fits width ∧ input = field.bytes width ++ rest := by
  rw [split] at found
  split at found
  · rename_i room
    rcases room with ⟨header, complete⟩
    cases found
    have codeLength : (input.take width).length = width := by
      rw [List.length_take]
      omega
    have lengthLength : ((input.drop width).take width).length = width := by
      rw [List.length_take, List.length_drop]
      omega
    have codeSmall := ofBigEndian_lt (input.take width)
    have lengthSmall := ofBigEndian_lt ((input.drop width).take width)
    have codeBytes := bigEndian_ofBigEndian (input.take width)
    have lengthBytes := bigEndian_ofBigEndian ((input.drop width).take width)
    rw [codeLength] at codeSmall codeBytes
    rw [lengthLength] at lengthSmall lengthBytes
    have dataLength : ((input.drop (width + width)).take
        (ofBigEndian ((input.drop width).take width))).length =
          ofBigEndian ((input.drop width).take width) := by
      rw [List.length_take]
      omega
    refine ⟨⟨codeSmall, by rw [dataLength]; exact lengthSmall⟩, ?_⟩
    rw [bytes, dataLength, codeBytes, lengthBytes, List.append_assoc, List.append_assoc,
      List.take_append_drop, ← List.drop_drop, List.take_append_drop, List.take_append_drop]
  · cases found

/-! ## Reading fields one after the other -/

/-- Read the value of the first field; `short` is the error if no complete
field is left. -/
def reader (width : Nat) (short : Error) (read : Field → Fallible Error α)
    (input : List UInt8) : Fallible Error (List UInt8 × α) :=
  match split width input with
  | none => .refuse short
  | some (field, rest) => do
      let value ← read field
      return (rest, value)

variable {Error α : Type} {short : Error} {read : Field → Fallible Error α} {rounds : Nat}
  {values : List α}

theorem reader_eq_ok_iff {value : α} : reader width short read input = .ok (rest, value) ↔
    ∃ field, field.Fits width ∧ input = field.bytes width ++ rest ∧ read field = .ok value := by
  rw [reader]
  constructor
  · intro found
    split at found
    · cases found
    · rename_i field remaining here
      rcases Fallible.bind_eq_ok_iff.mp found with ⟨result, accepted, equal⟩
      cases equal
      exact ⟨field, (of_split here).1, (of_split here).2, accepted⟩
  · intro found
    rcases found with ⟨field, fits, rfl, accepted⟩
    rw [split_bytes fits]
    simp [accepted]

theorem reader_returns (total : ∀ field, (read field).Returns) (input : List UInt8) :
    (reader width short read input).Returns := by
  rw [reader]
  cases split width input with
  | none => exact Fallible.returns_refuse short
  | some pair =>
      apply Fallible.Returns.bind (total pair.1)
      intro value _
      exact Fallible.returns_ok (pair.2, value)

/-- As many rounds as there are bytes are enough, as every field has a code. -/
theorem many_reader_returns (positive : 0 < width) (total : ∀ field, (read field).Returns)
    (enough : input.length ≤ rounds) :
    (Fallible.many (reader width short read) rounds input).Returns := by
  induction rounds generalizing input with
  | zero =>
      rw [List.length_eq_zero_iff.mp (Nat.le_zero.mp enough)]
      exact Fallible.returns_ok []
  | succ rounds induction =>
      by_cases more : input = []
      · rw [more]
        exact Fallible.returns_ok []
      rw [Fallible.many_succ more]
      apply Fallible.Returns.bind (reader_returns total input)
      intro found first
      rcases found with ⟨rest, value⟩
      rcases reader_eq_ok_iff.mp first with ⟨field, _, rfl, _⟩
      rw [List.length_append, length_bytes] at enough
      apply Fallible.Returns.bind (induction (by omega))
      intro values _
      exact Fallible.returns_ok (value :: values)

theorem many_reader_join (positive : 0 < width)
    (fits : ∀ field ∈ fields, field.Fits width)
    (accepted : List.Forall₂ (fun field value => read field = .ok value) fields values)
    (enough : (join width fields).length ≤ rounds) :
    Fallible.many (reader width short read) rounds (join width fields) = .ok values := by
  induction accepted generalizing rounds with
  | nil => exact Fallible.many_nil _ _
  | @cons field value fields values here _ induction =>
      rw [join_cons, List.length_append, length_bytes] at enough
      cases rounds with
      | zero => omega
      | succ rounds =>
          have more : join width (field :: fields) ≠ [] := by
            intro empty
            have none := congrArg List.length empty
            rw [join_cons, List.length_append, length_bytes, List.length_nil] at none
            omega
          have first : reader width short read (join width (field :: fields)) =
              .ok (join width fields, value) :=
            reader_eq_ok_iff.mpr ⟨field, fits field List.mem_cons_self, join_cons, here⟩
          have others := induction (fun field member => fits field (List.mem_cons_of_mem _ member))
            (show (join width fields).length ≤ rounds by omega)
          simp only [Fallible.many_succ more, first, others, Fallible.bind_ok,
            Fallible.pure_eq_ok]

theorem of_many_reader (done : Fallible.many (reader width short read) rounds input = .ok values) :
    ∃ fields, (∀ field ∈ fields, field.Fits width) ∧ input = join width fields ∧
      List.Forall₂ (fun field value => read field = .ok value) fields values := by
  induction rounds generalizing input values with
  | zero =>
      cases input with
      | nil =>
          cases done
          exact ⟨[], by simp, rfl, .nil⟩
      | cons byte bytes => cases done
  | succ rounds induction =>
      by_cases more : input = []
      · rw [more, Fallible.many_nil] at done
        cases done
        exact ⟨[], by simp, more, .nil⟩
      rw [Fallible.many_succ more] at done
      rcases Fallible.bind_eq_ok_iff.mp done with ⟨⟨rest, value⟩, first, tail⟩
      rcases Fallible.bind_eq_ok_iff.mp tail with ⟨others, remaining, equal⟩
      cases equal
      rcases reader_eq_ok_iff.mp first with ⟨field, fits, rfl, here⟩
      rcases induction remaining with ⟨fields, allFit, rfl, accepted⟩
      exact ⟨field :: fields, List.forall_mem_cons.mpr ⟨fits, allFit⟩, join_cons.symm,
        .cons here accepted⟩

/-- Fields are read in one way only: what the bytes begin with are the first of
the fields, as long as no field can be read behind the last one. -/
theorem prefix_of_join_append_eq {others : List Field} {tail : List UInt8}
    (fits : ∀ field ∈ fields, field.Fits width) (othersFit : ∀ field ∈ others, field.Fits width)
    (stuck : split width tail = none)
    (equal : join width fields ++ tail = join width others ++ rest) : others <+: fields := by
  induction others generalizing fields with
  | nil => exact List.nil_prefix
  | cons other others induction =>
      have front : split width (other.bytes width ++ (join width others ++ rest)) =
          some (other, join width others ++ rest) :=
        split_bytes (othersFit other List.mem_cons_self)
      rw [join_cons, List.append_assoc] at equal
      rw [← equal] at front
      cases fields with
      | nil =>
          rw [join_nil, List.nil_append, stuck] at front
          cases front
      | cons field fields =>
          rw [join_cons, List.append_assoc, split_bytes (fits field List.mem_cons_self),
            Option.some.injEq, Prod.mk.injEq] at front
          rcases front with ⟨rfl, remaining⟩
          rw [List.prefix_cons_inj]
          apply induction
          · exact fun field member => fits field (List.mem_cons_of_mem _ member)
          · exact fun field member => othersFit field (List.mem_cons_of_mem _ member)
          · exact remaining

theorem split_nil (positive : 0 < width) : split width [] = none := by
  rw [split, if_neg]
  intro found
  rcases found with ⟨header, _⟩
  rw [List.length_nil] at header
  omega

theorem prefix_of_join_eq {others : List Field} (fits : ∀ field ∈ fields, field.Fits width)
    (othersFit : ∀ field ∈ others, field.Fits width) (positive : 0 < width)
    (equal : join width fields = join width others ++ rest) : others <+: fields := by
  apply prefix_of_join_append_eq fits othersFit (split_nil positive)
  rw [List.append_nil]
  exact equal

/-- Values can be chosen for all fields as soon as each of them has one. -/
theorem exists_forall₂_iff {relates : Field → α → Prop} :
    (∃ values, List.Forall₂ relates fields values) ↔
      ∀ field ∈ fields, ∃ value, relates field value := by
  constructor
  · intro found field member
    rcases found with ⟨values, all⟩
    induction all with
    | nil => cases member
    | cons here _ induction =>
        rcases List.mem_cons.mp member with rfl | later
        · exact ⟨_, here⟩
        · exact induction later
  · intro each
    induction fields with
    | nil => exact ⟨[], .nil⟩
    | cons field fields induction =>
        rcases List.forall_mem_cons.mp each with ⟨⟨value, here⟩, others⟩
        rcases induction others with ⟨values, all⟩
        exact ⟨value :: values, .cons here all⟩

end Field

end RustyDhcp
