import Mathlib.Data.List.Forall2
import SwapRelay.Abi.Value

/-!
# When a value fits its form

`Value.check` looks at the parts of a value in order and stops at the first fault. It finds none
exactly if each part fits, so whether a list of arguments fits is known argument by argument.
-/

namespace SwapRelay.Abi

theorem ite_eq_ok {p : Prop} [Decidable p] {e : Fault} :
    (if p then .ok () else .error e) = Except.ok () ↔ p := by
  split
  · next h => exact iff_of_true rfl h
  · next h => exact iff_of_false (fun hcheck => by cases hcheck) h

theorem eq_of_ite_eq_error {p : Prop} [Decidable p] {e fault : Fault}
    (h : (if p then .ok () else .error e) = (Except.error fault : Except Fault Unit)) :
    fault = e := by
  split at h
  · cases h
  · cases h
    rfl

theorem check_uint {bits : Nat} {n : Int} :
    (Value.uint bits n).check = .ok () ↔ 0 ≤ n ∧ n < Nat.pow 2 bits :=
  ite_eq_ok

theorem check_uint_congr {bits : Nat} {m n : Int}
    (h : 0 ≤ m ∧ m < Nat.pow 2 bits ↔ 0 ≤ n ∧ n < Nat.pow 2 bits) :
    (Value.uint bits m).check = (Value.uint bits n).check :=
  if_congr h rfl rfl

theorem check_sint {bits : Nat} {n : Int} :
    (Value.sint bits n).check = .ok () ↔
      -(Nat.pow 2 (bits - 1) : Int) ≤ n ∧ n < Nat.pow 2 (bits - 1) :=
  ite_eq_ok

theorem fault_of_check_sint {bits : Nat} {n : Int} {fault : Fault}
    (h : (Value.sint bits n).check = .error fault) : fault = .outOfBounds :=
  eq_of_ite_eq_error h

theorem fault_of_check_address {bs : Bytes} {fault : Fault}
    (h : (Value.address bs).check = .error fault) : fault = .addressLength :=
  eq_of_ite_eq_error h

theorem check_address {bs : Bytes} : (Value.address bs).check = .ok () ↔ bs.length = 20 :=
  ite_eq_ok

theorem check_bool (b : Bool) : (Value.bool b).check = .ok () :=
  rfl

theorem check_word {bs : Bytes} : (Value.word bs).check = .ok () ↔ bs.length ≤ 32 :=
  ite_eq_ok

theorem check_bytes (bs : Bytes) : (Value.bytes bs).check = .ok () :=
  rfl

theorem check_array {items : List Value} :
    (Value.array items).check = .ok () ↔ Value.checkAll items = .ok () :=
  Iff.rfl

theorem check_tuple {items : List Value} :
    (Value.tuple items).check = .ok () ↔ Value.checkAll items = .ok () :=
  Iff.rfl

theorem checkAll_cons_of_ok {v : Value} (h : v.check = .ok ()) (rest : List Value) :
    Value.checkAll (v :: rest) = Value.checkAll rest := by
  rw [Value.checkAll, h]

theorem checkAll_cons_of_error {v : Value} {e : Fault} (h : v.check = .error e)
    (rest : List Value) : Value.checkAll (v :: rest) = .error e := by
  rw [Value.checkAll, h]

theorem checkAll_cons {v : Value} {rest : List Value} :
    Value.checkAll (v :: rest) = .ok () ↔ v.check = .ok () ∧ Value.checkAll rest = .ok () := by
  rw [Value.checkAll]
  split
  · next h => rw [h]; exact (and_iff_right rfl).symm
  · next e h => rw [h]; simp

theorem checkAll_eq_ok {vs : List Value} :
    Value.checkAll vs = .ok () ↔ ∀ v ∈ vs, v.check = .ok () := by
  induction vs with
  | nil => simp [Value.checkAll]
  | cons v rest ih => rw [checkAll_cons, ih, List.forall_mem_cons]

theorem checkAll_map {α : Type} {f : α → Value} {l : List α} :
    Value.checkAll (l.map f) = .ok () ↔ ∀ a ∈ l, (f a).check = .ok () := by
  rw [checkAll_eq_ok, List.forall_mem_map]

theorem checkAll_uints {bits : Nat} {ns : List Int} :
    Value.checkAll (ns.map (.uint bits ·)) = .ok () ↔ ∀ n ∈ ns, 0 ≤ n ∧ n < Nat.pow 2 bits := by
  rw [checkAll_map]
  exact forall₂_congr fun n _ => check_uint

/-- Integers for two's complement have no other fault than to be out of range. -/
theorem checkAll_sints {bits : Nat} {ns : List Int} :
    Value.checkAll (ns.map (.sint bits)) =
      if ∀ n ∈ ns, -(Nat.pow 2 (bits - 1) : Int) ≤ n ∧ n < Nat.pow 2 (bits - 1) then .ok ()
      else .error .outOfBounds := by
  induction ns with
  | nil => rfl
  | cons n rest ih =>
      rw [List.map_cons]
      by_cases hn : -(Nat.pow 2 (bits - 1) : Int) ≤ n ∧ n < Nat.pow 2 (bits - 1)
      · rw [checkAll_cons_of_ok (check_sint.2 hn), ih]
        simp only [List.forall_mem_cons, hn, true_and, and_self]
      · rw [checkAll_cons_of_error (v := .sint bits n) (if_neg hn), if_neg]
        exact fun hall => hn (List.forall_mem_cons.1 hall).1

theorem exists_of_checkAll_eq_error {vs : List Value} {fault : Fault}
    (h : Value.checkAll vs = .error fault) : ∃ v ∈ vs, v.check = .error fault := by
  induction vs with
  | nil => cases h
  | cons v rest ih =>
      cases hv : v.check with
      | error e =>
          rw [checkAll_cons_of_error hv] at h
          cases h
          exact ⟨v, List.mem_cons_self .., hv⟩
      | ok _ =>
          rw [checkAll_cons_of_ok hv] at h
          obtain ⟨w, hw, hfault⟩ := ih h
          exact ⟨w, List.mem_cons_of_mem _ hw, hfault⟩

/-- Where there is only one fault to be found, the order of the values does not matter. -/
theorem checkAll_eq_of_mem_iff {vs ws : List Value} (only : Fault) (hmem : ∀ v, v ∈ vs ↔ v ∈ ws)
    (honly : ∀ v ∈ vs, ∀ fault, v.check = .error fault → fault = only) :
    Value.checkAll vs = Value.checkAll ws := by
  have hok : Value.checkAll vs = .ok () ↔ Value.checkAll ws = .ok () := by
    rw [checkAll_eq_ok, checkAll_eq_ok]
    simp only [hmem]
  cases hvs : Value.checkAll vs with
  | ok _ => rw [hok.1 hvs]
  | error fault =>
      cases hws : Value.checkAll ws with
      | ok _ => cases hvs.symm.trans (hok.2 hws)
      | error fault' =>
          obtain ⟨v, hv, hfault⟩ := exists_of_checkAll_eq_error hvs
          obtain ⟨w, hw, hfault'⟩ := exists_of_checkAll_eq_error hws
          rw [honly v hv fault hfault, honly w ((hmem w).2 hw) fault' hfault']

/-- Values that are checked alike one by one are checked alike together. -/
theorem checkAll_congr {vs ws : List Value}
    (h : List.Forall₂ (fun v w : Value => v.check = w.check) vs ws) :
    Value.checkAll vs = Value.checkAll ws := by
  induction h with
  | nil => rfl
  | cons hvw _ ih => rw [Value.checkAll, Value.checkAll, hvw, ih]

theorem check_tuple_congr {vs ws : List Value}
    (h : List.Forall₂ (fun v w : Value => v.check = w.check) vs ws) :
    (Value.tuple vs).check = (Value.tuple ws).check :=
  checkAll_congr h

theorem check_array_congr {vs ws : List Value}
    (h : List.Forall₂ (fun v w : Value => v.check = w.check) vs ws) :
    (Value.array vs).check = (Value.array ws).check :=
  checkAll_congr h

end SwapRelay.Abi
