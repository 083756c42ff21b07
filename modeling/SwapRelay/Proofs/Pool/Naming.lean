import SwapRelay.Proofs.Address.Bytes
import SwapRelay.Proofs.Pool.Registry
import SwapRelay.Proofs.Request.Forms
import SwapRelay.Route

/-!
# What an id says of its pool

The first twenty bytes of a pool id are the address of the pool. So whether a token is the pool's
share token can be asked in two ways, by the address in the id or by the one that a registry keeps.
The registry goes by ids in small letters, takes the address that its pool was sent with, and lets a
later pool of the same id replace an earlier one. If pools are sent with the address in their id or
with none, all of this comes to the same address: `Registry.same_address_of_get`.
-/

namespace SwapRelay

/-- The front of a pool id has the form of an address. -/
theorem Form.holds_take_poolId {id : Text} (h : Form.poolId.holds id = true) :
    Form.address.holds (id.take 42) = true := by
  have hlength := Form.length_poolId h
  obtain ⟨digits, rfl, hdigits⟩ := Hex.isMarked_iff.1 (Form.isMarked_of_holds h)
  simp only [List.length_cons] at hlength
  have htake : ('0' :: 'x' :: digits).take 42 = '0' :: 'x' :: digits.take 40 := rfl
  rw [htake]
  simp only [Form.holds, Hex.isMarkedOf, Hex.isMarked, Bool.and_eq_true, beq_iff_eq,
    List.length_cons, List.length_take]
  refine ⟨?_, by omega⟩
  rw [List.all_eq_true] at hdigits ⊢
  intro c hc
  exact hdigits c (List.mem_of_mem_take hc)

theorem Hex.lower_take {t : Text} (h : isMarked t = true) (n : Nat) :
    Text.lower (t.take n) = (Text.lower t).take n := by
  have hascii := ascii_of_isMarked h
  have hfront : ∀ c ∈ t.take n, c.toNat < 0x80 := fun c hc => hascii c (List.mem_of_mem_take hc)
  rw [Text.lower_ascii hfront, Text.lower_ascii hascii, List.map_take]

namespace Pool

theorem addressOfId_eq {id : Text} (h : Form.poolId.holds id = true) :
    addressOfId id = .ok (Address.normalize (id.take 42)) := by
  have hlength := Form.length_poolId h
  obtain ⟨digits, rfl, -⟩ := Hex.isMarked_iff.1 (Form.isMarked_of_holds h)
  have hmark : Address.mark ('0' :: 'x' :: digits) = '0' :: 'x' :: digits := rfl
  simp only [addressOfId]
  rw [hmark, if_pos hlength]

/-- The address in the id of a pool has the form of an address. -/
theorem exists_addressOfId {id : Text} (h : Form.poolId.holds id = true) :
    ∃ address, addressOfId id = .ok address ∧ Form.address.holds address = true :=
  ⟨_, addressOfId_eq h, Form.holds_normalize (Form.holds_take_poolId h)⟩

theorem lower_addressOfId {id address : Text} (h : Form.poolId.holds id = true)
    (haddress : addressOfId id = .ok address) :
    Text.lower address = (Text.lower id).take 42 := by
  cases (addressOfId_eq h).symm.trans haddress
  rw [Form.lower_normalize (Form.holds_take_poolId h), Hex.lower_take (Form.isMarked_of_holds h)]

/-- The address that a pool was sent with, or else the one in its id. -/
def sentAddress (info : PoolInfo) : Except Error Text :=
  match info.address with
  | some address => .ok address
  | none => addressOfId info.id

theorem exists_sentAddress {info : PoolInfo} (h : info.Formed) :
    ∃ address, sentAddress info = .ok address ∧ Form.address.holds address = true := by
  simp only [sentAddress]
  cases hgiven : info.address with
  | some address => exact ⟨address, rfl, h.address address hgiven⟩
  | none => exact exists_addressOfId h.id

theorem ofInfo_eq (info : PoolInfo) :
    ofInfo info = (sentAddress info).map fun address =>
      ⟨Text.lower info.id, Address.normalize address, info.tokens.map Address.normalize⟩ := by
  simp only [ofInfo, sentAddress]
  cases info.address with
  | some address => rfl
  | none => rfl

variable {info : PoolInfo} {pool : Pool}

theorem id_of_ofInfo (h : ofInfo info = .ok pool) : pool.id = Text.lower info.id := by
  rw [ofInfo_eq] at h
  obtain ⟨address, -, rfl⟩ := Except.map_eq_ok.1 h
  rfl

theorem key_of_ofInfo (hform : info.Formed) (h : ofInfo info = .ok pool) :
    pool.key = Text.lower info.id := by
  rw [key, id_of_ofInfo h, Hex.lower_lower (Form.isMarked_of_holds hform.id)]

/-- A pool that was sent with the address in its id, or with none, is at the address in its id. -/
theorem lower_address_of_ofInfo (hform : info.Formed)
    (hnamed : ∀ address ∈ info.address, Address.same address (info.id.take 42) = true)
    (h : ofInfo info = .ok pool) : Text.lower pool.address = (Text.lower info.id).take 42 := by
  rw [ofInfo_eq] at h
  obtain ⟨address, haddress, rfl⟩ := Except.map_eq_ok.1 h
  simp only [sentAddress] at haddress
  split at haddress
  · next given hgiven =>
      cases haddress
      rw [Form.lower_normalize (hform.address address hgiven),
        Address.same_iff.1 (hnamed address hgiven), Hex.lower_take (Form.isMarked_of_holds hform.id)]
  · obtain ⟨named, hnamed, hholds⟩ := exists_addressOfId hform.id
    cases hnamed.symm.trans haddress
    rw [Form.lower_normalize hholds, lower_addressOfId hform.id haddress]

end Pool

namespace Registry

variable {infos : List PoolInfo} {registry : Registry} {id : Text} {pool : Pool}

/-- A pool that is found goes back to one that was sent, under the same id in whatever case. -/
theorem exists_info_of_get (h : ofInfos infos = .ok registry) (hget : registry.get id = .ok pool) :
    ∃ info ∈ infos, Pool.ofInfo info = .ok pool ∧ pool.key = Text.lower id := by
  obtain ⟨pools, hpools, h⟩ := Except.bind_eq_ok.1 h
  cases Except.pure_eq_ok.1 h
  have hmem := mem_of_mem_survivors (mem_of_get hget)
  obtain ⟨info, hinfo, hmade⟩ := (List.mapM_eq_ok.1 hpools).flip.exists_of_mem hmem
  exact ⟨info, hinfo, hmade, key_of_get hget⟩

/-- The pool that is found for an id is at the address that the id names. -/
theorem same_address_of_get (hforms : ∀ info ∈ infos, info.Formed)
    (hnamed : ∀ info ∈ infos, ∀ address ∈ info.address,
      Address.same address (info.id.take 42) = true)
    (h : ofInfos infos = .ok registry) (hid : Form.poolId.holds id = true)
    (hget : registry.get id = .ok pool) {address : Text}
    (haddress : Pool.addressOfId id = .ok address) : Address.same address pool.address = true := by
  obtain ⟨info, hinfo, hmade, hkey⟩ := exists_info_of_get h hget
  have hform := hforms info hinfo
  have hsame : Text.lower info.id = Text.lower id := by
    rw [← hkey, Pool.key_of_ofInfo hform hmade]
  rw [Address.same_iff, Pool.lower_addressOfId hid haddress,
    Pool.lower_address_of_ofInfo hform (hnamed info hinfo) hmade, hsame]

end Registry

end SwapRelay
