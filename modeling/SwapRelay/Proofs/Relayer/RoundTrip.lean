import SwapRelay.Proofs.Abi.RoundTrip
import SwapRelay.Proofs.Outcome
import SwapRelay.Proofs.Pool.Message
import SwapRelay.Proofs.Relayer.Plan
import SwapRelay.Relayer.Reading

/-!
# Calls and messages are read back from their bytes

The selector of a call tells which function is called and so what forms the arguments have; a message
to a pool has its kind in front. Each argument of a call that could be made has its form, provided
that the pool ids are full words, so the arguments are read back, in the order and the number in
which they were written (`Abi.decodeArguments?_encodeArguments`). `arguments_read_back` says so of
every call and every message, and that a call or a message is therefore known by its bytes.
-/

namespace SwapRelay

open Abi (HasTy HaveTys Ty Value)

namespace Abi

theorem HasTy.addresses (accounts : List Bytes) :
    HasTy (.array .address) (.addresses accounts) := by
  apply HasTy.array (by decide)
  intro v hv
  obtain ⟨account, -, rfl⟩ := List.mem_map.1 hv
  exact .address

theorem HasTy.numbers (ns : List Int) :
    HasTy (.array (.uint 256)) (.array (ns.map (.uint 256))) := by
  apply HasTy.array (by decide)
  intro v hv
  obtain ⟨n, -, rfl⟩ := List.mem_map.1 hv
  exact .uint (by decide)

theorem HasTy.limits (ns : List Int) :
    HasTy (.array (.sint 256)) (.array (ns.map (.sint 256))) := by
  apply HasTy.array (by decide)
  intro v hv
  obtain ⟨n, -, rfl⟩ := List.mem_map.1 hv
  exact .sint (by decide)

theorem HasTy.outputs (pairs : List (Int × Int)) :
    HasTy (.array (.tuple [.uint 256, .uint 256])) (.outputs pairs) := by
  apply HasTy.array (by decide)
  intro v hv
  obtain ⟨pair, -, rfl⟩ := List.mem_map.1 hv
  exact .tuple (.cons (.uint (by decide)) (.cons (.uint (by decide)) .nil))

end Abi

namespace Call

def poolIds : Call Bytes → List Bytes
  | .batchSwap c => c.steps.map (·.poolId)
  | .joinPool c => [c.poolId]
  | .exitPool c => [c.poolId]
  | _ => []

theorem haveTys {c : Call Bytes} (h : ∀ id ∈ c.poolIds, id.length = 32) :
    HaveTys c.types c.arguments := by
  cases c with
  | batchSwap c =>
      have hsteps : HasTy (.array (.tuple [.word, .uint 256, .uint 256, .uint 256, .bytes]))
          (.array (c.steps.map fun s => .tuple [
            .word s.poolId, .uint 256 s.assetIn, .uint 256 s.assetOut, .uint 256 s.amount,
            .bytes s.userData])) := by
        apply HasTy.array (by decide)
        intro v hv
        obtain ⟨s, hs, rfl⟩ := List.mem_map.1 hv
        have hid : s.poolId.length = 32 := h s.poolId (List.mem_map_of_mem hs)
        exact .tuple (.cons (.word hid) (.cons (.uint (by decide)) (.cons (.uint (by decide))
          (.cons (.uint (by decide)) (.cons .bytes .nil)))))
      have hfunds : HasTy (.tuple [.address, .bool, .address, .bool]) (.tuple [
          .address c.funds.sender, .bool c.funds.fromInternal,
          .address c.funds.recipient, .bool c.funds.toInternal]) :=
        .tuple (.cons .address (.cons .bool (.cons .address (.cons .bool .nil))))
      exact .cons (.uint (by decide)) (.cons hsteps (.cons (.addresses _) (.cons hfunds
        (.cons (.limits _) (.cons (.uint (by decide)) (.cons (.uint (by decide))
          (.cons (.outputs _) .nil)))))))
  | joinPool c =>
      have hrequest : HasTy (.tuple [.array .address, .array (.uint 256), .bytes, .bool]) (.tuple [
          .addresses c.assets, .words c.maxAmounts, .bytes c.userData, .bool c.fromInternal]) :=
        .tuple (.cons (.addresses _) (.cons (.numbers _) (.cons .bytes (.cons .bool .nil))))
      exact .cons (.word (h _ (List.mem_singleton_self _))) (.cons (.uint (by decide))
        (.cons .address (.cons .address (.cons hrequest (.cons (.uint (by decide))
          (.cons (.uint (by decide)) .nil))))))
  | exitPool c =>
      have hrequest : HasTy (.tuple [.array .address, .array (.uint 256), .bytes, .bool]) (.tuple [
          .addresses c.assets, .words c.minAmounts, .bytes c.userData, .bool c.toInternal]) :=
        .tuple (.cons (.addresses _) (.cons (.numbers _) (.cons .bytes (.cons .bool .nil))))
      exact .cons (.word (h _ (List.mem_singleton_self _))) (.cons (.uint (by decide))
        (.cons .address (.cons .address (.cons hrequest (.cons (.outputs _) .nil)))))
  | setRelayerApproval relayer approved authorisation =>
      exact .cons .address (.cons .bool (.cons .bytes .nil))
  | approveVault token amount => exact .cons .address (.cons (.uint (by decide)) .nil)
  | peekReference value => exact .cons (.uint (by decide)) .nil

theorem drop_data (c : Call Bytes) : c.data.drop 4 = Abi.encodeArguments c.arguments := by
  cases c <;> rfl

theorem take_data (c : Call Bytes) : c.data.take 4 = c.selector := by
  cases c <;> rfl

theorem length_data (c : Call Bytes) :
    c.data.length = 4 + (Abi.encodeArguments c.arguments).length := by
  have hselector : c.selector.length = 4 := by cases c <;> rfl
  rw [data, List.length_append, hselector]

/-- The arguments of a call are read back from what follows its selector. -/
theorem decodeArguments?_data {c : Call Bytes} (hids : ∀ id ∈ c.poolIds, id.length = 32)
    (hfits : c.Fits) (hbound : c.data.length < Nat.pow 2 256) :
    Abi.decodeArguments? c.types (c.data.drop 4) = some c.arguments := by
  rw [length_data] at hbound
  rw [drop_data]
  exact Abi.decodeArguments?_encodeArguments (haveTys hids) hfits (by omega)

theorem mapM_account? (accounts : List Bytes) :
    (accounts.map Value.address).mapM account? = some accounts := by
  apply List.mapM_map_eq_some
  intro account
  rfl

theorem mapM_number? (bits : Nat) (ns : List Int) :
    (ns.map (Value.uint bits)).mapM number? = some ns := by
  apply List.mapM_map_eq_some
  intro n
  rfl

theorem mapM_limit? (ns : List Int) : (ns.map (Value.sint 256)).mapM number? = some ns := by
  apply List.mapM_map_eq_some
  intro n
  rfl

theorem mapM_output? (pairs : List (Int × Int)) :
    (pairs.map fun (index, key) => Value.tuple [.uint 256 index, .uint 256 key]).mapM output? =
      some pairs := by
  apply List.mapM_map_eq_some
  intro pair
  rfl

theorem mapM_step? (steps : List (BatchStep Bytes)) :
    (steps.map fun s => Value.tuple [.word s.poolId, .uint 256 s.assetIn, .uint 256 s.assetOut,
      .uint 256 s.amount, .bytes s.userData]).mapM step? = some steps := by
  apply List.mapM_map_eq_some
  intro step
  rfl

theorem batchSwap?_arguments (c : BatchSwap Bytes) :
    batchSwap? (Call.batchSwap c).arguments = some (.batchSwap c) := by
  simp only [arguments, Value.addresses, Value.outputs, batchSwap?]
  rw [mapM_step?, mapM_account?, mapM_limit?, mapM_output?]
  rfl

theorem joinPool?_arguments (c : PoolJoin Bytes) :
    joinPool? (Call.joinPool c).arguments = some (.joinPool c) := by
  simp only [arguments, Value.addresses, Value.words, joinPool?]
  rw [mapM_account?, mapM_number?]
  rfl

theorem exitPool?_arguments (c : PoolExit Bytes) :
    exitPool? (Call.exitPool c).arguments = some (.exitPool c) := by
  simp only [arguments, Value.addresses, Value.words, Value.outputs, exitPool?]
  rw [mapM_account?, mapM_number?, mapM_output?]
  rfl

/-- Among the functions of the library a call's selector finds the call's own forms, and the reading
that gives the call back. -/
theorem exists_reader (c : Call Bytes) :
    ∃ shape read, readers.find? (·.1.selector == c.selector) = some (shape, read) ∧
      shape.types = c.types ∧ read c.arguments = some c := by
  cases c with
  | batchSwap c => exact ⟨_, _, rfl, rfl, batchSwap?_arguments c⟩
  | joinPool c => exact ⟨_, _, rfl, rfl, joinPool?_arguments c⟩
  | exitPool c => exact ⟨_, _, rfl, rfl, exitPool?_arguments c⟩
  | setRelayerApproval relayer approved authorisation => exact ⟨_, _, rfl, rfl, rfl⟩
  | approveVault token amount => exact ⟨_, _, rfl, rfl, rfl⟩
  | peekReference value => exact ⟨_, _, rfl, rfl, rfl⟩

/-- A call is known by its bytes: its function by the selector, its arguments by the rest. -/
theorem ofData?_data {c : Call Bytes} (hids : ∀ id ∈ c.poolIds, id.length = 32)
    (hfits : c.Fits) (hbound : c.data.length < Nat.pow 2 256) : ofData? c.data = some c := by
  obtain ⟨shape, read, hfind, htypes, hread⟩ := exists_reader c
  have hargs := decodeArguments?_data hids hfits hbound
  simp only [ofData?, take_data, hfind, Option.bind_eq_bind, Option.bind_some, htypes, hargs, hread]

end Call

namespace PoolUserData

def types : PoolUserData → List Ty
  | .joinExactIn .. | .exitExactOut .. => [.uint 256, .array (.uint 256), .uint 256]
  | .joinExactOut .. | .exitExactIn .. => [.uint 256, .uint 256, .uint 256]

/-- How a pool reads a message of this direction. -/
def ofBytes? : PoolUserData → Bytes → Option PoolUserData
  | .joinExactIn .. | .joinExactOut .. => joinOfBytes?
  | .exitExactIn .. | .exitExactOut .. => exitOfBytes?

theorem haveTys (m : PoolUserData) : HaveTys m.types m.arguments := by
  have hlist (kind last : Int) (amounts : List Int) :
      HaveTys [.uint 256, .array (.uint 256), .uint 256]
        [.uint 256 kind, .array (amounts.map (.uint 256 ·)), .uint 256 last] :=
    .cons (.uint (by decide)) (.cons (.numbers amounts) (.cons (.uint (by decide)) .nil))
  have hthree (kind shares token : Int) : HaveTys [.uint 256, .uint 256, .uint 256]
      [.uint 256 kind, .uint 256 shares, .uint 256 token] :=
    .cons (.uint (by decide)) (.cons (.uint (by decide)) (.cons (.uint (by decide)) .nil))
  cases m with
  | joinExactIn amounts minShares => exact hlist 1 minShares amounts
  | joinExactOut shares token => exact hthree 2 shares token
  | exitExactIn shares token => exact hthree 0 shares token
  | exitExactOut amounts maxShares => exact hlist 2 maxShares amounts

theorem decodeArguments?_encode {m : PoolUserData} {bs : Bytes} (h : m.encode = .ok bs)
    (hbound : bs.length < Nat.pow 2 256) :
    Abi.decodeArguments? m.types bs = some m.arguments := by
  obtain ⟨hcheck, rfl⟩ := encode_eq_ok_iff.1 h
  exact Abi.decodeArguments?_encodeArguments m.haveTys hcheck hbound

/-- The kind of a message stands in front. -/
theorem uintAt?_encode {m : PoolUserData} {bs : Bytes} (h : m.encode = .ok bs) :
    Abi.uintAt? 256 bs = m.numbers.head?.map Int.toNat := by
  obtain ⟨-, rfl⟩ := encode_eq_ok h
  cases m <;> exact Abi.uintAt?_word (by decide) (by decide) _

/-- A message is read back by the pool that it is for. -/
theorem ofBytes?_encode {m : PoolUserData} {bs : Bytes} (h : m.encode = .ok bs)
    (hbound : bs.length < Nat.pow 2 256) : m.ofBytes? bs = some m := by
  have hkind := uintAt?_encode h
  have hargs := decodeArguments?_encode h hbound
  cases m with
  | joinExactIn amounts minShares =>
      have hkind : Abi.uintAt? 256 bs = some 1 := hkind
      simp only [types] at hargs
      simp only [ofBytes?, joinOfBytes?, hkind, hargs, arguments, Option.bind_eq_bind,
        Option.bind_some, Call.mapM_number?]
      rfl
  | joinExactOut shares token =>
      have hkind : Abi.uintAt? 256 bs = some 2 := hkind
      simp only [types] at hargs
      simp only [ofBytes?, joinOfBytes?, hkind, hargs, arguments, Option.bind_eq_bind,
        Option.bind_some]
      rfl
  | exitExactIn shares token =>
      have hkind : Abi.uintAt? 256 bs = some 0 := hkind
      simp only [types] at hargs
      simp only [ofBytes?, exitOfBytes?, hkind, hargs, arguments, Option.bind_eq_bind,
        Option.bind_some]
      rfl
  | exitExactOut amounts maxShares =>
      have hkind : Abi.uintAt? 256 bs = some 2 := hkind
      simp only [types] at hargs
      simp only [ofBytes?, exitOfBytes?, hkind, hargs, arguments, Option.bind_eq_bind,
        Option.bind_some, Call.mapM_number?]
      rfl

end PoolUserData

/-- What a call or a message was written from is read back from its bytes, which therefore differ
wherever the arguments do. -/
theorem arguments_read_back :
    (∀ (c : Call Text) (made : Call Bytes), c.prepare = .ok made →
      (∀ id ∈ made.poolIds, id.length = 32) → made.data.length < Nat.pow 2 256 →
        c.read = .ok made ∧
          Abi.decodeArguments? made.types (made.data.drop 4) = some made.arguments ∧
          Call.ofData? made.data = some made ∧
          ∀ (c' : Call Text) (made' : Call Bytes), c'.prepare = .ok made' →
            (∀ id ∈ made'.poolIds, id.length = 32) → made.data = made'.data → made = made') ∧
      ∀ (m : PoolUserData) (bs : Bytes), m.encode = .ok bs → bs.length < Nat.pow 2 256 →
        Abi.decodeArguments? m.types bs = some m.arguments ∧ m.ofBytes? bs = some m ∧
          ∀ m' : PoolUserData, m'.encode = .ok bs → m = m' := by
  refine ⟨?_, ?_⟩
  · intro c made h hids hbound
    obtain ⟨hread, hfits⟩ := Call.prepare_eq_ok h
    have hcall := Call.ofData?_data hids hfits hbound
    refine ⟨hread, Call.decodeArguments?_data hids hfits hbound, hcall, ?_⟩
    intro c' made' h' hids' hdata
    obtain ⟨-, hfits'⟩ := Call.prepare_eq_ok h'
    rw [hdata] at hbound hcall
    have hcall' := Call.ofData?_data hids' hfits' hbound
    exact Option.some.inj (hcall.symm.trans hcall')
  · intro m bs h hbound
    refine ⟨PoolUserData.decodeArguments?_encode h hbound, PoolUserData.ofBytes?_encode h hbound, ?_⟩
    intro m' h'
    exact PoolUserData.encode_injective h h'

/-- Two swaps, one of them with data of its own, that pay in at most 1000 and out at least 990. -/
def twoSwaps : Call Text :=
  let address (digit : Char) : Text := '0' :: 'x' :: List.replicate 40 digit
  let poolId (digit : Char) : Text := '0' :: 'x' :: List.replicate 64 digit
  .batchSwap {
    kind := 0
    steps := [
      ⟨poolId 'c', 0, 2, 1000, []⟩,
      ⟨poolId 'd', 2, 1, 0, [1, 2, 3]⟩]
    assets := [address '1', address '2', address '3']
    funds := ⟨address '7', false, address '8', true⟩
    limits := [1000, -990, 0]
    deadline := 1700000000
    value := 0
    outputs := [(1, 5), (2, 7)] }

theorem arguments_read_back_twoSwaps :
    ∃ made bs, twoSwaps.prepare = .ok made ∧ (∀ id ∈ made.poolIds, id.length = 32) ∧
      made.data.length < Nat.pow 2 256 ∧
      Abi.decodeArguments? made.types (made.data.drop 4) = some made.arguments ∧
      Call.ofData? made.data = some made ∧
      (PoolUserData.joinExactIn [0, 600, 0] 990).encode = .ok bs ∧ bs.length < Nat.pow 2 256 ∧
      PoolUserData.joinOfBytes? bs = some (.joinExactIn [0, 600, 0] 990) := by
  obtain ⟨made, hmade, htest⟩ := Except.exists_of_any (x := twoSwaps.prepare)
    (fun made => made.poolIds.all (·.length == 32) && made.data.length < 2000) (by decide +kernel)
  rw [Bool.and_eq_true, List.all_eq_true, decide_eq_true_iff] at htest
  have hids : ∀ id ∈ made.poolIds, id.length = 32 := fun id hid => eq_of_beq (htest.1 id hid)
  have hbound : made.data.length < Nat.pow 2 256 :=
    Nat.lt_trans htest.2 (by decide)
  obtain ⟨bs, hbs, htest⟩ := Except.exists_of_any
    (x := (PoolUserData.joinExactIn [0, 600, 0] 990).encode) (·.length < 2000) (by decide +kernel)
  have hsize : bs.length < Nat.pow 2 256 :=
    Nat.lt_trans (of_decide_eq_true htest) (by decide)
  obtain ⟨-, hargs, hcall, -⟩ := arguments_read_back.1 _ _ hmade hids hbound
  obtain ⟨-, hmessage, -⟩ := arguments_read_back.2 _ _ hbs hsize
  exact ⟨made, bs, hmade, hids, hbound, hargs, hcall, hbs, hsize, hmessage⟩

end SwapRelay
