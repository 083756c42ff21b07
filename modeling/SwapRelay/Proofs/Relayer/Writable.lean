import SwapRelay.Proofs.Abi.Checks
import SwapRelay.Proofs.Pool.Canonical
import SwapRelay.Proofs.Pool.Message
import SwapRelay.Proofs.Reference.Lossless
import SwapRelay.Proofs.Relayer.Amounts

/-!
# What can always be written

Most of what goes into a call cannot fail once the texts have the forms that requests are checked
for and the numbers fit their words: accounts and pool ids are read, the tokens of a pool are put in
order, references have their values, and the messages to a pool are encoded. What can fail is the
amount of a hop, and only because it is a literal that carries a tag (`Amount.endsIn_resolve`), and
the look-up of a token among those of its pool (`endsIn_placeOf`).
-/

namespace SwapRelay

open Abi (Value)

/-- A tagged number is too large for a signed word. -/
theorem Reference.lt_of_isReference {n : Int} (h : isReference n = true) : maxInt256 < n := by
  have hmax : maxInt256 < 0xBA10 * keySpan := by decide
  exact Int.lt_of_lt_of_le hmax (isReference_iff.1 h).1

theorem fits_amountAt {length place : Nat} {amount : Int} (h : Uint256.Fits amount) :
    ∀ n ∈ amountAt length place amount, Uint256.Fits n := by
  intro n hn
  rcases Action.mem_amountAt hn with rfl | rfl
  · exact Uint256.fits_zero
  · exact h

namespace Pool

/-- The texts of a pool have the forms that they are checked for. -/
structure Formed (p : Pool) : Prop where
  id : Form.poolId.holds p.id = true
  address : Form.address.holds p.address = true
  tokens : ∀ t ∈ p.tokens, Form.address.holds t = true
  count : p.tokens.length < Nat.pow 2 64

end Pool

theorem endsIn_placeOf (tokens : List Text) (token : Text) :
    (placeOf tokens token).EndsIn (· < tokens.length) fun e =>
      e = .route (.unknownToken token) ∧ ∀ t ∈ tokens, Address.same t token = false := by
  simp only [placeOf]
  cases hplace : Address.indexOf? tokens token with
  | some i =>
      obtain ⟨t, ht, -⟩ := Address.getElem?_of_indexOf? hplace
      exact (List.getElem?_eq_some_iff.1 ht).1
  | none =>
      refine ⟨rfl, ?_⟩
      intro t ht
      simpa using List.findIdx?_eq_none_iff.1 hplace t ht

namespace PoolUserData

theorem exists_encode {m : PoolUserData} (h : ∀ n ∈ m.scalars, Uint256.Fits n) :
    ∃ bs, m.encode = .ok bs := by
  refine ⟨_, encode_eq_ok_iff.2 ⟨?_, rfl⟩⟩
  have hkind : ∀ kind : Nat, kind < 3 → Uint256.Fits kind := by
    intro kind h
    exact Uint256.fits_natCast (Nat.lt_trans h (by decide))
  cases m with
  | joinExactIn amounts minShares =>
      obtain ⟨hmin, hamounts⟩ := List.forall_mem_cons.1 h
      simp only [arguments, Abi.checkAll_cons, Abi.check_uint, Abi.check_array, Abi.checkAll_uints]
      exact ⟨hkind 1 (by decide), hamounts, hmin, rfl⟩
  | joinExactOut shares token =>
      obtain ⟨hshares, htoken⟩ := List.forall_mem_cons.1 h
      simp only [arguments, Abi.checkAll_cons, Abi.check_uint]
      exact ⟨hkind 2 (by decide), hshares, htoken token (List.mem_singleton_self token), rfl⟩
  | exitExactIn shares token =>
      obtain ⟨hshares, htoken⟩ := List.forall_mem_cons.1 h
      simp only [arguments, Abi.checkAll_cons, Abi.check_uint]
      exact ⟨hkind 0 (by decide), hshares, htoken token (List.mem_singleton_self token), rfl⟩
  | exitExactOut amounts maxShares =>
      obtain ⟨hmax, hamounts⟩ := List.forall_mem_cons.1 h
      simp only [arguments, Abi.checkAll_cons, Abi.check_uint, Abi.check_array, Abi.checkAll_uints]
      exact ⟨hkind 2 (by decide), hamounts, hmax, rfl⟩

end PoolUserData

namespace Action

variable (swapType : SwapType) (length : Nat) {place : Nat} {amount minOut : Int}

/-- The amounts and the message of a deposit fit if the amount, the bound and the place do. -/
theorem fits_joinAmounts (hamount : Uint256.Fits amount) (hmin : Uint256.Fits minOut)
    (hplace : Uint256.Fits place) :
    (∀ n ∈ (joinAmounts swapType length place amount minOut).1, Uint256.Fits n) ∧
      ∀ n ∈ (joinAmounts swapType length place amount minOut).2.scalars, Uint256.Fits n := by
  cases swapType with
  | exactIn =>
      have hall : ∀ n ∈ amountAt length place amount, Uint256.Fits n := fits_amountAt hamount
      exact ⟨hall, List.forall_mem_cons.2 ⟨hmin, hall⟩⟩
  | exactOut =>
      exact ⟨fits_amountAt hmin,
        List.forall_mem_cons.2 ⟨hamount, List.forall_mem_singleton.2 hplace⟩⟩

theorem fits_exitAmounts (hamount : Uint256.Fits amount) (hmin : Uint256.Fits minOut)
    (hplace : Uint256.Fits place) :
    (∀ n ∈ (exitAmounts swapType length place amount minOut).1, Uint256.Fits n) ∧
      ∀ n ∈ (exitAmounts swapType length place amount minOut).2.scalars, Uint256.Fits n := by
  cases swapType with
  | exactIn =>
      exact ⟨fits_amountAt hmin,
        List.forall_mem_cons.2 ⟨hamount, List.forall_mem_singleton.2 hplace⟩⟩
  | exactOut =>
      have hall : ∀ n ∈ amountAt length place amount, Uint256.Fits n := fits_amountAt hamount
      exact ⟨hall, List.forall_mem_cons.2 ⟨hmin, hall⟩⟩

end Action

theorem exists_allBytes {tokens : List Text} (h : ∀ t ∈ tokens, Form.address.holds t = true) :
    ∃ read, Address.allBytes tokens = .ok read ∧ ∀ bs ∈ read, bs.length = 20 := by
  have hall : ∃ read, Address.allBytes tokens = .ok read ∧
      List.Forall₂ (fun _ bs => bs.length = 20) tokens read := by
    apply Except.EndsIn.exists_ok
    apply List.endsIn_mapM
    intro t ht
    obtain ⟨bs, hbs, hlength, -⟩ := Address.exists_bytes (h t ht)
    exact .of_eq_ok hbs hlength
  obtain ⟨read, hread, hlengths⟩ := hall
  refine ⟨read, hread, ?_⟩
  intro bs hbs
  obtain ⟨-, -, hlength⟩ := hlengths.flip.exists_of_mem hbs
  exact hlength

/-! ## Reading and checking a call -/

theorem PoolJoin.read_eq_ok {c : PoolJoin Text} {poolId sender recipient : Bytes}
    {assets : List Bytes} (hid : Hex.readBytes c.poolId = .ok poolId)
    (hsender : Address.bytes c.sender = .ok sender)
    (hrecipient : Address.bytes c.recipient = .ok recipient)
    (hassets : Address.allBytes c.assets = .ok assets) :
    c.read = .ok { c with poolId, sender, recipient, assets } := by
  simp only [read, hid, hsender, hrecipient, hassets]
  rfl

theorem PoolExit.read_eq_ok {c : PoolExit Text} {poolId sender recipient : Bytes}
    {assets : List Bytes} (hid : Hex.readBytes c.poolId = .ok poolId)
    (hsender : Address.bytes c.sender = .ok sender)
    (hrecipient : Address.bytes c.recipient = .ok recipient)
    (hassets : Address.allBytes c.assets = .ok assets) :
    c.read = .ok { c with poolId, sender, recipient, assets } := by
  simp only [read, hid, hsender, hrecipient, hassets]
  rfl

theorem BatchSwap.read_eq_ok {c : BatchSwap Text} {steps : List (BatchStep Bytes)}
    {assets : List Bytes} {sender recipient : Bytes} (hsteps : c.steps.mapM readStep = .ok steps)
    (hassets : Address.allBytes c.assets = .ok assets)
    (hsender : Address.bytes c.funds.sender = .ok sender)
    (hrecipient : Address.bytes c.funds.recipient = .ok recipient) :
    c.read = .ok { c with steps, assets, funds := { c.funds with sender, recipient } } := by
  simp only [read, hsteps, hassets, hsender, hrecipient]
  rfl

/-- A call that is read and fits its forms is made. -/
theorem Call.prepare_of_fits {c : Call Text} {made : Call Bytes} (hread : c.read = .ok made)
    (hfits : made.Fits) : c.prepare = .ok made := by
  refine Except.bind_eq_ok.2 ⟨made, hread, ?_⟩
  rw [checked, hfits]

namespace Call

theorem exists_approveVault {token : Text} (h : Form.address.holds token = true) {amount : Int}
    (hamount : Uint256.Fits amount) : ∃ account, Address.bytes token = .ok account ∧
      prepare (.approveVault token amount) = .ok (.approveVault account amount) := by
  obtain ⟨account, hbytes, hlength, -⟩ := Address.exists_bytes h
  have hread : (Call.approveVault token amount).read = .ok (.approveVault account amount) :=
    Except.bind_eq_ok.2 ⟨account, hbytes, rfl⟩
  refine ⟨account, hbytes, prepare_of_fits hread ?_⟩
  simp only [Call.Fits, Call.arguments, Abi.checkAll_cons, Abi.check_address, Abi.check_uint]
  exact ⟨hlength, hamount, rfl⟩

theorem fits_joinPool {p : PoolJoin Bytes} (hid : p.poolId.length = 32)
    (hkind : p.kind = weightedPoolKind) (hsender : p.sender.length = 20)
    (hrecipient : p.recipient.length = 20) (hassets : ∀ bs ∈ p.assets, bs.length = 20)
    (hamounts : ∀ n ∈ p.maxAmounts, Uint256.Fits n) (hvalue : p.value = 0)
    (houtput : Uint256.Fits p.output) : (Call.joinPool p).Fits := by
  simp only [Call.Fits, Call.arguments, Value.addresses, Value.words, Abi.checkAll_cons,
    Abi.check_word, Abi.check_uint, Abi.check_address, Abi.check_tuple, Abi.check_array,
    Abi.checkAll_map, Abi.check_bytes, Abi.check_bool]
  rw [hkind, hvalue]
  exact ⟨Nat.le_of_eq hid, by decide, hsender, hrecipient,
    ⟨hassets, hamounts, trivial, trivial, rfl⟩, Uint256.fits_zero, houtput, rfl⟩

theorem check_outputs {pairs : List (Int × Int)} :
    (Value.outputs pairs).check = .ok () ↔
      ∀ pair ∈ pairs, Uint256.Fits pair.1 ∧ Uint256.Fits pair.2 := by
  rw [Value.outputs, Abi.check_array, Abi.checkAll_map]
  refine forall₂_congr fun pair _ => ?_
  rw [Abi.check_tuple, Abi.checkAll_cons, Abi.checkAll_cons, Abi.check_uint, Abi.check_uint]
  exact and_congr Iff.rfl (and_iff_left rfl)

theorem fits_exitPool {p : PoolExit Bytes} (hid : p.poolId.length = 32)
    (hkind : p.kind = weightedPoolKind) (hsender : p.sender.length = 20)
    (hrecipient : p.recipient.length = 20) (hassets : ∀ bs ∈ p.assets, bs.length = 20)
    (hamounts : ∀ n ∈ p.minAmounts, Uint256.Fits n)
    (houtputs : ∀ pair ∈ p.outputs, Uint256.Fits pair.1 ∧ Uint256.Fits pair.2) :
    (Call.exitPool p).Fits := by
  simp only [Call.Fits, Call.arguments, Value.addresses, Value.words, Abi.checkAll_cons,
    Abi.check_word, Abi.check_uint, Abi.check_address, Abi.check_tuple, Abi.check_array,
    Abi.checkAll_map, Abi.check_bytes, Abi.check_bool, check_outputs]
  rw [hkind]
  exact ⟨Nat.le_of_eq hid, by decide, hsender, hrecipient,
    ⟨hassets, hamounts, trivial, trivial, rfl⟩, houtputs, rfl⟩

/-- The pool ids of a batch's steps are read, and nothing else of a step changes. -/
theorem exists_readSteps {steps : List (BatchStep Text)}
    (h : ∀ step ∈ steps, Form.poolId.holds step.poolId = true ∧ Uint256.Fits step.assetIn ∧
      Uint256.Fits step.assetOut ∧ Uint256.Fits step.amount) :
    ∃ read, steps.mapM BatchSwap.readStep = .ok read ∧
      ∀ step ∈ read, step.poolId.length = 32 ∧ Uint256.Fits step.assetIn ∧
        Uint256.Fits step.assetOut ∧ Uint256.Fits step.amount := by
  have hread : (steps.mapM BatchSwap.readStep).EndsIn
      (List.Forall₂ (fun _ step => step.poolId.length = 32 ∧ Uint256.Fits step.assetIn ∧
        Uint256.Fits step.assetOut ∧ Uint256.Fits step.amount) steps) fun _ => False := by
    apply List.endsIn_mapM
    intro step hstep
    obtain ⟨hform, hnumbers⟩ := h step hstep
    obtain ⟨id, hid, hlength, -⟩ := Pool.exists_idBytes hform
    exact .of_eq_ok (Except.bind_eq_ok.2 ⟨id, hid, rfl⟩) ⟨hlength, hnumbers⟩
  obtain ⟨read, hread, hall⟩ := hread.exists_ok
  refine ⟨read, hread, ?_⟩
  intro step hstep
  obtain ⟨-, -, hfits⟩ := hall.flip.exists_of_mem hstep
  exact hfits

/-- A batch that is read and otherwise fits its forms is made, or has a limit outside the signed
words. -/
theorem endsIn_prepare_batchSwap {c : BatchSwap Text} {read : BatchSwap Bytes}
    (hread : c.read = .ok read) (hkind : 0 ≤ read.kind ∧ read.kind < Nat.pow 2 8)
    (hsteps : ∀ step ∈ read.steps, step.poolId.length = 32 ∧ Uint256.Fits step.assetIn ∧
      Uint256.Fits step.assetOut ∧ Uint256.Fits step.amount)
    (hassets : ∀ bs ∈ read.assets, bs.length = 20) (hsender : read.funds.sender.length = 20)
    (hrecipient : read.funds.recipient.length = 20) (hdeadline : Uint256.Fits read.deadline)
    (hvalue : read.value = 0)
    (houtputs : ∀ pair ∈ read.outputs, Uint256.Fits pair.1 ∧ Uint256.Fits pair.2) :
    (Call.batchSwap c).prepare.EndsIn (fun _ => True) fun e =>
      e = .abi .outOfBounds ∧
        ¬ ∀ n ∈ read.limits, -(Nat.pow 2 255 : Int) ≤ n ∧ n < Nat.pow 2 255 := by
  refine .after (Except.map_eq_ok.2 ⟨read, hread, rfl⟩) ?_
  have hkindFits : (Value.uint 8 read.kind).check = .ok () := Abi.check_uint.2 hkind
  have hstepsFit : (Value.array (read.steps.map fun s => .tuple [
      .word s.poolId, .uint 256 s.assetIn, .uint 256 s.assetOut, .uint 256 s.amount,
      .bytes s.userData])).check = .ok () := by
    rw [Abi.check_array, Abi.checkAll_map]
    intro s hs
    obtain ⟨hid, hassetIn, hassetOut, hamount⟩ := hsteps s hs
    simp only [Abi.check_tuple, Abi.checkAll_cons, Abi.check_word, Abi.check_uint, Abi.check_bytes]
    exact ⟨Nat.le_of_eq hid, hassetIn, hassetOut, hamount, trivial, rfl⟩
  have hassetsFit : (Value.addresses read.assets).check = .ok () := by
    rw [Value.addresses, Abi.check_array, Abi.checkAll_map]
    exact fun bs hbs => Abi.check_address.2 (hassets bs hbs)
  have hfundsFit : (Value.tuple [.address read.funds.sender, .bool read.funds.fromInternal,
      .address read.funds.recipient, .bool read.funds.toInternal]).check = .ok () := by
    simp only [Abi.check_tuple, Abi.checkAll_cons, Abi.check_address, Abi.check_bool]
    exact ⟨hsender, trivial, hrecipient, trivial, rfl⟩
  have hrest : Value.checkAll [.uint 256 read.deadline, .uint 256 read.value,
      .outputs read.outputs] = .ok () := by
    simp only [Abi.checkAll_cons, Abi.check_uint, check_outputs, hvalue]
    exact ⟨hdeadline, Uint256.fits_zero, houtputs, rfl⟩
  have hlimits : (Value.array (read.limits.map (.sint 256))).check =
      Value.checkAll (read.limits.map (.sint 256)) :=
    rfl
  rw [Abi.checkAll_sints] at hlimits
  rw [Call.checked, Call.arguments, Abi.checkAll_cons_of_ok hkindFits,
    Abi.checkAll_cons_of_ok hstepsFit, Abi.checkAll_cons_of_ok hassetsFit,
    Abi.checkAll_cons_of_ok hfundsFit]
  by_cases hall : ∀ n ∈ read.limits, -(Nat.pow 2 255 : Int) ≤ n ∧ n < Nat.pow 2 255
  · rw [if_pos hall] at hlimits
    rw [Abi.checkAll_cons_of_ok hlimits, hrest]
    trivial
  · rw [if_neg hall] at hlimits
    rw [Abi.checkAll_cons_of_error hlimits]
    exact ⟨rfl, hall⟩

theorem limits_of_fits {b : BatchSwap Bytes} (h : (Call.batchSwap b).Fits) :
    ∀ n ∈ b.limits, -(Nat.pow 2 255 : Int) ≤ n ∧ n < Nat.pow 2 255 := by
  simp only [Call.Fits, Call.arguments, Abi.checkAll_cons, Abi.check_array] at h
  have hlimits := h.2.2.2.2.1
  rw [Abi.checkAll_sints] at hlimits
  by_contra hall
  rw [if_neg hall] at hlimits
  cases hlimits

end Call

end SwapRelay
