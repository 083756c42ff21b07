import SwapRelay.Proofs.Address.Number
import SwapRelay.Proofs.Pool.Naming
import Mathlib.Data.List.Lex

/-!
# Identity in text and in bytes

Addresses and pool ids are told apart, ordered and taken apart as text, and the vault is only ever
shown their bytes. So what is decided here holds there as well: two texts have the same bytes
exactly if they are the same in whatever case, the order of two addresses as numbers is that of
their bytes, and the address that is cut out of a pool id is the front of the id's bytes
(`texts_agree_with_bytes`).

All of it rests on one fact. Bytes write the text that they were read from, in small letters. Since
written bytes can be read back, texts with the same small letters are texts with the same bytes; and
since two digits are one byte, cutting the text at an even place cuts the bytes at half of it.
-/

namespace SwapRelay

namespace Address

/-- The text has these twenty bytes, and is read as this number, which is the one that the bytes
write. -/
structure Written (t : Text) (bs : Bytes) (n : Int) : Prop where
  decoded : bytes t = .ok bs
  length : bs.length = 20
  read : Numeral.readHex t = some n
  number : n = (Abi.ofBigEndian bs : Int)

theorem exists_written {t : Text} (h : Form.address.holds t = true) :
    ∃ bs n, Written t bs n ∧ Hex.marked bs = Text.lower t := by
  obtain ⟨bs, hbytes, hlength, hmarked⟩ := exists_bytes h
  have hlong := Form.length_address h
  have hread := readHex_eq h hbytes
  rw [Form.normalize_eq h, Numeral.readHex_lower (Form.isMarked_of_holds h) (by omega)] at hread
  exact ⟨bs, _, ⟨hbytes, hlength, hread, rfl⟩, hmarked⟩

/-- The order of the numbers is that of the bytes, the first byte counting most. -/
theorem Written.lt_iff {a b : Text} {as bs : Bytes} {m n : Int} (ha : Written a as m)
    (hb : Written b bs n) : m < n ↔ List.Lex (·.toNat < ·.toNat) as bs := by
  rw [ha.number, hb.number, Int.ofNat_lt]
  exact Abi.ofBigEndian_lt_iff (ha.length.trans hb.length.symm)

end Address

namespace Pool

/-- The id has these thirty-two bytes, and the first twenty of them are those of the address that is
cut out of it. -/
structure Named (id : Text) (bs : Bytes) : Prop where
  decoded : Hex.readBytes id = .ok bs
  length : bs.length = 32
  address : ∃ address, addressOfId id = .ok address ∧ Address.bytes address = .ok (bs.take 20)

theorem exists_named {id : Text} (h : Form.poolId.holds id = true) :
    ∃ bs, Named id bs ∧ Hex.marked bs = Text.lower id := by
  obtain ⟨bs, hread, hlength, hmarked⟩ := exists_idBytes h
  have hfront := Form.holds_take_poolId h
  obtain ⟨front, hbytes, -, hfrontMarked⟩ := Address.exists_bytes hfront
  -- Forty digits behind the mark are twenty bytes.
  have htake : front = bs.take 20 := by
    rw [← Hex.marked_inj, hfrontMarked, Hex.marked_take, hmarked,
      Hex.lower_take (Form.isMarked_of_holds h)]
  refine ⟨bs, ⟨hread, hlength, _, addressOfId_eq h, ?_⟩, hmarked⟩
  rw [Address.bytes_normalize hfront, hbytes, htake]

end Pool

/-- What is decided by the text of addresses and pool ids is decided by their bytes. -/
theorem texts_agree_with_bytes {a b p q : Text} (ha : Form.address.holds a = true)
    (hb : Form.address.holds b = true) (hp : Form.poolId.holds p = true)
    (hq : Form.poolId.holds q = true) :
    (∃ as bs m n, Address.Written a as m ∧ Address.Written b bs n ∧
      (as = bs ↔ Address.same a b = true) ∧ (m < n ↔ List.Lex (·.toNat < ·.toNat) as bs)) ∧
    ∃ ps qs, Pool.Named p ps ∧ Pool.Named q qs ∧ (ps = qs ↔ Text.lower p = Text.lower q) := by
  constructor
  · obtain ⟨as, m, hwritten, hmarked⟩ := Address.exists_written ha
    obtain ⟨bs, n, hwritten', hmarked'⟩ := Address.exists_written hb
    refine ⟨as, bs, m, n, hwritten, hwritten', ?_, hwritten.lt_iff hwritten'⟩
    rw [← Hex.marked_inj, hmarked, hmarked', Address.same_iff]
  · obtain ⟨ps, hnamed, hmarked⟩ := Pool.exists_named hp
    obtain ⟨qs, hnamed', hmarked'⟩ := Pool.exists_named hq
    refine ⟨ps, qs, hnamed, hnamed', ?_⟩
    rw [← Hex.marked_inj, hmarked, hmarked']

/-- An address, the next one in capital letters, and a pool id in either case. As characters the
capital letters come first, as bytes they do not. -/
theorem texts_agree_with_bytes_capitals :
    let small : Text := '0' :: 'x' :: List.replicate 40 'a'
    let capital : Text := '0' :: 'x' :: (List.replicate 39 'A' ++ ['B'])
    let smallId : Text := small ++ List.replicate 24 'c'
    let capitalId : Text := '0' :: 'x' :: (List.replicate 40 'A' ++ List.replicate 24 'C')
    Form.address.holds small = true ∧ Form.address.holds capital = true ∧
      Form.poolId.holds smallId = true ∧ Form.poolId.holds capitalId = true ∧
      Text.le capital small = true ∧
      (∃ as bs m n, Address.Written small as m ∧ Address.Written capital bs n ∧ as ≠ bs ∧ m < n) ∧
      ∃ ps, Pool.Named smallId ps ∧ Pool.Named capitalId ps := by
  intro small capital smallId capitalId
  have hsmall : Form.address.holds small = true := by decide
  have hcapital : Form.address.holds capital = true := by decide
  have hsmallId : Form.poolId.holds smallId = true := by decide
  have hcapitalId : Form.poolId.holds capitalId = true := by decide
  obtain ⟨⟨as, bs, m, n, hwritten, hwritten', hsame, horder⟩, ps, qs, hnamed, hnamed', hids⟩ :=
    texts_agree_with_bytes hsmall hcapital hsmallId hcapitalId
  have has : as = List.replicate 20 0xaa := Except.ok.inj (hwritten.decoded.symm.trans rfl)
  have hbs : bs = List.replicate 19 0xaa ++ [0xab] :=
    Except.ok.inj (hwritten'.decoded.symm.trans rfl)
  refine ⟨hsmall, hcapital, hsmallId, hcapitalId, by decide, ?_, ps, hnamed, ?_⟩
  · refine ⟨as, bs, m, n, hwritten, hwritten', fun h => ?_, horder.2 ?_⟩
    · exact absurd (hsame.1 h) (by decide)
    · rw [has, hbs]
      decide
  · rw [hids.2 (by decide)]
    exact hnamed'

end SwapRelay
