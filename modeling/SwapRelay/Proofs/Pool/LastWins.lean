import Mathlib.Data.Finset.Card
import SwapRelay.Event
import SwapRelay.Proofs.Pool.Registry
import SwapRelay.Proofs.Sorting

/-!
# The last entry of an id wins

A registry keeps of each id the last pool that was listed with it, and reports each entry that took
the place of an earlier one. The two are counted apart: what is kept has one entry for each id
(`length_survivors`), and what is reported is all that comes after the first of its id
(`length_replacing`), so together they make up the list. A look-up searches the list from its end,
`find?_ofList`, and what it gives are all the pools that are kept (`exists_get_iff`), so the share
tokens are the addresses of these and of no others.
-/

namespace SwapRelay

/-- The pool is listed under this id, in whatever case. -/
def Pool.HasId (pool : Pool) (id : Text) : Prop :=
  Text.lower pool.id = Text.lower id

namespace Registry

/-- The pool is the last one in the list that has this id. -/
def IsLast (pools : List Pool) (id : Text) (pool : Pool) : Prop :=
  ∃ front back, pools = front ++ pool :: back ∧ pool.HasId id ∧ ∀ other ∈ back, ¬ other.HasId id

/-- The registry is the map of the list in which the last entry of an id wins, for every question
that can be asked of it, and the events tell the entries that took another's place. -/
structure LastWins (pools : List Pool) (r : Registry) (events : List Event) : Prop where
  get_ok : ∀ id pool, r.get id = .ok pool ↔ IsLast pools id pool
  get_error : ∀ id e, r.get id = .error e ↔
    e = .route (.unknownPool id) ∧ ∀ pool ∈ pools, ¬ pool.HasId id
  contains : ∀ j, r.contains j = true ↔ ∃ id pool, j = .str id ∧ r.get id.toList = .ok pool
  size : r.size = (pools.map fun pool => Text.lower pool.id).toFinset.card
  replaced : ∀ e ∈ events, ∃ pool ∈ pools, e = .poolReplaced pool.id
  replaced_count : events.length + r.size = pools.length
  isShareToken : ∀ token, r.isShareToken token = true ↔
    ∃ id pool, r.get id = .ok pool ∧ Address.normalize pool.address = Address.normalize token
  shareTokens : ∀ token, token ∈ r.shareTokens ↔
    ∃ id pool, r.get id = .ok pool ∧ Address.normalize pool.address = token

/-! ## Counting -/

theorem length_survivors (pools : List Pool) :
    (survivors pools).length = (pools.map Pool.key).toFinset.card := by
  induction pools with
  | nil => rfl
  | cons pool rest ih =>
      have hlater : rest.any (·.key == pool.key) = true ↔
          pool.key ∈ (rest.map Pool.key).toFinset := by
        simp only [List.any_eq_true, List.mem_toFinset, List.mem_map, beq_iff_eq]
      rw [List.map_cons, List.toFinset_cons, survivors]
      split
      · next hmem => rw [Finset.insert_eq_of_mem (hlater.1 hmem), ih]
      · next hnot =>
          rw [Finset.card_insert_of_notMem fun hmem => hnot (hlater.2 hmem), List.length_cons, ih]

/-- Each entry is reported or brings a new id; `seen` are the ids that came before the list. -/
theorem length_replacing (seen : List Text) (pools : List Pool) :
    (replacing seen pools).length + ((pools.map Pool.key).toFinset \ seen.toFinset).card =
      pools.length := by
  induction pools generalizing seen with
  | nil => simp [replacing]
  | cons pool rest ih =>
      have hseen : seen.contains pool.key = true ↔ pool.key ∈ seen.toFinset := by
        rw [List.contains_iff_mem, List.mem_toFinset]
      rw [List.map_cons, List.toFinset_cons, replacing, List.length_cons]
      split
      · next hmem =>
          rw [Finset.insert_sdiff_of_mem _ (hseen.1 hmem), List.length_cons, ← ih seen]
          omega
      · next hnot =>
          have hnew : pool.key ∉ seen.toFinset := fun hmem => hnot (hseen.2 hmem)
          rw [← Finset.sdiff_insert_insert_of_mem_of_notMem (Finset.mem_insert_self _ _) hnew,
            Finset.card_insert_of_notMem fun hmem =>
              (Finset.mem_sdiff.1 hmem).2 (Finset.mem_insert_self _ _),
            Finset.insert_sdiff_insert, ← List.toFinset_cons, ← ih (pool.key :: seen)]
          omega

theorem mem_of_mem_replacing {seen : List Text} {pools : List Pool} {pool : Pool}
    (h : pool ∈ replacing seen pools) : pool ∈ pools := by
  induction pools generalizing seen with
  | nil => cases h
  | cons first rest ih =>
      rw [replacing] at h
      split at h
      · rcases List.mem_cons.1 h with rfl | h
        · exact List.mem_cons_self ..
        · exact List.mem_cons_of_mem _ (ih h)
      · exact List.mem_cons_of_mem _ (ih h)

/-! ## Look-ups -/

section Get

variable {pools : List Pool} {id : Text} {pool : Pool}

theorem find?_ofList (pools : List Pool) (id : Text) :
    (ofList pools).find? id = pools.reverse.find? (·.key == Text.lower id) :=
  find?_survivors (Text.lower id) pools

theorem find?_ofList_eq_some : (ofList pools).find? id = some pool ↔ IsLast pools id pool := by
  have hother : ∀ {other : Pool}, (!(other.key == Text.lower id)) = true ↔ ¬ other.HasId id := by
    intro other
    rw [Bool.not_eq_true', beq_eq_false_iff_ne]
    rfl
  simp only [find?_ofList, List.find?_eq_some_iff_append, hother, beq_iff_eq]
  constructor
  · rintro ⟨hid, back, front, hlist, hback⟩
    refine ⟨front.reverse, back.reverse, ?_, hid, ?_⟩
    · rw [List.reverse_eq_iff.1 hlist, List.reverse_append, List.reverse_cons, List.append_assoc,
        List.singleton_append]
    · exact fun other hmem => hback other (List.mem_reverse.1 hmem)
  · rintro ⟨front, back, rfl, hid, hback⟩
    refine ⟨hid, back.reverse, front.reverse, ?_, ?_⟩
    · rw [List.reverse_append, List.reverse_cons, List.append_assoc, List.singleton_append]
    · exact fun other hmem => hback other (List.mem_reverse.1 hmem)

theorem find?_ofList_eq_none :
    (ofList pools).find? id = none ↔ ∀ pool ∈ pools, ¬ pool.HasId id := by
  rw [find?_ofList, List.find?_eq_none]
  simp only [List.mem_reverse, beq_iff_eq]
  rfl

/-- The pools that are kept are those that a look-up gives. -/
theorem exists_get_iff {P : Pool → Prop} :
    (∃ id pool, (ofList pools).get id = .ok pool ∧ P pool) ↔ ∃ pool ∈ survivors pools, P pool := by
  constructor
  · rintro ⟨id, pool, hget, hpool⟩
    exact ⟨pool, mem_of_get hget, hpool⟩
  · rintro ⟨pool, hmem, hpool⟩
    exact ⟨pool.id, pool, get_eq_ok.2 (find?_of_mem_survivors hmem), hpool⟩

end Get

/-- A list of pools becomes the registry in which the last entry of an id wins. -/
theorem ofListLogged_lastWins (pools : List Pool) :
    ∃ r, (ofListLogged pools).result = .ok r ∧ LastWins pools r (ofListLogged pools).events := by
  have hevents : (ofListLogged pools).events =
      (replacing [] pools).map fun pool => .poolReplaced pool.id := List.append_nil _
  have hsize : (ofList pools).size = (pools.map Pool.key).toFinset.card := length_survivors pools
  refine ⟨ofList pools, rfl, ?_⟩
  rw [hevents]
  constructor
  case get_ok => exact fun id pool => get_eq_ok.trans find?_ofList_eq_some
  case get_error =>
    intro id e
    rw [get_eq_error, find?_ofList_eq_none]
  case contains => exact contains_iff _
  case size => exact hsize
  case replaced =>
    intro e he
    obtain ⟨pool, hpool, rfl⟩ := List.mem_map.1 he
    exact ⟨pool, mem_of_mem_replacing hpool, rfl⟩
  case replaced_count =>
    have hcount := length_replacing [] pools
    rw [List.toFinset_nil, Finset.sdiff_empty, ← hsize] at hcount
    rw [List.length_map, hcount]
  case isShareToken =>
    intro token
    rw [exists_get_iff, Registry.isShareToken, List.any_eq_true]
    simp only [beq_iff_eq]
    rfl
  case shareTokens =>
    intro token
    rw [exists_get_iff, Registry.shareTokens, (Sorting.sort_perm _ _).mem_iff, List.mem_eraseDups,
      List.mem_map]
    rfl

-- The address of an entry that was replaced is no share token any more.
example : (ofList [⟨['A'], ['1'], []⟩, ⟨['a'], ['2'], []⟩]).shareTokens = [['0', 'x', '2']] := by
  decide

end Registry

end SwapRelay
