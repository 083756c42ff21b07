import SwapRelay.Proofs.Action.Order

/-!
# Which hop reads which key

A hop that does not start from the route's input is handed the last key, and the walk asks neither
whether another hop has read that key nor whose token is stored under it. Both depend on how the
hops stand in the route, and on nothing else. The slot of a key is cleared by its first read, so
every key should be read once. That is so exactly if the hops take turns, one leaving an amount and
the next one taking it (`keysReadOnce_iff`). And an amount should be one of the hop's own token.
That is so exactly if each hop starts where the amount left last was left (`readsOwnTokens_iff`).

Either way the keys handed out so far are told apart from those still to come. What is written from
a point on is under the next keys, and what is read from there on is under the last key or a later
one.
-/

namespace SwapRelay

namespace Hop

/-- The hop takes its amount from an earlier hop. -/
def takes (ends : Ends) (hop : Hop) : Bool :=
  hop.assetIn != ends.input

/-- The hop leaves its output to a later hop. -/
def leaves (ends : Ends) (hop : Hop) : Bool :=
  hop.assetOut != ends.output

/-- The hops hand on one amount at a time: a hop takes an amount exactly if one is waiting, and none
is waiting at the end. A hop from the route's input straight to its output has no part in this. -/
def takeTurns (ends : Ends) : Bool → List Hop → Bool
  | waiting, [] => !waiting
  | waiting, hop :: rest =>
    if hop.takes ends || hop.leaves ends then
      hop.takes ends == waiting && takeTurns ends (hop.leaves ends) rest
    else takeTurns ends waiting rest

/-- Each hop that takes an amount starts at the place where the last one was left. -/
def followOn (ends : Ends) : Option Nat → List Hop → Bool
  | _, [] => true
  | left, hop :: rest =>
    (!hop.takes ends || left == some hop.assetIn) &&
      followOn ends (if hop.leaves ends then some hop.assetOut else left) rest

end Hop

namespace Action

/-- Every reference that the actions write is read by one of them, and by one only. -/
def KeysReadOnce (actions : List Action) : Prop :=
  ∀ r ∈ actions.flatMap keys, (actions.filterMap read?).count r = 1

/-- What an action reads is stored under one output of all the actions, which belongs to an earlier
action and is of the token that the reader takes. -/
def ReadsOwnTokens (actions : List Action) : Prop :=
  ∀ front b back r, actions = front ++ b :: back → b.read? = some r →
    (actions.flatMap outputs).filter (·.key = r) = [⟨b.firstHop.assetIn, r⟩] ∧
      ⟨b.firstHop.assetIn, r⟩ ∈ front.flatMap outputs

namespace Frame

variable (frame : Frame) {keys : Nat} {kind : ActionKind} {hop : Hop}

theorem isLast_eq : frame.isLast hop = !hop.leaves frame.ends := by
  simp only [isLast, Hop.leaves, bne, Bool.not_not]

theorem takes_iff : hop.takes frame.ends = true ↔ hop.assetIn ≠ frame.ends.input := by
  rw [Hop.takes, bne_iff_ne]

theorem read?_link_of_takes (hlit : hop.amount.isLiteral = true)
    (h : hop.takes frame.ends = true) :
    (frame.link keys kind hop).read? = some (.slot (keys - 1)) := by
  rw [frame.read?_link hlit, if_neg (frame.takes_iff.1 h)]

theorem read?_link_of_not_takes (hlit : hop.amount.isLiteral = true)
    (h : hop.takes frame.ends = false) : (frame.link keys kind hop).read? = none := by
  rw [frame.read?_link hlit, if_pos]
  by_contra hin
  rw [frame.takes_iff.2 hin] at h
  cases h

theorem outputs_link_eq :
    (frame.link keys kind hop).outputs =
      if hop.leaves frame.ends then [⟨hop.assetOut, .slot keys⟩] else [] := by
  rw [outputs_link, isLast_eq]
  cases hop.leaves frame.ends <;> rfl

theorem keysAfter_eq :
    frame.keysAfter keys hop = if hop.leaves frame.ends then keys + 1 else keys := by
  rw [keysAfter, isLast_eq]
  cases hop.leaves frame.ends <;> rfl

/-- What a hop writes is under the last key handed out once it is passed. -/
theorem keys_link_eq :
    (frame.link keys kind hop).keys =
      if hop.leaves frame.ends then [.slot (frame.keysAfter keys hop - 1)] else [] := by
  rw [keys_link, keysAfter_eq, isLast_eq]
  cases hop.leaves frame.ends <;> rfl

end Frame

namespace Walked

variable {frame : Frame} {keys : Nat} {hops : List Hop} {actions : List Action}

/-- What is read is under the last key handed out or under a later one. -/
theorem le_of_mem_reads (h : Walked frame keys hops actions)
    (hlit : ∀ hop ∈ hops, hop.amount.isLiteral = true) {k : Nat}
    (hk : Reference.slot k ∈ actions.filterMap read?) : keys ≤ k + 1 := by
  induction h with
  | nil => cases hk
  | @cons keys hop rest actions pool kind _ _ _ tail ih =>
      obtain ⟨a, ha, hread⟩ := List.mem_filterMap.1 hk
      rcases List.mem_cons.1 ha with rfl | ha
      · cases htakes : hop.takes frame.ends with
        | false =>
            rw [frame.read?_link_of_not_takes (hlit hop (List.mem_cons_self ..)) htakes] at hread
            cases hread
        | true =>
            rw [frame.read?_link_of_takes (hlit hop (List.mem_cons_self ..)) htakes] at hread
            have hslot := Reference.slot_injective (Option.some.inj hread)
            omega
      · have hlater := ih (fun other hmem => hlit other (List.mem_cons_of_mem _ hmem))
          (List.mem_filterMap.2 ⟨a, ha, hread⟩)
        rw [frame.keysAfter_eq] at hlater
        split at hlater <;> omega

theorem le_of_mem_keys (h : Walked frame keys hops actions) {k : Nat}
    (hk : Reference.slot k ∈ actions.flatMap Action.keys) : keys ≤ k := by
  rw [h.keys_eq, List.mem_map] at hk
  obtain ⟨j, hj, heq⟩ := hk
  obtain rfl := Reference.slot_injective heq
  exact (List.mem_range'_1.1 hj).1

/-- From a point on, the hops take turns exactly if what is read is what is written, and the amount
that waits there. -/
theorem reads_perm_iff (h : Walked frame keys hops actions)
    (hlit : ∀ hop ∈ hops, hop.amount.isLiteral = true) (waiting : Bool)
    (hwaiting : waiting = true → 0 < keys) :
    (actions.filterMap read?).Perm
        ((if waiting then [.slot (keys - 1)] else []) ++ actions.flatMap Action.keys) ↔
      Hop.takeTurns frame.ends waiting hops = true := by
  induction h generalizing waiting with
  | nil => cases waiting <;> simp [Hop.takeTurns]
  | @cons keys hop rest actions pool kind known classified fed tail ih =>
      have hlit' : ∀ other ∈ rest, other.amount.isLiteral = true :=
        fun other hmem => hlit other (List.mem_cons_of_mem _ hmem)
      have hread := hlit hop (List.mem_cons_self ..)
      have hwritten : (frame.link keys kind hop).keys = _ := frame.keys_link_eq
      have hnext : frame.keysAfter keys hop = _ := frame.keysAfter_eq
      -- Behind a hop that plays a part, exactly what the hop wrote is waiting.
      have hturns := ih hlit' (hop.leaves frame.ends)
        (fun hleaves => by rw [hnext, if_pos hleaves]; exact Nat.succ_pos keys)
      rw [← hwritten] at hturns
      rw [List.flatMap_cons, Hop.takeTurns]
      cases htakes : hop.takes frame.ends with
      | true =>
          rw [List.filterMap_cons_some (frame.read?_link_of_takes hread htakes)]
          cases waiting with
          | true => simpa using hturns
          | false =>
              refine iff_of_false (fun hperm => ?_) (by simp)
              have hmem := hperm.mem_iff.1 (List.mem_cons_self ..)
              have hle := (Walked.cons known classified fed tail).le_of_mem_keys hmem
              have hpos := fed.resolve_left (frame.takes_iff.1 htakes)
              omega
      | false =>
          rw [List.filterMap_cons_none (frame.read?_link_of_not_takes hread htakes)]
          cases hleaves : hop.leaves frame.ends with
          | true =>
              rw [hleaves] at hturns hnext
              cases waiting with
              | true =>
                  refine iff_of_false (fun hperm => ?_) (by simp)
                  have hmem := hperm.mem_iff.2 (List.mem_cons_self ..)
                  have hle := tail.le_of_mem_reads hlit' hmem
                  have hpos := hwaiting rfl
                  rw [hnext, if_pos rfl] at hle
                  omega
              | false => simpa using hturns
          | false =>
              rw [hleaves] at hwritten hnext
              have hsame := ih hlit' waiting (by rwa [hnext])
              rw [hnext] at hsame
              rw [hwritten]
              simpa using hsame

/-- An action reads what an earlier one writes. -/
theorem mem_keys_of_read (h : Walked frame 0 hops actions)
    (hlit : ∀ hop ∈ hops, hop.amount.isLiteral = true) {front back : List Action} {b : Action}
    (hsplit : actions = front ++ b :: back) {r : Reference} (hr : b.read? = some r) :
    r ∈ front.flatMap Action.keys := by
  have hbacked := h.backed hlit
  rw [hsplit, backed_append, List.nil_append] at hbacked
  exact hbacked.2.1 r hr

/-- Each key is read once exactly if what is read is what is written, since no key is written twice
and none is read that was not written. -/
theorem keysReadOnce_iff_perm (h : Walked frame 0 hops actions)
    (hlit : ∀ hop ∈ hops, hop.amount.isLiteral = true) :
    KeysReadOnce actions ↔ (actions.filterMap read?).Perm (actions.flatMap Action.keys) := by
  have hwritten : ∀ r ∈ actions.flatMap Action.keys, (actions.flatMap Action.keys).count r = 1 :=
    fun r hr => List.count_eq_one_of_mem h.nodup_keys hr
  constructor
  · intro honce
    refine List.perm_iff_count.2 fun r => ?_
    by_cases hr : r ∈ actions.flatMap Action.keys
    · rw [honce r hr, hwritten r hr]
    · rw [List.count_eq_zero_of_not_mem hr, List.count_eq_zero]
      intro hread
      obtain ⟨b, hb, hread⟩ := List.mem_filterMap.1 hread
      obtain ⟨front, back, hsplit⟩ := List.append_of_mem hb
      have hmem := h.mem_keys_of_read hlit hsplit hread
      apply hr
      rw [hsplit, List.flatMap_append]
      exact List.mem_append_left _ hmem
  · intro hperm r hr
    rw [hperm.count_eq, hwritten r hr]

end Walked

/-- Every key is read once, and once only, exactly if the hops hand on one amount at a time. -/
theorem keysReadOnce_iff {registry : Registry} {assets : List Text} {tokenIn tokenOut : Text}
    {minOut : Int} {hops : List Hop} {actions : List Action}
    (h : ofHops registry assets tokenIn tokenOut minOut hops = .ok actions)
    (hlit : ∀ hop ∈ hops, hop.amount.isLiteral = true) :
    ∃ ends, Ends.find assets tokenIn tokenOut = .ok ends ∧
      (KeysReadOnce actions ↔ Hop.takeTurns ends false hops = true) := by
  obtain ⟨ends, hends, -, hwalk⟩ := walked_of_ofHops h
  refine ⟨ends, hends, ?_⟩
  have hperm := hwalk.reads_perm_iff hlit false (fun hno => Bool.noConfusion hno)
  exact (hwalk.keysReadOnce_iff_perm hlit).trans hperm

/-- A token goes to the output by way of two others: the hops of the one way and then those of the
other, or the first hop of either way before the second ones. -/
def twoWays (oneByOne : Bool) : List Hop :=
  let hop (digit : Char) (i j : Nat) (n : Int) : Hop :=
    ⟨'0' :: 'x' :: List.replicate 64 digit, i, j, .literal n, []⟩
  if oneByOne then [hop 'c' 0 2 600, hop 'd' 2 1 0, hop 'e' 0 3 400, hop 'f' 3 1 0]
  else [hop 'c' 0 2 600, hop 'e' 0 3 400, hop 'd' 2 1 0, hop 'f' 3 1 0]

def twoWaysToken (digit : Char) : Text :=
  '0' :: 'x' :: List.replicate 40 digit

def twoWaysActions (oneByOne : Bool) : Except Error (List Action) :=
  let pool (digit : Char) : Pool := ⟨'0' :: 'x' :: List.replicate 64 digit, twoWaysToken digit, []⟩
  ofHops (.ofList (['c', 'd', 'e', 'f'].map pool)) (['1', '2', '3', '4'].map twoWaysToken)
    (twoWaysToken '1') (twoWaysToken '2') 990 (twoWays oneByOne)

theorem ends_twoWays :
    Ends.find (['1', '2', '3', '4'].map twoWaysToken) (twoWaysToken '1') (twoWaysToken '2') =
      .ok ⟨0, 1⟩ := by
  rfl

theorem isLiteral_twoWays (oneByOne : Bool) :
    ∀ hop ∈ twoWays oneByOne, hop.amount.isLiteral = true := by
  cases oneByOne <;> decide

/-- With the hops one way after the other, each key is read once. -/
theorem keysReadOnce_iff_twoWays :
    ∃ actions, twoWaysActions true = .ok actions ∧
      (∀ hop ∈ twoWays true, hop.amount.isLiteral = true) ∧
      Hop.takeTurns ⟨0, 1⟩ false (twoWays true) = true ∧ KeysReadOnce actions := by
  obtain ⟨actions, h⟩ : ∃ actions, twoWaysActions true = .ok actions := ⟨_, rfl⟩
  obtain ⟨ends, hends, hiff⟩ := keysReadOnce_iff h (isLiteral_twoWays true)
  cases ends_twoWays.symm.trans hends
  exact ⟨actions, h, isLiteral_twoWays true, by decide, hiff.2 (by decide)⟩

/-- With the first hops in front, both of the second ones read the key of the later one of them. -/
theorem not_keysReadOnce_twoWays :
    ∃ actions, twoWaysActions false = .ok actions ∧
      (∀ hop ∈ twoWays false, hop.amount.isLiteral = true) ∧
      actions.flatMap keys = [.slot 0, .slot 1] ∧
      actions.map read? = [none, none, some (.slot 1), some (.slot 1)] ∧ ¬KeysReadOnce actions := by
  refine ⟨_, rfl, isLiteral_twoWays false, by decide, by decide, ?_⟩
  intro honce
  exact absurd (honce (.slot 0) (by decide)) (by decide)

/-! ## The token that a key stands for -/

theorem filter_key_eq_singleton {written : List OutputReference}
    (hnodup : (written.map (·.key)).Nodup) {output : OutputReference} (h : output ∈ written) :
    written.filter (·.key = output.key) = [output] := by
  have hsame : written.filter (·.key = output.key) = written.filter (· == output) := by
    refine List.filter_congr fun other hother => ?_
    rw [Bool.eq_iff_iff, decide_eq_true_eq, beq_iff_eq]
    exact ⟨fun hkey => List.inj_on_of_nodup_map hnodup hother h hkey, congrArg _⟩
  rw [hsame, List.filter_beq, List.count_eq_one_of_mem hnodup.of_map h]
  rfl

/-- Every reference that is read, going from front to back, is stored by then for the place where
the reader starts. -/
def Followed : List OutputReference → List Action → Prop
  | _, [] => True
  | known, a :: rest =>
    (∀ r, a.read? = some r → ⟨a.firstHop.assetIn, r⟩ ∈ known) ∧ Followed (known ++ a.outputs) rest

theorem followed_iff {known : List OutputReference} {actions : List Action} :
    Followed known actions ↔ ∀ front b back r, actions = front ++ b :: back → b.read? = some r →
      ⟨b.firstHop.assetIn, r⟩ ∈ known ++ front.flatMap outputs := by
  induction actions generalizing known with
  | nil => simp [Followed]
  | cons a rest ih =>
      rw [Followed, ih]
      constructor
      · rintro ⟨hhead, hrest⟩ front b back r hsplit hr
        cases front with
        | nil =>
            cases hsplit
            rw [List.flatMap_nil, List.append_nil]
            exact hhead r hr
        | cons c front =>
            cases hsplit
            rw [List.flatMap_cons, ← List.append_assoc]
            exact hrest front b back r rfl hr
      · intro hall
        constructor
        · intro r hr
          have hmem := hall [] a rest r rfl hr
          rwa [List.flatMap_nil, List.append_nil] at hmem
        · rintro front b back r rfl hr
          have hmem := hall (a :: front) b back r rfl hr
          rwa [List.flatMap_cons, ← List.append_assoc] at hmem

namespace Walked

variable {frame : Frame} {keys : Nat} {hops : List Hop} {actions : List Action}

/-- The induction carries the outputs so far, of which the one under the last key tells the place
where an amount was left last. -/
theorem followed_iff_followOn (h : Walked frame keys hops actions)
    (hlit : ∀ hop ∈ hops, hop.amount.isLiteral = true) (known : List OutputReference)
    (left : Option Nat) (hbelow : ∀ i k, ⟨i, .slot k⟩ ∈ known → k < keys)
    (hlast : 0 < keys → ∀ i, ⟨i, .slot (keys - 1)⟩ ∈ known ↔ left = some i) :
    Followed known actions ↔ Hop.followOn frame.ends left hops = true := by
  induction h generalizing known left with
  | nil => simp [Followed, Hop.followOn]
  | @cons keys hop rest actions pool kind known' classified fed tail ih =>
      have hlit' : ∀ other ∈ rest, other.amount.isLiteral = true :=
        fun other hmem => hlit other (List.mem_cons_of_mem _ hmem)
      have hread := hlit hop (List.mem_cons_self ..)
      have hnext : frame.keysAfter keys hop = _ := frame.keysAfter_eq
      have hwritten : (frame.link keys kind hop).outputs = _ := frame.outputs_link_eq
      rw [Followed, Hop.followOn, Bool.and_eq_true]
      refine and_congr ?_ (ih hlit' _ _ ?_ ?_)
      · cases htakes : hop.takes frame.ends with
        | false =>
            have hnone : (frame.link keys kind hop).read? = none :=
              frame.read?_link_of_not_takes hread htakes
            simp [hnone]
        | true =>
            have hsome : (frame.link keys kind hop).read? = _ :=
              frame.read?_link_of_takes hread htakes
            have hpos := fed.resolve_left (frame.takes_iff.1 htakes)
            simpa [hsome] using hlast hpos hop.assetIn
      · intro i k hmem
        rw [hnext]
        rcases List.mem_append.1 hmem with hmem | hmem
        · have hlt := hbelow i k hmem
          split <;> omega
        · rw [hwritten] at hmem
          split at hmem
          · next hleaves =>
              have hkey := congrArg OutputReference.key (List.mem_singleton.1 hmem)
              obtain rfl := Reference.slot_injective hkey
              rw [if_pos hleaves]
              exact Nat.lt_succ_self k
          · cases hmem
      · rw [hnext, hwritten]
        cases hop.leaves frame.ends with
        | true =>
            intro _ i
            have hfresh : ⟨i, .slot keys⟩ ∉ known := fun hmem =>
              absurd (hbelow i keys hmem) (Nat.lt_irrefl keys)
            simp [hfresh, eq_comm]
        | false => simpa using hlast

/-- The outputs of a walk are told apart by their keys. -/
theorem filter_key_eq (h : Walked frame keys hops actions) {output : OutputReference}
    (houtput : output ∈ actions.flatMap Action.outputs) :
    (actions.flatMap Action.outputs).filter (·.key = output.key) = [output] := by
  apply filter_key_eq_singleton ?_ houtput
  rw [List.map_flatMap]
  exact h.nodup_keys

/-- Each action reads an amount of its own token exactly if its hop starts where the amount left
last was left. -/
theorem readsOwnTokens_iff_followOn (h : Walked frame 0 hops actions)
    (hlit : ∀ hop ∈ hops, hop.amount.isLiteral = true) :
    ReadsOwnTokens actions ↔ Hop.followOn frame.ends none hops = true := by
  have hfollowed := h.followed_iff_followOn hlit [] none
    (fun _ _ hmem => absurd hmem List.not_mem_nil) (fun hpos => absurd hpos (Nat.lt_irrefl 0))
  rw [← hfollowed, followed_iff]
  constructor
  · intro hown front b back r hsplit hr
    rw [List.nil_append]
    exact (hown front b back r hsplit hr).2
  · intro hall front b back r hsplit hr
    have hmem := hall front b back r hsplit hr
    rw [List.nil_append] at hmem
    have hwritten : ⟨b.firstHop.assetIn, r⟩ ∈ actions.flatMap Action.outputs := by
      rw [hsplit, List.flatMap_append]
      exact List.mem_append_left _ hmem
    exact ⟨h.filter_key_eq hwritten, hmem⟩

end Walked

/-- What an action reads is stored under one output only, which belongs to an earlier action. It is
an amount of the token that the action takes exactly if each hop that takes an amount starts where
the last one was left. -/
theorem readsOwnTokens_iff {registry : Registry} {assets : List Text} {tokenIn tokenOut : Text}
    {minOut : Int} {hops : List Hop} {actions : List Action}
    (h : ofHops registry assets tokenIn tokenOut minOut hops = .ok actions)
    (hlit : ∀ hop ∈ hops, hop.amount.isLiteral = true) :
    ∃ ends, Ends.find assets tokenIn tokenOut = .ok ends ∧
      (∀ front b back r, actions = front ++ b :: back → b.read? = some r →
        ∃ output ∈ front.flatMap outputs,
          (actions.flatMap outputs).filter (·.key = r) = [output]) ∧
      (ReadsOwnTokens actions ↔ Hop.followOn ends none hops = true) := by
  obtain ⟨ends, hends, -, hwalk⟩ := walked_of_ofHops h
  refine ⟨ends, hends, ?_, hwalk.readsOwnTokens_iff_followOn hlit⟩
  intro front b back r hsplit hr
  obtain ⟨a, ha, hkey⟩ := List.mem_flatMap.1 (hwalk.mem_keys_of_read hlit hsplit hr)
  obtain ⟨output, houtput, rfl⟩ := List.mem_map.1 hkey
  have hfront : output ∈ front.flatMap outputs := List.mem_flatMap.2 ⟨a, ha, houtput⟩
  refine ⟨output, hfront, hwalk.filter_key_eq ?_⟩
  rw [hsplit, List.flatMap_append]
  exact List.mem_append_left _ hfront

/-- With the hops one way after the other, each second hop reads what is left of its own token. -/
theorem readsOwnTokens_iff_twoWays :
    ∃ actions, twoWaysActions true = .ok actions ∧
      (∀ hop ∈ twoWays true, hop.amount.isLiteral = true) ∧
      Hop.followOn ⟨0, 1⟩ none (twoWays true) = true ∧
      actions.map read? = [none, some (.slot 0), none, some (.slot 1)] ∧
      ReadsOwnTokens actions := by
  obtain ⟨actions, h⟩ : ∃ actions, twoWaysActions true = .ok actions := ⟨_, rfl⟩
  obtain ⟨ends, hends, -, hiff⟩ := readsOwnTokens_iff h (isLiteral_twoWays true)
  cases ends_twoWays.symm.trans hends
  refine ⟨actions, h, isLiteral_twoWays true, by decide, ?_, hiff.2 (by decide)⟩
  cases h
  decide

/-- With the first hops in front, the third hop starts at the place 2 and reads an amount of the
token at the place 3. -/
theorem not_readsOwnTokens_twoWays :
    ∃ actions, twoWaysActions false = .ok actions ∧
      (∀ hop ∈ twoWays false, hop.amount.isLiteral = true) ∧
      (actions.flatMap outputs).filter (·.key = .slot 1) = [⟨3, .slot 1⟩] ∧
      actions.map (fun a => (a.firstHop.assetIn, a.read?)) =
        [(0, none), (0, none), (2, some (.slot 1)), (3, some (.slot 1))] ∧
      ¬ReadsOwnTokens actions := by
  refine ⟨_, rfl, isLiteral_twoWays false, by decide, by decide, ?_⟩
  intro hown
  obtain ⟨hunique, -⟩ := hown [_, _] _ [_] (.slot 1) rfl rfl
  exact absurd hunique (by decide)

end Action

end SwapRelay
