import SwapRelay.Proofs.Action.Order
import SwapRelay.Proofs.Action.Runs

/-!
# Routes without a branch

A route is linear when each hop starts where the one before it ends and the ends of the route are
met nowhere in between. Of such a route the walk can be told in full: every hop but the first reads
the key that the hop before it wrote (`Walked.linear`), and scheduling leaves the order alone
(`Walked.arranged_linear`), so that the calls stand in the order of the hops.
-/

namespace SwapRelay

/-- Hops from a place to the route's output, each from where the one before it ends, that meet the
ends of the route nowhere in between. -/
def Hop.Linear (ends : Ends) : Nat → List Hop → Prop
  | _, [] => False
  | place, [hop] => hop.assetIn = place ∧ hop.assetOut = ends.output
  | place, hop :: next :: rest =>
    hop.assetIn = place ∧ hop.assetOut ≠ ends.input ∧ hop.assetOut ≠ ends.output ∧
      Linear ends hop.assetOut (next :: rest)

/-- The hop at a position of a linear route: the first one keeps its amount, and the others read the
key of the one before. -/
def Hop.reading : Nat → Hop → Hop
  | 0, hop => hop
  | key + 1, hop => { hop with amount := .chained (.slot key) }

namespace Hop

variable {ends : Ends} {place : Nat} {hop : Hop} {hops : List Hop}

theorem Linear.assetIn_eq (h : Linear ends place (hop :: hops)) : hop.assetIn = place := by
  cases hops with
  | nil => exact h.1
  | cons next rest => exact h.1

theorem Linear.tail (h : Linear ends place (hop :: hops)) (hne : hops ≠ []) :
    hop.assetOut ≠ ends.input ∧ hop.assetOut ≠ ends.output ∧ Linear ends hop.assetOut hops := by
  cases hops with
  | nil => exact absurd rfl hne
  | cons next rest => exact h.2

/-- Behind a place in between, no hop starts from an end of the route. -/
theorem Linear.assetIn_ne (h : Linear ends place hops) {endPlace : Nat}
    (hend : endPlace = ends.input ∨ endPlace = ends.output) (hplace : place ≠ endPlace) :
    ∀ hop ∈ hops, hop.assetIn ≠ endPlace := by
  induction hops generalizing place with
  | nil => exact List.forall_mem_nil _
  | cons hop rest ih =>
      refine List.forall_mem_cons.2 ⟨h.assetIn_eq ▸ hplace, ?_⟩
      by_cases hrest : rest = []
      · rw [hrest]
        exact List.forall_mem_nil _
      · obtain ⟨hin, hout, htail⟩ := h.tail hrest
        apply ih htail
        rcases hend with rfl | rfl
        · exact hin
        · exact hout

end Hop

/-- What each item makes of the next one, put together, is what is made of the items behind the
first. -/
theorem flatten_mapIdx_next {α β : Type} (l : List α) (f : Nat → α → β) :
    (l.mapIdx fun i _ => (l[i + 1]?).toList.map (f i)).flatten = l.tail.mapIdx f := by
  induction l generalizing f with
  | nil => rfl
  | cons a rest ih =>
      have hrest := ih fun i => f (i + 1)
      rw [List.mapIdx_cons, List.flatten_cons]
      cases rest with
      | nil => rfl
      | cons b more =>
          have hcons : (b :: more).mapIdx f = f 0 b :: more.mapIdx fun i => f (i + 1) :=
            List.mapIdx_cons
          rw [List.tail_cons, hcons]
          exact congrArg (f 0 b :: ·) hrest

namespace Action

namespace Frame

variable (frame : Frame) {keys : Nat} {kind : ActionKind} {hop : Hop}

theorem firstHop_link_reading (h : hop.assetIn = frame.ends.input ↔ keys = 0) :
    (frame.link keys kind hop).firstHop = hop.reading keys := by
  rw [firstHop_link, fedAmount]
  cases keys with
  | zero => rw [if_pos (h.2 rfl)]; rfl
  | succ key => rw [if_neg fun hin => Nat.succ_ne_zero key (h.1 hin)]; rfl

theorem outputs_link_of_ne (h : hop.assetOut ≠ frame.ends.output) :
    (frame.link keys kind hop).outputs = [⟨hop.assetOut, .slot keys⟩] := by
  rw [outputs_link, if_neg (mt frame.isLast_iff.1 h)]

theorem outputs_link_of_eq (h : hop.assetOut = frame.ends.output) :
    (frame.link keys kind hop).outputs = [] := by
  rw [outputs_link, if_pos (frame.isLast_iff.2 h)]

theorem keysAfter_of_ne (h : hop.assetOut ≠ frame.ends.output) :
    frame.keysAfter keys hop = keys + 1 := by
  simp only [keysAfter]
  rw [if_neg (mt frame.isLast_iff.1 h)]

end Frame

theorem arranged_singleton (a : Action) {ends : Ends} : arranged ends [a] = [a] := by
  simp only [arranged, partition, Partition.toList]
  cases hplace : a.place ends <;> simp [hplace]

/-- An action keeps its place at the front unless it goes to the back, or lets another one pass. -/
theorem arranged_cons {a : Action} {rest : List Action} {ends : Ends}
    (hexit : a.place ends ≠ .exit)
    (hpass : a.place ends ≠ .enter → ∀ b ∈ rest, b.place ends ≠ .enter) :
    arranged ends (a :: rest) = a :: arranged ends rest := by
  simp only [arranged, partition, Partition.toList]
  cases hplace : a.place ends with
  | enter => simp [hplace]
  | middle =>
      have hnone : rest.filter (·.place ends = .enter) = [] := by
        rw [List.filter_eq_nil_iff]
        intro b hb
        rw [decide_eq_true_eq]
        exact hpass (by rw [hplace]; decide) b hb
      simp [hplace, hnone]
  | exit => exact absurd hplace hexit

namespace Walked

variable {frame : Frame} {keys place : Nat} {hops : List Hop} {actions : List Action}

/-- In a linear route each hop writes the key that the next one reads, for the place where the next
one starts. -/
theorem linear (h : Walked frame keys hops actions) (hlin : Hop.Linear frame.ends place hops)
    (hplace : place = frame.ends.input ↔ keys = 0) :
    actions.map firstHop = hops.mapIdx (fun i hop => hop.reading (keys + i)) ∧
      actions.map Action.outputs = hops.mapIdx fun i _ =>
        (hops[i + 1]?).toList.map fun next => ⟨next.assetIn, .slot (keys + i)⟩ := by
  induction h generalizing place with
  | nil => exact hlin.elim
  | @cons keys hop rest actions pool kind _ _ _ tail ih =>
      have hread : (frame.link keys kind hop).firstHop = hop.reading keys :=
        frame.firstHop_link_reading (hlin.assetIn_eq ▸ hplace)
      rw [List.map_cons, List.map_cons, List.mapIdx_cons, List.mapIdx_cons, hread]
      cases rest with
      | nil =>
          cases tail
          rw [frame.outputs_link_of_eq hlin.2]
          exact ⟨rfl, rfl⟩
      | cons next more =>
          obtain ⟨hin, hout, htail⟩ := hlin.tail (List.cons_ne_nil next more)
          rw [frame.keysAfter_of_ne hout] at ih
          obtain ⟨hhops, houtputs⟩ := ih htail (iff_of_false hin (Nat.succ_ne_zero keys))
          rw [hhops, houtputs, frame.outputs_link_of_ne hout]
          have hshift : ∀ i, keys + 1 + i = keys + (i + 1) := fun i => by omega
          simp only [hshift]
          refine ⟨rfl, ?_⟩
          rw [← htail.assetIn_eq]
          rfl

/-- Putting a linear route in order moves nothing: only its first action can go to the front, and
only its last one to the back. -/
theorem arranged_linear (h : Walked frame keys hops actions)
    (hlin : Hop.Linear frame.ends place hops) : arranged frame.ends actions = actions := by
  induction h generalizing place with
  | nil => rfl
  | @cons keys hop rest actions pool kind _ _ _ tail ih =>
      by_cases hrest : rest = []
      · subst hrest
        cases tail
        exact arranged_singleton _
      · obtain ⟨hin, hout, htail⟩ := hlin.tail hrest
        rw [arranged_cons, ih htail]
        · intro hplace
          exact hout (frame.isLast_iff.1 (frame.isLast_of_place_link hplace))
        · intro _ b hb hplace
          obtain ⟨next, hnext, before, kind', -, rfl⟩ := tail.exists_link hb
          exact htail.assetIn_ne (.inl rfl) hin next hnext (frame.input_of_place_link hplace)

theorem head?_linear (h : Walked frame keys hops actions)
    (hlin : Hop.Linear frame.ends place hops) :
    ∃ a, actions.head? = some a ∧ a.firstHop.assetIn = place := by
  cases h with
  | nil => exact hlin.elim
  | cons _ _ _ _ => exact ⟨_, rfl, hlin.assetIn_eq⟩

theorem getLast?_linear (h : Walked frame keys hops actions)
    (hlin : Hop.Linear frame.ends place hops) :
    ∃ a, actions.getLast? = some a ∧ a.firstHop.assetOut = frame.ends.output := by
  induction h generalizing place with
  | nil => exact hlin.elim
  | @cons keys hop rest actions pool kind _ _ _ tail ih =>
      by_cases hrest : rest = []
      · subst hrest
        cases tail
        exact ⟨_, rfl, hlin.2⟩
      · obtain ⟨-, -, htail⟩ := hlin.tail hrest
        obtain ⟨a, ha, hout⟩ := ih htail
        exact ⟨a, by rw [List.getLast?_cons, ha]; rfl, hout⟩

end Walked

end Action

end SwapRelay
