import SwapRelay.Proofs.Relayer.Amounts
import SwapRelay.Proofs.Route.Emission

/-!
# Every reference in a multicall is stored before it is read

The actions of a route read behind their writes, in the order of the calls still. What is left is to
carry that over to the numbers in the finished calls. A call is grounded when each tagged number in
it is the value of a reference that an earlier call stores or an earlier step of the same call
writes; `allGrounded_of_made` shows it of the calls of one run, and `allGrounded_of_runs`, by
induction over the runs, of all of them. `references_grounded` states it of a request and its
multicall.
-/

namespace SwapRelay

namespace Action

/-- A reference that is read at a place is known, or written at a place before it. -/
theorem Backed.known_or_earlier {known : List Reference} {actions : List Action}
    (h : Backed known actions) {i : Nat} {a : Action} (ha : actions[i]? = some a) {r : Reference}
    (hr : a.read? = some r) :
    r ∈ known ∨ ∃ j < i, ∃ b, actions[j]? = some b ∧ r ∈ b.keys := by
  induction actions generalizing known i with
  | nil => cases ha
  | cons b rest ih =>
      cases i with
      | zero =>
          cases ha
          exact .inl (h.1 r hr)
      | succ i =>
          rcases ih h.2 ha with hknown | ⟨j, hj, c, hc, hkey⟩
          · rcases List.mem_append.1 hknown with hknown | hkey
            · exact .inl hknown
            · exact .inr ⟨0, Nat.succ_pos i, b, rfl, hkey⟩
          · exact .inr ⟨j + 1, Nat.succ_lt_succ hj, c, hc, hkey⟩

end Action

namespace Emitted

/-- The slot of the key is read by one of the actions, and its value is stored already, or one of
the members before this place writes it. -/
def Sourced (actions : List Action) (stored : List Int) (members : List Action) (i : Nat)
    (key : Int) : Prop :=
  ∃ w, (Reference.mk key true).value = .ok w ∧
    (∃ a ∈ actions, a.read? = some ⟨key, true⟩) ∧
    (w ∈ stored ∨ ∃ j < i, ∃ b, members[j]? = some b ∧ ⟨key, true⟩ ∈ b.keys)

/-- Each tagged number in the call is the value of a reference whose key has a source by then. -/
def Grounded (actions : List Action) (stored : List Int) (e : Emitted) : Prop :=
  ∀ i n, e.call.HasAmountAt n i → Reference.isReference n = true →
    ∃ r, Reference.ofValue n = .ok r ∧ Sourced actions stored e.members i r.key

/-- Calls that are grounded in order, each in what is stored by then. -/
def AllGrounded (actions : List Action) : List Int → List Emitted → Prop
  | _, [] => True
  | stored, e :: rest =>
    e.Grounded actions stored ∧ AllGrounded actions (stored ++ e.call.stored) rest

theorem allGrounded_append {actions : List Action} {stored : List Int} {front back : List Emitted} :
    AllGrounded actions stored (front ++ back) ↔
      AllGrounded actions stored front ∧
        AllGrounded actions (stored ++ front.flatMap (·.call.stored)) back := by
  induction front generalizing stored with
  | nil => simp [AllGrounded]
  | cons e rest ih =>
      simp only [List.cons_append, AllGrounded, ih, List.flatMap_cons, List.append_assoc, and_assoc]

theorem allGrounded_of_forall {actions : List Action} {stored : List Int} {calls : List Emitted}
    (h : ∀ e ∈ calls, e.Grounded actions stored ∧ e.call.stored = []) :
    AllGrounded actions stored calls := by
  induction calls with
  | nil => trivial
  | cons e rest ih =>
      obtain ⟨⟨hground, hnone⟩, hrest⟩ := List.forall_mem_cons.1 h
      refine ⟨hground, ?_⟩
      rw [hnone, List.append_nil]
      exact ih hrest

end Emitted

namespace Action

variable {ctx : Context} {actions : List Action}

/-- The actions of a walk: no batch, at most one output, and read through slots only. -/
structure Plain (a : Action) : Prop where
  ne_batched : a.kind ≠ .batchedExchange
  outputs_le : a.outputs.length ≤ 1
  temporary : ∀ r, a.read? = some r → r.temporary = true

theorem Walked.plain {frame : Frame} {keys : Nat} {hops : List Hop}
    (h : Walked frame keys hops actions) (hlit : ∀ hop ∈ hops, hop.amount.isLiteral = true)
    {a : Action} (ha : a ∈ actions) : a.Plain := by
  obtain ⟨hop, hmem, before, kind, hkind, rfl⟩ := h.exists_link ha
  refine ⟨hkind, ?_, ?_⟩
  · rw [frame.outputs_link]
    split
    · exact Nat.zero_le 1
    · exact Nat.le_refl 1
  · intro r hr
    rw [frame.read?_link (hlit hop hmem)] at hr
    split at hr
    · cases hr
    · cases hr
      rfl

def StoredIn (known : List Reference) (stored : List Int) : Prop :=
  ∀ r ∈ known, ∃ w ∈ stored, r.value = .ok w

theorem StoredIn.append {known keys : List Reference} {stored values : List Int}
    (h : StoredIn known stored) (hkeys : List.Forall₂ (fun r n => r.value = .ok n) keys values) :
    StoredIn (known ++ keys) (stored ++ values) := by
  intro r hr
  rcases List.mem_append.1 hr with hr | hr
  · obtain ⟨w, hw, hvalue⟩ := h r hr
    exact ⟨w, List.mem_append_left _ hw, hvalue⟩
  · obtain ⟨w, hw, hvalue⟩ := hkeys.exists_of_mem hr
    exact ⟨w, List.mem_append_right _ hw, hvalue⟩

namespace Run

variable {run : Run} {before : List (Call Bytes)} {main : Call Bytes}

/-- The hop at a place of the run's action is that of the member at this place. -/
theorem exists_member (hplain : ∀ a ∈ run.members, a.Plain) {i : Nat} {hop : Hop}
    (h : run.action.hops[i]? = some hop) : ∃ a, run.members[i]? = some a ∧ a.firstHop = hop := by
  rw [hops_action, flatMap_hops_eq_map fun a ha => (hplain a ha).ne_batched] at h
  rw [List.getElem?_map] at h
  exact Option.map_eq_some_iff.1 h

theorem read?_of_firstHop {a : Action} {r : Reference} (h : a.firstHop.amount = .chained r) :
    a.read? = some r := by
  simp only [read?]
  rw [h]

/-- What a member of a run reads has a source. -/
theorem sourced_of_read (hsub : ∀ a ∈ run.members, a ∈ actions)
    (hplain : ∀ a ∈ run.members, a.Plain) {known : List Reference} {stored : List Int}
    (hbacked : Backed known run.members) (hstored : StoredIn known stored) {i : Nat} {a : Action}
    (ha : run.members[i]? = some a) {r : Reference} (hr : a.read? = some r) {n : Int}
    (hn : r.value = .ok n) : Emitted.Sourced actions stored run.members i r.key := by
  have hmem := List.mem_of_getElem? ha
  have hslot : Reference.mk r.key true = r := by
    rw [← (hplain a hmem).temporary r hr]
  simp only [Emitted.Sourced]
  rw [hslot]
  refine ⟨n, hn, ⟨a, hsub a hmem, hr⟩, ?_⟩
  rcases hbacked.known_or_earlier ha hr with hknown | hearlier
  · obtain ⟨w, hw, hvalue⟩ := hstored r hknown
    cases hn.symm.trans hvalue
    exact .inl hw
  · exact .inr hearlier

theorem stored_of_before (hmade : Made run.action ctx before main) {e : Emitted}
    (he : e ∈ before.map (Emitted.mk · [])) : e.call.stored = [] := by
  obtain ⟨c, hc, rfl⟩ := List.mem_map.1 he
  obtain ⟨token, value, r, rfl, -⟩ := hmade.approval hc
  rfl

/-- A run whose members read what is known or written by an earlier member makes grounded calls. -/
theorem allGrounded_of_made (hmade : Made run.action ctx before main)
    (hsub : ∀ a ∈ run.members, a ∈ actions) (hplain : ∀ a ∈ run.members, a.Plain)
    {known : List Reference} {stored : List Int} (hbacked : Backed known run.members)
    (hstored : StoredIn known stored) :
    Emitted.AllGrounded actions stored (before.map (⟨·, []⟩) ++ [⟨main, run.members⟩]) := by
  rw [Emitted.allGrounded_append, List.flatMap_eq_nil_iff.2 fun _ => stored_of_before hmade,
    List.append_nil]
  refine ⟨Emitted.allGrounded_of_forall fun e he => ⟨?_, stored_of_before hmade he⟩, ?_, trivial⟩
  · obtain ⟨c, hc, rfl⟩ := List.mem_map.1 he
    obtain ⟨token, value, r, rfl, hamount, hvalue⟩ := hmade.approval hc
    rintro i n ⟨rfl, rfl⟩ -
    refine ⟨r.readOnly, Reference.ofValue_of_value hvalue, ?_⟩
    rw [firstHop_action] at hamount
    -- The approval reads the key without clearing it, so its source is that of the first step.
    have hread : r.value = .ok (Reference.tag r.temporary * Reference.keySpan + r.key) :=
      Reference.value_eq_ok.2 ⟨(Reference.value_eq_ok.1 hvalue).1, rfl⟩
    obtain ⟨w, hw, hreader, hsource⟩ := sourced_of_read hsub hplain hbacked hstored (i := 0)
      (a := run.head) rfl (read?_of_firstHop hamount) hread
    refine ⟨w, hw, hreader, .inl (hsource.resolve_right ?_)⟩
    rintro ⟨j, hj, -⟩
    exact absurd hj (Nat.not_lt_zero j)
  · intro i n hn htag
    obtain ⟨hop, r, hhop, hamount, hvalue⟩ := hmade.reads hn htag
    obtain ⟨a, ha, rfl⟩ := exists_member hplain hhop
    exact ⟨r, Reference.ofValue_of_value hvalue,
      sourced_of_read hsub hplain hbacked hstored ha (read?_of_firstHop hamount) hvalue⟩

theorem stored_values {part : List Emitted} (h : run.emitted ctx = .ok part)
    (hplain : ∀ a ∈ run.members, a.Plain) :
    List.Forall₂ (fun r n => r.value = .ok n) (run.members.flatMap keys)
      (part.flatMap (·.call.stored)) := by
  obtain ⟨before, main, rfl, hmade⟩ := emitted_eq_ok h
  rw [List.flatMap_append, List.flatMap_eq_nil_iff.2 fun _ => stored_of_before hmade,
    List.nil_append, List.flatMap_singleton, ← keys_action]
  apply hmade.stored_values
  intro hkind
  have halone : run.head.kind.isExchange = false := by
    rw [← kind_action_isExchange, hkind]
    rfl
  rw [(action_of_poolOperation halone).2]
  exact (hplain run.head (List.mem_cons_self ..)).outputs_le

end Run

/-- Run after run, the calls are grounded in order. -/
theorem allGrounded_of_runs {runs : List Run} {parts : List (List Emitted)}
    (h : List.Forall₂ (fun run part => run.emitted ctx = .ok part) runs parts)
    (hplain : ∀ a ∈ actions, a.Plain) (hsub : ∀ a ∈ runs.flatMap Run.members, a ∈ actions)
    {known : List Reference} {stored : List Int}
    (hbacked : Backed known (runs.flatMap Run.members)) (hstored : StoredIn known stored) :
    Emitted.AllGrounded actions stored parts.flatten := by
  induction h generalizing known stored with
  | nil => trivial
  | @cons run part runs parts hrun _ ih =>
      rw [List.flatMap_cons] at hsub hbacked
      obtain ⟨hsubRun, hsubRest⟩ := List.forall_mem_append.1 hsub
      obtain ⟨hbackedRun, hbackedRest⟩ := backed_append.1 hbacked
      have hplainRun : ∀ a ∈ run.members, a.Plain := fun a ha => hplain a (hsubRun a ha)
      rw [List.flatten_cons, Emitted.allGrounded_append]
      refine ⟨?_, ih hsubRest hbackedRest (hstored.append (Run.stored_values hrun hplainRun))⟩
      obtain ⟨before, main, rfl, hmade⟩ := Run.emitted_eq_ok hrun
      exact Run.allGrounded_of_made hmade hsubRun hplainRun hbackedRun hstored

theorem stored_values_of_runs {runs : List Run} {parts : List (List Emitted)}
    (h : List.Forall₂ (fun run part => run.emitted ctx = .ok part) runs parts)
    (hplain : ∀ a ∈ runs.flatMap Run.members, a.Plain) :
    List.Forall₂ (fun r n => r.value = .ok n) ((runs.flatMap Run.members).flatMap keys)
      (parts.flatten.flatMap (·.call.stored)) := by
  induction h with
  | nil => exact .nil
  | cons hrun _ ih =>
      rw [List.flatMap_cons, List.forall_mem_append] at hplain
      rw [List.flatMap_cons, List.flatMap_append, List.flatten_cons, List.flatMap_append]
      exact List.rel_append (Run.stored_values hrun hplain.1) (ih hplain.2)

end Action

theorem Reference.biUnique_value :
    Relator.BiUnique fun (r : Reference) (n : Int) => r.value = .ok n :=
  ⟨fun _ _ _ h h' => eq_of_value h h', fun _ _ _ h h' => Except.ok.inj (h.symm.trans h')⟩

namespace Route

variable {r : Route} {config : Config} {deadline : Int}

/-- The calls of a route whose amounts are numbers are grounded in order, and store nothing
twice. -/
theorem allGrounded_emitted {emitted : List Emitted} (h : r.emitted config deadline = .ok emitted)
    (hlit : ∀ hop ∈ r.hops, hop.amount.isLiteral = true) :
    ∃ actions, r.actions = .ok actions ∧
      Emitted.AllGrounded actions [] emitted ∧ (emitted.flatMap (·.call.stored)).Nodup := by
  obtain ⟨actions, ends, first, parts, hactions, -, hwalk, hfirst, hparts, rfl⟩ := emitted_eq_ok h
  have hperm := Action.arranged_perm ends actions
  have hplain : ∀ a ∈ actions, a.Plain := fun a ha => hwalk.plain hlit ha
  have hruns := Action.flatMap_members_runs (Action.arranged ends actions)
  have hsub : ∀ a ∈ (Action.runs (Action.arranged ends actions)).flatMap Action.Run.members,
      a ∈ actions := by
    intro a ha
    rw [hruns] at ha
    exact hperm.mem_iff.1 ha
  have hnone : ∀ e ∈ first.map (Emitted.mk · []), e.Grounded actions [] ∧ e.call.stored = [] := by
    intro e he
    obtain ⟨c, hc, rfl⟩ := List.mem_map.1 he
    obtain ⟨-, relayer, signed, rfl⟩ := approval_eq_ok hfirst hc
    exact ⟨fun _ _ hn => hn.elim, rfl⟩
  have hstored := List.flatMap_eq_nil_iff.2 fun e he => (hnone e he).2
  refine ⟨actions, hactions, ?_, ?_⟩
  · rw [Emitted.allGrounded_append, hstored]
    refine ⟨Emitted.allGrounded_of_forall hnone, ?_⟩
    have hbacked := hwalk.backed_arranged hlit
    rw [← hruns] at hbacked
    exact Action.allGrounded_of_runs hparts hplain hsub hbacked
      fun _ hr => absurd hr List.not_mem_nil
  · rw [List.flatMap_append, hstored, List.nil_append]
    have hvalues := Action.stored_values_of_runs hparts fun a ha => hplain a (hsub a ha)
    refine (List.rel_nodup Reference.biUnique_value hvalues).1 ?_
    rw [hruns]
    exact hwalk.nodup_keys_arranged

theorem steps_emitted {emitted : List Emitted} (h : r.emitted config deadline = .ok emitted)
    {e : Emitted} (he : e ∈ emitted) {b : BatchSwap Bytes} (hb : e.call = .batchSwap b) :
    List.Forall₂ (fun a step => a.firstHop.WrittenAs step) e.members b.steps := by
  obtain ⟨actions, ends, -, -, hactions, hends, hwalk, -⟩ := emitted_eq_ok h
  rcases origin_of_mem h hactions hends he with ⟨hprepares, -⟩ | ⟨run, hrun, hmembers, _, hmade⟩
  · rw [hb] at hprepares
    cases hprepares
  · rw [hb] at hmade
    cases hmade with
    | swap _ plan =>
        have hsteps := plan.steps
        rw [Action.Run.hops_action, Action.flatMap_hops_eq_map, List.forall₂_map_left_iff] at hsteps
        · rw [hmembers]
          exact hsteps
        · intro a ha
          have hmem := Action.mem_of_mem_runs hrun ha
          exact hwalk.ne_batched ((Action.arranged_perm ends actions).mem_iff.1 hmem)

end Route

namespace RouteRequest

theorem isLiteral_of_route {request : RouteRequest} {route : Route}
    (h : request.route = .ok route) : ∀ hop ∈ route.hops, hop.amount.isLiteral = true := by
  obtain ⟨hops, _, _, _, hhops, rfl⟩ := route_eq_ok h
  intro hop hhop
  obtain ⟨step, -, hstep⟩ := (List.mapM_eq_ok.1 hhops).flip.exists_of_mem hhop
  obtain ⟨amount, -, hstep⟩ := Except.bind_eq_ok.1 hstep
  obtain ⟨userData, -, hstep⟩ := Except.bind_eq_ok.1 hstep
  cases Except.pure_eq_ok.1 hstep
  rfl

/-- Whatever a request compiles to, each tagged number in the place of an amount is the value of a
reference that some action of the route reads, and its key is stored by an earlier call or written
by an earlier step of the same batch. No number of the request is written as a tagged one, and the
multicall stores nothing twice. -/
theorem references_grounded {request : RouteRequest} {config : Config} {deadline : Int}
    {compiled : CompiledRoute} (h : request.compile config deadline = .ok compiled) :
    ∃ route actions emitted, request.route = .ok route ∧ route.actions = .ok actions ∧
      route.emitted config deadline = .ok emitted ∧
      compiled.data = Hex.marked (multicall (emitted.map (·.call.data))) ∧
      (∀ e ∈ emitted, e.call.Fits) ∧
      (emitted.flatMap Emitted.members).Perm actions ∧
      (∀ e ∈ emitted, ∀ b, e.call = .batchSwap b →
        List.Forall₂ (fun a step => a.firstHop.WrittenAs step) e.members b.steps) ∧
      (∀ front e back, emitted = front ++ e :: back →
        e.Grounded actions (front.flatMap (·.call.stored))) ∧
      (∀ hop ∈ route.hops, hop.amount.isLiteral = true) ∧
      (∀ n v, (Amount.literal n).resolve = .ok v → Reference.isReference v = false) ∧
      (emitted.flatMap (·.call.stored)).Nodup := by
  obtain ⟨route, hroute, h⟩ := Except.bind_eq_ok.1 h
  obtain ⟨emitted, hemitted, hdata⟩ := Route.compile_eq_ok h
  have hlit := isLiteral_of_route hroute
  obtain ⟨actions, hactions, hground, hnodup⟩ := Route.allGrounded_emitted hemitted hlit
  obtain ⟨actions', hactions', hmembers⟩ := Route.members_emitted hemitted
  cases hactions.symm.trans hactions'
  refine ⟨route, actions, emitted, hroute, hactions, hemitted, hdata,
    fun _ he => Route.fits_emitted hemitted he, hmembers,
    fun _ he _ hb => Route.steps_emitted hemitted he hb, ?_, hlit, ?_, hnodup⟩
  · rintro front e back rfl
    have hback := (Emitted.allGrounded_append.1 hground).2
    rw [List.nil_append] at hback
    exact hback.1
  · intro n v hv
    obtain ⟨rfl, -, hfree⟩ := Amount.resolve_literal_eq_ok.1 hv
    exact hfree

/-- A pool's shares are turned into its token, the token into two others one after the other, and
the last one into shares of another pool. -/
def exitSwapsJoin : RouteRequest :=
  let address (digit : Char) : Text := '0' :: 'x' :: List.replicate 40 digit
  let poolId (digit : Char) : Text := '0' :: 'x' :: List.replicate 64 digit
  let step (digit : Char) (i : Nat) (amount : String) : SwapStep :=
    ⟨poolId digit, i, i + 1, amount.toList, "0x".toList⟩
  { tokenIn := address 'a'
    tokenOut := address 'b'
    tokens := [address 'a', address '1', address '2', address '3', address 'b']
    swaps := [step 'a' 0 "1000", step 'c' 1 "0", step 'd' 2 "0", step 'b' 3 "0"]
    swapAmount := "1000".toList
    returnAmount := "990".toList
    user := address '7'
    authorisation := none
    swapType := .exactIn
    pools := [
      ⟨poolId 'a', none, [address '1', address '9']⟩,
      ⟨poolId 'c', none, [address '1', address '2']⟩,
      ⟨poolId 'd', none, [address '2', address '3']⟩,
      ⟨poolId 'b', none, [address '3', address '9']⟩] }

theorem references_grounded_exitSwapsJoin :
    ∃ compiled route actions emitted,
      exitSwapsJoin.compile .standard 1700000000 = .ok compiled ∧
      exitSwapsJoin.route = .ok route ∧ route.actions = .ok actions ∧
      route.emitted .standard 1700000000 = .ok emitted ∧
      (∀ front e back, emitted = front ++ e :: back →
        e.Grounded actions (front.flatMap (·.call.stored))) ∧
      (emitted.flatMap (·.call.stored)).Nodup := by
  obtain ⟨compiled, h⟩ := exists_compiled exitSwapsJoin .standard 1700000000 (by decide)
    (by decide +kernel)
  obtain ⟨route, actions, emitted, hroute, hactions, hemitted, -, -, -, -, hground, -, -, hnodup⟩ :=
    references_grounded h
  exact ⟨compiled, route, actions, emitted, h, hroute, hactions, hemitted, hground, hnodup⟩

end RouteRequest

end SwapRelay
