import SwapRelay.Proofs.Route.Faults

/-!
# What makes a compilation crash

A compilation that fails is meant to fail by a fault of the route. `RouteRequest.Crash` lists the
other ways in which a request that passed its check can fail: an amount that is a truth value, user
data or a signature with half a byte, a hop with a place outside of the assets, and a batch with a
limit that no signed word holds, each at the stage at which it is met and only if the stages before
have done their work. The list is complete and exact, `RouteRequest.crash_iff`, and what it comes to
in the request as it was sent is `RouteRequest.Crash.cause`. All stages but the walk over the hops
and the encoding of the calls are followed here; for those see `Action.Strays` and `Action.Fault`.
-/

namespace SwapRelay

/-- A fault of an action's calls is one of the route, or a limit out of range. -/
theorem Action.Fault.isRoute_or {a : Action} {ctx : Context} {e : Error} (h : a.Fault ctx e) :
    e.IsRoute ∨ (e = .abi .outOfBounds ∧ a.ExceedsLimits ctx) := by
  cases h with
  | unknownToken => exact .inl ⟨_, rfl⟩
  | tagged => exact .inl ⟨_, rfl⟩
  | limit h => exact .inr ⟨rfl, h⟩

/-! ## Routes -/

namespace Route

/-- An error of a route that is not the route's fault, and what it is due to. -/
inductive Crash (r : Route) (config : Config) (deadline : Int) : Error → Prop
  | place {ends : Ends} (found : Ends.find r.assets r.tokenIn r.tokenOut = .ok ends)
      (strays : Action.Strays ⟨r.registry, r.assets, ends, r.minOut⟩ 0 r.hops) :
      Crash r config deadline .assetIndex
  | signature {ordered : List Action} {signed : Text} (scheduled : r.schedule = .ok ordered)
      (given : r.authorisation = some signed) (odd : signed.length % 2 = 1) :
      Crash r config deadline .unreadable
  | limit {front back : List Action} {a : Action}
      (scheduled : r.schedule = .ok (front ++ a :: back))
      (even : ∀ signed ∈ r.authorisation, signed.length % 2 = 0)
      (made : ∀ b ∈ front, ∃ calls, b.calls (r.context config deadline) = .ok calls)
      (exceeds : a.ExceedsLimits (r.context config deadline)) :
      Crash r config deadline (.abi .outOfBounds)

variable {r : Route} {config : Config} {deadline : Int}

theorem endsIn_schedule : r.schedule.EndsIn (fun _ => True) fun e =>
    e.IsRoute ∨ (e = .assetIndex ∧ ∃ ends, Ends.find r.assets r.tokenIn r.tokenOut = .ok ends ∧
      Action.Strays ⟨r.registry, r.assets, ends, r.minOut⟩ 0 r.hops) := by
  refine Action.endsIn_ofHops.bind fun actions _ _ => ?_
  refine ((Ends.endsIn_find r.assets r.tokenIn r.tokenOut).mono_error fun _ => .inl).bind
    fun ends _ _ => ?_
  trivial

section Approval

variable (hrelayer : Form.address.holds config.relayer = true)
  (hsigned : ∀ signed ∈ r.authorisation, Form.bytes.holds signed = true)

include hrelayer hsigned

theorem approval_of_even (heven : ∀ signed ∈ r.authorisation, signed.length % 2 = 0) :
    ∃ first, r.approval config = .ok first := by
  cases hgiven : r.authorisation with
  | none => exact ⟨[], by simp only [approval, hgiven]⟩
  | some signed =>
      obtain ⟨bs, hread, -⟩ :=
        Hex.readBytes_of_even (hsigned signed hgiven) (heven signed hgiven)
      obtain ⟨relayer, haccount, hlength, -⟩ := Address.exists_bytes hrelayer
      have hcall : (Call.setRelayerApproval config.relayer true signed).read =
          .ok (.setRelayerApproval relayer true bs) :=
        Except.bind_eq_ok.2 ⟨relayer, haccount, Except.bind_eq_ok.2 ⟨bs, hread, rfl⟩⟩
      have hfits : (Call.setRelayerApproval relayer true bs).Fits := by
        simp only [Call.Fits, Call.arguments, Abi.checkAll_cons, Abi.check_address, Abi.check_bool,
          Abi.check_bytes]
        exact ⟨hlength, trivial, trivial, rfl⟩
      cases signed with
      | nil => exact ⟨[], by simp only [approval, hgiven]⟩
      | cons c rest =>
          simp only [approval, hgiven]
          exact ⟨_, Except.map_eq_ok.2 ⟨_, Call.prepare_of_fits hcall hfits, rfl⟩⟩

theorem approval_of_odd {signed : Text} (hgiven : r.authorisation = some signed)
    (hodd : signed.length % 2 = 1) : r.approval config = .error .unreadable := by
  have hread := Hex.readBytes_of_odd (hsigned signed hgiven) hodd
  obtain ⟨relayer, haccount, -, -⟩ := Address.exists_bytes hrelayer
  cases signed with
  | nil => cases hodd
  | cons c rest =>
      simp only [approval, hgiven, Call.prepare, Call.read, haccount, hread]
      rfl

end Approval

section Compile

variable (h : r.Formed) (hrelayer : Form.address.holds config.relayer = true)
  (hwrapped : Form.address.holds config.wrappedNative = true) (hdeadline : Uint256.Fits deadline)

include h hrelayer hwrapped hdeadline

theorem endsIn_callsOf {ordered : List Action} (hordered : r.schedule = .ok ordered) :
    (callsOf (r.context config deadline) ordered).EndsIn (fun _ => True) fun e =>
      e.IsRoute ∨ (e = .abi .outOfBounds ∧ ∃ front a back, ordered = front ++ a :: back ∧
        (∀ b ∈ front, ∃ calls, b.calls (r.context config deadline) = .ok calls) ∧
        a.ExceedsLimits (r.context config deadline)) := by
  cases hparts : ordered.mapM (·.calls (r.context config deadline)) with
  | ok parts => exact .after hparts trivial
  | error e =>
      -- Whatever was scheduled is ready, so the first action without calls has a fault.
      obtain ⟨front, a, back, rfl, hmade, ha⟩ := List.exists_of_mapM_eq_error hparts
      have hready : a.Ready (r.context config deadline) :=
        h.ready_of_mem hordered (List.mem_append_right front (List.mem_cons_self ..))
      have hends := Action.endsIn_calls (h.context hrelayer hwrapped hdeadline) hready
      rw [ha] at hends
      refine .of_eq_error (e := e) ?_ ?_
      · rw [callsOf, hparts]
        rfl
      · rcases Action.Fault.isRoute_or hends with hroute | ⟨rfl, hexceeds⟩
        · exact .inl hroute
        · exact .inr ⟨rfl, front, a, back, rfl, hmade, hexceeds⟩

variable (hsigned : ∀ signed ∈ r.authorisation, Form.bytes.holds signed = true)

include hsigned

/-- A route that fails for another reason than a fault of its own crashes. -/
theorem endsIn_compile : (r.compile config deadline).EndsIn (fun _ => True) fun e =>
    e.IsRoute ∨ r.Crash config deadline e := by
  have hschedule : r.schedule.EndsIn (fun _ => True) fun e =>
      e.IsRoute ∨ r.Crash config deadline e := by
    refine endsIn_schedule.mono_error ?_
    rintro e (hroute | ⟨rfl, ends, found, strays⟩)
    · exact .inl hroute
    · exact .inr (.place found strays)
  have hcalls : (r.calls config deadline).EndsIn (fun _ => True) fun e =>
      e.IsRoute ∨ r.Crash config deadline e := by
    refine hschedule.bind fun ordered hordered _ => ?_
    by_cases heven : ∀ signed ∈ r.authorisation, signed.length % 2 = 0
    · obtain ⟨first, hfirst⟩ := approval_of_even hrelayer hsigned heven
      have hrest : (callsOf (r.context config deadline) ordered).EndsIn (fun _ => True) fun e =>
          e.IsRoute ∨ r.Crash config deadline e := by
        refine (endsIn_callsOf h hrelayer hwrapped hdeadline hordered).mono_error ?_
        rintro e (hroute | ⟨rfl, front, a, back, rfl, hmade, hexceeds⟩)
        · exact .inl hroute
        · exact .inr (.limit hordered heven hmade hexceeds)
      refine .after hfirst (hrest.bind fun _ _ _ => ?_)
      trivial
    · simp only [not_forall] at heven
      obtain ⟨signed, hgiven, hodd⟩ := heven
      have hodd : signed.length % 2 = 1 := by omega
      refine .of_eq_error (e := .unreadable) ?_ (.inr (.signature hordered hgiven hodd))
      rw [approval_of_odd hrelayer hsigned hgiven hodd]
      rfl
  refine hcalls.bind fun calls _ _ => ?_
  exact .of_eq_ok (payload_eq_ok hrelayer calls) trivial

theorem Crash.compile_eq {e : Error} (hcrash : r.Crash config deadline e) :
    r.compile config deadline = .error e := by
  cases hcrash with
  | place found strays =>
      have hactions : r.actions = .error .assetIndex := strays.ofHops_eq found
      simp only [compile, calls, schedule, hactions]
      rfl
  | signature scheduled given odd =>
      simp only [compile, calls, scheduled, approval_of_odd hrelayer hsigned given odd]
      rfl
  | @limit front back a scheduled even made exceeds =>
      have hready : a.Ready (r.context config deadline) :=
        h.ready_of_mem scheduled (List.mem_append_right front (List.mem_cons_self ..))
      have hcalls := exceeds.calls_eq (h.context hrelayer hwrapped hdeadline) hready
      have hparts := List.mapM_append_cons_eq_error made hcalls back
      -- The actions in front have their calls, so this one is reached.
      have hrest : callsOf (r.context config deadline) (front ++ a :: back) =
          .error (.abi .outOfBounds) := by
        rw [callsOf, hparts]
        rfl
      obtain ⟨first, hfirst⟩ := approval_of_even hrelayer hsigned even
      simp only [compile, calls, scheduled, hfirst]
      show (callsOf (r.context config deadline) (front ++ a :: back) >>= fun rest =>
        pure (first ++ rest)) >>= payload config = _
      rw [hrest]
      rfl

end Compile

theorem Crash.not_isRoute {e : Error} (hcrash : r.Crash config deadline e) : ¬ e.IsRoute := by
  rintro ⟨cause, rfl⟩
  cases hcrash

end Route

/-! ## Requests -/

namespace RouteRequest

/-- The lists of the request are of a size that can be written. -/
structure Sized (request : RouteRequest) : Prop where
  tokens : request.tokens.length < Nat.pow 2 64
  swaps : request.swaps.length < Nat.pow 2 64
  pools : ∀ info ∈ request.pools, info.tokens.length < Nat.pow 2 64

instance (request : RouteRequest) : Decidable request.Sized :=
  decidable_of_iff (request.tokens.length < Nat.pow 2 64 ∧ request.swaps.length < Nat.pow 2 64 ∧
      ∀ info ∈ request.pools, info.tokens.length < Nat.pow 2 64)
    ⟨fun h => ⟨h.1, h.2.1, h.2.2⟩, fun h => ⟨h.tokens, h.swaps, h.pools⟩⟩

/-- Some amount of the request is a truth value, or some user data ends in half a byte. -/
def Unreadable (request : RouteRequest) : Prop :=
  (∃ t ∈ request.amounts, Uint256.IsTruth t) ∨
    ∃ step ∈ request.swaps, step.userData.length % 2 = 1

/-- An error of a request that is not a fault of its route, and what it is due to. -/
inductive Crash (request : RouteRequest) (config : Config) (deadline : Int) : Error → Prop
  | unreadable (h : request.Unreadable) : Crash request config deadline .unreadable
  | route {route : Route} {e : Error} (made : request.route = .ok route)
      (crash : route.Crash config deadline e) : Crash request config deadline e

theorem Crash.not_isRoute {request : RouteRequest} {config : Config} {deadline : Int} {e : Error}
    (h : request.Crash config deadline e) : ¬ e.IsRoute := by
  cases h with
  | unreadable =>
      rintro ⟨cause, hroute⟩
      cases hroute
  | route _ crash => exact crash.not_isRoute

end RouteRequest

/-- A step of a checked request becomes a hop, unless its amount is a truth value or its user data
ends in half a byte. -/
theorem SwapStep.endsIn_ofStep {step : SwapStep} (h : step.Formed)
    (hkept : Uint256.Kept step.amount) :
    (Hop.ofStep step).EndsIn
      (fun hop => (Form.poolId.holds hop.poolId = true ∧
          ∃ n, hop.amount = .literal n ∧ Uint256.Fits n) ∧
        ¬ Uint256.IsTruth step.amount ∧ step.userData.length % 2 = 0)
      fun e => e = .unreadable ∧
        (Uint256.IsTruth step.amount ∨ step.userData.length % 2 = 1) := by
  refine (hkept.endsIn_readInteger.mono_error fun e he => ⟨he.1, .inl he.2⟩).bind
    fun n hn hfits => ?_
  by_cases hodd : step.userData.length % 2 = 1
  · refine .of_eq_error (e := .unreadable) ?_ ⟨rfl, .inr hodd⟩
    rw [Hex.readBytes_of_odd h.userData hodd]
    rfl
  · have heven : step.userData.length % 2 = 0 := by omega
    obtain ⟨userData, hread, -⟩ := Hex.readBytes_of_even h.userData heven
    refine .after hread ?_
    exact ⟨⟨Form.holds_lower h.poolId, n, rfl, hfits⟩, Uint256.not_isTruth_of_ok hn, heven⟩

namespace RouteRequest

variable {request : RouteRequest} {config : Config} {deadline : Int}

theorem endsIn_hops (hvalid : request.Validated) :
    request.hops.EndsIn
      (fun hops => hops.length = request.swaps.length ∧
        (∀ hop ∈ hops, Form.poolId.holds hop.poolId = true ∧
          ∃ n, hop.amount = .literal n ∧ Uint256.Fits n) ∧
        ∀ step ∈ request.swaps, ¬ Uint256.IsTruth step.amount ∧ step.userData.length % 2 = 0)
      fun e => e = .unreadable ∧ request.Unreadable := by
  have hamount : ∀ {step : SwapStep}, step ∈ request.swaps → step.amount ∈ request.amounts :=
    fun hstep => List.mem_cons_of_mem _ (List.mem_cons_of_mem _ (List.mem_map_of_mem hstep))
  have hsteps : request.hops.EndsIn (List.Forall₂ (fun step hop =>
      (Form.poolId.holds hop.poolId = true ∧ ∃ n, hop.amount = .literal n ∧ Uint256.Fits n) ∧
        ¬ Uint256.IsTruth step.amount ∧ step.userData.length % 2 = 0) request.swaps)
      fun e => e = .unreadable ∧ request.Unreadable := by
    apply List.endsIn_mapM
    intro step hstep
    refine (SwapStep.endsIn_ofStep (hvalid.formed.swaps step hstep)
      (hvalid.kept _ (hamount hstep))).mono_error ?_
    rintro e ⟨rfl, htruth | hodd⟩
    · exact ⟨rfl, .inl ⟨step.amount, hamount hstep, htruth⟩⟩
    · exact ⟨rfl, .inr ⟨step, hstep, hodd⟩⟩
  refine hsteps.mono (fun hops hall => ⟨hall.length_eq.symm, ?_, ?_⟩) fun _ he => he
  · intro hop hhop
    obtain ⟨step, -, hmade, -⟩ := hall.flip.exists_of_mem hhop
    exact hmade
  · intro step hstep
    obtain ⟨hop, -, -, hread⟩ := hall.exists_of_mem hstep
    exact hread

/-- A checked request has its route, unless it holds what cannot be read. -/
theorem endsIn_route (hvalid : request.Validated) (hsize : request.Sized) :
    request.route.EndsIn
      (fun r => r.Formed ∧ r.authorisation = request.authorisation ∧ ¬ request.Unreadable)
      fun e => e = .unreadable ∧ request.Unreadable := by
  have hformed := hvalid.formed
  have hend : ∀ t ∈ request.amounts, (readInteger t).EndsIn Uint256.Fits fun e =>
      e = .unreadable ∧ request.Unreadable := by
    intro t ht
    refine (hvalid.kept t ht).endsIn_readInteger.mono_error ?_
    rintro e ⟨rfl, htruth⟩
    exact ⟨rfl, .inl ⟨t, ht, htruth⟩⟩
  have hswapAmount : request.swapAmount ∈ request.amounts := List.mem_cons_self ..
  have hreturnAmount : request.returnAmount ∈ request.amounts :=
    List.mem_cons_of_mem _ (List.mem_cons_self ..)
  obtain ⟨registry, hregistry, hpools⟩ := Registry.exists_ofInfos fun info hinfo =>
    ⟨hformed.pools info hinfo, hsize.pools info hinfo⟩
  refine (endsIn_hops hvalid).bind fun hops _ ⟨hcount, hhops, hsteps⟩ => ?_
  refine (hend _ hswapAmount).bind fun swapAmount hswap hswapFits => ?_
  refine (hend _ hreturnAmount).bind fun minOut hmin hminFits => ?_
  refine .after hregistry ⟨?_, rfl, ?_⟩
  · exact {
      assets := hformed.tokens
      count := hsize.tokens
      hops := hhops
      hopCount := by
        show hops.length < Nat.pow 2 64
        rw [hcount]
        exact hsize.swaps
      user := hformed.user
      pools := hpools
      swapAmount := hswapFits
      minOut := hminFits }
  · rintro (⟨t, ht, htruth⟩ | ⟨step, hstep, hodd⟩)
    · rcases List.mem_cons.1 ht with rfl | ht
      · exact Uint256.not_isTruth_of_ok hswap htruth
      · rcases List.mem_cons.1 ht with rfl | ht
        · exact Uint256.not_isTruth_of_ok hmin htruth
        · obtain ⟨step, hstep, rfl⟩ := List.mem_map.1 ht
          exact (hsteps step hstep).1 htruth
    · have heven := (hsteps step hstep).2
      omega

/-- What a request that crashes has to hold: something that cannot be read, a place outside of its
tokens, a signature with half a byte, or an amount at one of its ends that no signed word holds. -/
theorem Crash.cause {e : Error} (h : request.Crash config deadline e) :
    request.Unreadable ∨
      (∃ step ∈ request.swaps,
        request.tokens.length ≤ step.assetIn ∨ request.tokens.length ≤ step.assetOut) ∨
      (∃ signed ∈ request.authorisation, signed.length % 2 = 1) ∨
      ∃ t ∈ [request.swapAmount, request.returnAmount], ∃ n, readInteger t = .ok n ∧
        maxInt256 < n := by
  cases h with
  | unreadable h => exact .inl h
  | route made crash =>
      obtain ⟨hops, hhops, made⟩ := Except.bind_eq_ok.1 made
      obtain ⟨swapAmount, hswap, made⟩ := Except.bind_eq_ok.1 made
      obtain ⟨minOut, hmin, made⟩ := Except.bind_eq_ok.1 made
      obtain ⟨registry, -, made⟩ := Except.bind_eq_ok.1 made
      cases Except.pure_eq_ok.1 made
      refine .inr ?_
      cases crash with
      | place found strays =>
          obtain ⟨hop, hhop, outside⟩ := strays.exists_outside
          obtain ⟨step, hstep, hmade⟩ := (List.mapM_eq_ok.1 hhops).flip.exists_of_mem hhop
          obtain ⟨amount, -, hmade⟩ := Except.bind_eq_ok.1 hmade
          obtain ⟨userData, -, hmade⟩ := Except.bind_eq_ok.1 hmade
          cases Except.pure_eq_ok.1 hmade
          rw [Hop.IsInside, not_and_or, Nat.not_lt, Nat.not_lt] at outside
          exact .inl ⟨step, hstep, outside⟩
      | signature scheduled given odd => exact .inr (.inl ⟨_, given, odd⟩)
      | @limit front back a scheduled even made exceeds =>
          refine .inr (.inr ?_)
          have hmax : 0 ≤ maxInt256 := by decide
          rcases exceeds.exceeds with ⟨-, hover⟩ | ⟨-, hunder, -⟩
          · exact ⟨request.swapAmount, List.mem_cons_self .., swapAmount, hswap, hover⟩
          · have hmem : a ∈ front ++ a :: back := List.mem_append_right _ (List.mem_cons_self ..)
            have hcarried : a.minOut = minOut ∨ a.minOut = 0 :=
              Route.minOut_of_mem_schedule scheduled hmem
            refine ⟨request.returnAmount, List.mem_cons_of_mem _ (List.mem_cons_self ..), minOut,
              hmin, ?_⟩
            rcases hcarried with h | h <;> omega

section Compile

variable (hvalid : request.Validated) (hsize : request.Sized)
  (hrelayer : Form.address.holds config.relayer = true)
  (hwrapped : Form.address.holds config.wrappedNative = true) (hdeadline : Uint256.Fits deadline)

include hvalid hsize hrelayer hwrapped hdeadline

theorem endsIn_compile : (request.compile config deadline).EndsIn (fun _ => True) fun e =>
    e.IsRoute ∨ request.Crash config deadline e := by
  have hroute : request.route.EndsIn
      (fun r => r.Formed ∧ r.authorisation = request.authorisation ∧ ¬ request.Unreadable)
      fun e => e.IsRoute ∨ request.Crash config deadline e := by
    refine (endsIn_route hvalid hsize).mono_error ?_
    rintro e ⟨rfl, hunreadable⟩
    exact .inr (.unreadable hunreadable)
  refine hroute.bind fun r hr ⟨hformed, hsame, _⟩ => ?_
  have hsigned : ∀ signed ∈ r.authorisation, Form.bytes.holds signed = true :=
    hsame ▸ hvalid.formed.authorisation
  refine (Route.endsIn_compile hformed hrelayer hwrapped hdeadline hsigned).mono_error ?_
  rintro e (hfault | hcrash)
  · exact .inl hfault
  · exact .inr (.route hr hcrash)

theorem Crash.compile_eq {e : Error} (hcrash : request.Crash config deadline e) :
    request.compile config deadline = .error e := by
  have hroute := endsIn_route hvalid hsize
  cases hcrash with
  | unreadable h =>
      cases hmade : request.route with
      | ok r =>
          rw [hmade] at hroute
          exact absurd h hroute.2.2
      | error e =>
          rw [hmade] at hroute
          rw [compile, hmade, hroute.1]
          rfl
  | @route r _ made crash =>
      rw [made] at hroute
      obtain ⟨hformed, hsame, -⟩ := hroute
      have hsigned : ∀ signed ∈ r.authorisation, Form.bytes.holds signed = true :=
        hsame ▸ hvalid.formed.authorisation
      have herror := crash.compile_eq hformed hrelayer hwrapped hdeadline hsigned
      rw [compile, made]
      exact herror

/-- A checked request fails for another reason than a fault of its route exactly if it crashes. -/
theorem crash_iff {e : Error} : request.Crash config deadline e ↔
    request.compile config deadline = .error e ∧ ¬ e.IsRoute := by
  constructor
  · intro hcrash
    exact ⟨hcrash.compile_eq hvalid hsize hrelayer hwrapped hdeadline, hcrash.not_isRoute⟩
  · rintro ⟨herror, hnot⟩
    have hends := endsIn_compile hvalid hsize hrelayer hwrapped hdeadline
    rw [herror] at hends
    exact hends.resolve_left hnot

end Compile

end RouteRequest

end SwapRelay
