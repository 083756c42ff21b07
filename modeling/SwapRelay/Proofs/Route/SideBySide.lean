import SwapRelay.Proofs.Route.Emission

/-!
# Two compilations side by side

To compare what two requests compile to, or one request under two configurations, it is enough to
compare their calls, and for these the calls of one action with those of another (`Route.calls_rel`).
What is done with the calls looks at nothing else but the relayer: if it is no address, no calls are
sent to it, whatever they are, and otherwise the calls are put into one multicall.
`RouteRequest.compile_rel` is the step from the calls to the payloads.
-/

namespace SwapRelay

/-- The call of the relayer that carries out the given ones. -/
def CompiledRoute.ofCalls (relayer : Text) (calls : List (Call Bytes)) : CompiledRoute :=
  ⟨relayer, Hex.marked (multicall (calls.map Call.data))⟩

namespace Route

/-- Two routes whose scheduled actions belong together, and make calls that do. -/
theorem calls_rel {r s : Route} {config config' : Config} {deadline deadline' : Int}
    {Q : Action → Action → Prop} {R : Call Bytes → Call Bytes → Prop}
    (hschedule : Except.Rel Eq (List.Forall₂ Q) r.schedule s.schedule)
    (happroval : r.approval config = s.approval config')
    (hsame : ∀ relayer signed,
      R (.setRelayerApproval relayer true signed) (.setRelayerApproval relayer true signed))
    (hcalls : ∀ a b, Q a b → Except.Rel Eq (List.Forall₂ R) (a.calls (r.context config deadline))
      (b.calls (s.context config' deadline'))) :
    Except.Rel Eq (List.Forall₂ R) (r.calls config deadline) (s.calls config' deadline') := by
  refine hschedule.bind fun ordered others hordered => ?_
  rw [← happroval]
  refine .after_eq (r.approval config) fun first hfirst => ?_
  have hparts : Except.Rel Eq (List.Forall₂ (List.Forall₂ R))
      (ordered.mapM (·.calls (r.context config deadline)))
      (others.mapM (·.calls (s.context config' deadline'))) :=
    List.rel_mapM (hordered.imp fun _ _ => hcalls _ _)
  refine (hparts.bind fun parts parts' hrest => .ok (List.rel_flatten hrest)).bind ?_
  intro rest rest' hrest
  refine .ok (List.rel_append (List.forall₂_same.2 fun c hc => ?_) hrest)
  obtain ⟨-, relayer, signed, rfl⟩ := approval_eq_ok hfirst hc
  exact hsame relayer signed

theorem payload_of_relayer {config config' : Config} (h : config.relayer = config'.relayer)
    (calls others : List (Call Bytes)) :
    Except.Rel Eq (fun x y => x = CompiledRoute.ofCalls config.relayer calls ∧
      y = CompiledRoute.ofCalls config.relayer others)
      (payload config calls) (payload config' others) := by
  have hdata (calls : List (Call Bytes)) :
      Form.bytes.holds (Hex.marked (multicall (calls.map Call.data))) = true :=
    Hex.isMarked_marked _
  simp only [payload, CompiledRoute.ofTexts, Check.ofForm]
  rw [← h, if_pos (hdata calls), if_pos (hdata others)]
  split
  · exact .ok ⟨rfl, rfl⟩
  · exact .error rfl

end Route

namespace RouteRequest

/-- The calls that the payload of the request carries. -/
def calls (request : RouteRequest) (config : Config) (deadline : Int) :
    Except Error (List (Call Bytes)) := do
  let route ← request.route
  route.calls config deadline

theorem compile_eq (request : RouteRequest) (config : Config) (deadline : Int) :
    request.compile config deadline =
      (request.calls config deadline) >>= Route.payload config :=
  (bind_assoc ..).symm

theorem compile_of_calls {request : RouteRequest} {config : Config} {deadline : Int}
    {calls : List (Call Bytes)} (hform : Form.address.holds config.relayer = true)
    (h : request.calls config deadline = .ok calls) :
    request.compile config deadline = .ok (.ofCalls config.relayer calls) := by
  rw [compile_eq, h]
  exact Route.payload_eq_ok hform calls

/-- Two compilations for one relayer whose calls belong together, or fail with the same error. -/
theorem compile_rel {r s : RouteRequest} {config config' : Config} {deadline deadline' : Int}
    (hrelayer : config.relayer = config'.relayer)
    {R : List (Call Bytes) → List (Call Bytes) → Prop}
    (h : Except.Rel Eq R (r.calls config deadline) (s.calls config' deadline')) :
    (∃ e, r.compile config deadline = .error e ∧ s.compile config' deadline' = .error e) ∨
      ∃ calls others, r.calls config deadline = .ok calls ∧
        s.calls config' deadline' = .ok others ∧ R calls others ∧
        r.compile config deadline = .ok (.ofCalls config.relayer calls) ∧
        s.compile config' deadline' = .ok (.ofCalls config.relayer others) := by
  rw [compile_eq, compile_eq]
  rcases h.ok_or_error with ⟨calls, others, hcalls, hothers, hR⟩ | ⟨e, _, he, he', rfl⟩
  · have hpayload := Route.payload_of_relayer hrelayer calls others
    rw [hcalls, hothers]
    rcases hpayload.ok_or_error with ⟨_, _, hx, hy, rfl, rfl⟩ | ⟨e, _, hx, hy, rfl⟩
    · exact .inr ⟨calls, others, rfl, rfl, hR, hx, hy⟩
    · exact .inl ⟨e, hx, hy⟩
  · rw [he, he']
    exact .inl ⟨e, rfl, rfl⟩

end RouteRequest

end SwapRelay
