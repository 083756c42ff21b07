import SwapRelay.Proofs.Action.Order
import SwapRelay.Proofs.Action.Runs
import SwapRelay.Proofs.Address.Bytes
import SwapRelay.Proofs.Relayer.Plan
import SwapRelay.Route

/-!
# The calls of a route with the actions they carry out

The calls of a route are a bare list, from which it cannot be seen which of the route's actions a
call stands for. `Route.emitted` is the compilation with that kept: every call comes with the
actions it carries out, in the order of its steps, and a call that only prepares another one comes
with none. Leaving the actions out gives the calls again, failures included, as `Route.calls_eq`
says. Going by the runs of actions is also the short way to what a given request compiles to: a run
has its call (`RouteRequest.exists_emitted_of_run`), and nothing that could fail comes after the
calls (`RouteRequest.exists_compiled`).
-/

namespace SwapRelay

/-- The call carries out an action; the others prepare such a call. -/
def Call.carriesOut : Call Bytes → Bool
  | .batchSwap _ | .joinPool _ | .exitPool _ => true
  | .setRelayerApproval .. | .approveVault .. | .peekReference _ => false

structure Emitted where
  call : Call Bytes
  members : List Action

namespace Emitted

/-- The calls of a run; the last one carries out its actions. -/
def ofRun (run : Action.Run) (calls : List (Call Bytes)) : List Emitted :=
  calls.dropLast.map (⟨·, []⟩) ++ calls.getLast?.toList.map (⟨·, run.members⟩)

theorem map_call_ofRun (run : Action.Run) (calls : List (Call Bytes)) :
    (ofRun run calls).map call = calls := by
  simp only [ofRun]
  rcases List.eq_nil_or_concat calls with rfl | ⟨front, main, rfl⟩
  · rfl
  · simp [Function.comp_def]

theorem ofRun_append_singleton (run : Action.Run) (before : List (Call Bytes)) (main : Call Bytes) :
    ofRun run (before ++ [main]) = before.map (⟨·, []⟩) ++ [⟨main, run.members⟩] := by
  simp only [ofRun]
  rw [List.dropLast_concat, List.getLast?_concat]
  rfl

theorem flatMap_members_prepare (calls : List (Call Bytes)) :
    (calls.map (Emitted.mk · [])).flatMap members = [] := by
  rw [List.flatMap_eq_nil_iff]
  intro e he
  obtain ⟨c, -, rfl⟩ := List.mem_map.1 he
  rfl

end Emitted

def Action.Run.emitted (ctx : Context) (run : Run) : Except Error (List Emitted) :=
  (run.action.calls ctx).map (Emitted.ofRun run)

theorem Ends.find_eq_ok {assets : List Text} {tokenIn tokenOut : Text} {ends : Ends}
    (h : Ends.find assets tokenIn tokenOut = .ok ends) :
    (∃ t, assets[ends.input]? = some t ∧ Address.same t tokenIn = true) ∧
      ∃ t, assets[ends.output]? = some t ∧ Address.same t tokenOut = true := by
  obtain ⟨hin, hout⟩ := Ends.indexOf?_of_find h
  exact ⟨Address.getElem?_of_indexOf? hin, Address.getElem?_of_indexOf? hout⟩

theorem CompiledRoute.eq_of_ofTexts {target data : Text} {compiled : CompiledRoute}
    (h : (ofTexts target data).toExcept = .ok compiled) : compiled = ⟨target, data⟩ := by
  simp only [ofTexts, Check.ofForm] at h
  split at h
  · split at h
    · cases h
      rfl
    · cases h
  · split at h <;> cases h

theorem CompiledRoute.holds_target {target data : Text} {compiled : CompiledRoute}
    (h : (ofTexts target data).toExcept = .ok compiled) : Form.address.holds target = true := by
  simp only [ofTexts, Check.ofForm] at h
  split at h
  · next hform => exact hform
  · split at h <;> cases h

namespace Action.Run

/-- The calls of a run: the one that carries out its actions, and those before it. -/
theorem emitted_eq_ok {ctx : Context} {run : Run} {part : List Emitted}
    (h : run.emitted ctx = .ok part) :
    ∃ before main, part = before.map (⟨·, []⟩) ++ [⟨main, run.members⟩] ∧
      Made run.action ctx before main := by
  obtain ⟨calls, hcalls, rfl⟩ := Except.map_eq_ok.1 h
  obtain ⟨before, main, rfl, hmade⟩ := made_of_calls hcalls
  exact ⟨before, main, Emitted.ofRun_append_singleton run before main, hmade⟩

theorem members_emitted {ctx : Context} {run : Run} {part : List Emitted}
    (h : run.emitted ctx = .ok part) : part.flatMap Emitted.members = run.members := by
  obtain ⟨before, main, rfl, -⟩ := emitted_eq_ok h
  rw [List.flatMap_append, Emitted.flatMap_members_prepare, List.flatMap_singleton,
    List.nil_append]

end Action.Run

namespace Route

variable (r : Route) (config : Config) (deadline : Int)

/-- The calls of the route in order, each with the actions that it carries out. -/
def emitted : Except Error (List Emitted) := do
  let actions ← r.actions
  let ends ← Ends.find r.assets r.tokenIn r.tokenOut
  let first ← r.approval config
  let rest ← (Action.runs (Action.arranged ends actions)).mapM
    (·.emitted (r.context config deadline))
  return first.map (⟨·, []⟩) ++ rest.flatten

theorem mapM_emitted (ctx : Context) (runs : List Action.Run) :
    (runs.map Action.Run.action).mapM (Action.calls · ctx) =
      (runs.mapM (Action.Run.emitted ctx)).map (·.map (·.map Emitted.call)) := by
  induction runs with
  | nil => rfl
  | cons run rest ih =>
      rw [List.map_cons, List.mapM_cons, List.mapM_cons, ih]
      unfold Action.Run.emitted
      cases run.action.calls ctx with
      | error e => rfl
      | ok calls =>
          cases rest.mapM fun run => (run.action.calls ctx).map (Emitted.ofRun run) with
          | error e => rfl
          | ok parts =>
              have hcalls := Emitted.map_call_ofRun run calls
              show Except.ok (calls :: _) = Except.ok (List.map Emitted.call _ :: _)
              rw [hcalls]

theorem calls_eq :
    r.calls config deadline = (r.emitted config deadline).map (·.map Emitted.call) := by
  simp only [calls, emitted, schedule, Action.schedule]
  cases r.actions with
  | error e => rfl
  | ok actions =>
      cases Ends.find r.assets r.tokenIn r.tokenOut with
      | error e => rfl
      | ok ends =>
          cases r.approval config with
          | error e => rfl
          | ok first =>
              let ctx := r.context config deadline
              show (callsOf ctx (Action.scheduleAt ends actions)).bind
                (fun rest => .ok (first ++ rest)) = _
              have hbatch : Action.scheduleAt ends actions = _ := Action.batch_eq _
              rw [hbatch, callsOf, mapM_emitted]
              show _ = (((Action.runs (Action.arranged ends actions)).mapM
                (Action.Run.emitted ctx)).bind
                  fun rest => .ok (first.map (⟨·, []⟩) ++ rest.flatten)).map _
              simp only [Action.arranged]
              cases (Action.runs (Action.partition ends actions).toList).mapM
                  (Action.Run.emitted ctx) with
              | error e => rfl
              | ok parts =>
                  simp only [Except.bind, Except.map, bind, pure, Except.pure]
                  simp [List.map_flatten, Function.comp_def]

variable {r config deadline}

theorem assetAt_input {ends : Ends} (h : Ends.find r.assets r.tokenIn r.tokenOut = .ok ends) :
    assetAt (r.context config deadline).assets ends.input =
      .ok (r.context config deadline).tokenIn := by
  obtain ⟨t, ht, hsame⟩ := (Ends.find_eq_ok h).1
  unfold assetAt context
  dsimp only
  rw [List.getElem?_map, ht, Option.map_some, Address.normalize_eq_of_same hsame]

theorem assetAt_output {ends : Ends} (h : Ends.find r.assets r.tokenIn r.tokenOut = .ok ends) :
    assetAt (r.context config deadline).assets ends.output =
      .ok (r.context config deadline).tokenOut := by
  obtain ⟨t, ht, hsame⟩ := (Ends.find_eq_ok h).2
  unfold assetAt context
  dsimp only
  rw [List.getElem?_map, ht, Option.map_some, Address.normalize_eq_of_same hsame]

/-- What a compilation goes through: the walk over the hops, the order of its actions, and the calls
of each run. -/
theorem emitted_eq_ok {emitted : List Emitted} (h : r.emitted config deadline = .ok emitted) :
    ∃ actions ends first parts, r.actions = .ok actions ∧
      Ends.find r.assets r.tokenIn r.tokenOut = .ok ends ∧
      Action.Walked ⟨r.registry, r.assets, ends, r.minOut⟩ 0 r.hops actions ∧
      r.approval config = .ok first ∧
      List.Forall₂ (fun run part => run.emitted (r.context config deadline) = .ok part)
        (Action.runs (Action.arranged ends actions)) parts ∧
      emitted = first.map (⟨·, []⟩) ++ parts.flatten := by
  obtain ⟨actions, hactions, h⟩ := Except.bind_eq_ok.1 h
  obtain ⟨ends, hends, h⟩ := Except.bind_eq_ok.1 h
  obtain ⟨first, hfirst, h⟩ := Except.bind_eq_ok.1 h
  obtain ⟨parts, hparts, h⟩ := Except.bind_eq_ok.1 h
  obtain ⟨_, hends', -, hwalk⟩ := Action.walked_of_ofHops hactions
  cases hends.symm.trans hends'
  exact ⟨actions, ends, first, parts, hactions, hends, hwalk, hfirst, List.mapM_eq_ok.1 hparts,
    (Except.pure_eq_ok.1 h).symm⟩

theorem members_emitted {emitted : List Emitted} (h : r.emitted config deadline = .ok emitted) :
    ∃ actions, r.actions = .ok actions ∧ (emitted.flatMap Emitted.members).Perm actions := by
  obtain ⟨actions, ends, first, parts, hactions, -, -, -, hparts, rfl⟩ := emitted_eq_ok h
  refine ⟨actions, hactions, ?_⟩
  have hall : ∀ {runs : List Action.Run} {parts : List (List Emitted)},
      List.Forall₂ (fun run part => run.emitted (r.context config deadline) = .ok part) runs parts →
        parts.flatten.flatMap Emitted.members = runs.flatMap Action.Run.members := by
    intro runs parts h
    induction h with
    | nil => rfl
    | cons hrun _ ih =>
        rw [List.flatten_cons, List.flatMap_append, List.flatMap_cons,
          Action.Run.members_emitted hrun, ih]
  rw [List.flatMap_append, Emitted.flatMap_members_prepare, List.nil_append, hall hparts,
    Action.flatMap_members_runs]
  exact Action.arranged_perm ends actions

theorem approval_eq_ok {first : List (Call Bytes)} (h : r.approval config = .ok first)
    {c : Call Bytes} (hc : c ∈ first) :
    c.Fits ∧ ∃ relayer signed, c = .setRelayerApproval relayer true signed := by
  simp only [approval] at h
  split at h
  · cases h
    cases hc
  · cases h
    cases hc
  · obtain ⟨call, hcall, rfl⟩ := Except.map_eq_ok.1 h
    obtain rfl := List.mem_singleton.1 hc
    obtain ⟨hread, hfits⟩ := Call.prepare_eq_ok hcall
    obtain ⟨relayer, -, hread⟩ := Except.bind_eq_ok.1 hread
    obtain ⟨signed, -, hread⟩ := Except.bind_eq_ok.1 hread
    exact ⟨hfits, relayer, signed, (Except.pure_eq_ok.1 hread).symm⟩

/-- A call hands in the approval, or is one of the calls of a run. -/
theorem mem_emitted {emitted : List Emitted} (h : r.emitted config deadline = .ok emitted)
    {e : Emitted} (he : e ∈ emitted) :
    ∃ actions ends, r.actions = .ok actions ∧
      Ends.find r.assets r.tokenIn r.tokenOut = .ok ends ∧
      ((∃ relayer signed, e = ⟨.setRelayerApproval relayer true signed, []⟩ ∧ e.call.Fits) ∨
        ∃ run ∈ Action.runs (Action.arranged ends actions), ∃ before main,
          Action.Made run.action (r.context config deadline) before main ∧
            ((∃ c ∈ before, e = ⟨c, []⟩) ∨ e = ⟨main, run.members⟩)) := by
  obtain ⟨actions, ends, first, parts, hactions, hends, -, hfirst, hparts, rfl⟩ := emitted_eq_ok h
  refine ⟨actions, ends, hactions, hends, ?_⟩
  rcases List.mem_append.1 he with he | he
  · obtain ⟨c, hc, rfl⟩ := List.mem_map.1 he
    obtain ⟨hfits, relayer, signed, rfl⟩ := approval_eq_ok hfirst hc
    exact .inl ⟨relayer, signed, rfl, hfits⟩
  · obtain ⟨part, hpart, he⟩ := List.mem_flatten.1 he
    obtain ⟨run, hrun, hemitted⟩ := hparts.flip.exists_of_mem hpart
    obtain ⟨before, main, rfl, hmade⟩ := Action.Run.emitted_eq_ok hemitted
    refine .inr ⟨run, hrun, before, main, hmade, ?_⟩
    rcases List.mem_append.1 he with he | he
    · obtain ⟨c, hc, rfl⟩ := List.mem_map.1 he
      exact .inl ⟨c, hc, rfl⟩
    · exact .inr (List.mem_singleton.1 he)

/-- A call either prepares another one or is the main call of a run. -/
theorem origin_of_mem {emitted : List Emitted} {actions : List Action} {ends : Ends}
    (h : r.emitted config deadline = .ok emitted) (hactions : r.actions = .ok actions)
    (hends : Ends.find r.assets r.tokenIn r.tokenOut = .ok ends) {e : Emitted} (he : e ∈ emitted) :
    (e.call.carriesOut = false ∧ e.members = []) ∨
      ∃ run ∈ Action.runs (Action.arranged ends actions), e.members = run.members ∧
        ∃ before, Action.Made run.action (r.context config deadline) before e.call := by
  obtain ⟨_, _, hactions', hends', horigin⟩ := mem_emitted h he
  cases hactions.symm.trans hactions'
  cases hends.symm.trans hends'
  rcases horigin with ⟨_, _, rfl, -⟩ | ⟨run, hrun, before, main, hmade, ⟨c, hc, rfl⟩ | rfl⟩
  · exact .inl ⟨rfl, rfl⟩
  · obtain ⟨_, _, _, rfl, -⟩ := hmade.approval hc
    exact .inl ⟨rfl, rfl⟩
  · exact .inr ⟨run, hrun, rfl, before, hmade⟩

/-- A call that carries out an action is the main call of a run. -/
theorem exists_run_of_mem {emitted : List Emitted} {actions : List Action} {ends : Ends}
    (h : r.emitted config deadline = .ok emitted) (hactions : r.actions = .ok actions)
    (hends : Ends.find r.assets r.tokenIn r.tokenOut = .ok ends) {e : Emitted} (he : e ∈ emitted)
    {a : Action} (ha : a ∈ e.members) :
    ∃ run : Action.Run, e.members = run.members ∧ (∀ b ∈ run.members, b ∈ actions) ∧
      ∃ before, Action.Made run.action (r.context config deadline) before e.call := by
  rcases origin_of_mem h hactions hends he with ⟨-, hnone⟩ | ⟨run, hrun, hmembers, before, hmade⟩
  · rw [hnone] at ha
    cases ha
  · refine ⟨run, hmembers, fun b hb => ?_, before, hmade⟩
    exact (Action.arranged_perm ends actions).mem_iff.1 (Action.mem_of_mem_runs hrun hb)

theorem fits_emitted {emitted : List Emitted} (h : r.emitted config deadline = .ok emitted)
    {e : Emitted} (he : e ∈ emitted) : e.call.Fits := by
  obtain ⟨_, _, -, -, horigin⟩ := mem_emitted h he
  rcases horigin with ⟨_, _, -, hfits⟩ | ⟨run, -, before, main, hmade, ⟨c, hc, rfl⟩ | rfl⟩
  · exact hfits
  · exact hmade.fits.2 c hc
  · exact hmade.fits.1

/-- The calls of a route are those of its actions in order, behind the approval. -/
theorem calls_eq_ok {calls : List (Call Bytes)} (h : r.calls config deadline = .ok calls) :
    ∃ ordered first parts, r.schedule = .ok ordered ∧ r.approval config = .ok first ∧
      List.Forall₂ (fun a part => a.calls (r.context config deadline) = .ok part) ordered parts ∧
      calls = first ++ parts.flatten := by
  obtain ⟨ordered, hordered, h⟩ := Except.bind_eq_ok.1 h
  obtain ⟨first, hfirst, h⟩ := Except.bind_eq_ok.1 h
  obtain ⟨rest, hrest, h⟩ := Except.bind_eq_ok.1 h
  obtain ⟨parts, hparts, hflatten⟩ := Except.bind_eq_ok.1 hrest
  cases Except.pure_eq_ok.1 hflatten
  exact ⟨ordered, first, parts, hordered, hfirst, List.mapM_eq_ok.1 hparts,
    (Except.pure_eq_ok.1 h).symm⟩

/-- A route that compiles does so by its calls. -/
theorem calls_of_compile {compiled : CompiledRoute}
    (h : r.compile config deadline = .ok compiled) :
    ∃ ordered first parts, r.schedule = .ok ordered ∧
      List.Forall₂ (fun a part => a.calls (r.context config deadline) = .ok part) ordered parts ∧
      r.calls config deadline = .ok (first ++ parts.flatten) ∧
      compiled.data = Hex.marked (multicall ((first ++ parts.flatten).map Call.data)) := by
  obtain ⟨calls, hcalls, h⟩ := Except.bind_eq_ok.1 h
  obtain ⟨ordered, first, parts, hordered, -, hparts, rfl⟩ := calls_eq_ok hcalls
  refine ⟨ordered, first, parts, hordered, hparts, hcalls, ?_⟩
  rw [CompiledRoute.eq_of_ofTexts h]

/-- A route compiles for no relayer but one of the right form. -/
theorem holds_relayer {compiled : CompiledRoute} (h : r.compile config deadline = .ok compiled) :
    Form.address.holds config.relayer = true := by
  obtain ⟨calls, -, h⟩ := Except.bind_eq_ok.1 h
  exact CompiledRoute.holds_target h

theorem payload_eq_ok (hform : Form.address.holds config.relayer = true)
    (calls : List (Call Bytes)) : payload config calls =
      .ok ⟨config.relayer, Hex.marked (multicall (calls.map Call.data))⟩ := by
  have hdata : Form.bytes.holds (Hex.marked (multicall (calls.map Call.data))) = true :=
    Hex.isMarked_marked _
  simp only [payload, CompiledRoute.ofTexts, Check.ofForm]
  rw [if_pos hform, if_pos hdata]
  rfl

/-- Once the calls are there, only a relayer that is no address keeps a route from compiling. -/
theorem exists_compiled (r : Route) (config : Config) (deadline : Int)
    (hform : Form.address.holds config.relayer = true)
    (h : (r.calls config deadline).isOk = true) :
    ∃ compiled, r.compile config deadline = .ok compiled := by
  obtain ⟨calls, hcalls⟩ := Except.exists_of_isOk h
  exact ⟨_, Except.bind_eq_ok.2 ⟨calls, hcalls, payload_eq_ok hform calls⟩⟩

/-- The calls of a route that compiles come with the actions that they carry out. -/
theorem compile_eq_ok {compiled : CompiledRoute} (h : r.compile config deadline = .ok compiled) :
    ∃ emitted, r.emitted config deadline = .ok emitted ∧
      compiled.data = Hex.marked (multicall (emitted.map (·.call.data))) := by
  obtain ⟨_, first, parts, -, -, hcalls, hdata⟩ := calls_of_compile h
  rw [calls_eq] at hcalls
  obtain ⟨emitted, hemitted, hmap⟩ := Except.map_eq_ok.1 hcalls
  refine ⟨emitted, hemitted, ?_⟩
  rw [hdata, ← hmap, List.map_map]
  rfl

end Route

namespace RouteRequest

theorem route_eq_ok {request : RouteRequest} {route : Route} (h : request.route = .ok route) :
    ∃ hops swapAmount minOut registry, request.hops = .ok hops ∧
      route = request.routeWith hops swapAmount minOut registry := by
  obtain ⟨hops, hhops, h⟩ := Except.bind_eq_ok.1 h
  obtain ⟨swapAmount, -, h⟩ := Except.bind_eq_ok.1 h
  obtain ⟨minOut, -, h⟩ := Except.bind_eq_ok.1 h
  obtain ⟨registry, -, h⟩ := Except.bind_eq_ok.1 h
  exact ⟨hops, swapAmount, minOut, registry, hhops, (Except.pure_eq_ok.1 h).symm⟩

/-- A request compiles once its calls are there, and they are the ones in its payload. -/
theorem exists_compiled_of_any (request : RouteRequest) (config : Config) (deadline : Int)
    (hform : Form.address.holds config.relayer = true) (test : List (Call Bytes) → Bool)
    (h : (do (← request.route).calls config deadline).toOption.any test = true) :
    ∃ compiled calls, request.compile config deadline = .ok compiled ∧
      compiled.data = Hex.marked (multicall (calls.map Call.data)) ∧ test calls = true := by
  obtain ⟨calls, h, htest⟩ := Except.exists_of_any test h
  obtain ⟨route, hroute, hcalls⟩ := Except.bind_eq_ok.1 h
  exact ⟨_, calls, Except.bind_eq_ok.2 ⟨route, hroute,
    Except.bind_eq_ok.2 ⟨calls, hcalls, Route.payload_eq_ok hform calls⟩⟩, rfl, htest⟩

theorem exists_compiled (request : RouteRequest) (config : Config) (deadline : Int)
    (hform : Form.address.holds config.relayer = true)
    (h : (do (← request.route).calls config deadline).isOk = true) :
    ∃ compiled, request.compile config deadline = .ok compiled := by
  obtain ⟨calls, hcalls⟩ := Except.exists_of_isOk h
  obtain ⟨compiled, -, h, -⟩ := exists_compiled_of_any request config deadline hform
    (fun _ => true) (by rw [hcalls]; rfl)
  exact ⟨compiled, h⟩

/-- The runs that the calls of the request carry out. -/
def runs (request : RouteRequest) : Except Error (List Action.Run) := do
  let route ← request.route
  let actions ← route.actions
  let ends ← Ends.find route.assets route.tokenIn route.tokenOut
  return Action.runs (Action.arranged ends actions)

/-- Every run has its call. -/
theorem exists_emitted_of_run {request : RouteRequest} {route : Route} {config : Config}
    {deadline : Int} {emitted : List Emitted} (hroute : request.route = .ok route)
    (hemitted : route.emitted config deadline = .ok emitted) {runs : List Action.Run}
    (hruns : request.runs = .ok runs) {run : Action.Run} (hrun : run ∈ runs) :
    ∃ e ∈ emitted, e.members = run.members ∧
      ∃ before, Action.Made run.action (route.context config deadline) before e.call := by
  obtain ⟨_, hroute', hruns⟩ := Except.bind_eq_ok.1 hruns
  cases hroute.symm.trans hroute'
  obtain ⟨actions, hactions, hruns⟩ := Except.bind_eq_ok.1 hruns
  obtain ⟨ends, hends, hruns⟩ := Except.bind_eq_ok.1 hruns
  cases Except.pure_eq_ok.1 hruns
  obtain ⟨_, _, first, parts, hactions', hends', -, -, hparts, rfl⟩ :=
    Route.emitted_eq_ok hemitted
  cases hactions.symm.trans hactions'
  cases hends.symm.trans hends'
  obtain ⟨part, hpart, hpartOf⟩ := hparts.exists_of_mem hrun
  obtain ⟨before, main, rfl, hmade⟩ := Action.Run.emitted_eq_ok hpartOf
  refine ⟨⟨main, run.members⟩, ?_, rfl, before, hmade⟩
  apply List.mem_append_right
  exact List.mem_flatten.2 ⟨_, hpart, List.mem_append_right _ (List.mem_singleton_self _)⟩

end RouteRequest

end SwapRelay
