import SwapRelay.Json.Printer
import SwapRelay.Proofs.Route.Crash
import SwapRelay.Service

/-!
# What a call to compile is answered

A request that passed its check and compiles is answered with its calls, and one whose route is at
fault with that fault. Whatever else happens on the way ends in the same reply, a failure of the
service. So what `RouteRequest.Crash` lists is what makes the service fail, and nothing else does:
`answered_iff_not_crash`. A truth value in the place of an amount is enough, even where the amount
does not matter (`exists_failure_chainedSwaps`).
-/

namespace SwapRelay.Service

variable {env : Environment} {now : Binary64} {call : Call} {config : Config}
  {request : RouteRequest} {j : Json}

section Handle

variable (hpath : pathOf call.path.toList = "/compile".toList)
  (hmethod : call.method.toUpper = "POST") (hcontent : content call = .ok (.json j))
  (hcheck : RouteRequest.check j = .good request) (hconfig : Config.ofEnvironment env = .ok config)

include hpath hmethod hcontent hcheck hconfig

theorem handle_compile : handle env now call = compile config now request := by
  have hchecked : (Content.json j).check = .good request := hcheck
  simp only [handle, hpath, String.ofList_toList, hmethod, if_true, answerCompile, hcontent,
    hconfig, hchecked]

theorem handle_of_ok {compiled : CompiledRoute}
    (h : request.compile config (config.deadlineAfter now) = .ok compiled) :
    (handle env now call).2 = ⟨200, .json compiled.toJson⟩ := by
  rw [handle_compile hpath hmethod hcontent hcheck hconfig]
  simp only [compile, RouteRequest.result_compileLogged, h]

theorem handle_of_route {cause : RouteError}
    (h : request.compile config (config.deadlineAfter now) = .error (.route cause)) :
    (handle env now call).2 = .refusal 422 (.str cause.message) := by
  rw [handle_compile hpath hmethod hcontent hcheck hconfig]
  simp only [compile, RouteRequest.result_compileLogged, h]

theorem handle_of_not_isRoute {e : Error}
    (h : request.compile config (config.deadlineAfter now) = .error e) (hnot : ¬ e.IsRoute) :
    (handle env now call).2 = .failure := by
  rw [handle_compile hpath hmethod hcontent hcheck hconfig]
  simp only [compile, RouteRequest.result_compileLogged, h]
  split
  · next heq => cases heq
  · next cause heq => exact absurd ⟨cause, Except.error.inj heq⟩ hnot
  · rfl

end Handle

/-- A request that passed its check is compiled, or its route is at fault and the sender is told so,
exactly if it does not crash. If it does, the service fails. -/
theorem answered_iff_not_crash (hpath : pathOf call.path.toList = "/compile".toList)
    (hmethod : call.method.toUpper = "POST") (hcontent : content call = .ok (.json j))
    (hcheck : RouteRequest.check j = .good request)
    (hconfig : Config.ofEnvironment env = .ok config)
    (hrelayer : Form.address.holds config.relayer = true)
    (hwrapped : Form.address.holds config.wrappedNative = true)
    (hdeadline : Uint256.Fits (config.deadlineAfter now)) (hsize : request.Sized) :
    ((¬ ∃ e, request.Crash config (config.deadlineAfter now) e) ↔
      (∃ compiled, request.compile config (config.deadlineAfter now) = .ok compiled ∧
        (handle env now call).2 = ⟨200, .json compiled.toJson⟩) ∨
      ∃ cause, request.compile config (config.deadlineAfter now) = .error (.route cause) ∧
        (handle env now call).2 = .refusal 422 (.str cause.message)) ∧
    ((∃ e, request.Crash config (config.deadlineAfter now) e) ↔
      (handle env now call).2.status = 500) := by
  have hiff (e : Error) := RouteRequest.crash_iff (e := e) ⟨j, hcheck⟩ hsize hrelayer hwrapped
    hdeadline
  cases hcompile : request.compile config (config.deadlineAfter now) with
  | ok compiled =>
      have hreply := handle_of_ok hpath hmethod hcontent hcheck hconfig hcompile
      have hno : ¬ ∃ e, request.Crash config (config.deadlineAfter now) e := by
        rintro ⟨e, hcrash⟩
        cases hcompile.symm.trans ((hiff e).1 hcrash).1
      rw [hreply]
      exact ⟨iff_of_true hno (.inl ⟨compiled, rfl, rfl⟩),
        iff_of_false hno (show ¬ (200 : Nat) = 500 by decide)⟩
  | error e =>
      by_cases hroute : e.IsRoute
      · obtain ⟨cause, rfl⟩ := hroute
        have hreply := handle_of_route hpath hmethod hcontent hcheck hconfig hcompile
        have hno : ¬ ∃ e, request.Crash config (config.deadlineAfter now) e := by
          rintro ⟨e, hcrash⟩
          cases hcompile.symm.trans ((hiff e).1 hcrash).1
          exact hcrash.not_isRoute ⟨cause, rfl⟩
        rw [hreply]
        exact ⟨iff_of_true hno (.inr ⟨cause, rfl, rfl⟩),
          iff_of_false hno (show ¬ (422 : Nat) = 500 by decide)⟩
      · have hreply := handle_of_not_isRoute hpath hmethod hcontent hcheck hconfig hcompile hroute
        have hcrash := (hiff e).2 ⟨hcompile, hroute⟩
        rw [hreply]
        refine ⟨iff_of_false (not_not.2 ⟨e, hcrash⟩) ?_, iff_of_true ⟨e, hcrash⟩ rfl⟩
        rintro (⟨compiled, h, -⟩ | ⟨cause, h, -⟩)
        · cases h
        · cases h
          exact hroute ⟨cause, rfl⟩

/-! ## Two swaps in a row -/

/-- A body that writes an object is read as JSON. -/
theorem content_of_object {cs : Text} (hbody : call.body = String.ofList ('\x7b' :: '"' :: cs))
    (htype : isJsonType call.contentType = true)
    (hread : Json.Reader.document maxDepth ('\x7b' :: '"' :: cs) = .ok j) :
    content call = .ok (.json j) := by
  -- The body is only ever taken by its characters here, so that no string has to be decoded.
  have htext : call.body.toList = '\x7b' :: '"' :: cs := by
    rw [hbody, String.toList_ofList]
  have hfull : call.body.isEmpty = false := by
    rw [Bool.eq_false_iff, ne_eq, String.isEmpty_iff]
    intro hempty
    rw [hempty] at htext
    cases htext
  have hdecode : Json.decodeBody call.body = some ('\x7b' :: '"' :: cs) := by
    have hfront : (('\x7b' :: '"' :: cs).take 2).contains '\x00' = false := rfl
    simp only [Json.decodeBody, htext, hfront]
    rfl
  simp only [content, hfull, htype, Json.read, hdecode, hread]
  rfl

/-- Two swaps in a row, of which the second one takes what the first one yields. What its own amount
is does not matter. -/
def chainedSwaps (amount : Json) : Json :=
  let address (digit : Char) : Json := .ofText ('0' :: 'x' :: List.replicate 40 digit)
  let poolId : Json := .ofText ('0' :: 'x' :: List.replicate 64 'a')
  let step (i : Int) (amount : Json) : Json :=
    .obj [("poolId", poolId), ("assetInIndex", .int i), ("assetOutIndex", .int (i + 1)),
      ("amount", amount)]
  let tokens : Json := .arr [address '1', address '2', address '3']
  .obj [("tokenIn", address '1'), ("tokenOut", address '3'), ("tokenAddresses", tokens),
    ("swaps", .arr [step 0 (.int 1000), step 1 amount]), ("swapAmount", .int 1000),
    ("returnAmount", .int 990), ("user", address '7'),
    ("pools", .arr [.obj [("id", poolId), ("tokensList", tokens)]])]

def chainedSwapsCall (amount : Json) : Call :=
  ⟨"POST", "/compile", "application/json", (chainedSwaps amount).render⟩

theorem path_chainedSwapsCall (amount : Json) :
    pathOf (chainedSwapsCall amount).path.toList = "/compile".toList := by
  show pathOf "/compile".toList = "/compile".toList
  decide

theorem method_chainedSwapsCall (amount : Json) :
    (chainedSwapsCall amount).method.toUpper = "POST" := by
  show "POST".toUpper = "POST"
  decide +kernel

/-- The text is read as a request that passes its check and the test. -/
def isRequest (test : RouteRequest → Bool) (cs : Text) : Bool :=
  match Json.Reader.document maxDepth cs with
  | .ok j =>
    match RouteRequest.check j with
    | .good request => test request
    | .bad _ => false
  | .error _ => false

theorem exists_request (amount : Json) (test : RouteRequest → Bool)
    (h : isRequest test (chainedSwaps amount).write = true) :
    ∃ j request, content (chainedSwapsCall amount) = .ok (.json j) ∧
      RouteRequest.check j = .good request ∧ test request = true := by
  have hobject : ∃ cs, (chainedSwaps amount).write = '\x7b' :: '"' :: cs := ⟨_, rfl⟩
  obtain ⟨cs, hcs⟩ := hobject
  have hbody : (chainedSwapsCall amount).body = String.ofList ('\x7b' :: '"' :: cs) :=
    congrArg String.ofList hcs
  have htype : isJsonType (chainedSwapsCall amount).contentType = true := by
    show isJsonType "application/json" = true
    decide
  rw [hcs] at h
  simp only [isRequest] at h
  split at h
  · next j hread =>
      split at h
      · next request hcheck =>
          exact ⟨j, request, content_of_object hbody htype hread, hcheck, h⟩
      · cases h
  · cases h

theorem ofEnvironment_nil : Config.ofEnvironment [] = .ok .standard := by
  have hdefault : (Config.ofEnvironment []).toOption.any
      (fun config => decide (config = .standard)) = true := by decide
  obtain ⟨config, hok, hsame⟩ := Except.exists_of_any _ hdefault
  rw [hok, of_decide_eq_true hsame]

theorem fits_deadlineAfter_standard :
    Uint256.Fits (Config.standard.deadlineAfter (.finite 1700000000 0)) := by
  constructor <;> decide

theorem answered_iff_not_crash_chainedSwaps :
    ∃ j request, pathOf (chainedSwapsCall (.str "0")).path.toList = "/compile".toList ∧
      (chainedSwapsCall (.str "0")).method.toUpper = "POST" ∧
      content (chainedSwapsCall (.str "0")) = .ok (.json j) ∧
      RouteRequest.check j = .good request ∧ Config.ofEnvironment [] = .ok .standard ∧
      Form.address.holds Config.standard.relayer = true ∧
      Form.address.holds Config.standard.wrappedNative = true ∧
      Uint256.Fits (Config.standard.deadlineAfter (.finite 1700000000 0)) ∧ request.Sized ∧
      ((¬ ∃ e, request.Crash .standard (Config.standard.deadlineAfter (.finite 1700000000 0)) e) ↔
        (∃ compiled, request.compile .standard
            (Config.standard.deadlineAfter (.finite 1700000000 0)) = .ok compiled ∧
          (handle [] (.finite 1700000000 0) (chainedSwapsCall (.str "0"))).2 =
            ⟨200, .json compiled.toJson⟩) ∨
        ∃ cause, request.compile .standard
            (Config.standard.deadlineAfter (.finite 1700000000 0)) = .error (.route cause) ∧
          (handle [] (.finite 1700000000 0) (chainedSwapsCall (.str "0"))).2 =
            .refusal 422 (.str cause.message)) ∧
      ((∃ e, request.Crash .standard (Config.standard.deadlineAfter (.finite 1700000000 0)) e) ↔
        (handle [] (.finite 1700000000 0) (chainedSwapsCall (.str "0"))).2.status = 500) := by
  obtain ⟨j, request, hcontent, hcheck, hsize⟩ :=
    exists_request (.str "0") (fun request => decide request.Sized) (by decide +kernel)
  have hsize : request.Sized := of_decide_eq_true hsize
  have hpath := path_chainedSwapsCall (.str "0")
  have hmethod := method_chainedSwapsCall (.str "0")
  have hrelayer : Form.address.holds Config.standard.relayer = true := by decide
  have hwrapped : Form.address.holds Config.standard.wrappedNative = true := by decide
  exact ⟨j, request, hpath, hmethod, hcontent, hcheck, ofEnvironment_nil, hrelayer, hwrapped,
    fits_deadlineAfter_standard, hsize, answered_iff_not_crash hpath hmethod hcontent hcheck
      ofEnvironment_nil hrelayer hwrapped fits_deadlineAfter_standard hsize⟩

/-- With a truth value in the place of the second amount the request passes its check, and the
service fails. -/
theorem exists_failure_chainedSwaps :
    ∃ j request, content (chainedSwapsCall (.bool true)) = .ok (.json j) ∧
      RouteRequest.check j = .good request ∧ Config.ofEnvironment [] = .ok .standard ∧
      Form.address.holds Config.standard.relayer = true ∧
      Form.address.holds Config.standard.wrappedNative = true ∧
      0 ≤ Config.standard.deadlineSeconds ∧
      Uint256.Fits (Config.standard.deadlineAfter (.finite 1700000000 0)) ∧
      ¬ ((∃ compiled, request.compile .standard
            (Config.standard.deadlineAfter (.finite 1700000000 0)) = .ok compiled) ∨
        ∃ cause, request.compile .standard
            (Config.standard.deadlineAfter (.finite 1700000000 0)) = .error (.route cause)) ∧
      (handle [] (.finite 1700000000 0) (chainedSwapsCall (.bool true))).2.status = 500 := by
  obtain ⟨j, request, hcontent, hcheck, htest⟩ := exists_request (.bool true)
    (fun request => decide request.Sized && request.amounts.contains "True".toList)
    (by decide +kernel)
  rw [Bool.and_eq_true, decide_eq_true_eq, List.contains_iff_mem] at htest
  obtain ⟨hsize, htruth⟩ := htest
  have hpath := path_chainedSwapsCall (.bool true)
  have hmethod := method_chainedSwapsCall (.bool true)
  have hrelayer : Form.address.holds Config.standard.relayer = true := by decide
  have hwrapped : Form.address.holds Config.standard.wrappedNative = true := by decide
  have hcrash : request.Crash .standard (Config.standard.deadlineAfter (.finite 1700000000 0))
      .unreadable := .unreadable (.inl ⟨_, htruth, .inl rfl⟩)
  have herror := hcrash.compile_eq ⟨j, hcheck⟩ hsize hrelayer hwrapped fits_deadlineAfter_standard
  refine ⟨j, request, hcontent, hcheck, ofEnvironment_nil, hrelayer, hwrapped, by decide,
    fits_deadlineAfter_standard, ?_, ?_⟩
  · rintro (⟨compiled, h⟩ | ⟨cause, h⟩)
    · cases herror.symm.trans h
    · cases herror.symm.trans h
  · rw [handle_of_not_isRoute hpath hmethod hcontent hcheck ofEnvironment_nil herror
      hcrash.not_isRoute]
    rfl

end SwapRelay.Service
