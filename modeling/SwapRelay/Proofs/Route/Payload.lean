import SwapRelay.Proofs.Relayer.RoundTrip
import SwapRelay.Proofs.Route.Shares

/-!
# What the payload of a route carries

The payload is one text, and the relayer makes of it whatever it reads there. It reads the calls of
the route: the approval that the user signed, if there is one, and then the calls of each scheduled
action, every byte of them and nothing besides. `payload_carries_calls` puts this together from the
two layers of the text. Hexadecimal text gives its bytes back (`Hex.read_marked`), and so does the
list of calls in a multicall (`multicallParts?_multicall`), however many calls there are and whatever
their sizes. A multicall is therefore known by its bytes.

The offsets and sizes within a multicall are words, so this needs the whole to be smaller than a word
can say.
-/

namespace SwapRelay

open Abi (HasTy Value)

namespace Hex

/-- Bytes are written in small letters. -/
theorem lower_marked (bytes : Bytes) : Text.lower (marked bytes) = marked bytes := by
  have hmarked := isMarked_marked bytes
  have heven : (marked bytes).length % 2 = 0 := by
    rw [marked, List.length_cons, List.length_cons, length_encode]
    omega
  obtain ⟨read, hread, hsmall⟩ := readBytes_of_even hmarked heven
  rw [readBytes, read_marked] at hread
  cases hread
  rw [Text.lower_ascii (ascii_of_isMarked hmarked), ← hsmall]

end Hex

section Multicall

variable {calls : List Bytes} (hbound : (multicall calls).length < Nat.pow 2 256)

include hbound

/-- What follows the selector of a multicall is the list of its calls, one string of bytes each. -/
theorem decodeArguments?_multicall :
    Abi.decodeArguments? [.array .bytes] ((multicall calls).drop 4) =
      some [.array (calls.map .bytes)] := by
  have hform : HasTy (.array .bytes) (.array (calls.map Value.bytes)) := by
    apply HasTy.array (by decide)
    intro v hv
    obtain ⟨call, -, rfl⟩ := List.mem_map.1 hv
    exact .bytes
  have hcheck : (Value.array (calls.map Value.bytes)).check = .ok () := by
    rw [Abi.check_array, Abi.checkAll_map]
    intro call _
    exact Abi.check_bytes call
  have hsize : (Abi.encodeArguments [.array (calls.map .bytes)]).length < Nat.pow 2 256 := by
    rw [multicall, List.length_append] at hbound
    omega
  exact Abi.decodeArguments?_encodeArguments (.cons hform .nil) (Abi.checkAll_cons.2 ⟨hcheck, rfl⟩)
    hsize

/-- The calls of a multicall are read back from it. -/
theorem multicallParts?_multicall : multicallParts? (multicall calls) = some calls := by
  have hselector : (multicall calls).take 4 = multicallSelector := rfl
  simp only [multicallParts?, hselector, ne_eq, not_true_eq_false, if_false,
    decodeArguments?_multicall hbound, Option.bind_eq_bind, Option.bind_some]
  exact List.mapM_map_eq_some (f := Value.bytes) (fun _ => rfl) calls

/-- Only the same calls make the same multicall. -/
theorem multicall_injective {others : List Bytes} (h : multicall calls = multicall others) :
    calls = others := by
  have hcalls := multicallParts?_multicall hbound
  rw [h] at hbound hcalls
  exact Option.some.inj (hcalls.symm.trans (multicallParts?_multicall hbound))

end Multicall

/-- The calls that hand in what the user signed: one for a signature, and none without. -/
def HandIn (authorisation : Option Text) (relayer : Text) (calls : List (Call Bytes)) : Prop :=
  match authorisation with
  | none => calls = []
  | some signed => ∃ account signature, Address.bytes relayer = .ok account ∧
      Hex.readBytes signed = .ok signature ∧ calls = [.setRelayerApproval account true signature]

/-- The text is a payload that is read as just these calls. -/
structure Carries (data : Text) (calls : List Bytes) : Prop where
  written : data = Hex.marked (multicall calls)
  small : Text.lower data = data
  read : Hex.read data = some (multicall calls)
  arguments : (multicall calls).length < Nat.pow 2 256 →
    Abi.decodeArguments? [.array .bytes] ((multicall calls).drop 4) =
      some [.array (calls.map .bytes)]
  parts : (multicall calls).length < Nat.pow 2 256 →
    multicallParts? (multicall calls) = some calls

theorem carries_marked (calls : List Bytes) : Carries (Hex.marked (multicall calls)) calls where
  written := rfl
  small := Hex.lower_marked _
  read := Hex.read_marked _
  arguments := decodeArguments?_multicall
  parts := multicallParts?_multicall

/-- A signature that is there is handed in. An empty text would count as none. -/
theorem Route.handIn_of_approval {r : Route} {config : Config} {first : List (Call Bytes)}
    (hne : r.authorisation ≠ some []) (h : r.approval config = .ok first) :
    HandIn r.authorisation config.relayer first := by
  simp only [approval] at h
  split at h
  · next hnone =>
      cases h
      rw [hnone]
      rfl
  · next hempty => exact absurd hempty hne
  · next signed _ hsigned =>
      rw [hsigned]
      obtain ⟨call, hcall, rfl⟩ := Except.map_eq_ok.1 h
      obtain ⟨hread, -⟩ := Call.prepare_eq_ok hcall
      obtain ⟨account, haccount, hread⟩ := Except.bind_eq_ok.1 hread
      obtain ⟨signature, hsignature, hread⟩ := Except.bind_eq_ok.1 hread
      cases Except.pure_eq_ok.1 hread
      exact ⟨account, signature, haccount, hsignature, rfl⟩

namespace RouteRequest

/-- Whatever a checked request compiles to carries the approval that the user signed and the calls of
the scheduled actions in order, and nothing else. And a multicall is known by its bytes. -/
theorem payload_carries_calls :
    (∀ (request : RouteRequest) (config : Config) (deadline : Int) (compiled : CompiledRoute),
      request.Validated → request.compile config deadline = .ok compiled →
        ∃ route ordered first parts, request.route = .ok route ∧ route.schedule = .ok ordered ∧
          HandIn request.authorisation config.relayer first ∧
          List.Forall₂ (fun a part => a.calls (route.context config deadline) = .ok part)
            ordered parts ∧
          Carries compiled.data ((first ++ parts.flatten).map Call.data)) ∧
      ∀ calls others : List Bytes, (multicall calls).length < Nat.pow 2 256 →
        multicall calls = multicall others → calls = others := by
  constructor
  · intro request config deadline compiled hvalid h
    obtain ⟨route, hroute, h⟩ := Except.bind_eq_ok.1 h
    obtain ⟨calls, hcalls, h⟩ := Except.bind_eq_ok.1 h
    obtain ⟨ordered, first, parts, hordered, hfirst, hparts, rfl⟩ := Route.calls_eq_ok hcalls
    have hsigned : route.authorisation = request.authorisation := by
      obtain ⟨_, _, _, _, -, rfl⟩ := route_eq_ok hroute
      rfl
    have hne : route.authorisation ≠ some [] := by
      intro hempty
      have hform := hvalid.formed.authorisation [] (by rw [← hsigned]; exact hempty)
      cases hform
    refine ⟨route, ordered, first, parts, hroute, hordered, ?_, hparts, ?_⟩
    · rw [← hsigned]
      exact Route.handIn_of_approval hne hfirst
    · rw [CompiledRoute.eq_of_ofTexts h]
      exact carries_marked _
  · intro calls others hbound h
    exact multicall_injective hbound h

/-- A token is turned into shares, which go into another pool. The user has signed the approval, with
a signature that does not fill a word. -/
def signedSharesIntoPool : RouteRequest :=
  { sharesIntoPool true with authorisation := some "0x0102fF".toList }

theorem payload_carries_calls_signed :
    ∃ compiled ordered account parts, signedSharesIntoPool.Validated ∧
      signedSharesIntoPool.compile .standard 1700000000 = .ok compiled ∧ ordered.length = 2 ∧
      List.Forall₂ (fun (_ : Action) part => part ≠ []) ordered parts ∧
      (Hex.read compiled.data).bind multicallParts? = some
        ((Call.setRelayerApproval account true [1, 2, 255] :: parts.flatten).map Call.data) ∧
      multicall [[1], [2, 3]] ≠ multicall [[1, 2], [3]] := by
  have hvalid : signedSharesIntoPool.Validated :=
    validated_of_formed (by decide) (by decide) (by decide) (by decide)
  obtain ⟨compiled, calls, h, hdata, hsize⟩ := exists_compiled_of_any signedSharesIntoPool
    .standard 1700000000 (by decide) (fun calls => (multicall (calls.map Call.data)).length < 20000)
    (by decide +kernel)
  obtain ⟨route, ordered, first, parts, hroute, hordered, hfirst, hparts, hcarries⟩ :=
    payload_carries_calls.1 _ _ _ _ hvalid h
  obtain ⟨account, signature, -, hsignature, rfl⟩ := hfirst
  have hsigned : Hex.readBytes "0x0102fF".toList = .ok [1, 2, 255] := rfl
  cases hsigned.symm.trans hsignature
  have hcount : (signedSharesIntoPool.route.bind Route.schedule).toOption.any (·.length == 2) := by
    decide
  rw [hroute] at hcount
  have hcount : route.schedule.toOption.any (·.length == 2) := hcount
  rw [hordered] at hcount
  have hbound : (multicall ((Call.setRelayerApproval account true [1, 2, 255] ::
      parts.flatten).map Call.data)).length < Nat.pow 2 256 := by
    have hread := hcarries.read
    rw [hdata, Hex.read_marked, List.singleton_append] at hread
    rw [← Option.some.inj hread]
    exact Nat.lt_trans (of_decide_eq_true hsize) (by decide)
  refine ⟨compiled, ordered, account, parts, hvalid, h, beq_iff_eq.1 hcount, ?_, ?_, ?_⟩
  · refine hparts.imp ?_
    intro a part hpart
    obtain ⟨before, main, rfl, -⟩ := Action.made_of_calls hpart
    exact List.append_ne_nil_of_right_ne_nil _ (List.cons_ne_nil _ _)
  · rw [hcarries.read, Option.bind_some]
    exact hcarries.parts hbound
  · intro hsame
    have hlists := payload_carries_calls.2 [[1], [2, 3]] [[1, 2], [3]] (by decide +kernel) hsame
    exact absurd hlists (by decide)

end RouteRequest

end SwapRelay
