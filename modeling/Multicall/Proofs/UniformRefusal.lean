import Multicall.Proofs.EnvelopeChecks
import Multicall.Proofs.Requests
/-!
Requests that are refused all get the same answer. The reason is kept for the log: what is written does
not depend on it, nor on the modules, nor on whether messages are shown for debugging. No module is
touched, so no factory is called and nothing is left to give up.
-/
namespace Multicall.Batch

variable {ω : Type}

def refusalText : String :=
  "\x7b\"error\":true,\"message\":\"Invalid request\",\"version\":100,\"code\":400\x7d"

/-- The answer to a request that is refused: one part, which has no key, and the closing line. -/
def refusal (b : Boundary) : Octets :=
  Octets.ofText ("--" ++ b.token ++ "\r\nContent-Type: application/json\r\n\r\n") ++
    Octets.ofText refusalText ++ Octets.ofText "\r\n" ++
    Octets.ofText ("--" ++ b.token ++ "--\r\n")

/-- The causes of a refusal are not in its part. -/
theorem faultParts_of_rejection (debug : Bool) (r : Rejection) :
    Account.faultParts debug (some (.ofRejection r)) =
      [⟨"application/json", Octets.ofText refusalText⟩] := by
  have body : Encoder.failureBody debug (.ofRejection r) =
      Encoder.failureBody true (.shown "Invalid request" []) := by
    cases debug <;> rfl
  have text : (Encoder.failureBody true (.shown "Invalid request" [])).octets =
      Octets.ofText refusalText := by
    decide +kernel
  rw [Account.faultParts, Option.toList_some, List.map_singleton, body, text]
  rfl

theorem octets_of_refusal (b : Boundary) :
    ResponsePart.octets b ⟨"application/json", Octets.ofText refusalText⟩ ++
      Octets.ofText b.terminator = refusal b := by
  have head : "--" ++ b.token ++ "\r\nContent-Type: " ++ "application/json" ++ "\r\n\r\n" =
      "--" ++ b.token ++ "\r\nContent-Type: application/json\r\n\r\n" := by
    rw [String.append_assoc, String.append_assoc]
    rfl
  rw [ResponsePart.octets, head]
  rfl

/-- A refused request is answered without any module. -/
theorem run_of_refused (setting : Setting ω) (world : ω) {body : Octets} {info : RequestInfo}
    {r : Rejection} (refused : Envelope.parse body info = .error r) (peer : Peer) (boundary : Boundary)
    (takesAll : peer.TakesAll) :
    ∃ after, run setting world body info peer boundary = .done () after ∧
      after.delivered = refusal boundary ∧ after.summary = ⟨0, 0, true⟩ ∧
      after.workshop = .start setting.order world := by
  obtain ⟨after, ran, summed, left, arrived, -⟩ :=
    run_comes setting world body info peer boundary takesAll
  rw [account_of_refused setting world refused] at ran summed left arrived
  refine ⟨after, ran, (arrived rfl).trans ?_, summed, left⟩
  rw [Account.parts_of_refusal, faultParts_of_rejection, List.flatMap_singleton,
    octets_of_refusal]

theorem requests_of_refused (setting : Setting ω) (world : ω) {body : Octets} {info : RequestInfo}
    {r : Rejection} (refused : Envelope.parse body info = .error r) (peer : Peer) (boundary : Boundary)
    (takesAll : peer.TakesAll) : requests setting world body info peer boundary = [] := by
  obtain ⟨after, ran, -, -, left⟩ :=
    run_of_refused setting.watched ⟨world, []⟩ refused peer boundary takesAll
  rw [requests, ran]
  exact congrArg (fun w : Workshop (Watched ω) => w.modules.world.log) left

/-- For every body and every request, whatever is known of it. The request is accepted exactly where it
meets all requirements, with the version and the payload that they speak of; otherwise it is rejected for
the first of them that it does not meet, and the rejection tells which. Every request that is rejected
gets the same answer, over every peer that takes everything, whatever the modules and the settings: the
run ends, its octets depend on the boundary alone, nothing is counted, and nothing is asked of any
module. -/
theorem refusals_look_alike (body : Octets) (info : RequestInfo) :
    (∀ e, Envelope.parse body info = .ok e ↔ Envelope.Accepts body info e) ∧
    (∀ r, Envelope.parse body info = .error r ↔
      ∃ requirement, Envelope.BreaksFirst body info requirement ∧
        Envelope.Tells body info requirement r) ∧
    ((∃ e, Envelope.Accepts body info e) ∨
      ∃ requirement, Envelope.BreaksFirst body info requirement) ∧
    ∀ r, Envelope.parse body info = .error r →
      ∀ (ω : Type) (setting : Setting ω) (world : ω) (peer : Peer) (boundary : Boundary),
        peer.TakesAll →
        requests setting world body info peer boundary = [] ∧
        ∃ after, run setting world body info peer boundary = .done () after ∧
          after.delivered = refusal boundary ∧ after.summary = ⟨0, 0, true⟩ ∧
          after.workshop = .start setting.order world := by
  refine ⟨Envelope.parse_eq_ok_iff body info, Envelope.parse_eq_error_iff body info, ?_, ?_⟩
  · rcases Envelope.accepts_or_refused body info with accepted | ⟨requirement, r, -, breaks, -⟩
    · exact .inl accepted
    · exact .inr ⟨requirement, breaks⟩
  · intro r refused ω setting world peer boundary takesAll
    exact ⟨requests_of_refused setting world refused peer boundary takesAll,
      run_of_refused setting world refused peer boundary takesAll⟩

end Multicall.Batch
