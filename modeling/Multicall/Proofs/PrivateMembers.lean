import Multicall.Proofs.Account
import Multicall.Proofs.LikeRuns
import Multicall.Proofs.PublicView
/-!
What clients see of private members. Values lose them as a whole and sequences element by element, so
the encoder does the same with two payloads that have the same public view. Programs whose operations
differ in private members only are then indistinguishable. The id of an entry is no member of its
payload: whatever an id starts with, it keys the part of its entry.
-/
namespace Multicall

variable {ω υ : Type}

/-- Payloads that differ in private members only, of the value or of any element. -/
abbrev Payload.SamePublic (worlds : ω → υ → Prop) : Payload ω → Payload υ → Prop :=
  Payload.Related Json.SamePublic (Producer.Alike Json.SamePublic worlds)

/-- Programs that differ in private members of payloads only take the same turns. -/
theorem Setting.inStep_of_samePublic {setting : Setting ω} {other : Setting υ} {worlds : ω → υ → Prop}
    {c : Coupling} (inseparable : c.Inseparable) (settings : setting.settings = other.settings)
    (app : setting.app = other.app) (patience : setting.patience = other.patience)
    (registry : setting.registry.AlikeUpTo (Payload.SamePublic worlds) setting.settings.debug worlds
      ⟨setting.settings, setting.app, ⟨true⟩⟩ other.registry) :
    setting.InStep c (Workshop.AlikeUpTo (Payload.SamePublic worlds) setting.settings.debug worlds)
      other where
  settings := settings
  turn id body := by
    apply Session.takeTurn_of_results settings patience
    · rw [← settings, ← app]
      exact Entry.process_alikeUpTo (fun j => .value (.ok (.refl j))) registry id body
    · -- both ways of writing a payload, whole or element by element, go by its public view
      exact fun result fellow related => Session.emit_matches
        (fun j k same => (Json.samePublic_iff j k).mp same)
        (EntryResult.RelatedIn.of_modules related) (.inl inseparable) _ _
  closeAll := Workshop.closeAll_alike

namespace Report

theorem resultPart_mem_partsThen {debug : Bool} {later : List PartCommand} {reports : List Report}
    {r : Report} (among : r ∈ reports) : r.resultPart debug ∈ partsThen debug later reports := by
  induction reports with
  | nil => cases among
  | cons first rest ih =>
    rw [partsThen, List.mem_append, List.mem_cons]
    rcases List.mem_cons.mp among with rfl | behind
    · exact .inr (.inl rfl)
    · exact .inr (.inr (List.mem_append_right _ (ih behind)))

end Report

namespace Batch

theorem reports_ids (setting : Setting ω) (entries : Members) (w : Workshop ω) :
    (reports setting entries w).1.map (·.id) = Assoc.keys entries := by
  induction entries generalizing w with
  | nil => rfl
  | cons entry rest ih =>
    obtain ⟨id, body⟩ := entry
    exact congrArg (id :: ·) (ih _)

/-- The account has a part for every entry that is admitted, keyed by its id. -/
theorem keyed_part_of_admitted (setting : Setting ω) (world : ω) {body : Octets} {info : RequestInfo}
    {envelope : Envelope} (accepted : Envelope.parse body info = .ok envelope) {id : String}
    (admitted : id ∈ Assoc.keys
      (Agenda.start setting.settings.maxEntries envelope.entries).admitted) :
    ∃ result : Json, ⟨"application/json", (Json.object [(id, result)]).octets⟩ ∈
      (account setting world body info).parts setting.settings.debug := by
  rw [account_of_accepted setting world accepted, Account.parts]
  rw [← reports_ids setting _ (.start setting.order world)] at admitted
  obtain ⟨r, among, rfl⟩ := List.mem_map.mp admitted
  refine ⟨r.result.body setting.settings.debug, ?_⟩
  rw [List.append_assoc, List.mem_append]
  exact .inl (Report.resultPart_mem_partsThen among)

/-- For every document: leaving out its private members gives its public view, and nothing is left
out of that a second time. For every two programs that go alike but for private members of the
payloads of their operations, every request and every peer: the peer gets the same calls with the
same octets, and the counts are the same. And for every entry that is admitted, over a peer that
takes everything: the response has a part that is keyed by the id of the entry, private or not. -/
theorem private_members_stay_inside (setting : Setting ω) (other : Setting υ)
    (sameSettings : setting.settings = other.settings) (sameApp : setting.app = other.app)
    (sameOrder : setting.order = other.order) (samePatience : setting.patience = other.patience)
    (worlds : ω → υ → Prop)
    (alike : setting.registry.AlikeUpTo (Payload.SamePublic worlds) setting.settings.debug worlds
      ⟨setting.settings, setting.app, ⟨true⟩⟩ other.registry)
    (world : ω) (twin : υ) (related : worlds world twin) (body : Octets) (info : RequestInfo)
    (peer : Peer) (boundary : Boundary) :
    (∀ j : Json, j.IsPublicView j.withoutPrivate ∧
      j.withoutPrivate.withoutPrivate = j.withoutPrivate) ∧
    (run setting world body info peer boundary).Alike
      (fun s t => s.desk.writer.outlet.transport = t.desk.writer.outlet.transport ∧
        s.summary = t.summary)
      (fun _ _ => True) (Panic.Alike setting.settings.debug)
      (run other twin body info peer boundary) ∧
    ∀ envelope id response, Envelope.parse body info = .ok envelope →
      id ∈ Assoc.keys (Agenda.start setting.settings.maxEntries envelope.entries).admitted →
      peer.TakesAll → run setting world body info peer boundary = .done () response →
      ∃ result : Json, ⟨"application/json", (Json.object [(id, result)]).octets⟩ ∈
          (account setting world body info).parts setting.settings.debug ∧
        response.delivered = ((account setting world body info).parts setting.settings.debug).flatMap
          (ResponsePart.octets boundary) ++ Octets.ofText boundary.terminator := by
  refine ⟨fun j => ⟨j.isPublicView_withoutPrivate, j.withoutPrivate_idem⟩, ?_, ?_⟩
  · have transports : Coupling.unlogged.together ⟨.start peer, false, 0, #[]⟩
        ⟨.start peer, false, 0, #[]⟩ := ⟨_, rfl⟩
    have inStep := Setting.inStep_of_samePublic Coupling.unlogged_inseparable sameSettings sameApp
      samePatience alike
    refine (run_inStep inStep (Workshop.start_alikeUpTo sameOrder related) transports body info
      boundary).weaken ?_ (fun _ _ same => same) fun _ _ same => same
    rintro s t ⟨⟨w, ⟨o, ⟨log, rfl⟩, rfl⟩, desk⟩ | parted, -, summary⟩
    · exact ⟨by rw [desk], summary⟩
    · exact parted.elim
  · intro envelope id response accepted admitted takesAll ended
    obtain ⟨result, among⟩ := keyed_part_of_admitted setting world accepted admitted
    exact ⟨result, among, (delivered_of_ended takesAll ended).1⟩

/-! Cards with a secret number, as a value and as the elements of a sequence. -/

def card (secret : String) : Json := .object
  [("_pin", .string secret), ("name", .string "A"),
   ("spare", .array [.object [("_pin", .string secret)], .string "_"])]

theorem card_samePublic (secret word : String) : (card secret).SamePublic (card word) :=
  (Json.samePublic_iff _ _).mpr rfl

def cardOperation (name : String) (payload : Payload Unit) : String × Operation Unit :=
  (name, ⟨name, [], Operation.noReturn, fun _ => return .ok payload⟩)

def cards (secret : String) : Registry Unit := Registry.empty.register "card" fun _ =>
  return .ok ⟨"card",
    [cardOperation "show" (.json (card secret)),
     cardOperation "list" (.sequence (.ofList [.ok (card secret), .ok (card secret)]))], none⟩

def cardSetting (secret : String) : Setting Unit :=
  ⟨cards secret, ⟨false, none, none, 3⟩, .empty, fun _ _ => 0, 9⟩

theorem cards_alike (secret word : String) (ctx : LoadContext) :
    (cards secret).AlikeUpTo (Payload.SamePublic (· = ·)) false (· = ·) ctx (cards word) := by
  have operation (name : String) {payload other : Payload Unit}
      (same : payload.SamePublic (· = ·) other) :
      (cardOperation name payload).1 = (cardOperation name other).1 ∧
        (cardOperation name payload).2.AlikeUpTo (Payload.SamePublic (· = ·)) false (· = ·)
          (cardOperation name other).2 :=
    ⟨rfl, rfl, rfl, rfl, fun _ => Activity.alike_pure (.ok same)⟩
  have same := card_samePublic secret word
  refine Registry.alikeUpTo_of_factories rfl (.cons ⟨rfl, fun _ => ?_⟩ .nil)
  refine Activity.alike_pure (.ok ⟨rfl, ?_, Activity.alike_pure trivial⟩)
  refine .cons (operation _ (.value (.ok same))) (.cons (operation _ (.sequence ?_)) .nil)
  intro index
  match index with
  | 0 | 1 => exact Activity.alike_pure (.some (.ok same))
  | _ + 2 => exact Activity.alike_pure .none

def cardEntries : Members :=
  [("_x", .object [("ns", .string "card"), ("function", .string "show")]),
   ("y", .object [("ns", .string "card"), ("function", .string "list")])]

def cardRequest : Octets := (Json.object
  [("version", .int 1), ("payload", .object cardEntries)]).octets

theorem cardRequest_accepted :
    Envelope.parse cardRequest ⟨some "application/json", true⟩ = .ok ⟨1, cardEntries⟩ := by
  with_unfolding_all rfl

/-- Whatever the number is, a client gets the same, and the id with the underscore is there. -/
theorem cards_keep_their_number :
    (run (cardSetting "12") () cardRequest ⟨some "application/json", true⟩ .accepting ⟨"b"⟩).Alike
      (fun s t => s.desk.writer.outlet.transport = t.desk.writer.outlet.transport ∧
        s.summary = t.summary)
      (fun _ _ => True) (Panic.Alike false)
      (run (cardSetting "34") () cardRequest ⟨some "application/json", true⟩ .accepting ⟨"b"⟩) ∧
    ∃ response result, run (cardSetting "12") () cardRequest ⟨some "application/json", true⟩
        .accepting ⟨"b"⟩ = .done () response ∧
      ⟨"application/json", (Json.object [("_x", result)]).octets⟩ ∈
        (account (cardSetting "12") () cardRequest ⟨some "application/json", true⟩).parts false := by
  obtain ⟨-, alike, keyed⟩ := private_members_stay_inside (cardSetting "12") (cardSetting "34") rfl rfl
    rfl rfl (· = ·) (cards_alike "12" "34" _) () () rfl cardRequest ⟨some "application/json", true⟩
    .accepting ⟨"b"⟩
  refine ⟨alike, ?_⟩
  have ends : (account (cardSetting "12") () cardRequest
      ⟨some "application/json", true⟩).closing.outcome = .ok () := by
    rw [account_of_accepted (cardSetting "12") () cardRequest_accepted]
    rfl
  obtain ⟨response, ran, -⟩ := run_comes (cardSetting "12") () cardRequest
    ⟨some "application/json", true⟩ .accepting ⟨"b"⟩ Peer.accepting_takes_all
  rw [ends] at ran
  obtain ⟨result, among, -⟩ := keyed _ "_x" response cardRequest_accepted (by decide)
    Peer.accepting_takes_all ran
  exact ⟨response, result, ran, among⟩

end Batch
end Multicall
