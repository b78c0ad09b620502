import Multicall.Proofs.LikeRuns
/-!
What a client learns about the inside of a program. Detail that is not meant for clients comes up in
many places: as the message of a failure, as an error of no known kind, as the payload of a panic, as
the reason why a module does not load or a value has no JSON form, and as the causes of all of these.
Two programs that differ in such detail only are indistinguishable from the far end of the transport.
-/
namespace Multicall

namespace Batch

variable {ω υ : Type}

/-- For every request, every peer and every two programs whose modules go alike: the peer gets the
same calls with the same octets, and the counts are the same. Whether messages are shown decides what
alike means. Where they are not, failures that are not for clients have their kind in common, and
errors of no known kind and panics have nothing in common. Where they are, messages and panics are
the same. In either case causes, contexts, reasons why a module does not load and reasons why a value
or an element has no JSON form may differ. -/
theorem detail_stays_inside (setting : Setting ω) (other : Setting υ)
    (sameSettings : setting.settings = other.settings) (sameApp : setting.app = other.app)
    (sameOrder : setting.order = other.order) (samePatience : setting.patience = other.patience)
    (worlds : ω → υ → Prop)
    (alike : setting.registry.Alike setting.settings.debug worlds
      ⟨setting.settings, setting.app, ⟨true⟩⟩ other.registry)
    (world : ω) (twin : υ) (related : worlds world twin) (body : Octets) (info : RequestInfo)
    (peer : Peer) (boundary : Boundary) :
    (run setting world body info peer boundary).Alike
      (fun s t => s.desk.writer.outlet.transport = t.desk.writer.outlet.transport ∧
        s.summary = t.summary)
      (fun _ _ => True) (Panic.Alike setting.settings.debug)
      (run other twin body info peer boundary) := by
  have transports : Coupling.unlogged.together ⟨.start peer, false, 0, #[]⟩
      ⟨.start peer, false, 0, #[]⟩ := ⟨_, rfl⟩
  have settings : setting.Alike (Workshop.Alike setting.settings.debug worlds) other :=
    .of_registry sameSettings sameApp samePatience alike
  refine (run_alike Coupling.unlogged_inseparable settings (Workshop.start_alike sameOrder related)
    transports body info boundary).weaken ?_ (fun _ _ same => same) fun _ _ same => same
  rintro s t ⟨⟨w, ⟨o, ⟨log, rfl⟩, rfl⟩, desk⟩ | parted, -, summary⟩
  · exact ⟨by rw [desk], summary⟩
  · exact parted.elim

/-! A module that knows a word and gives it away in every way there is. -/

def vaultOperation (name : String) (code : ModuleCode Unit (Except Raised (Payload Unit))) :
    String × Operation Unit :=
  (name, ⟨name, [], Operation.noReturn, fun _ => code⟩)

/-- One element without a JSON form, and then a panic. -/
def vaultSequence (secret : String) : Producer Unit
  | 0 => return some (.error secret)
  | _ => Activity.panic (.text secret)

def vault (secret : String) : Registry Unit := Registry.empty.register "vault" fun _ =>
  return .ok ⟨"vault",
    [vaultOperation "refuse" (return .error (.failure ⟨.forbidden, secret, false, [.note secret]⟩ [])),
     vaultOperation "fail" (return .error (.other secret [secret])),
     vaultOperation "crash" (Activity.panic (.text secret)),
     vaultOperation "garble" (return .ok (.value (.error secret))),
     vaultOperation "list" (return .ok (.sequence (vaultSequence secret)))], none⟩

def vaultSetting (secret : String) : Setting Unit :=
  ⟨vault secret, ⟨false, none, none, 3⟩, .empty, fun _ _ => 0, 9⟩

theorem vault_alike (secret word : String) (ctx : LoadContext) :
    (vault secret).Alike false (· = ·) ctx (vault word) := by
  have operation (name : String) {code other : ModuleCode Unit (Except Raised (Payload Unit))}
      (alike : ModuleCode.Alike false (· = ·)
        (ResultAlike (Raised.Alike false) (Payload.Alike (· = ·))) code other) :
      (vaultOperation name code).1 = (vaultOperation name other).1 ∧
        (vaultOperation name code).2.Alike false (· = ·) (vaultOperation name other).2 :=
    ⟨rfl, rfl, rfl, rfl, fun _ => alike⟩
  refine Registry.alike_of_factories rfl (.cons ⟨rfl, fun _ => ?_⟩ .nil)
  refine Activity.alike_pure (.ok ⟨rfl, ?_, Activity.alike_pure trivial⟩)
  refine .cons (operation _ ?_) (.cons (operation _ ?_) (.cons (operation _ ?_)
    (.cons (operation _ ?_) (.cons (operation _ ?_) .nil))))
  · exact Activity.alike_pure (.error (.failure ⟨rfl, rfl, by simp⟩))
  · exact Activity.alike_pure (.error (.other nofun))
  · exact fun _ _ related => .panicked nofun related
  · exact Activity.alike_pure (.ok (.value (.error trivial)))
  · refine Activity.alike_pure (.ok (.sequence fun index => ?_))
    cases index with
    | zero => exact Activity.alike_pure (.some (.error trivial))
    | succ _ => exact fun _ _ related => .panicked trivial related

def vaultRequest : Octets := (Json.object
  [("version", .int 1), ("payload", .object (["refuse", "fail", "crash", "garble", "list"].map
    fun word => (word, .object [("ns", .string "vault"), ("function", .string word)])))]).octets

/-- Whether the word is blue or red, a client cannot tell. -/
theorem vault_keeps_its_word :
    (run (vaultSetting "blue") () vaultRequest ⟨some "application/json", true⟩ .accepting ⟨"b"⟩).Alike
      (fun s t => s.desk.writer.outlet.transport = t.desk.writer.outlet.transport ∧
        s.summary = t.summary)
      (fun _ _ => True) (Panic.Alike false)
      (run (vaultSetting "red") () vaultRequest ⟨some "application/json", true⟩ .accepting ⟨"b"⟩) :=
  detail_stays_inside (vaultSetting "blue") (vaultSetting "red") rfl rfl rfl rfl (· = ·)
    (vault_alike "blue" "red" _) () () rfl vaultRequest ⟨some "application/json", true⟩ .accepting
    ⟨"b"⟩

end Batch
end Multicall
