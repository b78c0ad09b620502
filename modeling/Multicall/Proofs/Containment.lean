import Multicall.Proofs.Aftermath
import Multicall.Proofs.Framing
import Multicall.Proofs.Isolation
/-!
A panic of the transport inside the turns of a batch. It ends the batch in the turn it strikes: the
entries before it have been answered and counted, the entries behind it play no part at all, and the
run goes on to its end with the part of the fault.
-/
namespace Multicall

open Multicall.Action

/-! A handler that has been loaded is kept, wherever the code of an entry is interrupted. -/

namespace Course

variable {σ τ α β : Type}

theorem mem_states_andThen {f : α → σ → Course σ β} {c : Course σ α} {s : σ}
    (member : s ∈ (c.andThen f).states) : s ∈ c.states ∨ ∃ a, s ∈ (f a c.finalState).states := by
  induction c with
  | ended outcome last =>
    cases outcome with
    | ok a => exact .inr ⟨a, member⟩
    | error p => exact .inl member
  | send c next ih => exact ih member
  | record e next ih => exact ih member
  | suspend shown next ih =>
    rcases List.mem_cons.mp member with rfl | later
    · exact .inl List.mem_cons_self
    · exact (ih later).imp_left (List.mem_cons_of_mem shown)

theorem states_attempt (c : Course σ α) : c.attempt.states = c.states := by
  induction c with
  | ended outcome s => rfl
  | send c next ih => exact ih
  | record e next ih => exact ih
  | suspend s next ih => exact congrArg (s :: ·) ih

theorem states_mapState (f : σ → τ) (c : Course σ α) :
    (c.mapState f).states = c.states.map f := by
  induction c with
  | ended outcome s => rfl
  | send c next ih => exact ih
  | record e next ih => exact ih
  | suspend s next ih => exact congrArg (f s :: ·) ih

end Course

namespace Activity

variable {ω α β : Type} {m : BatchCode ω α}

/-- Whatever state the code shows, the handlers it found are still there, in front of others. -/
def KeepsHandlers (m : BatchCode ω α) : Prop := ∀ w, ∀ v ∈ (m w).states, w.cache <+: v.cache

theorem keepsHandlers_pure (a : α) : KeepsHandlers (pure a : BatchCode ω α) := by
  intro w v member
  exact List.mem_singleton.mp member ▸ List.prefix_rfl

theorem KeepsHandlers.bind {f : α → BatchCode ω β} (first : m.KeepsHandlers)
    (second : ∀ a, (f a).KeepsHandlers) : (m >>= f).KeepsHandlers := by
  intro w v member
  rcases Course.mem_states_andThen member with early | ⟨a, late⟩
  · exact first w v early
  · exact (first w _ (Course.finalState_mem_states _)).trans (second a _ v late)

theorem KeepsHandlers.attempt (keeps : m.KeepsHandlers) : m.attempt.KeepsHandlers := by
  intro w v member
  rw [Activity.attempt, Course.states_attempt] at member
  exact keeps w v member

theorem cache_inModules (code : ModuleCode ω α) (w : Workshop ω) :
    ∀ v ∈ (Workshop.inModules code w).states, v.cache = w.cache := by
  intro v member
  rw [Workshop.inModules, Activity.within, Course.states_mapState] at member
  obtain ⟨m, -, rfl⟩ := List.mem_map.mp member
  rfl

theorem keepsHandlers_inModules (code : ModuleCode ω α) :
    (Workshop.inModules code).KeepsHandlers :=
  fun w v member => (cache_inModules code w v member).symm ▸ List.prefix_rfl

/-- A handler that is loaded stands behind those that were there. -/
theorem keepsHandlers_resolve (registry : Registry ω) (ctx : LoadContext) (name : String) :
    (Workshop.resolve registry ctx name).KeepsHandlers := by
  intro w v member
  cases found : w.cache.get? name with
  | some handler =>
    rw [Workshop.resolve_of_kept found] at member
    exact keepsHandlers_pure (.ok handler : Except LoadError (Handler ω)) w v member
  | none =>
    rw [Workshop.resolve_of_absent found] at member
    have loading := cache_inModules (registry.load ctx name) w
    rcases Course.mem_states_andThen member with early | ⟨loaded, late⟩
    · exact (loading v early).symm ▸ List.prefix_rfl
    · have same := loading _ (Course.finalState_mem_states _)
      cases loaded with
      | error e =>
        rw [List.mem_singleton.mp late]
        exact same ▸ List.prefix_rfl
      | ok handler =>
        rw [List.mem_singleton.mp late]
        show w.cache <+: Assoc.set name handler _
        rw [same, Assoc.set_of_get?_none handler found]
        exact List.prefix_append _ _

theorem keepsHandlers_process (registry : Registry ω) (ctx : LoadContext) (id : String)
    (body : Json) : (Entry.process registry ctx id body).KeepsHandlers := by
  have invoked (handler : Handler ω) (name : String) (supplied : Members) :
      (Entry.invoke handler name supplied).KeepsHandlers := by
    rw [Entry.invoke]
    split
    · exact keepsHandlers_pure _
    · split
      · exact keepsHandlers_pure _
      · refine (keepsHandlers_inModules _).bind fun came => ?_
        split
        · exact keepsHandlers_pure _
        · exact keepsHandlers_pure _
  have attempted : (Entry.attempt registry ctx id body).KeepsHandlers := by
    rw [Entry.attempt]
    split
    · exact keepsHandlers_pure _
    · refine (keepsHandlers_resolve registry ctx _).bind fun resolved => ?_
      split
      · exact keepsHandlers_pure _
      · split
        · exact keepsHandlers_pure _
        · exact keepsHandlers_pure _
        · exact invoked _ _ _
  refine attempted.attempt.bind fun came => ?_
  split
  · exact keepsHandlers_pure _
  · exact keepsHandlers_pure _

end Activity

namespace Batch

variable {ω : Type}

/-- In all states that the turn of an entry shows, the handlers that were there are still there. -/
theorem keepsHandlers_statesOf (setting : Setting ω) (id : String) (body : Json) (w v : Workshop ω)
    (shown : v ∈ statesOf setting.patience (courseOf setting id body w)) : w.cache <+: v.cache := by
  have processed := Activity.keepsHandlers_process setting.registry
    ⟨setting.settings, setting.app, ⟨true⟩⟩ id body w
  rcases List.mem_append.mp shown with during | pulled
  · exact processed v during
  · -- pulling a sequence keeps no handler and gives none up
    obtain ⟨count, -, rfl⟩ := List.mem_map.mp pulled
    exact processed (courseOf setting id body w).finalState (Course.finalState_mem_states _)

end Batch

namespace Sheet

/-- The sheets behind turns, and what the last of these has left in the queue. -/
def standing (debug : Bool) :
    List Report → List Sheet → List PartCommand → List Sheet × List PartCommand
  | [], written, late => (written, late)
  | r :: rest, written, late =>
      standing debug rest (carryOut (late ++ r.commands) written ++
        [.json (Encoder.keyed r.id (r.result.body debug)).octets]) r.behind

variable (debug : Bool) (reports : List Report) (written : List Sheet) (late : List PartCommand)

theorem carryOut_standing :
    carryOut (standing debug reports written late).2 (standing debug reports written late).1 =
      afterReports debug reports (carryOut late written) := by
  induction reports generalizing written late with
  | nil => rfl
  | cons r rest ih => rw [standing, ih, afterReports, carryOut_append]

theorem standing_quiet (quiet : ∀ r ∈ reports, r.behind = []) :
    (standing debug reports written []).2 = [] := by
  induction reports generalizing written with
  | nil => rfl
  | cons r rest ih =>
    obtain ⟨first, others⟩ := List.forall_mem_cons.mp quiet
    rw [standing, first, ih _ others]

end Sheet

namespace Session

variable {ω : Type}

/-- So many turns have been taken, and then a panic strikes what is guarded. -/
inductive Strikes (setting : Setting ω) :
    Agenda → Session ω → (count : Nat) → Panic → (broken : Session ω) → Prop
  | inRest {a s p broken} (turn : a.next = none) (struck : takeRest s = .panicked p broken) :
      Strikes setting a s 0 p broken
  | inFault {a s f after p broken} (turn : a.next = some (.fault f, after))
      (struck : takeFault f s = .panicked p broken) : Strikes setting a s 0 p broken
  | inTurn {a s id body after p broken} (turn : a.next = some (.entry id body, after))
      (struck : takeTurn setting id body s = .panicked p broken) : Strikes setting a s 0 p broken
  | later {a s id body rest middle count p broken} (turn : a.next = some (.entry id body, rest))
      (taken : takeTurn setting id body s = .done () middle)
      (strikes : Strikes setting rest middle count p broken) :
      Strikes setting a s (count + 1) p broken

variable {setting : Setting ω} {a : Agenda} {s broken : Session ω} {count : Nat} {p : Panic}

/-- The turns end with the part of the fault. -/
theorem Strikes.takeTurns_eq (strikes : Strikes setting a s count p broken) :
    takeTurns setting a s = abort setting.settings.debug (.ofPanic p) broken := by
  induction strikes with
  | inRest turn struck | inFault turn struck | inTurn turn struck =>
    rw [Session.takeTurns_eq, turn]
    exact guarded_of_panicked struck
  | later turn taken _ ih =>
    rw [Session.takeTurns_eq, turn]
    exact (guarded_of_done taken).trans ih

/-- With nothing queued no panic can strike where a batch ends or reaches its limit. -/
theorem takeFault_of_drained (f : BatchFault) (drained : s.desk.relay.queue = []) :
    ∃ t, takeFault f s = .done () t := by
  cases f with
  | panicked message => exact ⟨s, drain_of_drained drained⟩
  | tooManyEntries limit total => exact ⟨_, drain_of_drained (s := { s with desk := _ }) drained⟩

variable {way : Way} {b : Boundary} {written : List Sheet} {late : List PartCommand}

/-- A panic has struck behind some turns: in the turn with this report, or, behind the last turn, while
what that one has left in the queue was applied. -/
inductive Fallen (way : Way) (b : Boundary) (debug : Bool) (written : List Sheet)
    (late : List PartCommand) (states : List (Workshop ω)) (counts : Summary) :
    Option Report → Session ω → Prop
  | inTurn {r after} (interrupted : after.Interrupted way b debug written late r states counts) :
      Fallen way b debug written late states counts (some r) after
  | behind {after} (waiting : late ≠ []) (halted : after.Halted way b written late states counts) :
      Fallen way b debug written late states counts none after

theorem Fallen.of_panicked (debug : Bool) {m : Action (Session ω) Unit} {rests : Session ω → Prop}
    (trails : s.Trails way b written late) (struck : m s = .panicked p broken)
    (drains : s.desk.relay.queue = [] → ∃ t, m s = .done () t)
    (goes : m.Goes s (fun _ => rests) (Halted way b written late [s.workshop] s.summary)) :
    broken.Fallen way b debug written late [s.workshop] s.summary none := by
  refine .behind (fun empty => ?_) (goes.of_panicked struck)
  obtain ⟨t, ended⟩ := drains (trails.queued.trans empty)
  exact nomatch struck.symm.trans ended

/-- A panic strikes when all results before it have been written. -/
theorem Strikes.fallen (strikes : Strikes setting a s count p broken) (running : a.halted = false)
    (trails : s.Trails way b written late) :
    ∃ before rest states, a.admitted = before ++ rest ∧ before.length = count ∧
      broken.Fallen way b setting.settings.debug
        (Sheet.standing setting.settings.debug (Batch.reports setting before s.workshop).1
          written late).1
        (Sheet.standing setting.settings.debug (Batch.reports setting before s.workshop).1
          written late).2
        states (tally (Batch.reports setting before s.workshop).1 none s.summary)
        (Batch.reports setting rest (Batch.reports setting before s.workshop).2).1.head? ∧
      (∀ w ∈ states, (Batch.reports setting before s.workshop).2.cache <+: w.cache) ∧
      ((∀ r ∈ (Batch.reports setting a.admitted s.workshop).1, r.result.isFinite = true) →
        broken.exhausted = s.exhausted) := by
  have none_taken (r : Session ω) : tally [] none r.summary = r.summary := by simp [tally]
  induction strikes generalizing written late with
  | @inRest a s p broken turn struck =>
    have spent := Agenda.admitted_of_no_entry running fun _ _ _ => by simp [turn]
    have fallen := Fallen.of_panicked setting.settings.debug trails struck
      (fun drained => ⟨_, drain_of_drained drained⟩) (drain_goes trails.carries)
    have same := atDesk_leaves_exhausted Desk.drain s
    rw [show atDesk Desk.drain s = _ from struck] at same
    refine ⟨[], [], [s.workshop], spent, rfl, ?_, fun w member => ?_, fun _ => same⟩
    · rw [Batch.reports, none_taken]
      exact fallen
    · exact List.mem_singleton.mp member ▸ List.prefix_rfl
  | @inFault a s f after p broken turn struck =>
    have spent := Agenda.admitted_of_no_entry running fun _ _ _ => by simp [turn]
    have fallen := Fallen.of_panicked setting.settings.debug trails struck
      (takeFault_of_drained f) (takeFault_goes f trails.carries)
    have same := takeFault_leaves_exhausted f s
    rw [struck] at same
    refine ⟨[], [], [s.workshop], spent, rfl, ?_, fun w member => ?_, fun _ => same⟩
    · rw [Batch.reports, none_taken]
      exact fallen
    · exact List.mem_singleton.mp member ▸ List.prefix_rfl
  | @inTurn a s id body after p broken turn struck =>
    obtain ⟨admitted, -⟩ := Agenda.admitted_of_next running turn
    have interrupted := (takeTurn_goes setting id body trails rfl rfl).of_panicked struck
    refine ⟨[], (id, body) :: after.admitted, s.workshop :: Batch.statesOf setting.patience
      (Batch.courseOf setting id body s.workshop), admitted, rfl, .inTurn ?_, ?_, fun finite => ?_⟩
    · rw [Batch.reports, none_taken]
      exact interrupted
    · intro w member
      rcases List.mem_cons.mp member with rfl | shown
      · exact List.prefix_rfl
      · exact Batch.keepsHandlers_statesOf setting id body _ _ shown
    · rw [admitted, Batch.reports] at finite
      have same := takeTurn_exhausted setting id body s (finite _ List.mem_cons_self)
      rwa [struck] at same
  | @later a s id body rest middle count p broken turn taken _ ih =>
    obtain ⟨admitted, still⟩ := Agenda.admitted_of_next running turn
    obtain ⟨onward, reached, counted⟩ := (takeTurn_goes setting id body trails rfl rfl).of_done taken
    obtain ⟨before, others, states, split, size, fallen, kept, whole⟩ := ih still onward
    rw [reached] at fallen kept whole
    rw [counted, ← tally_cons] at fallen
    refine ⟨(id, body) :: before, others, states, by rw [admitted, split]; rfl,
      congrArg (· + 1) size, fallen, kept, fun finite => ?_⟩
    rw [admitted, Batch.reports] at finite
    obtain ⟨first, later⟩ := List.forall_mem_cons.mp finite
    have same := takeTurn_exhausted setting id body s first
    rw [taken] at same
    exact (whole later).trans same

/-- Only the entries up to the one that is interrupted play a part. -/
theorem Strikes.elsewhere (strikes : Strikes setting a s count p broken) {other : Agenda}
    (running : a.halted = false) (also : other.halted = false) (inside : count < a.admitted.length)
    (same : other.admitted.take (count + 1) = a.admitted.take (count + 1)) :
    Strikes setting other s count p broken := by
  have first {a : Agenda} {id : String} {body : Json} {rest : Members} {count : Nat}
      (admitted : a.admitted = (id, body) :: rest) {other : Agenda} (also : other.halted = false)
      (same : other.admitted.take (count + 1) = a.admitted.take (count + 1)) :
      ∃ after, other.next = some (.entry id body, after) ∧ after.halted = false ∧
        after.admitted.take count = rest.take count := by
    cases others : other.admitted with
    | nil => simp [others, admitted] at same
    | cons entry left =>
      rw [others, admitted, List.take_succ_cons, List.take_succ_cons, List.cons.injEq] at same
      obtain ⟨rfl, agree⟩ := same
      obtain ⟨after, turn, still, rfl⟩ := Agenda.next_of_admitted also others
      exact ⟨after, turn, still, agree⟩
  induction strikes generalizing other with
  | inRest turn =>
    rw [Agenda.admitted_of_no_entry running (by rw [turn]; exact nofun)] at inside
    exact absurd inside (Nat.lt_irrefl 0)
  | inFault turn =>
    rw [Agenda.admitted_of_no_entry running (by rw [turn]; exact nofun)] at inside
    exact absurd inside (Nat.lt_irrefl 0)
  | inTurn turn struck =>
    obtain ⟨admitted, -⟩ := Agenda.admitted_of_next running turn
    obtain ⟨after, next, -⟩ := first admitted also same
    exact .inTurn next struck
  | later turn taken _ ih =>
    obtain ⟨admitted, still⟩ := Agenda.admitted_of_next running turn
    obtain ⟨after, next, onward, agree⟩ := first admitted also same
    rw [admitted, List.length_cons] at inside
    exact .later next taken (ih still onward (Nat.lt_of_succ_lt_succ inside) agree)

section Alike

variable {υ : Type} {c : Coupling} {workshops : Workshop ω → Workshop υ → Prop} {other : Setting υ}
  {t : Session υ}

/-- Where the code of every entry goes alike, a panic strikes in the same turn. -/
theorem Strikes.alike (strikes : Strikes setting a s count p broken) (inseparable : c.Inseparable)
    (alike : setting.Alike workshops other) (related : Session.Alike c workshops s t) :
    ∃ q fallen, Strikes other a t count q fallen := by
  have panics {m : Action (Session ω) Unit} {n : Action (Session υ) Unit}
      (matched : Matches c workshops setting.settings.debug (fun _ _ => True) m n) {s : Session ω}
      {t : Session υ} (related : Session.Alike c workshops s t) {p : Panic} {broken : Session ω}
      (struck : m s = .panicked p broken) : ∃ q fallen, n t = .panicked q fallen := by
    have met := matched s t related
    rw [struck] at met
    generalize n t = came at met ⊢
    cases met with
    | panicked _ _ => exact ⟨_, _, rfl⟩
  have goesOn {m : Action (Session ω) Unit} {n : Action (Session υ) Unit}
      (matched : Matches c workshops setting.settings.debug (fun _ _ => True) m n) {s : Session ω}
      {t : Session υ} (related : Session.Alike c workshops s t) {middle : Session ω}
      (ran : m s = .done () middle) :
      ∃ twin, n t = .done () twin ∧ Session.Alike c workshops middle twin := by
    have met := matched s t related
    rw [ran] at met
    generalize n t = came at met ⊢
    cases met with
    | done _ still => exact ⟨_, rfl, still⟩
  -- the turns in front end on both sides and keep them alike; in the last one both sides panic
  induction strikes generalizing t with
  | inRest turn struck =>
    obtain ⟨q, fallen, same⟩ := panics (serves_matches Coupling.serves_drain) related struck
    exact ⟨q, fallen, .inRest turn same⟩
  | inFault turn struck =>
    obtain ⟨q, fallen, same⟩ := panics (takeFault_matches _) related struck
    exact ⟨q, fallen, .inFault turn same⟩
  | inTurn turn struck =>
    obtain ⟨q, fallen, same⟩ := panics (takeTurn_matches inseparable alike _ _) related struck
    exact ⟨q, fallen, .inTurn turn same⟩
  | later turn taken _ ih =>
    obtain ⟨twin, went, still⟩ := goesOn (takeTurn_matches inseparable alike _ _) related taken
    obtain ⟨q, fallen, same⟩ := ih still
    exact ⟨q, fallen, .later turn went same⟩

end Alike

end Session

namespace Course

variable {σ α β : Type}

/-- Where the whole ends well, so does the first half of it, and the second goes on from there. -/
theorem andThen_ended {f : α → σ → Course σ β} {c : Course σ α} {b : β}
    (ended : (c.andThen f).outcome = .ok b) :
    ∃ a, (f a c.finalState).outcome = .ok b ∧
      (c.andThen f).finalState = (f a c.finalState).finalState := by
  induction c with
  | ended outcome s =>
    cases outcome with
    | ok a => exact ⟨a, ended, rfl⟩
    | error p => exact nomatch ended
  | send c next ih => exact ih ended
  | record e next ih => exact ih ended
  | suspend s next ih => exact ih ended

end Course

namespace Workshop

variable {ω : Type}

/-- What the modules are left as when handlers are given up one after the other, each of them once. -/
def closedInTurn (handlers : List (Handler ω)) (m : ModuleState ω) : ModuleState ω :=
  handlers.foldl (fun m handler => (handler.close m).finalState) m

theorem closeHandlers_finalState (handlers : List (Handler ω)) (w : Workshop ω)
    (ended : (closeHandlers handlers w).outcome = .ok ()) :
    (closeHandlers handlers w).finalState =
      { w with modules := closedInTurn handlers w.modules } := by
  induction handlers generalizing w with
  | nil => rfl
  | cons handler rest ih =>
    obtain ⟨_, others, reached⟩ := Course.andThen_ended
      (c := inModules handler.close w) (f := fun _ => closeHandlers rest) ended
    refine reached.trans ((ih _ others).trans ?_)
    rw [inModules, Activity.within, Course.finalState_mapState]
    rfl

theorem closeAll_finalState (w : Workshop ω) (ended : (closeAll w).outcome = .ok ()) :
    (closeAll w).finalState = ⟨closedInTurn w.leaving w.modules, [], w.order⟩ :=
  closeHandlers_finalState _ _ ended

end Workshop

namespace Sheet

theorem afterReports_append (debug : Bool) (first second : List Report) (sheets : List Sheet) :
    afterReports debug (first ++ second) sheets =
      afterReports debug second (afterReports debug first sheets) := by
  induction first generalizing sheets with
  | nil => rfl
  | cons r rest ih => exact ih _

end Sheet

namespace Desk

variable {b : Boundary} {d : Desk} {sheets : List Sheet}

/-- What has arrived is a front piece of the parts that are begun, whatever is still to be sent. -/
theorem Shows.arrived_front (shown : d.Shows b sheets) (later : List PartCommand) :
    d.writer.outlet.arrived <+:
      (sheets.map (Sheet.finished later)).flatMap (ResponsePart.octets b) :=
  shown.keeps.arrived_front (shown.fronts later)

/-- The last sheet may belong to a part that is told apart from the others. -/
theorem Shows.arrived_front_last {s : Sheet} (shown : d.Shows b (sheets ++ [s]))
    (later : List PartCommand) {p : ResponsePart} (front : s.Fronts b p) :
    d.writer.outlet.arrived <+:
      (sheets.map (Sheet.finished later) ++ [p]).flatMap (ResponsePart.octets b) := by
  refine shown.keeps.arrived_front (List.rel_append ?_ (.cons front .nil))
  exact List.forall₂_map_right_iff.mpr (List.forall₂_same.mpr fun t member =>
    Sheet.fronts_finished b later t (shown.ownedOpen t (List.mem_append_left _ member)))

end Desk

namespace Session

variable {ω : Type} {way : Way} {b : Boundary} {debug : Bool} {written : List Sheet}
  {late : List PartCommand} {states : List (Workshop ω)} {counts : Summary} {broken : Session ω}

/-- The lost octets come behind those that have arrived. -/
theorem arrived_front_of_shown {lost : Octets} {parts whole : List ResponsePart}
    (front : broken.delivered ++ lost <+: parts.flatMap (ResponsePart.octets b))
    (begins : parts <+: whole) : broken.delivered <+: whole.flatMap (ResponsePart.octets b) := by
  obtain ⟨others, rfl⟩ := begins
  rw [List.flatMap_append]
  exact (List.prefix_append _ lost).trans (front.trans (List.prefix_append _ _))

/-- Had all commands been applied, the text would begin with what had arrived. -/
theorem Halted.delivered_front {commands : List PartCommand}
    (halted : broken.Halted way b written commands states counts) (later : List PartCommand) :
    broken.delivered <+: ((Sheet.carryOut commands written).map (Sheet.finished later)).flatMap
      (ResponsePart.octets b) := by
  obtain ⟨sofar, ⟨rest, rfl⟩, applied, begun, remnant, rfl, left, struck⟩ := halted.sunk
  obtain ⟨lost, shown, -⟩ := struck.shown
  rw [List.append_assoc, List.append_assoc, Sheet.carryOut_append, Sheet.finished_carryOut]
  cases left with
  | nothing =>
    rw [List.append_nil] at shown
    exact arrived_front_of_shown (shown.arrived_front _) (List.prefix_append _ _)
  | opening stream mime =>
    refine arrived_front_of_shown (shown.arrived_front_last _ ?_)
      ((List.prefix_append_right_inj _).mpr ⟨_, rfl⟩)
    exact Sheet.fronts_of_body rfl List.nil_prefix fun shut => by cases shut

theorem Torn.delivered_front {text : Octets} (torn : broken.Torn way b written text late)
    (later : List PartCommand) :
    broken.delivered <+: ((written ++ [Sheet.json text]).map (Sheet.finished later)).flatMap
      (ResponsePart.octets b) := by
  obtain ⟨part, begins, struck⟩ := torn.struck
  obtain ⟨lost, shown, -⟩ := struck.shown
  rw [List.map_append]
  refine arrived_front_of_shown (shown.arrived_front_last later ?_) List.prefix_rfl
  refine Sheet.fronts_of_body begins.mime ?_ fun shut => ?_
  · simpa [Sheet.finished, Sheet.json] using begins.front
  · simpa [Sheet.finished, Sheet.json] using begins.whole shut

/-- What had arrived when the panic struck is a front piece of the parts that all turns come to. -/
theorem Fallen.delivered_front {reports : List Report}
    (fallen : broken.Fallen way b debug written late states counts reports.head?)
    (closing : List PartCommand) :
    broken.delivered <+: ((Sheet.afterReports debug reports
      (Sheet.carryOut late written)).map (Sheet.finished closing)).flatMap
        (ResponsePart.octets b) := by
  cases reports with
  | nil =>
    cases fallen with
    | behind _ halted => exact halted.delivered_front closing
  | cons r others =>
    cases fallen with
    | inTurn interrupted =>
      rw [Sheet.afterReports, Sheet.finished_partsThen, Sheet.finished_carryOut,
        ← Sheet.carryOut_append, List.flatMap_append, List.flatMap_append]
      refine List.IsPrefix.trans ?_ ((List.prefix_append _ _).trans (List.prefix_append _ _))
      cases interrupted with
      | sending halted =>
        rw [List.map_append, List.flatMap_append]
        exact (halted.delivered_front _).trans (List.prefix_append _ _)
      | answering torn => exact torn.delivered_front _

theorem Fallen.struck {under : Option Report}
    (fallen : broken.Fallen way b debug written late states counts under) :
    ∃ begun, broken.desk.Struck way b begun ∧ broken.workshop ∈ states ∧
      broken.summary = counts := by
  have of_halted {commands : List PartCommand}
      (halted : broken.Halted way b written commands states counts) :
      ∃ begun, broken.desk.Struck way b begun ∧ broken.workshop ∈ states ∧
        broken.summary = counts := by
    obtain ⟨_, -, _, _, _, -, -, struck⟩ := halted.sunk
    exact ⟨_, struck, halted.workshop, halted.summary⟩
  cases fallen with
  | behind _ halted => exact of_halted halted
  | inTurn interrupted =>
    cases interrupted with
    | sending halted => exact of_halted halted
    | answering torn workshop summary =>
      obtain ⟨_, -, struck⟩ := torn.struck
      exact ⟨_, struck, workshop, summary⟩

/-- The part of the fault stands as one piece behind what had arrived, and nothing but the parts that
are opened only now come between it and the closing line. -/
theorem windUp_delivers {n : Nat} (setting : Setting ω) (f : BatchFault) (after : Session ω)
    {begun : List Sheet} (struck : broken.desk.Struck (.once n) b begun)
    (ended : (Workshop.closeAll broken.workshop).outcome = .ok ())
    (ran : windUp setting.settings.debug f broken = .done () after) :
    ∃ between behind, after.delivered = broken.delivered ++ between ++
      ResponsePart.octets b
        ⟨"application/json", (Encoder.failureBody setting.settings.debug (.ofFault f)).octets⟩ ++
      behind ++ Octets.ofText b.terminator := by
  obtain ⟨lost, shown, -⟩ := struck.shown
  obtain ⟨more, arrived, text⟩ := windUp_text setting b f broken after struck.struck shown ended ran
  obtain ⟨between, split⟩ : broken.delivered ++ lost <+: _ := shown.arrived_front broken.remaining
  rw [woundUpParts, List.flatMap_append, List.flatMap_append, ← split] at text
  generalize Report.moduleParts [] _ = late at text
  refine ⟨between, late.flatMap (ResponsePart.octets b), ?_⟩
  have rest : more = between ++ (Account.faultParts setting.settings.debug (some (.ofFault f))).flatMap
      (ResponsePart.octets b) ++ late.flatMap (ResponsePart.octets b) ++ Octets.ofText b.terminator := by
    refine List.append_cancel_left (text.trans ?_)
    simp only [List.append_assoc]
  rw [arrived, rest]
  simp [Account.faultParts, jsonMime]

end Session

namespace Agenda

theorem admitted_start (limit : Option Nat) (entries : Members) :
    (start limit entries).admitted <+: entries := by
  cases limit with
  | none => exact List.prefix_rfl
  | some limit => exact List.take_prefix _ _

theorem take_admitted_start (limit : Option Nat) (entries : Members) (count : Nat) :
    (start limit entries).admitted.take count = (start limit (entries.take count)).admitted := by
  cases limit with
  | none => rfl
  | some limit => simp [admitted, start, List.take_take, Nat.min_comm]

end Agenda

namespace Batch

variable {ω : Type}

theorem run_of_strikes {setting : Setting ω} {world : ω} {body : Octets} {info : RequestInfo}
    {peer : Peer} {boundary : Boundary} {envelope : Envelope}
    (accepted : Envelope.parse body info = .ok envelope) {count : Nat} {p : Panic}
    {broken : Session ω}
    (strikes : Session.Strikes setting (.start setting.settings.maxEntries envelope.entries)
      (.start setting world peer boundary) count p broken) :
    run setting world body info peer boundary =
      Session.windUp setting.settings.debug (.ofPanic p) broken := by
  rw [run_of_accepted setting world peer boundary accepted, runEntries, bind_apply,
    strikes.takeTurns_eq]
  rfl

/-- The panic strikes behind turns that are in the account, and the handlers that were loaded in them
are there in all states that are shown from then on. -/
theorem fallen_of_strikes {setting : Setting ω} {world : ω} {body : Octets} {info : RequestInfo}
    {peer : Peer} {boundary : Boundary} {n : Nat} {envelope : Envelope}
    (accepted : Envelope.parse body info = .ok envelope) (once : peer.PanicsOnce n)
    {count : Nat} {p : Panic} {broken : Session ω}
    (strikes : Session.Strikes setting (.start setting.settings.maxEntries envelope.entries)
      (.start setting world peer boundary) count p broken) :
    ∃ before later states,
      (account setting world body info).reports = before ++ later ∧ before.length = count ∧
      broken.Fallen (.once n) boundary setting.settings.debug
        (Sheet.standing setting.settings.debug before [] []).1
        (Sheet.standing setting.settings.debug before [] []).2 states
        (Session.tally before none .start) later.head? ∧
      (∀ w ∈ states, (reports setting (envelope.entries.take count)
        (.start setting.order world)).2.cache <+: w.cache) ∧
      ((∀ r ∈ (account setting world body info).reports, r.result.isFinite = true) →
        broken.exhausted = false) := by
  have known := account_of_accepted setting world accepted
  rw [known]
  have begun : (Session.start setting world peer boundary).Rests (.once n) boundary [] :=
    Session.start_rests _ setting world peer boundary ⟨⟨rfl, once⟩, once.positive⟩
  obtain ⟨before, rest, states, admitted, size, fallen, kept, whole⟩ :=
    strikes.fallen rfl begun.trails
  have first : before = envelope.entries.take count := by
    have front := (admitted ▸ List.prefix_append before _).trans (Agenda.admitted_start _ _)
    rw [List.prefix_iff_eq_take.mp front, size]
  have reported := congrArg Prod.fst (reports_append setting before rest (.start setting.order world))
  rw [← admitted] at reported
  subst first
  exact ⟨_, _, states, reported, (reports_length setting _ _).trans size, fallen, kept, whole⟩

/-- For every accepted request with finite sequences and every transport whose write call of one number
panics while it takes all others: if the panic strikes inside the turns, after so many of them, the run
still ends. The request counts as aborted, with the counts of the entries that had been answered; what
had arrived is a front piece of what arrives without a panic; behind it stands the part of the fault as
one piece, and at the end the closing line, a flush and the shutdown. The handlers loaded so far are
kept and given up, each of them once, in some order. What comes after the entry that was interrupted
plays no part: any request that starts with the same entries gives the same run. Only what a sequence
has sent can be under way when no entry is; then all of them have been answered. -/
theorem panic_in_a_turn_is_contained (setting : Setting ω) (world : ω) (body : Octets)
    (info : RequestInfo) (peer : Peer) (boundary : Boundary) (n : Nat) (envelope : Envelope)
    (accepted : Envelope.parse body info = .ok envelope) (once : peer.PanicsOnce n)
    (finite : ∀ r ∈ (account setting world body info).reports, r.result.isFinite = true)
    (count : Nat) (p : Panic) (broken : Session ω)
    (strikes : Session.Strikes setting (.start setting.settings.maxEntries envelope.entries)
      (.start setting world peer boundary) count p broken) :
    ∃ after,
      run setting world body info peer boundary =
        .of (Workshop.closeAll broken.workshop).outcome after ∧
      after.exhausted = false ∧
      (count < (account setting world body info).reports.length ∨
        count = (account setting world body info).reports.length ∧
          ∃ r ∈ (account setting world body info).reports, r.behind ≠ []) ∧
      after.summary = { Session.tally ((account setting world body info).reports.take count) none
        .start with aborted := true } ∧
      (∀ sound response, sound.TakesAll →
        run setting world body info sound boundary = .done () response →
          broken.delivered <+: response.delivered) ∧
      ((Workshop.closeAll broken.workshop).outcome = .ok () →
        (∃ between behind, after.delivered = broken.delivered ++ between ++
          ResponsePart.octets boundary ⟨"application/json", (Encoder.failureBody
            setting.settings.debug (.ofFault (.ofPanic p))).octets⟩ ++
          behind ++ Octets.ofText boundary.terminator) ∧
        (∃ earlier, after.desk.writer.outlet.transport.calls.toList =
          earlier ++ [.flushed, .shut]) ∧
        ∃ leaving, leaving.Perm (broken.workshop.cache.map (·.2)) ∧ after.workshop =
          ⟨Workshop.closedInTurn leaving broken.workshop.modules, [], broken.workshop.order⟩) ∧
      (reports setting (envelope.entries.take count) (.start setting.order world)).2.cache <+:
        broken.workshop.cache ∧
      (count < (account setting world body info).reports.length →
        ∀ other also another, Envelope.parse other also = .ok another →
          another.entries.take (count + 1) = envelope.entries.take (count + 1) →
            run setting world other also peer boundary =
              run setting world body info peer boundary ∧
            requests setting world other also peer boundary =
              requests setting world body info peer boundary) := by
  obtain ⟨before, later, states, reported, size, fallen, kept, whole⟩ :=
    fallen_of_strikes accepted once strikes
  obtain ⟨sheets, struck, passed, counted⟩ := fallen.struck
  obtain ⟨after, ran, reached, summed, calls⟩ :=
    Session.windUp_comes setting.settings.debug (.ofPanic p) broken struck.struck
  have same := run_of_strikes accepted strikes
  refine ⟨after, same.trans ran, ?_, ?_, ?_, ?_, fun ended => ⟨?_, calls ended, ?_⟩,
    kept _ passed, fun within => ?_⟩
  · exact (Session.windUp_exhausted ran).trans (whole finite)
  · cases later with
    | cons r others =>
      refine .inl ?_
      rw [reported, ← size]
      simp
    | nil =>
      -- with all entries answered, something that is queued has to come of their sequences
      cases fallen with
      | behind waiting =>
        rw [List.append_nil] at reported
        refine .inr ⟨by rw [reported, size], ?_⟩
        rw [reported]
        by_contra none
        refine waiting (Sheet.standing_quiet _ _ _ fun r member => ?_)
        by_contra sent
        exact none ⟨r, member, sent⟩
  · rw [summed, counted, reported, ← size, List.take_left]
  · intro sound response takesAll ended
    rw [(delivered_of_ended takesAll ended).1, Account.parts, reported, List.flatMap_append,
      List.flatMap_append, List.append_assoc, List.append_assoc]
    have front := fallen.delivered_front (account setting world body info).closing.commands
    rw [Sheet.carryOut_standing, Sheet.carryOut, List.foldl_nil, ← Sheet.afterReports_append,
      Sheet.finished_partsThen, List.map_nil, List.nil_append] at front
    exact front.trans (List.prefix_append _ _)
  · rw [ended] at ran
    exact Session.windUp_delivers setting (.ofPanic p) after struck ended ran
  · exact ⟨_, Workshop.leaving_perm _, reached.trans (Workshop.closeAll_finalState _ ended)⟩
  · intro other also another parsed agree
    have inside :
        count < (Agenda.start setting.settings.maxEntries envelope.entries).admitted.length := by
      rwa [account_of_accepted setting world accepted, reports_length] at within
    have shared :
        (Agenda.start setting.settings.maxEntries another.entries).admitted.take (count + 1) =
        (Agenda.start setting.settings.maxEntries envelope.entries).admitted.take (count + 1) := by
      rw [Agenda.take_admitted_start, agree, ← Agenda.take_admitted_start]
    refine ⟨(run_of_strikes parsed (strikes.elsewhere rfl rfl inside shared)).trans same.symm, ?_⟩
    -- a panic strikes the watched run in the same turn
    have together : Session.Alike .unlogged (Workshop.Alike setting.settings.debug Logged.Beside)
        (.start setting world peer boundary) (.start setting.watched ⟨world, []⟩ peer boundary) :=
      ⟨.inl ⟨_, ⟨_, ⟨_, rfl⟩, rfl⟩, rfl⟩, Workshop.start_alike rfl rfl, rfl⟩
    obtain ⟨q, fallen, watched⟩ :=
      strikes.alike Coupling.unlogged_inseparable (Watched.setting_alike setting) together
    rw [requests, requests, run_of_strikes accepted watched,
      run_of_strikes parsed (watched.elsewhere rfl rfl inside shared)]

/-- The two notes, and chunks so small that each write of a part is sent at once. -/
def hastyNotes : Setting StreamId := { noteSetting with settings := ⟨false, none, none, 2⟩ }

/-- The second note is written into the part that the first one left open, and there the panic
strikes. -/
theorem note_is_broken_off :
    Envelope.parse noteRequest ⟨some "application/json", true⟩ = .ok ⟨1, noteEntries⟩ ∧
    ∃ p broken, Session.Strikes hastyNotes (.start none noteEntries)
      (.start hastyNotes 0 (.tripping 2) ⟨"b"⟩) 1 p broken ∧
    ∃ after, run hastyNotes 0 noteRequest ⟨some "application/json", true⟩ (.tripping 2) ⟨"b"⟩ =
      .done () after ∧ after.summary = ⟨1, 0, true⟩ := by
  -- the first turn goes through, and the second panics
  have turns : (match Session.takeTurn hastyNotes "a" noteEntries[0].2
        (.start hastyNotes 0 (.tripping 2) ⟨"b"⟩) with
      | .done _ middle => match Session.takeTurn hastyNotes "b" noteEntries[1].2 middle with
        | .panicked _ broken => (Workshop.closeAll broken.workshop).outcome.toBool
        | .done _ _ => false
      | .panicked _ _ => false) = true := by
    decide +kernel
  have finite : (account hastyNotes 0 noteRequest ⟨some "application/json", true⟩).reports.all
      (·.result.isFinite) = true := by
    rw [account_of_accepted hastyNotes 0 noteRequest_accepted]
    decide +kernel
  generalize first : Session.takeTurn hastyNotes "a" _ _ = came at turns
  cases came with
  | panicked p s => cases turns
  | done a middle =>
    simp only at turns
    generalize second : Session.takeTurn hastyNotes "b" _ middle = fell at turns
    cases fell with
    | done b s => cases turns
    | panicked p broken =>
      have strikes : Session.Strikes hastyNotes (.start none noteEntries)
          (.start hastyNotes 0 (.tripping 2) ⟨"b"⟩) 1 p broken := .later rfl first (.inTurn rfl second)
      obtain ⟨after, ran, -, -, summary, -⟩ := panic_in_a_turn_is_contained hastyNotes 0 noteRequest
        ⟨some "application/json", true⟩ (.tripping 2) ⟨"b"⟩ 2 ⟨1, noteEntries⟩ noteRequest_accepted
        (Peer.tripping_panics_once 2 (by decide)) (List.all_eq_true.mp finite) 1 p broken strikes
      refine ⟨noteRequest_accepted, p, broken, strikes, after, ?_, ?_⟩
      · rw [ran]
        cases ended : (Workshop.closeAll broken.workshop).outcome with
        | ok => rfl
        | error e => simp [ended, Except.toBool] at turns
      · rw [summary, account_of_accepted hastyNotes 0 noteRequest_accepted]
        decide +kernel

end Batch
end Multicall
